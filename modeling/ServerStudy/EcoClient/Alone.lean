import ServerStudy.Core.Run
import ServerStudy.EcoClient.EcoClient

/-!
# The client in front of any server (EcoClient/ecoClient.cpp)

What the client does with the bytes some server sends, however they come in and
whichever of its own calls fail. Before its loops `_tmain` calls `WSAStartup`,
`socket` and `connect`; only a failure of the first makes it return, the others
are logged. `send` succeeds on a connected socket only.
-/

namespace ServerStudy

open ServerStudy.Core

/-- Which calls before the loops succeed. -/
structure StartUp where
  wsaStartup : Bool
  socket : Bool
  connect : Bool
  deriving DecidableEq, Repr

structure Alone where
  client : EcoClient
  connected : Bool
  /-- What the server sends and the client has not received. -/
  incoming : List Byte
  /-- What the client has sent. -/
  sent : List Byte

namespace Alone

/-- `_tmain` up to its loops; `none` is `return -1`. -/
def start (up : StartUp) (lines : List Text) (incoming : List Byte) (sendPast recvPast : Mem Byte) :
    Option Alone :=
  if up.wsaStartup then
    some
      { client := .new lines sendPast recvPast
        connected := up.socket && up.connect
        incoming := incoming
        sent := [] }
  else none

/-- A step between two calls. Any call of `send` and `recv` may fail. -/
inductive Step (codec : ChatCodec) : Alone → Alone → Prop
  | input (s : Alone) (line : Text) (rest : List Text) (hpoint : s.client.point = .input)
      (hline : s.client.stdin = line :: rest) :
      Step codec s { s with client := s.client.input codec line rest }
  | send (s : Alone) (hpoint : s.client.point = .send) (hconnected : s.connected = true) :
      Step codec s { s with client := s.client.send, sent := s.sent ++ s.client.outgoing }
  | sendFails (s : Alone) (hpoint : s.client.point = .send) :
      Step codec s { s with client := s.client.sendFailed }
  | recv (s : Alone) (chunk more : List Byte) (hpoint : s.client.point = .recv)
      (hincoming : s.incoming = chunk ++ more) (hne : chunk ≠ [])
      (hsize : chunk.length ≤ maxBufSize) :
      Step codec s { s with client := s.client.recv chunk, incoming := more }
  | recvFails (s : Alone) (hpoint : s.client.point = .recv) :
      Step codec s { s with client := s.client.recvFailed }
  | take (s : Alone) (hpoint : s.client.point = .take) :
      Step codec s { s with client := s.client.take codec }

/-- The system for a start, the lines typed and all that the server sends. -/
def system (codec : ChatCodec) (up : StartUp) (lines : List Text) (incoming : List Byte) :
    TSys Alone where
  init s := ∃ sendPast recvPast, start up lines incoming sendPast recvPast = some s
  step := Step codec

end Alone

end ServerStudy
