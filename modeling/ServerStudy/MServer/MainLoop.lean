import ServerStudy.Core.Run
import ServerStudy.MServer.Main

/-!
# The main loop step by step (MServer/main.cpp)

`Main` folds a connection over the results of its `recv` calls. Here the two
nested loops run one call at a time and without end: a peer has sent some
chunks and then ends the connection, and `recv` goes on returning the result
that belongs to the ending as long as it is called.
-/

namespace ServerStudy

open ServerStudy.Core

/-- How a peer ends its connection. -/
inductive Ending
  /-- `recv` returns `SOCKET_ERROR`. -/
  | socketError
  /-- The orderly shutdown: `recv` returns 0. -/
  | shutdown
  deriving DecidableEq, Repr

def Ending.recv : Ending → RecvResult
  | .socketError => .socketError
  | .shutdown => .received []

/-- The other end of a connection. A call of `recv` returns at least one of the
bytes sent, and at most the `MAX_BUF_SIZE + 1` of `buf`. -/
structure Peer where
  /-- What `send` returns, as in `Socket`. -/
  outcome : Nat → Nat → SendResult
  chunks : List (List Byte)
  ending : Ending
  nonempty : ∀ chunk ∈ chunks, chunk ≠ []
  short : ∀ chunk ∈ chunks, chunk.length ≤ maxBufSize + 1

namespace Peer

/-- What the `i`-th call of `recv` returns. -/
def recv (peer : Peer) (i : Nat) : RecvResult :=
  match peer.chunks[i]? with
  | some chunk => .received chunk
  | none => peer.ending.recv

/-- The connection up to the first `recv` without bytes. -/
def connection (peer : Peer) : Connection where
  outcome := peer.outcome
  recvs := peer.chunks.map .received ++ [peer.ending.recv]

end Peer

/-- Where `_tmain` is. -/
inductive MainPoint
  | accept
  /-- In the inner loop, after so many calls of `recv`. -/
  | recv (peer : Peer) (recvs : Nat)
  | close

/-- Ghost: a call of the main loop. A connection has the number of the call of
`accept` that returned it. -/
inductive MainEvent
  | accept (call : Nat) (ok : Bool)
  | recv (connection : Nat) (result : RecvResult)
  | close (connection : Nat)
  deriving DecidableEq, Repr

structure MainLoop where
  point : MainPoint
  upClientSession : ClientSession
  /-- Calls of `accept` so far. -/
  accepts : Nat
  /-- Ghost: the calls so far, oldest first. -/
  events : List MainEvent

namespace MainLoop

/-- `series i` is what the call of `accept` after `i` others returns; `none`
is `INVALID_SOCKET`. -/
def step (mgr : PacketHandlerManager ClientState Text) (series : Nat → Option Peer)
    (v : MainLoop) : MainLoop :=
  match v.point with
  | .accept =>
      match series v.accepts with
      | none =>
          { v with
            accepts := v.accepts + 1
            events := v.events ++ [.accept (v.accepts + 1) false] }
      | some peer =>
          { point := .recv peer 0
            upClientSession := v.upClientSession.initSession peer.connection
            accepts := v.accepts + 1
            events := v.events ++ [.accept (v.accepts + 1) true] }
  | .recv peer recvs =>
      match peer.recv recvs with
      | .socketError =>
          { v with
            point := .close
            events := v.events ++ [.recv v.accepts .socketError] }
      | .received bytes =>
          -- also when there are none
          { v with
            point := .recv peer (recvs + 1)
            upClientSession :=
              v.upClientSession.onRecv mgr (some (Mem.ofList 0 bytes)) bytes.length
            events := v.events ++ [.recv v.accepts (.received bytes)] }
  | .close =>
      { v with
        point := .accept
        upClientSession := v.upClientSession.closeSession
        events := v.events ++ [.close v.accepts] }

/-- The main loop from its first call of `accept` on. -/
def system (mgr : PacketHandlerManager ClientState Text) (series : Nat → Option Peer)
    (upClientSession : ClientSession) : TSys MainLoop where
  init v := v = ⟨.accept, upClientSession, 0, []⟩
  step v v' := v' = v.step mgr series

end MainLoop

end ServerStudy
