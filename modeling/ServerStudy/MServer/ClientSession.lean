import ServerStudy.MServer.PacketHandlerManager

/-!
# Sessions (MServer/ClientSession.h)

`OnRecv` appends a chunk to the receive buffer and dispatches while a whole
packet is there. `SendPacket` queues a packet in the send buffer and sends
the packet at the head of it.

The loop of `OnRecv` has no bound. `drain` takes one as fuel; `onRecv` gives
it one more than there are unread bytes, which `drain_fuel` and `loop_eq` show
to be enough for the fuel never to show.
-/

namespace ServerStudy

open ServerStudy.Core

variable {σ Msg : Type}

namespace SessionBase

/-- The session as constructed; `past` is the memory after the array of the
receive buffer. -/
def new (past : Mem Byte) (rest : σ) : SessionBase σ Msg where
  recvBuffer := .new past
  rest := rest
  trace := ⟨[], [], []⟩

/-- The `for (;;)` of `OnRecv`, for at most `fuel` passes. -/
def drain (mgr : PacketHandlerManager σ Msg) : Nat → SessionBase σ Msg → SessionBase σ Msg
  | 0, s => s
  | fuel + 1, s =>
      if s.recvBuffer.isAbleToGetPacket = false then s
      else
        match mgr.handle s with
        -- the session stays open, whatever the reason
        | (false, s) => s
        | (true, s) => drain mgr fuel s

/-- The loop of `OnRecv`. -/
def loop (mgr : PacketHandlerManager σ Msg) (s : SessionBase σ Msg) : SessionBase σ Msg :=
  drain mgr (s.recvBuffer.unread.length + 1) s

/-- `OnRecv(pBuffer, recvSize)`; `pBuffer` is `none` for a null pointer. -/
def onRecv (mgr : PacketHandlerManager σ Msg) (s : SessionBase σ Msg)
    (pBuffer : Option (Mem Byte)) (recvSize : Nat) : SessionBase σ Msg :=
  match pBuffer with
  | none => s
  | some src =>
      if recvSize > maxBufSize then s
      else
        match s.recvBuffer.appendBuffer (some src) (UInt16.ofNat recvSize) with
        | (false, rb) => { s with recvBuffer := rb }
        | (true, rb) =>
            loop mgr
              { s with
                recvBuffer := rb
                trace := { s.trace with accepted := s.trace.accepted ++ src.slice 0 recvSize } }

end SessionBase

/-! ## Sending -/

/-- What `send` returns: `SOCKET_ERROR`, or how many bytes it took. -/
inductive SendResult
  | socketError
  | sent (count : Nat)
  deriving DecidableEq, Repr

/-- One connection's socket. `outcome i n` is what the `i`-th call of `send`,
for `n` bytes, returns; `calls` is the ghost record of the calls. -/
structure Socket where
  outcome : Nat → Nat → SendResult
  calls : List (List Byte × SendResult)

namespace Socket

def send (sock : Socket) (data : List Byte) : SendResult × Socket :=
  let retval := sock.outcome sock.calls.length data.length
  (retval, { sock with calls := sock.calls ++ [(data, retval)] })

/-- The bytes a call put on the wire. -/
def taken : List Byte × SendResult → List Byte
  | (_, .socketError) => []
  | (data, .sent count) => data.take count

/-- The bytes the socket has put on the wire. -/
def transmitted (sock : Socket) : List Byte := sock.calls.flatMap taken

end Socket

/-- What a handler of a `ClientSession` works on: the sending half of the
session and the process-wide reply counter. -/
structure ClientState where
  sendBuffer : PacketBuffer
  clientSock : Socket
  /-- `static uint64 count` of the Chat handler. -/
  count : UInt64

namespace ClientState

/-- `SendPacket` from its call of `send` on. -/
def sendHead (s : ClientState) : Bool × ClientState :=
  match s.clientSock.send
      (s.sendBuffer.getPacketBuffer.slice 0 s.sendBuffer.getPacketSize.toNat) with
  -- the packet stays queued
  | (.socketError, sock) => (false, { s with clientSock := sock })
  | (.sent _, sock) =>
      (true, { s with sendBuffer := s.sendBuffer.consumePacket, clientSock := sock })

/-- `SendPacket`. -/
def sendPacket (s : ClientState) (packet : Packet) : Bool × ClientState :=
  match s.sendBuffer.setPacket packet with
  | (false, sb) => (false, { s with sendBuffer := sb })
  | (true, sb) => sendHead { s with sendBuffer := sb }

end ClientState

end ServerStudy
