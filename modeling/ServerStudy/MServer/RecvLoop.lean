import ServerStudy.MServer.ClientSessionHandler

/-!
# The server's receive loop, step by step (MServer/main.cpp, ClientSession.h)

`OnRecv` with the Chat handler inside, cut at its call of `send`, so that
another process may run before and after it. The socket of `rest` is not used:
the bytes go where `outgoing` is put. `onRecv_steps` puts the pieces together
again.
-/

namespace ServerStudy

open ServerStudy.Core

/-- Where the server stands: before `recv`, before `IsAbleToGetPacket`, or
before `send` in the handler. -/
inductive ServerPoint
  | recv
  | handle
  | send
  deriving DecidableEq, Repr

structure EchoServer where
  point : ServerPoint
  recvBuffer : PacketBuffer
  rest : ClientState
  /-- Ghost: the messages given to `SetPacket`. -/
  built : List Packet
  /-- Ghost: how many chunks and packets were refused. -/
  refused : Nat

namespace EchoServer

/-- A new session of a new process. -/
def new (recvPast sendPast : Mem Byte) (sock : Socket) : EchoServer where
  point := .recv
  recvBuffer := .new recvPast
  rest := ⟨.new sendPast, sock, 0⟩
  built := []
  refused := 0

/-- `recv` has returned a chunk: `OnRecv` up to its loop. -/
def recv (v : EchoServer) (chunk : List Byte) : EchoServer :=
  if chunk.length > maxBufSize then { v with refused := v.refused + 1 }
  else
    match v.recvBuffer.appendBuffer (some (Mem.ofList 0 chunk)) (UInt16.ofNat chunk.length) with
    | (false, rb) => { v with recvBuffer := rb, refused := v.refused + 1 }
    | (true, rb) => { v with point := .handle, recvBuffer := rb }

/-- One pass of the loop, up to `send` in the handler. -/
def handle (codec : ChatCodec) (v : EchoServer) : EchoServer :=
  if v.recvBuffer.isAbleToGetPacket = false then { v with point := .recv }
  else if v.recvBuffer.getPacketNo ≠ chatProtocolNumber then { v with point := .recv }
  else
    match codec.parseFromArray v.recvBuffer.payload with
    | none => { v with point := .recv }
    | some message =>
        match chatReply codec v.rest message with
        | (rest, out) =>
            match rest.sendBuffer.setPacket out with
            -- `SendPacket` fails, which the handler does not look at
            | (false, sb) =>
                { point := .handle
                  recvBuffer := v.recvBuffer.consumePacket
                  rest := { rest with sendBuffer := sb }
                  built := v.built ++ [out]
                  refused := v.refused + 1 }
            | (true, sb) =>
                { point := .send
                  recvBuffer := v.recvBuffer.consumePacket
                  rest := { rest with sendBuffer := sb }
                  built := v.built ++ [out]
                  refused := v.refused }

/-- The bytes passed to `send`. -/
def outgoing (v : EchoServer) : List Byte :=
  v.rest.sendBuffer.getPacketBuffer.slice 0 v.rest.sendBuffer.getPacketSize.toNat

/-- `send` has succeeded: `ConsumePacket`, and back to the loop. -/
def send (v : EchoServer) : EchoServer :=
  { v with
    point := .handle
    rest := { v.rest with sendBuffer := v.rest.sendBuffer.consumePacket } }

/-- `send` has failed: the packet stays queued, and the handler does not look
at what `SendPacket` returns. -/
def sendFailed (v : EchoServer) : EchoServer := { v with point := .handle }

end EchoServer

end ServerStudy
