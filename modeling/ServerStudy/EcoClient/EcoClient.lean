import ServerStudy.Shared.ChatMessage

/-!
# The client (EcoClient/ecoClient.cpp)

`_tmain` cut at its blocking calls. The outer loop reads a line and sends it;
the inner loop receives, takes at most one packet, and sends its message back.
Every failure leads back to the outer loop, by `continue` or `break`.

A typed line is what `fgets` and the cut of its last character leave.
-/

namespace ServerStudy

open ServerStudy.Core

/-- Where the client stands: before `fgets`, before `send`, before `recv`, or
after `IsAbleToGetPacket` has answered true. -/
inductive ClientPoint
  | input
  | send
  | recv
  | take
  deriving DecidableEq, Repr

structure EcoClient where
  point : ClientPoint
  /-- The lines not yet typed. -/
  stdin : List Text
  sendBuffer : PacketBuffer
  recvBuffer : PacketBuffer
  /-- Ghost: the messages given to `SetPacket`. -/
  built : List Packet
  /-- Ghost: the replies parsed. -/
  parsed : List Text
  /-- Ghost: how many calls of `SetPacket` and `AppendBuffer` were refused. -/
  refused : Nat

namespace EcoClient

/-- `_tmain` once it is connected. -/
def new (stdin : List Text) (sendPast recvPast : Mem Byte) : EcoClient where
  point := .input
  stdin := stdin
  sendBuffer := .new sendPast
  recvBuffer := .new recvPast
  built := []
  parsed := []
  refused := 0

/-- `out.set_message(message); sendBuffer.SetPacket(out)`, which stands in both
loops. -/
def setPacket (codec : ChatCodec) (c : EcoClient) (message : Text) : EcoClient :=
  match c.sendBuffer.setPacket (codec.packet message) with
  | (false, sb) =>
      { c with
        point := .input
        sendBuffer := sb
        built := c.built ++ [codec.packet message]
        refused := c.refused + 1 }
  | (true, sb) =>
      { c with
        point := .send
        sendBuffer := sb
        built := c.built ++ [codec.packet message] }

/-- The outer loop up to `send`, with the next line. -/
def input (codec : ChatCodec) (c : EcoClient) (line : Text) (rest : List Text) : EcoClient :=
  setPacket codec { c with stdin := rest } line

/-- The bytes passed to `send`. -/
def outgoing (c : EcoClient) : List Byte :=
  c.sendBuffer.getPacketBuffer.slice 0 c.sendBuffer.getPacketSize.toNat

/-- `send` has succeeded: `ConsumePacket`, and on to `recv`. -/
def send (c : EcoClient) : EcoClient :=
  { c with point := .recv, sendBuffer := c.sendBuffer.consumePacket }

/-- `send` has failed: `continue` or `break`. The packet stays queued. -/
def sendFailed (c : EcoClient) : EcoClient := { c with point := .input }

/-- `recv` has returned `SOCKET_ERROR` or 0: `break`. -/
def recvFailed (c : EcoClient) : EcoClient := { c with point := .input }

/-- `recv` has returned a chunk: `AppendBuffer` and `IsAbleToGetPacket`. -/
def recv (c : EcoClient) (chunk : List Byte) : EcoClient :=
  match c.recvBuffer.appendBuffer (some (Mem.ofList 0 chunk)) (UInt16.ofNat chunk.length) with
  | (false, rb) => { c with point := .input, recvBuffer := rb, refused := c.refused + 1 }
  | (true, rb) =>
      { c with
        point := if rb.isAbleToGetPacket = false then .recv else .take
        recvBuffer := rb }

/-- The rest of the inner loop up to `send`. -/
def take (codec : ChatCodec) (c : EcoClient) : EcoClient :=
  match codec.parseFromArray c.recvBuffer.payload with
  -- the number is read but not looked at, and the packet is not consumed
  | none => { c with point := .input }
  | some message =>
      setPacket codec
        { c with
          recvBuffer := c.recvBuffer.consumePacket
          parsed := c.parsed ++ [message] }
        message

end EcoClient

end ServerStudy
