import ServerStudy.EcoClient.EcoClient
import ServerStudy.Logic.Chat
import ServerStudy.Logic.Send
import ServerStudy.MServer.RecvLoop

/-!
# The client and the server on two byte channels

`echo` is the transition system of one client and one server: each step is one
party's code between two socket calls, and the channels are reliable byte
streams. `recv` takes any bytes that are there, up to the size of the caller's
array; `send` puts all its bytes on the channel.

A pass of the server's loop ends in one of three ways (`handle_of_not_able`,
`handle_of_rejected`, `handle_of_parsed`).
-/

namespace ServerStudy

open ServerStudy.Core PacketBuffer

/-- The state of both parties and the bytes in flight. -/
structure Echo where
  client : EcoClient
  server : EchoServer
  upstream : List Byte
  downstream : List Byte

namespace Echo

/-- The bytes on their way to the server, oldest first: received, in flight,
not yet sent. -/
def toServer (s : Echo) : List Byte :=
  s.server.recvBuffer.unread ++ s.upstream ++ s.client.sendBuffer.unread

/-- The bytes on their way to the client. -/
def toClient (s : Echo) : List Byte :=
  s.client.recvBuffer.unread ++ s.downstream ++ s.server.rest.sendBuffer.unread

/-- One step of one party. -/
inductive Step (codec : ChatCodec) : Echo → Echo → Prop
  | clientInput (s : Echo) (line : Text) (rest : List Text) (hpoint : s.client.point = .input)
      (hline : s.client.stdin = line :: rest) :
      Step codec s { s with client := s.client.input codec line rest }
  | clientSend (s : Echo) (hpoint : s.client.point = .send) :
      Step codec s
        { s with client := s.client.send, upstream := s.upstream ++ s.client.outgoing }
  | clientRecv (s : Echo) (chunk more : List Byte) (hpoint : s.client.point = .recv)
      (hchannel : s.downstream = chunk ++ more) (hne : chunk ≠ [])
      (hsize : chunk.length ≤ maxBufSize) :
      Step codec s { s with client := s.client.recv chunk, downstream := more }
  | clientTake (s : Echo) (hpoint : s.client.point = .take) :
      Step codec s { s with client := s.client.take codec }
  | serverRecv (s : Echo) (chunk more : List Byte) (hpoint : s.server.point = .recv)
      (hchannel : s.upstream = chunk ++ more) (hne : chunk ≠ [])
      (hsize : chunk.length ≤ maxBufSize + 1) :
      Step codec s { s with server := s.server.recv chunk, upstream := more }
  | serverHandle (s : Echo) (hpoint : s.server.point = .handle) :
      Step codec s { s with server := s.server.handle codec }
  | serverSend (s : Echo) (hpoint : s.server.point = .send) :
      Step codec s
        { s with server := s.server.send, downstream := s.downstream ++ s.server.outgoing }

/-- A connected client whose first line is `m₀`, and a new server. Lines are
as long as `fgets` lets them be. -/
structure Start (m₀ : Text) (s : Echo) : Prop where
  client : ∃ lines sendPast recvPast, s.client = .new (m₀ :: lines) sendPast recvPast
  line : m₀.length < 65535
  server : ∃ recvPast sendPast sock, s.server = .new recvPast sendPast sock
  upstream : s.upstream = []
  downstream : s.downstream = []

/-- The system for a first line. -/
def system (codec : ChatCodec) (m₀ : Text) : TSys Echo where
  init := Start m₀
  step := Step codec

end Echo

/-! ## One pass of the server -/

section Pass

variable {codec : ChatCodec} {v : EchoServer}

/-- A pass without a whole packet. -/
theorem handle_of_not_able (hpart : ¬ packetHeader.Complete v.recvBuffer.unread) :
    v.handle codec = { v with point := .recv } := by
  rw [EchoServer.handle, if_pos ((isAbleToGetPacket_eq_false_iff _).mpr hpart)]

/-- A pass that ends before the handler runs. -/
theorem handle_of_rejected (hable : v.recvBuffer.isAbleToGetPacket = true)
    (hreject : v.recvBuffer.getPacketNo ≠ chatProtocolNumber ∨
      codec.parseFromArray v.recvBuffer.payload = none) :
    v.handle codec = { v with point := .recv } := by
  have hyes : ¬ v.recvBuffer.isAbleToGetPacket = false := by simp [hable]
  rw [EchoServer.handle, if_neg hyes]
  by_cases hno : v.recvBuffer.getPacketNo = chatProtocolNumber
  · rw [if_neg (not_not.mpr hno), hreject.resolve_left (not_not.mpr hno)]
  · rw [if_pos hno]

/-- A pass that runs the handler. -/
theorem handle_of_parsed (hable : v.recvBuffer.isAbleToGetPacket = true)
    (hno : v.recvBuffer.getPacketNo = chatProtocolNumber) {message : Text}
    (hparse : codec.parseFromArray v.recvBuffer.payload = some message) :
    v.handle codec =
      { point :=
          if (v.rest.sendBuffer.setPacket (chatReply codec v.rest message).2).1 = true
          then .send else .handle
        recvBuffer := v.recvBuffer.consumePacket
        rest := { (chatReply codec v.rest message).1 with
          sendBuffer := (v.rest.sendBuffer.setPacket (chatReply codec v.rest message).2).2 }
        built := v.built ++ [(chatReply codec v.rest message).2]
        refused := v.refused +
          if (v.rest.sendBuffer.setPacket (chatReply codec v.rest message).2).1 = true
          then 0 else 1 } := by
  have hyes : ¬ v.recvBuffer.isAbleToGetPacket = false := by simp [hable]
  rw [EchoServer.handle, if_neg hyes, if_neg (not_not.mpr hno), hparse]
  rcases hset : v.rest.sendBuffer.setPacket (chatReply codec v.rest message).2 with ⟨ok, sb⟩
  simp only [chatReply] at hset ⊢
  simp only [hset]
  cases ok with
  | false => rfl
  | true => rfl

end Pass

end ServerStudy
