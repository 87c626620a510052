import ServerStudy.Core.Pipe
import ServerStudy.Logic.Echo

/-!
# The client and the server when socket calls fail

`Echo.Step` with three more moves: a `send` of either party that returns
`SOCKET_ERROR`, having transmitted nothing, and a `recv` of the client that
returns `SOCKET_ERROR` or 0. A client that fails goes back to `fgets`, so the
next line is sent with older messages still queued or on their way. A server
whose `recv` fails leaves the connection, which ends the run.

Every call of `SetPacket` and `AppendBuffer` takes all it is given or counts
as refused.
-/

namespace ServerStudy

open ServerStudy.Core PacketBuffer

/-- The socket calls that may fail. -/
inductive Fault
  | clientSend
  | clientRecv
  | serverSend
  deriving DecidableEq, Repr

namespace Echo

/-- A step of one party, with the calls in `faults` free to fail. -/
inductive FaultyStep (codec : ChatCodec) (faults : Fault → Prop) : Echo → Echo → Prop
  | moves {s s' : Echo} (hstep : Step codec s s') : FaultyStep codec faults s s'
  | clientSendFails (s : Echo) (hfault : faults .clientSend) (hpoint : s.client.point = .send) :
      FaultyStep codec faults s { s with client := s.client.sendFailed }
  | clientRecvFails (s : Echo) (hfault : faults .clientRecv) (hpoint : s.client.point = .recv) :
      FaultyStep codec faults s { s with client := s.client.recvFailed }
  | serverSendFails (s : Echo) (hfault : faults .serverSend) (hpoint : s.server.point = .send) :
      FaultyStep codec faults s { s with server := s.server.sendFailed }

/-- What may happen when fewer calls may fail may happen when more may. -/
theorem FaultyStep.mono {codec : ChatCodec} {later faults : Fault → Prop} {s s' : Echo}
    (hstep : FaultyStep codec later s s') (hlater : ∀ fault, later fault → faults fault) :
    FaultyStep codec faults s s' := by
  cases hstep with
  | moves hmove => exact .moves hmove
  | clientSendFails hfault hpoint => exact .clientSendFails s (hlater _ hfault) hpoint
  | clientRecvFails hfault hpoint => exact .clientRecvFails s (hlater _ hfault) hpoint
  | serverSendFails hfault hpoint => exact .serverSendFails s (hlater _ hfault) hpoint

/-- A connected client that will be given the lines, and a new server. -/
structure Connected (lines : List Text) (s : Echo) : Prop where
  client : ∃ sendPast recvPast, s.client = .new lines sendPast recvPast
  short : ∀ line ∈ lines, line.length < 65535
  server : ∃ recvPast sendPast sock, s.server = .new recvPast sendPast sock
  upstream : s.upstream = []
  downstream : s.downstream = []

/-- The system for the lines and the calls that may fail. -/
def faultySystem (codec : ChatCodec) (faults : Fault → Prop) (lines : List Text) : TSys Echo where
  init := Connected lines
  step := FaultyStep codec faults

end Echo

/-! ## What a call takes -/

section Calls

variable {codec : ChatCodec}

/-- The frame of a text. -/
def ChatCodec.encode (codec : ChatCodec) (text : Text) : List Byte := (codec.packet text).frame

theorem ChatCodec.length_encode (codec : ChatCodec) (text : Text) :
    (codec.encode text).length = 4 + (codec.packet text).byteSize := Packet.length_frame _

/-- The client queues a message if it has room for its frame. -/
theorem EcoClient.setPacket_cases {c : EcoClient} (hord : c.sendBuffer.Ordered) {text : Text}
    (hpos : 0 < (codec.packet text).byteSize) (hsmall : (codec.packet text).byteSize ≤ 65531) :
    (c.sendBuffer.unread.length + (codec.encode text).length ≤ maxBufSize ∧
        ∃ sb : PacketBuffer, sb.Ordered ∧ sb.unread = c.sendBuffer.unread ++ codec.encode text ∧
          c.setPacket codec text =
            { c with
              point := .send
              sendBuffer := sb
              built := c.built ++ [codec.packet text] }) ∨
      (maxBufSize < c.sendBuffer.unread.length + (codec.encode text).length ∧
        (c.setPacket codec text).refused = c.refused + 1) := by
  rw [codec.length_encode]
  rcases setPacket_small hord hpos hsmall with ⟨hroom, hok, hunread⟩ | ⟨hfull, hno, _⟩
  · refine .inl ⟨hroom, _, setPacket_ordered hord (headerFits_of_small hsmall), hunread, ?_⟩
    rcases hset : c.sendBuffer.setPacket (codec.packet text) with ⟨ok, sb⟩
    rw [hset] at hok
    cases hok
    rw [EcoClient.setPacket, hset]
  · refine .inr ⟨hfull, ?_⟩
    rcases hset : c.sendBuffer.setPacket (codec.packet text) with ⟨ok, sb⟩
    rw [hset] at hno
    cases hno
    rw [EcoClient.setPacket, hset]

/-- The client takes a chunk if it has room for it. -/
theorem EcoClient.recv_cases {c : EcoClient} (hord : c.recvBuffer.Ordered) {chunk : List Byte}
    (hne : chunk ≠ []) (hsize : chunk.length ≤ maxBufSize) :
    (c.recvBuffer.unread.length + chunk.length ≤ maxBufSize ∧
        ∃ rb : PacketBuffer, rb.Ordered ∧ rb.unread = c.recvBuffer.unread ++ chunk ∧
          c.recv chunk =
            { c with
              point := if rb.isAbleToGetPacket = false then .recv else .take
              recvBuffer := rb }) ∨
      (maxBufSize < c.recvBuffer.unread.length + chunk.length ∧
        (c.recv chunk).refused = c.refused + 1) := by
  by_cases hroom : c.recvBuffer.unread.length + chunk.length ≤ maxBufSize
  · obtain ⟨rb, happend, hrb, hunread⟩ := appendBuffer_chunk hord hne hroom
    refine .inl ⟨hroom, rb, hrb, hunread, ?_⟩
    rw [EcoClient.recv, happend]
  · refine .inr ⟨Nat.not_le.mp hroom, ?_⟩
    have hlen : (UInt16.ofNat chunk.length).toNat = chunk.length := toNat_ofNat_of_le hsize
    rcases happend : c.recvBuffer.appendBuffer (some (Mem.ofList 0 chunk))
      (UInt16.ofNat chunk.length) with ⟨ok, rb⟩
    cases ok with
    | false => rw [EcoClient.recv, happend]
    | true =>
        have hfits := (appendBuffer_fst hord).mp (congrArg Prod.fst happend)
        rw [hlen] at hfits
        exact absurd hfits.2 hroom

/-- So does the server. -/
theorem EchoServer.recv_cases {v : EchoServer} (hord : v.recvBuffer.Ordered) {chunk : List Byte}
    (hne : chunk ≠ []) :
    (v.recvBuffer.unread.length + chunk.length ≤ maxBufSize ∧
        ∃ rb : PacketBuffer, rb.Ordered ∧ rb.unread = v.recvBuffer.unread ++ chunk ∧
          v.recv chunk = { v with point := .handle, recvBuffer := rb }) ∨
      (maxBufSize < v.recvBuffer.unread.length + chunk.length ∧
        (v.recv chunk).refused = v.refused + 1) := by
  by_cases hroom : v.recvBuffer.unread.length + chunk.length ≤ maxBufSize
  · obtain ⟨rb, happend, hrb, hunread⟩ := appendBuffer_chunk hord hne hroom
    have hsmall : ¬ chunk.length > maxBufSize := by omega
    refine .inl ⟨hroom, rb, hrb, hunread, ?_⟩
    rw [EchoServer.recv, if_neg hsmall, happend]
  · refine .inr ⟨Nat.not_le.mp hroom, ?_⟩
    by_cases hbig : chunk.length > maxBufSize
    · rw [EchoServer.recv, if_pos hbig]
    · have hlen : (UInt16.ofNat chunk.length).toNat = chunk.length :=
        toNat_ofNat_of_le (Nat.not_lt.mp hbig)
      rcases happend : v.recvBuffer.appendBuffer (some (Mem.ofList 0 chunk))
        (UInt16.ofNat chunk.length) with ⟨ok, rb⟩
      cases ok with
      | false => rw [EchoServer.recv, if_neg hbig, happend]
      | true =>
          have hfits := (appendBuffer_fst hord).mp (congrArg Prod.fst happend)
          rw [hlen] at hfits
          exact absurd hfits.2 hroom

/-- The reply is queued if there is room for its frame. -/
theorem EchoServer.handle_cases {v : EchoServer} (hord : v.rest.sendBuffer.Ordered)
    (hable : v.recvBuffer.isAbleToGetPacket = true)
    (hno : v.recvBuffer.getPacketNo = chatProtocolNumber) {text reply : Text}
    (hparse : codec.parseFromArray v.recvBuffer.payload = some text)
    (hreply : formatReply text (v.rest.count + 1) = reply)
    (hpos : 0 < (codec.packet reply).byteSize) (hsmall : (codec.packet reply).byteSize ≤ 65531) :
    (v.rest.sendBuffer.unread.length + (codec.encode reply).length ≤ maxBufSize ∧
        ∃ sb : PacketBuffer, sb.Ordered ∧
          sb.unread = v.rest.sendBuffer.unread ++ codec.encode reply ∧
          v.handle codec =
            { point := .send
              recvBuffer := v.recvBuffer.consumePacket
              rest := { v.rest with sendBuffer := sb, count := v.rest.count + 1 }
              built := v.built ++ [codec.packet reply]
              refused := v.refused }) ∨
      (maxBufSize < v.rest.sendBuffer.unread.length + (codec.encode reply).length ∧
        (v.handle codec).refused = v.refused + 1) := by
  have hpass := handle_of_parsed hable hno hparse
  have hpacket : (chatReply codec v.rest text).2 = codec.packet reply := by
    rw [← hreply]
    rfl
  rw [hpacket] at hpass
  rw [codec.length_encode]
  rcases setPacket_small hord hpos hsmall with ⟨hroom, hok, hunread⟩ | ⟨hfull, hrefused, _⟩
  · refine .inl ⟨hroom, _, setPacket_ordered hord (headerFits_of_small hsmall), hunread, ?_⟩
    rw [hpass, if_pos hok, if_pos hok]
    rfl
  · refine .inr ⟨hfull, ?_⟩
    rw [hpass, hrefused, if_neg Bool.false_ne_true, if_neg Bool.false_ne_true]

/-- The message is among those built, whether it is queued or not. -/
theorem EchoServer.built_of_parsed {v : EchoServer}
    (hable : v.recvBuffer.isAbleToGetPacket = true)
    (hno : v.recvBuffer.getPacketNo = chatProtocolNumber) {text : Text}
    (hparse : codec.parseFromArray v.recvBuffer.payload = some text) :
    (v.handle codec).built = v.built ++ [codec.packet (formatReply text (v.rest.count + 1))] := by
  rw [handle_of_parsed hable hno hparse]
  rfl

end Calls

end ServerStudy
