import ServerStudy.Logic.ServerSteps

/-!
# Which requests are answered

The reply is longer than the request by a comma and the digits of the counter,
and has to fit the same 16-bit size field. With an empty send buffer and a
socket that takes all it is given, the Chat handler transmits the reply
exactly when its text has at most 65527 characters. A longer one is not sent,
and the handler still answers true.
-/

namespace ServerStudy.Theorems.Answered

open ServerStudy.Core PacketBuffer

/-- The handler makes one call of `send`, which takes the frame of the reply,
and leaves nothing in the send buffer. -/
def IsAnswered (codec : ChatCodec) (s : ClientState) (message : Text) : Prop :=
  (chatHandler codec s message).2.clientSock.calls = s.clientSock.calls ++
      [((codec.packet (message ++ 44 :: decimal (s.count + 1).toNat)).frame,
        .sent (codec.packet (message ++ 44 :: decimal (s.count + 1).toNat)).frame.length)] ∧
    (chatHandler codec s message).2.sendBuffer.unread = []

/-- The longest text of a Chat frame. -/
theorem chat_fits_iff (length : Nat) :
    1 + varintSize32 length + length ≤ 65531 ↔ length ≤ 65527 := by
  unfold varintSize32
  split_ifs <;> omega

section Send

variable {s : ClientState} {packet : Packet}

/-- A packet that fits an empty buffer is sent at once. -/
theorem sent_at_once (hord : s.sendBuffer.Ordered) (hempty : s.sendBuffer.unread = [])
    (hall : s.clientSock.TakesAll) (hpos : 0 < packet.byteSize)
    (hsmall : packet.byteSize ≤ 65531) :
    (s.sendPacket packet).2.clientSock.calls =
        s.clientSock.calls ++ [(packet.frame, .sent packet.frame.length)] ∧
      (s.sendPacket packet).2.sendBuffer.unread = [] := by
  obtain ⟨f, hf⟩ : ∃ f : Frame, f.toPacket = packet := ⟨⟨packet, hsmall⟩, rfl⟩
  subst hf
  obtain ⟨sb, hset, hsb, hunread⟩ := setPacket_of_empty hord hempty hpos hsmall
  have hqueued : (s.queue f.toPacket).sendBuffer = sb := by
    rw [ClientState.queue_sendBuffer, hset]
  have hhead : (s.queue f.toPacket).sendBuffer.unread = f.stream ++ [] := by
    rw [hqueued]
    exact head_of_alone hunread
  have hord' : (s.queue f.toPacket).sendBuffer.Ordered := by
    rw [hqueued]
    exact hsb
  have hdata : (s.queue f.toPacket).headBytes = f.stream := ClientState.headBytes_of_head hhead
  have hcalls := (s.queue f.toPacket).sending_calls (.sent f.stream.length)
  rw [hdata, ClientState.queue_clientSock] at hcalls
  have hrest : (s.queue f.toPacket).sendBuffer.consumePacket.unread = [] :=
    unread_consume_of_head hord' hhead
  rw [ClientState.sendPacket_of_queued (congrArg Prod.fst hset),
    (s.queue f.toPacket).sendHead_of_takes_all hall, hdata]
  dsimp only
  exact ⟨hcalls, hrest⟩

/-- No call of `send` is given more than a `uint16` can count. -/
theorem length_sent_lt {data : List Byte} {result : SendResult}
    (hcalls : (s.sendPacket packet).2.clientSock.calls =
      s.clientSock.calls ++ [(data, result)]) : data.length < 65536 := by
  have hhead : (s.queue packet).headBytes.length < 65536 := by
    rw [ClientState.headBytes, Mem.length_slice]
    exact UInt16.toNat_lt _
  have hlast : ∀ result', (s.sendPacket packet).2.clientSock.calls =
      s.clientSock.calls ++ [((s.queue packet).headBytes, result')] → data.length < 65536 := by
    intro result' hcalls'
    have hsame := List.append_cancel_left (hcalls.symm.trans hcalls')
    obtain ⟨hdata, _⟩ := Prod.mk.inj (List.singleton_inj.mp hsame)
    rw [hdata]
    exact hhead
  rcases s.sendPacket_cases packet with ⟨_, heq⟩ | ⟨_, heq⟩
  · -- no call at all
    rw [heq] at hcalls
    have hlen := congrArg List.length hcalls
    rw [List.length_append, List.length_singleton] at hlen
    exact absurd hlen (by simp)
  · rcases (s.queue packet).sendHead_cases with ⟨_, hsend⟩ | ⟨count, _, hsend⟩
    · refine hlast .socketError ?_
      rw [heq, hsend]
      exact (s.queue packet).sending_calls .socketError
    · refine hlast (.sent count) ?_
      rw [heq, hsend]
      exact (s.queue packet).sending_calls (.sent count)

end Send

section Handler

variable {codec : ChatCodec} {s : ClientState} {message : Text}

/-- The handler is `SendPacket` of the reply, with the counter moved on. -/
theorem chatHandler_snd (codec : ChatCodec) (s : ClientState) (message : Text) :
    (chatHandler codec s message).2 =
      (({ s with count := s.count + 1 } : ClientState).sendPacket
        (codec.packet (message ++ 44 :: decimal (s.count + 1).toNat))).2 := rfl

theorem length_reply (message : Text) (count : UInt64) :
    (message ++ 44 :: decimal count.toNat).length =
      message.length + 1 + (decimal count.toNat).length := by
  rw [List.length_append, List.length_cons]
  omega

/-- A reply that is too long for its size field is not what `send` is given. -/
theorem not_isAnswered_of_long (hcodec : codec.Lawful)
    (hlimit : (message ++ 44 :: decimal (s.count + 1).toNat).length < 2 ^ 31)
    (hlong : 65527 < (message ++ 44 :: decimal (s.count + 1).toNat).length) :
    ¬ IsAnswered codec s message := by
  rintro ⟨hcalls, _⟩
  have hsize : (codec.packet (message ++ 44 :: decimal (s.count + 1).toNat)).byteSize = _ :=
    hcodec.byteSize _ hlimit
  have hfits := chat_fits_iff (message ++ 44 :: decimal (s.count + 1).toNat).length
  have hlt := length_sent_lt (chatHandler_snd codec s message ▸ hcalls)
  rw [Packet.length_frame] at hlt
  omega

/-- A request that fits its own size field is answered exactly when the text
of the reply has at most 65527 characters. -/
theorem request_answered_iff (codec : ChatCodec) (hcodec : codec.Lawful) (s : ClientState)
    (message : Text) (hle : s.sendBuffer.readPos ≤ s.sendBuffer.writePos)
    (hempty : s.sendBuffer.unread = []) (hall : s.clientSock.TakesAll)
    (hrequest : 4 + (1 + varintSize32 message.length + message.length) ≤ 65535) :
    IsAnswered codec s message ↔
      message.length + 1 + (decimal (s.count + 1).toNat).length ≤ 65527 := by
  have hdigits := length_decimal_le (s.count + 1).toNat_lt
  have hrequest' := (chat_fits_iff message.length).mp (by omega)
  have hlen := length_reply message (s.count + 1)
  have hlimit : (message ++ 44 :: decimal (s.count + 1).toNat).length < 2 ^ 31 := by
    rw [hlen]
    omega
  rw [← hlen]
  constructor
  · intro h
    by_contra hlong
    exact not_isAnswered_of_long hcodec hlimit (Nat.not_le.mp hlong) h
  · intro hshort
    have hsize : (codec.packet (message ++ 44 :: decimal (s.count + 1).toNat)).byteSize = _ :=
      hcodec.byteSize _ hlimit
    have hfits := (chat_fits_iff _).mpr hshort
    have hpos : 0 < (codec.packet (message ++ 44 :: decimal (s.count + 1).toNat)).byteSize := by
      omega
    have hsmall :
        (codec.packet (message ++ 44 :: decimal (s.count + 1).toNat)).byteSize ≤ 65531 := by
      omega
    have hord : ({ s with count := s.count + 1 } : ClientState).sendBuffer.Ordered :=
      ordered_iff.mp hle
    rw [IsAnswered, chatHandler_snd]
    exact sent_at_once hord hempty hall hpos hsmall

end Handler

/-- The text hi on an open connection. -/
theorem hi_answered : IsAnswered chatWire openClient [104, 105] :=
  (request_answered_iff chatWire chatWire_lawful openClient [104, 105] (by decide) rfl
    (fun _ _ => rfl) (by decide)).mpr (by decide)

/-- The longest request there is, on a new session: its frame takes 65535
bytes, that of its reply 65537. -/
theorem longest_request_not_answered :
    ¬ (4 + (1 + varintSize32 65527 + 65527) ≤ 65535 →
      IsAnswered chatWire openClient (List.replicate 65527 97)) := by
  intro h
  have hlen := length_reply (List.replicate 65527 97) (openClient.count + 1)
  have hdigits : (decimal (openClient.count + 1).toNat).length = 1 := by decide
  rw [List.length_replicate, hdigits] at hlen
  refine not_isAnswered_of_long chatWire_lawful ?_ ?_ (h (by decide))
  · rw [hlen]
    decide
  · rw [hlen]
    decide

end ServerStudy.Theorems.Answered
