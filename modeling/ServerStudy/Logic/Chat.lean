import ServerStudy.Logic.Frames
import ServerStudy.MServer.ClientSessionHandler

/-!
# The table of the server and its Chat frames

`clientManager` holds one functor, that of `PC2S_Chat`. Its handler always
answers true, so a stream of Chat frames that parse is handled to the end.
-/

namespace ServerStudy

open ServerStudy.Core PacketBuffer

variable {codec : ChatCodec} {past : Option (PacketFunctor ClientState Text)}

@[simp] theorem clientManager_chat :
    (clientManager codec past).packetFunctors chatProtocolNumber = some (chatFunctor codec) := rfl

/-- No other number below the size of the table has a functor, and none at all
if the word behind the table is null. -/
theorem clientManager_other {no : UInt16} (hno : no ≠ chatProtocolNumber)
    (hin : no.toNat < packetFunctorsSize ∨ past = none) :
    (clientManager codec past).packetFunctors no = none := by
  show (if no = chatProtocolNumber then some (chatFunctor codec)
    else if no.toNat < packetFunctorsSize then none else past) = none
  rw [if_neg hno]
  rcases hin with hlt | rfl
  · rw [if_pos hlt]
  · exact ite_self none

/-- `Handle` rejects the head, or hands its message to the Chat handler. -/
theorem clientManager_cases {pb : PacketBuffer}
    (hin : pb.getPacketNo.toNat < packetFunctorsSize ∨ past = none) :
    ((pb.getPacketNo ≠ chatProtocolNumber ∨ codec.parseFromArray pb.payload = none) ∧
        (clientManager codec past).decode pb = none) ∨
      ∃ message, pb.getPacketNo = chatProtocolNumber ∧
        codec.parseFromArray pb.payload = some message ∧
        (clientManager codec past).decode pb = some (chatFunctor codec, message) := by
  rw [PacketHandlerManager.decode]
  by_cases hno : pb.getPacketNo = chatProtocolNumber
  · rw [hno, clientManager_chat, Option.bind_some]
    show (_ ∧ (codec.parseFromArray pb.payload).map _ = none) ∨
      ∃ message, _ ∧ _ ∧ (codec.parseFromArray pb.payload).map _ = _
    cases hparse : codec.parseFromArray pb.payload with
    | none => exact .inl ⟨.inr rfl, rfl⟩
    | some message => exact .inr ⟨message, rfl, rfl, rfl⟩
  · rw [clientManager_other hno hin]
    exact .inl ⟨.inl hno, rfl⟩

/-- The Chat handler always answers true. -/
theorem chatFunctor_fst (codec : ChatCodec) (s : ClientState) (message : Text) :
    ((chatFunctor codec).handler s message).1 = true := rfl

/-- A frame the Chat handler is run for. -/
def Frame.IsChat (codec : ChatCodec) (f : Frame) : Prop :=
  f.protocolNumber = chatProtocolNumber ∧ ∃ message, codec.parseFromArray f.bytes = some message

theorem Frame.IsChat.decodeFrame {f : Frame} (hf : f.IsChat codec) :
    ∃ message, (clientManager codec past).decodeFrame f = some (chatFunctor codec, message) := by
  obtain ⟨hno, message, hparse⟩ := hf
  refine ⟨message, ?_⟩
  rw [PacketHandlerManager.decodeFrame, hno, clientManager_chat, Option.bind_some]
  show (codec.parseFromArray f.bytes).map _ = _
  rw [hparse]
  rfl

theorem allHandled_of_isChat {frames : List Frame} (hframes : ∀ f ∈ frames, f.IsChat codec)
    (s : ClientState) : AllHandled (clientManager codec past) s frames := by
  intro k f hk
  obtain ⟨message, hdecode⟩ := (hframes f (List.mem_of_getElem? hk)).decodeFrame
  exact ⟨chatFunctor codec, message, hdecode, chatFunctor_fst ..⟩

/-- The frame of a message that is not too long. -/
def ChatCodec.frame (codec : ChatCodec) (message : Text)
    (h : (codec.packet message).byteSize ≤ 65531) : Frame :=
  ⟨codec.packet message, h⟩

theorem ChatCodec.Lawful.isChat (hcodec : codec.Lawful) {message : Text}
    (h : (codec.packet message).byteSize ≤ 65531) (hm : message.length < 2 ^ 31) :
    (codec.frame message h).IsChat codec :=
  ⟨rfl, message, hcodec.parse_serialize message hm⟩

/-- A message whose packet is short enough for a frame is short itself. -/
theorem ChatCodec.Lawful.length_le (hcodec : codec.Lawful) {message : Text}
    (hm : message.length < 2 ^ 31) (h : (codec.packet message).byteSize ≤ 65531) :
    message.length ≤ 65529 := by
  have hsize : (codec.packet message).byteSize = _ := hcodec.byteSize message hm
  have hvarint : 1 ≤ varintSize32 message.length := by
    unfold varintSize32
    split_ifs <;> omega
  omega

theorem ChatCodec.Lawful.byteSize_pos (hcodec : codec.Lawful) {message : Text}
    (hm : message.length < 2 ^ 31) : 0 < (codec.packet message).byteSize := by
  have hsize : (codec.packet message).byteSize = _ := hcodec.byteSize message hm
  omega

theorem length_decimal_pos (n : Nat) : 0 < (decimal n).length := by
  rw [decimal, List.length_map]
  exact Nat.length_toDigits_pos

theorem length_decimal_le {n : Nat} (h : n < 2 ^ 64) : (decimal n).length ≤ 20 := by
  rw [decimal, List.length_map, Nat.length_toDigits_le_iff (by decide) (by decide)]
  exact Nat.lt_trans h (by decide)

/-- The Chat frame of the text hi. -/
def hiFrame : Frame := chatWire.frame [104, 105] (by decide)

example : hiFrame.stream = [8, 0, 0, 0, 10, 2, 104, 105] := by decide

theorem hiFrame_isChat : hiFrame.IsChat chatWire :=
  chatWire_lawful.isChat (by decide) (by decide)

/-- The other half of a session whose sends all succeed. -/
def openClient : ClientState := ⟨.new fun _ => 0, ⟨fun _ size => .sent size, []⟩, 0⟩

end ServerStudy
