import ServerStudy.Logic.Frames
import ServerStudy.Shared.ChatMessage
import ServerStudy.Theorems.BufferQueue

/-!
# What `SetPacket` leaves in the buffer

A message of 1 to 65531 bytes becomes one frame behind the unread bytes if a
queue of 65535 bytes has room for it, wherever the window stands, and reads
back from an empty buffer.

A refusal is another matter. The header is written before the message is
known to fit, so a message of no bytes, or one whose size wraps, leaves four
bytes of header behind (`leavesNoTrace_iff`).
-/

namespace ServerStudy.Theorems.SetPacket

open ServerStudy.Core PacketBuffer
open ServerStudy.Theorems.BufferQueue (content unread_eq_content)

variable {pb : PacketBuffer} {packet : Packet}

/-! ## A message that fits -/

/-- The accessors give the packet. -/
structure ReadsBack (pb : PacketBuffer) (packet : Packet) : Prop where
  size : pb.getPacketSize.toNat = 4 + packet.byteSize
  packetNo : pb.getPacketNo = packet.protocolNumber
  payloadSize : pb.getPayloadBufferSize.toNat = packet.byteSize
  payload : pb.getPayloadBuffer.slice 0 pb.getPayloadBufferSize.toNat = packet.bytes

theorem readsBack_of_alone (h : pb.Ordered) (hsmall : packet.byteSize ≤ 65531)
    (hu : pb.unread = packet.frame) : ReadsBack pb packet := by
  obtain ⟨f, hf⟩ : ∃ f : Frame, f.toPacket = packet := ⟨⟨packet, hsmall⟩, rfl⟩
  subst hf
  have hhead : pb.unread = f.stream ++ [] := head_of_alone hu
  have hpayload : pb.payload = f.bytes := payload_of_head hhead
  refine ⟨?_, getPacketNo_of_head h hhead, ?_, hpayload⟩
  · rw [toNat_getPacketSize, size_of_head hhead]
    exact f.toPacket.length_frame
  · have hlen : pb.payload.length = pb.getPayloadBufferSize.toNat := Mem.length_slice ..
    rw [← hlen, hpayload]
    rfl

/-- `SetPacket` of 1 to 65531 bytes succeeds exactly when the frame fits
behind the unread bytes, and then appends it; every copy stays in the array.
From an empty buffer the packet reads back. -/
theorem setPacket_appends_one_frame (pb : PacketBuffer) (packet : Packet)
    (hle : pb.readPos ≤ pb.writePos) (hpos : 1 ≤ packet.byteSize)
    (hsmall : packet.byteSize ≤ 65531) :
    ((pb.setPacket packet).1 = true ↔ (content pb).length + 4 + packet.byteSize ≤ 65535) ∧
      ((pb.setPacket packet).1 = true →
        content (pb.setPacket packet).2 =
          content pb ++ (le16 (UInt16.ofNat (4 + packet.byteSize)) ++
            le16 packet.protocolNumber ++ packet.bytes)) ∧
      (∃ more, (pb.setPacket packet).2.effects = pb.effects ++ more ∧ ∀ e ∈ more, e.InRange) ∧
      (content pb = [] →
        (pb.setPacket packet).1 = true ∧ ReadsBack (pb.setPacket packet).2 packet) := by
  have hord := ordered_iff.mp hle
  have hfits : pb.HeaderFits packet := headerFits_of_small hsmall
  have hord' : (pb.setPacket packet).2.Ordered := setPacket_ordered hord hfits
  rw [unread_eq_content hord, unread_eq_content hord']
  refine ⟨?_, ?_, setPacket_inRange hord hfits, ?_⟩
  · rcases setPacket_small hord hpos hsmall with ⟨hroom, hok, _⟩ | ⟨hbig, hno, _⟩
    · rw [Nat.add_assoc]
      exact iff_of_true hok hroom
    · rw [Nat.add_assoc]
      refine iff_of_false ?_ (Nat.not_le.mpr hbig)
      rw [hno]
      exact Bool.false_ne_true
  · intro hok
    rcases setPacket_small hord hpos hsmall with ⟨_, _, hunread⟩ | ⟨_, hno, _⟩
    · exact hunread
    · rw [hno] at hok
      cases hok
  · intro hempty
    obtain ⟨sb, hset, hsb, hunread⟩ := setPacket_of_empty hord hempty hpos hsmall
    rw [hset]
    exact ⟨rfl, readsBack_of_alone hsb hsmall hunread⟩

/-- Four unread bytes with room for one more behind them. -/
def movedWindow : PacketBuffer where
  buffer := UInt8.ofNat
  readPos := 65530
  writePos := 65534
  effects := []

/-- One byte of message: the four bytes go to the front, the frame behind them. -/
theorem one_byte_appended :
    content movedWindow = [250, 251, 252, 253] ∧ (movedWindow.setPacket ⟨7, [9]⟩).1 = true ∧
      content (movedWindow.setPacket ⟨7, [9]⟩).2 = [250, 251, 252, 253, 5, 0, 7, 0, 9] := by
  obtain ⟨hfits, hframe, _⟩ :=
    setPacket_appends_one_frame movedWindow ⟨7, [9]⟩ (by decide) (by decide) (by decide)
  have hok : (movedWindow.setPacket ⟨7, [9]⟩).1 = true := hfits.mpr (by decide)
  have hunread : content movedWindow = [250, 251, 252, 253] := by decide
  refine ⟨hunread, hok, ?_⟩
  rw [hframe hok, hunread]
  rfl

/-! ## A message that is refused -/

/-- If `SetPacket` answers false the unread bytes are what they were. -/
def LeavesNoTrace (pb : PacketBuffer) (packet : Packet) : Prop :=
  (pb.setPacket packet).1 = false → content (pb.setPacket packet).2 = content pb

/-- The header is queued, the message refused. -/
theorem header_left (h : pb.Ordered) (hfits : pb.HeaderFits packet)
    (hroom : pb.unread.length + packet.size16.toNat ≤ maxBufSize)
    (hno : ¬ (0 < packet.byteSize ∧ pb.unread.length + (4 + packet.byteSize) ≤ maxBufSize)) :
    (pb.setPacket packet).1 = false ∧
      content (pb.setPacket packet).2 = content pb ++ packet.header := by
  have hset := setPacket_eq h hfits
  rw [setOn, if_neg (Nat.not_lt.mpr hroom), if_neg hno] at hset
  rw [unread_eq_content (setPacket_ordered h hfits), unread_eq_content h]
  exact ⟨congrArg Prod.fst hset, congrArg Prod.snd hset⟩

theorem not_leavesNoTrace_of_header_left (h : pb.Ordered) (hfits : pb.HeaderFits packet)
    (hroom : pb.unread.length + packet.size16.toNat ≤ maxBufSize)
    (hno : ¬ (0 < packet.byteSize ∧ pb.unread.length + (4 + packet.byteSize) ≤ maxBufSize)) :
    ¬ LeavesNoTrace pb packet := by
  obtain ⟨hrefused, hcontent⟩ := header_left h hfits hroom hno
  intro hsame
  have hlen := congrArg List.length (hcontent.symm.trans (hsame hrefused))
  rw [List.length_append, Packet.length_header] at hlen
  omega

/-- Without room for the header the unread bytes are lost, if there are any
and the message is refused. -/
theorem leavesNoTrace_of_not_fits_iff (h : pb.Ordered) (hno : ¬ pb.HeaderFits packet) :
    LeavesNoTrace pb packet ↔ packet.byteSize ≤ 65535 ∨ pb.unread = [] := by
  by_cases hshort : packet.byteSize ≤ maxBufSize
  · have htrue := setPacket_fst_of_not_fits h hno hshort
    refine iff_of_true ?_ (.inl hshort)
    intro hfalse
    rw [htrue] at hfalse
    cases hfalse
  · have hset := setPacket_of_not_fits_of_long h hno (Nat.not_le.mp hshort)
    have hend := writePos_withHeader_of_not_fits hno
    have hroom := pb.roomFor_le packet.size16
    have hwindow := readPos_add_length (makeRoom_ordered h packet.size16)
    have hlen : (content (pb.withHeader packet)).length =
        (pb.withHeader packet).writePos.toNat - (pb.makeRoom packet.size16).readPos.toNat :=
      Mem.length_slice ..
    rw [unread_makeRoom] at hwindow
    unfold maxBufSize at hroom
    rw [LeavesNoTrace, hset, unread_eq_content h]
    constructor
    · intro hsame
      rw [hsame rfl] at hlen
      -- the window would have to end both behind and before byte 4
      exact .inr (List.eq_nil_of_length_eq_zero (by omega))
    · rintro (hle | hempty) _
      · exact absurd hle hshort
      · rw [hempty, List.length_nil] at hwindow
        rw [hempty]
        show content (pb.withHeader packet) = []
        exact List.eq_nil_of_length_eq_zero (by omega)

/-- A refusal leaves no trace exactly when it is that of the computed size; or
there is none, the whole frame being in place; or the header has run past the
array, and then either `SetPacket` answers true or nothing was unread. -/
theorem leavesNoTrace_iff (pb : PacketBuffer) (packet : Packet) (hle : pb.readPos ≤ pb.writePos) :
    LeavesNoTrace pb packet ↔
      65535 < (content pb).length + (4 + packet.byteSize) % 65536 ∨
        (1 ≤ packet.byteSize ∧ (content pb).length + 4 + packet.byteSize ≤ 65535) ∨
        (¬ pb.HeaderFits packet ∧ (packet.byteSize ≤ 65535 ∨ content pb = [])) := by
  have hord := ordered_iff.mp hle
  rw [← Packet.toNat_size16, unread_eq_content hord, Nat.add_assoc]
  by_cases hrefused : 65535 < pb.unread.length + packet.size16.toNat
  · refine iff_of_true ?_ (.inl hrefused)
    rcases setPacket_cases hord packet with ⟨_, heq⟩ | ⟨hroom, _⟩
    · intro _
      rw [heq, unread_eq_content hord, unread_eq_content (makeRoom_ordered hord _)]
      exact pb.unread_makeRoom _
    · exact absurd hrefused (Nat.not_lt.mpr hroom)
  · have hroom : pb.unread.length + packet.size16.toNat ≤ maxBufSize := Nat.not_lt.mp hrefused
    by_cases hfits : pb.HeaderFits packet
    · by_cases hwhole : 0 < packet.byteSize ∧
          pb.unread.length + (4 + packet.byteSize) ≤ maxBufSize
      · refine iff_of_true ?_ (.inr (.inl hwhole))
        have hset := setPacket_eq hord hfits
        rw [setOn, if_neg (Nat.not_lt.mpr hroom), if_pos hwhole] at hset
        intro hfalse
        rw [congrArg Prod.fst hset] at hfalse
        cases hfalse
      · refine iff_of_false (not_leavesNoTrace_of_header_left hord hfits hroom hwhole) ?_
        rintro (hbig | hin | ⟨hno, _⟩)
        · exact hrefused hbig
        · exact hwhole hin
        · exact hno hfits
    · have hlong := (size_of_not_fits hord hfits).1
      rw [leavesNoTrace_of_not_fits_iff hord hfits]
      constructor
      · exact fun h => .inr (.inr ⟨hfits, h⟩)
      · rintro (hbig | ⟨_, hin⟩ | ⟨_, h⟩)
        · exact absurd hbig hrefused
        · omega
        · exact h

/-- All but one byte of the array unread. -/
def nearlyFull : PacketBuffer where
  buffer := UInt8.ofNat
  readPos := 1
  writePos := 65535
  effects := []

/-- One byte of message is refused there, and nothing is left of it. -/
theorem one_byte_leaves_no_trace :
    (nearlyFull.setPacket ⟨7, [9]⟩).1 = false ∧
      content (nearlyFull.setPacket ⟨7, [9]⟩).2 = content nearlyFull := by
  have hlen : (content nearlyFull).length = 65534 := Mem.length_slice ..
  have hrefused : (nearlyFull.setPacket ⟨7, [9]⟩).1 = false := by decide
  refine ⟨hrefused, (leavesNoTrace_iff nearlyFull ⟨7, [9]⟩ (by decide)).mpr (.inl ?_) hrefused⟩
  rw [hlen]
  decide

/-- A Chat message of 65528 characters does not fit a new buffer, and its
header stays. -/
theorem oversize_chat_leaves_header :
    ¬ LeavesNoTrace (PacketBuffer.new fun _ => 0) (chatWire.packet (List.replicate 65528 97)) := by
  have hord : (PacketBuffer.new fun _ => 0).Ordered := new_ordered _
  have hlen : (List.replicate 65528 (97 : Byte)).length = 65528 := List.length_replicate
  obtain ⟨packet, hpacket⟩ : ∃ packet, packet = chatWire.packet (List.replicate 65528 97) :=
    ⟨_, rfl⟩
  have hsize : packet.byteSize = 65532 := by
    have hbytes := chatWire_lawful.byteSize (List.replicate 65528 97) (by rw [hlen]; decide)
    rw [hlen] at hbytes
    rw [hpacket]
    exact hbytes
  -- the size wraps to 0
  have hwrapped : packet.size16.toNat = 0 := by rw [Packet.toNat_size16, hsize]
  rw [← hpacket]
  refine not_leavesNoTrace_of_header_left hord (headerFits_new _ packet) ?_ ?_
  · rw [unread_new, List.length_nil, hwrapped]
    exact Nat.zero_le _
  · rw [unread_new, List.length_nil, hsize]
    decide

end ServerStudy.Theorems.SetPacket
