import ServerStudy.Logic.BufferSpec

/-!
# The operations that write

`appendBuffer`, `setPacket`, `clear` and the constructor, each with everything
it can do stated once (`appendBuffer_cases`, `setPacket_cases`) and the facts
about the unread bytes, the order of the positions and the effects derived
from that.

`setPacket` narrows the size of the frame to `uint16` before it tests the
room. For a message of at most 65531 bytes nothing is lost
(`setPacket_small`). For a longer one the test is of a wrapped size, and the
four header bytes are only sure of their place if `HeaderFits`.
-/

namespace ServerStudy

open ServerStudy.Core

/-- The size `setPacket` computes, and writes in front of the packet. -/
def Packet.size16 (packet : Packet) : UInt16 :=
  UInt16.ofNat (PacketBuffer.getHeaderSize.toNat + packet.byteSize)

/-- The header `setPacket` writes. -/
def Packet.header (packet : Packet) : List Byte :=
  le16 packet.size16 ++ le16 packet.protocolNumber

/-- The packet as it stands in a buffer. -/
def Packet.frame (packet : Packet) : List Byte := packet.header ++ packet.bytes

@[simp] theorem Packet.length_header (packet : Packet) : packet.header.length = 4 := rfl

@[simp] theorem Packet.length_frame (packet : Packet) :
    packet.frame.length = 4 + packet.byteSize := by
  simp [Packet.frame, Packet.byteSize]

theorem Packet.toNat_size16 (packet : Packet) :
    packet.size16.toNat = (4 + packet.byteSize) % 65536 := by
  simp [Packet.size16, UInt16.toNat_ofNat']

/-- The frame of a message that is not too long is a frame. -/
theorem Packet.isFrame (packet : Packet) (h : packet.byteSize ≤ 65531) :
    packetHeader.IsFrame packet.frame := by
  have hsize : packetHeader.size packet.frame = 4 + packet.byteSize := by
    rw [packetHeader_size, Packet.frame, Packet.header, List.append_assoc, ofLe16_le16_append,
      Packet.toNat_size16]
    omega
  refine ⟨?_, by rw [hsize, Packet.length_frame]⟩
  intro hnil
  have := packet.length_frame
  rw [hnil, List.length_nil] at this
  omega

namespace PacketBuffer

variable {pb : PacketBuffer}

/-! ## The constructor and `clear` -/

@[simp] theorem unread_new (past : Mem Byte) : (new past).unread = [] :=
  unread_eq_nil rfl

theorem new_ordered (past : Mem Byte) : (new past).Ordered := Nat.le_refl _

theorem new_clean (past : Mem Byte) : (new past).Clean := by
  intro e he
  exact absurd he List.not_mem_nil

@[simp] theorem unread_clear (pb : PacketBuffer) : pb.clear.unread = [] :=
  unread_eq_nil rfl

theorem clear_ordered (pb : PacketBuffer) : pb.clear.Ordered := Nat.le_refl _

theorem clear_inRange (pb : PacketBuffer) : pb.StaysInRange pb.clear := by
  refine ⟨_, rfl, fun e he => ?_⟩
  rw [List.mem_singleton.mp he]
  decide

/-! ## `appendBuffer` -/

section Append

variable {src : Mem Byte} {size : UInt16}

/-- The room behind the compacted window. -/
theorem makeRoom_writePos (h : pb.Ordered)
    (hroom : pb.unread.length + size.toNat ≤ maxBufSize) :
    (pb.makeRoom size).writePos.toNat + size.toNat ≤ maxBufSize := by
  have hfits := (makeRoom_room h size).mpr hroom
  have hle := (pb.makeRoom size).writePos_le
  rw [UInt16.le_iff_toNat_le, toNat_getRemainSize] at hfits
  omega

/-- `appendBuffer` takes all the bytes, or none of them and at most compacts. -/
theorem appendBuffer_cases (h : pb.Ordered) (src : Mem Byte) (size : UInt16) :
    (0 < size.toNat ∧ pb.unread.length + size.toNat ≤ maxBufSize ∧
        pb.appendBuffer (some src) size = (true, (pb.makeRoom size).write src size)) ∨
      (¬ (0 < size.toNat ∧ pb.unread.length + size.toNat ≤ maxBufSize) ∧
        ((pb.appendBuffer (some src) size) = (false, pb) ∨
          (pb.appendBuffer (some src) size) = (false, pb.makeRoom size))) := by
  by_cases hzero : size = 0
  · subst hzero
    exact .inr ⟨fun hpos => absurd hpos.1 (by decide), .inl rfl⟩
  · have hpos : 0 < size.toNat := by
      refine Nat.pos_of_ne_zero fun h0 => hzero ?_
      rw [← UInt16.toNat_inj, h0]
      rfl
    by_cases hroom : pb.unread.length + size.toNat ≤ maxBufSize
    · have hle := (makeRoom_room h size).mpr hroom
      refine .inl ⟨hpos, hroom, ?_⟩
      simp only [appendBuffer, if_neg hzero]
      rw [if_neg (UInt16.not_lt.mpr hle)]
    · have hgt : size > (pb.makeRoom size).getRemainSize :=
        UInt16.not_le.mp fun hle => hroom ((makeRoom_room h size).mp hle)
      refine .inr ⟨fun hboth => hroom hboth.2, .inr ?_⟩
      simp only [appendBuffer, if_neg hzero]
      rw [if_pos hgt]

/-- `appendBuffer` succeeds exactly when there are bytes and a queue of 65535
bytes has room for them. -/
theorem appendBuffer_fst (h : pb.Ordered) :
    (pb.appendBuffer (some src) size).1 = true ↔
      0 < size.toNat ∧ pb.unread.length + size.toNat ≤ maxBufSize := by
  rcases appendBuffer_cases h src size with ⟨hpos, hroom, heq⟩ | ⟨hno, heq | heq⟩
  · simp [heq, hpos, hroom]
  · simp only [heq, Bool.false_eq_true, false_iff]
    exact hno
  · simp only [heq, Bool.false_eq_true, false_iff]
    exact hno

theorem unread_appendBuffer_of_true (h : pb.Ordered)
    (hok : (pb.appendBuffer (some src) size).1 = true) :
    (pb.appendBuffer (some src) size).2.unread = pb.unread ++ src.slice 0 size.toNat := by
  rcases appendBuffer_cases h src size with ⟨_, hroom, heq⟩ | ⟨_, heq | heq⟩
  · rw [heq]
    show ((pb.makeRoom size).write src size).unread = _
    rw [unread_write (makeRoom_ordered h size) (makeRoom_writePos h hroom), unread_makeRoom]
  · rw [heq] at hok; cases hok
  · rw [heq] at hok; cases hok

theorem unread_appendBuffer_of_false (h : pb.Ordered)
    (hno : (pb.appendBuffer (some src) size).1 = false) :
    (pb.appendBuffer (some src) size).2.unread = pb.unread := by
  rcases appendBuffer_cases h src size with ⟨_, _, heq⟩ | ⟨_, heq | heq⟩
  · rw [heq] at hno; cases hno
  · rw [heq]
  · rw [heq]; exact pb.unread_makeRoom size

theorem appendBuffer_ordered (h : pb.Ordered) :
    (pb.appendBuffer (some src) size).2.Ordered := by
  rcases appendBuffer_cases h src size with ⟨_, hroom, heq⟩ | ⟨_, heq | heq⟩
  · rw [heq]
    exact write_ordered (makeRoom_ordered h size) (makeRoom_writePos h hroom)
  · rw [heq]; exact h
  · rw [heq]; exact makeRoom_ordered h size

/-- A chunk that fits is appended. -/
theorem appendBuffer_chunk (h : pb.Ordered) {chunk : List Byte} (hne : chunk ≠ [])
    (hfits : pb.unread.length + chunk.length ≤ maxBufSize) :
    ∃ rb : PacketBuffer, pb.appendBuffer (some (Mem.ofList 0 chunk)) (UInt16.ofNat chunk.length) =
      (true, rb) ∧ rb.Ordered ∧ rb.unread = pb.unread ++ chunk := by
  have hlen : (UInt16.ofNat chunk.length).toNat = chunk.length :=
    toNat_ofNat_of_le (by omega)
  have hok : (pb.appendBuffer (some (Mem.ofList 0 chunk))
      (UInt16.ofNat chunk.length)).1 = true := by
    rw [appendBuffer_fst h, hlen]
    exact ⟨List.length_pos_iff.mpr hne, hfits⟩
  have hunread := unread_appendBuffer_of_true h hok
  rw [hlen, Mem.slice_ofList] at hunread
  exact ⟨_, Prod.ext hok rfl, appendBuffer_ordered h, hunread⟩

theorem appendBuffer_inRange (h : pb.Ordered) :
    pb.StaysInRange (pb.appendBuffer (some src) size).2 := by
  rcases appendBuffer_cases h src size with ⟨_, hroom, heq⟩ | ⟨_, heq | heq⟩
  · rw [heq]
    exact (makeRoom_inRange h size).trans (write_inRange (makeRoom_writePos h hroom))
  · rw [heq]; exact .refl pb
  · rw [heq]; exact makeRoom_inRange h size

end Append

/-! ## `setPacket` -/

section Set

variable {packet : Packet}

/-- `setPacket` after its room test: the header behind the window. -/
def withHeader (pb : PacketBuffer) (packet : Packet) : PacketBuffer :=
  ((pb.makeRoom packet.size16).write (Mem.ofList 0 (le16 packet.size16)) 2).write
    (Mem.ofList 0 (le16 packet.protocolNumber)) 2

/-- The room `setPacket` finds: behind the window, or behind the compacted
window if the size does not fit there. -/
def roomFor (pb : PacketBuffer) (size : UInt16) : Nat :=
  if size ≤ pb.getRemainSize then pb.getRemainSize.toNat
  else maxBufSize - pb.getBufferSize.toNat

/-- The packet is refused for lack of room, or four bytes are left for its
header. -/
def HeaderFits (pb : PacketBuffer) (packet : Packet) : Prop :=
  pb.roomFor packet.size16 < packet.size16.toNat ∨ 4 ≤ pb.roomFor packet.size16

instance (pb : PacketBuffer) (packet : Packet) : Decidable (pb.HeaderFits packet) :=
  inferInstanceAs (Decidable (_ ∨ _))

theorem toNat_getRemainSize_makeRoom (pb : PacketBuffer) (size : UInt16) :
    (pb.makeRoom size).getRemainSize.toNat = pb.roomFor size := by
  unfold makeRoom roomFor
  by_cases hbig : size > pb.getRemainSize
  · rw [if_pos hbig, if_neg (UInt16.not_le.mpr hbig), toNat_getRemainSize, reArrange_writePos,
      length_unread]
  · rw [if_neg hbig, if_pos (UInt16.not_lt.mp hbig)]

/-- The room test of `setPacket` is that of a queue of 65535 bytes. -/
theorem size_le_roomFor_iff (h : pb.Ordered) (size : UInt16) :
    size.toNat ≤ pb.roomFor size ↔ pb.unread.length + size.toNat ≤ maxBufSize := by
  rw [← toNat_getRemainSize_makeRoom, ← UInt16.le_iff_toNat_le]
  exact makeRoom_room h size

/-- `setPacket` refuses on the size it computed, or writes the header and goes
on to the bytes of the message. -/
theorem setPacket_cases (h : pb.Ordered) (packet : Packet) :
    (maxBufSize < pb.unread.length + packet.size16.toNat ∧
        pb.setPacket packet = (false, pb.makeRoom packet.size16)) ∨
      (pb.unread.length + packet.size16.toNat ≤ maxBufSize ∧
        pb.setPacket packet =
          if maxBufSize < packet.byteSize then (false, pb.withHeader packet)
          else (pb.withHeader packet).appendBuffer (some (Mem.ofList 0 packet.bytes))
            (UInt16.ofNat packet.byteSize)) := by
  have hroom := makeRoom_room h packet.size16
  by_cases hfits : pb.unread.length + packet.size16.toNat ≤ maxBufSize
  · refine .inr ⟨hfits, ?_⟩
    have hle := hroom.mpr hfits
    have hsize : ¬ packet.size16.toNat > maxBufSize := by omega
    show (if packet.size16 > (pb.makeRoom packet.size16).getRemainSize then _ else _) = _
    rw [if_neg (UInt16.not_lt.mpr hle)]
    simp only [setPacketSize, if_neg (show ¬ (UInt16.ofNat (getHeaderSize.toNat +
      packet.byteSize)).toNat > maxBufSize from hsize), setPacketNo, Packet.serializeToArray]
    by_cases hlong : maxBufSize < packet.byteSize
    · simp only [if_pos hlong]
      rfl
    · simp only [if_neg hlong]
      split
      · rename_i happend
        exact happend.symm
      · rename_i happend
        exact happend.symm
  · refine .inl ⟨by omega, ?_⟩
    have hgt : packet.size16 > (pb.makeRoom packet.size16).getRemainSize :=
      UInt16.not_le.mp fun hle => hfits (hroom.mp hle)
    show (if packet.size16 > (pb.makeRoom packet.size16).getRemainSize then _ else _) = _
    rw [if_pos hgt]
    rfl

theorem slice_le16 (n : UInt16) : (Mem.ofList 0 (le16 n)).slice 0 (2 : UInt16).toNat = le16 n :=
  Mem.slice_ofList 0 (le16 n)

theorem roomFor_le (pb : PacketBuffer) (size : UInt16) :
    (pb.makeRoom size).writePos.toNat + pb.roomFor size = maxBufSize := by
  have hle := (pb.makeRoom size).writePos_le
  rw [← toNat_getRemainSize_makeRoom, toNat_getRemainSize]
  omega

section WithHeader

variable (hroom : 4 ≤ pb.roomFor packet.size16)

include hroom in
theorem withHeader_first :
    (pb.makeRoom packet.size16).writePos.toNat + (2 : UInt16).toNat ≤ maxBufSize := by
  have := pb.roomFor_le packet.size16
  show (pb.makeRoom packet.size16).writePos.toNat + 2 ≤ maxBufSize
  omega

include hroom in
theorem withHeader_second :
    ((pb.makeRoom packet.size16).write (Mem.ofList 0 (le16 packet.size16)) 2).writePos.toNat +
      (2 : UInt16).toNat ≤ maxBufSize := by
  have := pb.roomFor_le packet.size16
  rw [write_writePos (withHeader_first hroom)]
  show (pb.makeRoom packet.size16).writePos.toNat + 2 + 2 ≤ maxBufSize
  omega

include hroom in
theorem withHeader_ordered (h : pb.Ordered) : (pb.withHeader packet).Ordered :=
  write_ordered (write_ordered (makeRoom_ordered h _) (withHeader_first hroom))
    (withHeader_second hroom)

include hroom in
theorem withHeader_inRange (h : pb.Ordered) : pb.StaysInRange (pb.withHeader packet) :=
  ((makeRoom_inRange h _).trans (write_inRange (withHeader_first hroom))).trans
    (write_inRange (withHeader_second hroom))

include hroom in
/-- With four bytes of room the header is appended to the unread bytes. -/
theorem unread_withHeader (h : pb.Ordered) :
    (pb.withHeader packet).unread = pb.unread ++ packet.header := by
  have hfirst := withHeader_first hroom
  have hord : ((pb.makeRoom packet.size16).write (Mem.ofList 0 (le16 packet.size16)) 2).Ordered :=
    write_ordered (makeRoom_ordered h packet.size16) hfirst
  rw [withHeader, unread_write hord (withHeader_second hroom),
    unread_write (makeRoom_ordered h _) hfirst, unread_makeRoom, slice_le16, slice_le16,
    List.append_assoc]
  rfl

end WithHeader

/-- What `setPacket` does to a queue of 65535 bytes: nothing if its own,
narrowed size does not fit; else it queues the frame if all of it fits, and
otherwise leaves the header. -/
def setOn (u : List Byte) (packet : Packet) : Bool × List Byte :=
  if maxBufSize < u.length + packet.size16.toNat then (false, u)
  else if 0 < packet.byteSize ∧ u.length + (4 + packet.byteSize) ≤ maxBufSize then
    (true, u ++ packet.frame)
  else (false, u ++ packet.header)

theorem four_le_roomFor_of_fits (h : pb.Ordered) (hfits : pb.HeaderFits packet)
    (hroom : pb.unread.length + packet.size16.toNat ≤ maxBufSize) :
    4 ≤ pb.roomFor packet.size16 := by
  have := (size_le_roomFor_iff h packet.size16).mpr hroom
  rcases hfits with hrefused | hfour
  · omega
  · exact hfour

/-- With its four bytes for the header `setPacket` depends on the unread bytes
alone. -/
theorem setPacket_eq (h : pb.Ordered) (hfits : pb.HeaderFits packet) :
    ((pb.setPacket packet).1, (pb.setPacket packet).2.unread) = setOn pb.unread packet := by
  rcases setPacket_cases h packet with ⟨hbig, heq⟩ | ⟨hroom, heq⟩
  · rw [heq, setOn, if_pos hbig]
    exact congrArg _ (pb.unread_makeRoom _)
  · have h4 := four_le_roomFor_of_fits h hfits hroom
    have hord := withHeader_ordered h4 h
    have hunread := unread_withHeader h4 h
    rw [setOn, if_neg (Nat.not_lt.mpr hroom)]
    by_cases hlong : maxBufSize < packet.byteSize
    · -- `SerializeToArray` fails, the header stays
      have hno : ¬ (0 < packet.byteSize ∧
          pb.unread.length + (4 + packet.byteSize) ≤ maxBufSize) := by omega
      rw [heq, if_pos hlong, if_neg hno, hunread]
    · have hlen : (UInt16.ofNat packet.byteSize).toNat = packet.byteSize :=
        toNat_ofNat_of_le (Nat.not_lt.mp hlong)
      have happend : ((pb.withHeader packet).appendBuffer (some (Mem.ofList 0 packet.bytes))
          (UInt16.ofNat packet.byteSize)).1 = true ↔ _ := appendBuffer_fst hord
      rw [hlen, hunread, List.length_append, Packet.length_header, Nat.add_assoc] at happend
      rw [heq, if_neg hlong]
      cases hok : ((pb.withHeader packet).appendBuffer (some (Mem.ofList 0 packet.bytes))
          (UInt16.ofNat packet.byteSize)).1 with
      | true =>
          rw [if_pos (happend.mp hok), unread_appendBuffer_of_true hord hok, hlen, hunread,
            Packet.byteSize, Mem.slice_ofList, List.append_assoc]
          rfl
      | false =>
          have hno : ¬ (0 < packet.byteSize ∧
              pb.unread.length + (4 + packet.byteSize) ≤ maxBufSize) := by
            intro hboth
            rw [happend.mpr hboth] at hok
            cases hok
          rw [if_neg hno, unread_appendBuffer_of_false hord hok, hunread]

/-- The header of a message that is not too long has its place. -/
theorem headerFits_of_small (hsmall : packet.byteSize ≤ 65531) : pb.HeaderFits packet := by
  have hsize := packet.toNat_size16
  unfold HeaderFits
  omega

/-- A new buffer has the place. -/
theorem headerFits_new (past : Mem Byte) (packet : Packet) : (new past).HeaderFits packet := by
  have hroom := (new past).roomFor_le packet.size16
  have hstart : ((new past).makeRoom packet.size16).writePos.toNat = 0 := by
    unfold makeRoom
    split
    · rw [reArrange_writePos, unread_new, List.length_nil]
    · rfl
  refine .inr ?_
  unfold maxBufSize at hroom
  omega

/-- A message of 1 to 65531 bytes is queued as one frame if the queue has room
for it, and otherwise leaves the unread bytes alone. -/
theorem setPacket_small (h : pb.Ordered) (hpos : 0 < packet.byteSize)
    (hsmall : packet.byteSize ≤ 65531) :
    (pb.unread.length + (4 + packet.byteSize) ≤ maxBufSize ∧
        (pb.setPacket packet).1 = true ∧
        (pb.setPacket packet).2.unread = pb.unread ++ packet.frame) ∨
      (maxBufSize < pb.unread.length + (4 + packet.byteSize) ∧
        (pb.setPacket packet).1 = false ∧
        (pb.setPacket packet).2.unread = pb.unread) := by
  have hsize : packet.size16.toNat = 4 + packet.byteSize := by
    have := packet.toNat_size16
    omega
  have heq := setPacket_eq h (headerFits_of_small hsmall)
  rw [setOn, hsize] at heq
  by_cases hroom : maxBufSize < pb.unread.length + (4 + packet.byteSize)
  · rw [if_pos hroom] at heq
    exact .inr ⟨hroom, congrArg Prod.fst heq, congrArg Prod.snd heq⟩
  · rw [if_neg hroom, if_pos ⟨hpos, Nat.not_lt.mp hroom⟩] at heq
    exact .inl ⟨Nat.not_lt.mp hroom, congrArg Prod.fst heq, congrArg Prod.snd heq⟩

/-- `setPacket` keeps the order of the positions when the header has its four
bytes. -/
theorem setPacket_ordered (h : pb.Ordered) (hfits : pb.HeaderFits packet) :
    (pb.setPacket packet).2.Ordered := by
  rcases setPacket_cases h packet with ⟨_, heq⟩ | ⟨hroom, heq⟩
  · rw [heq]
    exact makeRoom_ordered h _
  · have hord := withHeader_ordered (four_le_roomFor_of_fits h hfits hroom) h
    rw [heq]
    split
    · exact hord
    · exact appendBuffer_ordered hord

/-- So it stays in the array. -/
theorem setPacket_inRange (h : pb.Ordered) (hfits : pb.HeaderFits packet) :
    pb.StaysInRange (pb.setPacket packet).2 := by
  rcases setPacket_cases h packet with ⟨_, heq⟩ | ⟨hroom, heq⟩
  · rw [heq]
    exact makeRoom_inRange h _
  · have h4 := four_le_roomFor_of_fits h hfits hroom
    have hheader := withHeader_inRange h4 h
    rw [heq]
    split
    · exact hheader
    · exact hheader.trans (appendBuffer_inRange (withHeader_ordered h4 h))

/-- An empty buffer takes any message of 1 to 65531 bytes. -/
theorem setPacket_of_empty (h : pb.Ordered) (hempty : pb.unread = []) (hpos : 0 < packet.byteSize)
    (hsmall : packet.byteSize ≤ 65531) :
    ∃ sb : PacketBuffer, pb.setPacket packet = (true, sb) ∧ sb.Ordered ∧
      sb.unread = packet.frame := by
  rcases setPacket_small h hpos hsmall with ⟨_, hok, hunread⟩ | ⟨hbig, _⟩
  · rw [hempty, List.nil_append] at hunread
    exact ⟨_, Prod.ext hok rfl, setPacket_ordered h (headerFits_of_small hsmall), hunread⟩
  · rw [hempty, List.length_nil] at hbig
    unfold maxBufSize at hbig
    omega

/-! ## `setPacket` without room for the header -/

/-- A size that wrapped into less than four bytes of room: the header runs past
the array, and `writePos` starts again from 0. -/
theorem writePos_withHeader_of_not_fits (hno : ¬ pb.HeaderFits packet) :
    (pb.withHeader packet).writePos.toNat + pb.roomFor packet.size16 = 3 := by
  have hend := pb.roomFor_le packet.size16
  have htwo : (2 : UInt16).toNat = 2 := rfl
  unfold HeaderFits at hno
  unfold maxBufSize at hend
  simp only [withHeader, write, UInt16.toNat_add, htwo]
  omega

/-- Such a message is at least 65532 bytes long, and passes the room test. -/
theorem size_of_not_fits (h : pb.Ordered) (hno : ¬ pb.HeaderFits packet) :
    65532 ≤ packet.byteSize ∧ pb.unread.length + packet.size16.toNat ≤ maxBufSize := by
  refine ⟨?_, ?_⟩
  · by_contra hsmall
    exact hno (headerFits_of_small (by omega))
  · rw [← size_le_roomFor_iff h]
    unfold HeaderFits at hno
    omega

/-- With up to 65535 bytes the message is then copied from the front of the
array on, and `setPacket` answers true. -/
theorem setPacket_fst_of_not_fits (h : pb.Ordered) (hno : ¬ pb.HeaderFits packet)
    (hshort : packet.byteSize ≤ maxBufSize) : (pb.setPacket packet).1 = true := by
  have hend := writePos_withHeader_of_not_fits hno
  obtain ⟨hlong, hroom⟩ := size_of_not_fits h hno
  have hsize := packet.toNat_size16
  have hlen : (UInt16.ofNat packet.byteSize).toNat = packet.byteSize := toNat_ofNat_of_le hshort
  have hfits : ¬ UInt16.ofNat packet.byteSize > (pb.withHeader packet).getRemainSize := by
    rw [GT.gt, UInt16.lt_iff_toNat_lt, toNat_getRemainSize, hlen]
    unfold HeaderFits at hno
    unfold maxBufSize at hshort ⊢
    omega
  have hne : ¬ UInt16.ofNat packet.byteSize = 0 := by
    rw [← UInt16.toNat_inj, hlen]
    show ¬ packet.byteSize = 0
    omega
  have hmax : ¬ maxBufSize < packet.byteSize := Nat.not_lt.mpr hshort
  rcases setPacket_cases h packet with ⟨hbig, _⟩ | ⟨_, heq⟩
  · omega
  · rw [heq, if_neg hmax]
    simp only [appendBuffer, if_neg hne, makeRoom, if_neg hfits]

/-- A longer one is refused with its header written. -/
theorem setPacket_of_not_fits_of_long (h : pb.Ordered) (hno : ¬ pb.HeaderFits packet)
    (hlong : maxBufSize < packet.byteSize) :
    pb.setPacket packet = (false, pb.withHeader packet) := by
  have hroom := (size_of_not_fits h hno).2
  rcases setPacket_cases h packet with ⟨hbig, _⟩ | ⟨_, heq⟩
  · omega
  · rw [heq, if_pos hlong]

/-! ## Effects are only ever added -/

theorem makeRoom_effects (pb : PacketBuffer) (size : UInt16) :
    pb.effects ⊆ (pb.makeRoom size).effects := by
  unfold makeRoom
  split
  · exact List.subset_append_left ..
  · exact fun _ he => he

theorem write_effects (pb : PacketBuffer) (src : Mem Byte) (size : UInt16) :
    pb.effects ⊆ (pb.write src size).effects :=
  List.subset_append_left ..

theorem appendBuffer_effects (pb : PacketBuffer) (src : Mem Byte) (size : UInt16) :
    pb.effects ⊆ (pb.appendBuffer (some src) size).2.effects := by
  intro e he
  unfold appendBuffer
  dsimp only
  split
  · exact he
  · split
    · exact makeRoom_effects pb size he
    · exact write_effects _ _ _ (makeRoom_effects pb size he)

/-- With less than four bytes of room the header runs past the array. -/
theorem headerFits_of_clean (h : pb.Ordered) (hclean : (pb.setPacket packet).2.Clean) :
    pb.HeaderFits packet := by
  by_contra hno
  have hsize : packet.size16.toNat ≤ pb.roomFor packet.size16 ∧ pb.roomFor packet.size16 < 4 := by
    unfold HeaderFits at hno
    omega
  have hroom := (size_le_roomFor_iff h packet.size16).mp hsize.1
  have hend := pb.roomFor_le packet.size16
  have hwritten : ∀ e ∈ (pb.withHeader packet).effects, e.InRange := by
    intro e he
    refine hclean e ?_
    rcases setPacket_cases h packet with ⟨hbig, _⟩ | ⟨_, heq⟩
    · omega
    · rw [heq]
      split
      · exact he
      · exact appendBuffer_effects _ _ _ he
  by_cases h2 : 2 ≤ pb.roomFor packet.size16
  · -- the size field still fits, the number does not
    have hfirst : (pb.makeRoom packet.size16).writePos.toNat + (2 : UInt16).toNat ≤ maxBufSize := by
      show (pb.makeRoom packet.size16).writePos.toNat + 2 ≤ maxBufSize
      omega
    have hstore := hwritten _ (List.mem_append_right _ List.mem_cons_self)
    have hbound : ((pb.makeRoom packet.size16).write (Mem.ofList 0 (le16 packet.size16))
        2).writePos.toNat + 2 ≤ maxBufSize := hstore.2
    rw [write_writePos hfirst] at hbound
    have htwo : (2 : UInt16).toNat = 2 := rfl
    omega
  · -- the size field does not fit
    have hstore := hwritten _ (write_effects _ _ _ (List.mem_append_right _ List.mem_cons_self))
    have hbound : (pb.makeRoom packet.size16).writePos.toNat + 2 ≤ maxBufSize := hstore.2
    omega

end Set

end PacketBuffer

end ServerStudy
