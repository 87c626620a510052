import ServerStudy.Core.Framing
import ServerStudy.Shared.PacketBuffer

/-!
# What each `PacketBuffer` operation does to the unread bytes

One lemma per operation, in terms of `unread` and natural numbers; nothing
above this module unfolds an operation or does `uint16` arithmetic.

`Ordered` is `readPos ≤ writePos`. It is all the queue behaviour needs: a
`uint16` cannot exceed 65535, so the unread bytes of an ordered buffer lie in
the array.
-/

namespace ServerStudy

open ServerStudy.Core

/-- The `uint16` size field at the front of a stream, as a frame header. -/
def packetHeader : Header Byte where
  size u := (ofLe16 u).toNat
  stable u r h := by
    match u, h with
    | [], h => exact absurd rfl h
    | [_], h => exact absurd rfl h
    | _ :: _ :: _, _ => rfl

theorem packetHeader_size (u : List Byte) : packetHeader.size u = (ofLe16 u).toNat := rfl

/-- A complete head is at least its own size field. -/
theorem two_le_of_size_ne_zero {u : List Byte} (h : packetHeader.size u ≠ 0) :
    2 ≤ u.length := by
  match u, h with
  | [], h => exact absurd rfl h
  | [_], h => exact absurd rfl h
  | _ :: _ :: _, _ => simp

namespace PacketBuffer

variable {pb : PacketBuffer}

/-- `readPos ≤ writePos`. -/
def Ordered (pb : PacketBuffer) : Prop := pb.readPos.toNat ≤ pb.writePos.toNat

theorem ordered_iff : pb.readPos ≤ pb.writePos ↔ pb.Ordered := UInt16.le_iff_toNat_le

/-- Every effect so far stayed in range. -/
def Clean (pb : PacketBuffer) : Prop := ∀ e ∈ pb.effects, e.InRange

/-- From `pb` to `pb'` every effect stayed in range. -/
def StaysInRange (pb pb' : PacketBuffer) : Prop :=
  ∃ more, pb'.effects = pb.effects ++ more ∧ ∀ e ∈ more, e.InRange

theorem StaysInRange.refl (pb : PacketBuffer) : pb.StaysInRange pb :=
  ⟨[], (List.append_nil _).symm, fun _ he => absurd he List.not_mem_nil⟩

theorem StaysInRange.trans {pb' pb'' : PacketBuffer} (h : pb.StaysInRange pb')
    (h' : pb'.StaysInRange pb'') : pb.StaysInRange pb'' := by
  obtain ⟨more, heq, hmore⟩ := h
  obtain ⟨more', heq', hmore'⟩ := h'
  refine ⟨more ++ more', by rw [heq', heq, List.append_assoc], ?_⟩
  intro e he
  rcases List.mem_append.mp he with he | he
  · exact hmore e he
  · exact hmore' e he

theorem StaysInRange.clean {pb' : PacketBuffer} (h : pb.StaysInRange pb') (hclean : pb.Clean) :
    pb'.Clean := by
  obtain ⟨more, heq, hmore⟩ := h
  intro e he
  rw [heq] at he
  rcases List.mem_append.mp he with he | he
  · exact hclean e he
  · exact hmore e he

/-! ## Sizes -/

theorem writePos_le (pb : PacketBuffer) : pb.writePos.toNat ≤ maxBufSize := by
  have := pb.writePos.toNat_lt
  unfold maxBufSize
  omega

/-- A size up to `MAX_BUF_SIZE` survives the narrowing. -/
theorem toNat_ofNat_of_le {n : Nat} (h : n ≤ maxBufSize) : (UInt16.ofNat n).toNat = n := by
  unfold maxBufSize at h
  rw [UInt16.toNat_ofNat']
  omega

@[simp] theorem toNat_getHeaderSize : getHeaderSize.toNat = 4 := rfl

theorem toNat_getRemainSize (pb : PacketBuffer) :
    pb.getRemainSize.toNat = maxBufSize - pb.writePos.toNat := by
  simp only [getRemainSize, UInt16.toNat_ofNat', maxBufSize]
  omega

theorem toNat_getBufferSize (h : pb.Ordered) :
    pb.getBufferSize.toNat = pb.writePos.toNat - pb.readPos.toNat := by
  have hle : ¬ pb.readPos > pb.writePos := by
    simpa [GT.gt, UInt16.lt_iff_toNat_lt, Ordered] using h
  rw [getBufferSize, if_neg hle]
  exact UInt16.toNat_sub_of_le _ _ (UInt16.le_iff_toNat_le.mpr h)

theorem length_unread (pb : PacketBuffer) :
    pb.unread.length = pb.getBufferSize.toNat := Mem.length_slice ..

theorem length_unread_le (pb : PacketBuffer) : pb.unread.length ≤ maxBufSize := by
  have := pb.getBufferSize.toNat_lt
  rw [length_unread]
  unfold maxBufSize
  omega

/-- The unread bytes are `buffer[readPos..writePos)`. -/
theorem unread_eq (h : pb.Ordered) :
    pb.unread = pb.buffer.slice pb.readPos.toNat (pb.writePos.toNat - pb.readPos.toNat) := by
  rw [unread, getBuffer, Mem.slice_offset, toNat_getBufferSize h, Nat.add_zero]

theorem readPos_add_length (h : pb.Ordered) :
    pb.readPos.toNat + pb.unread.length = pb.writePos.toNat := by
  unfold Ordered at h
  rw [length_unread, toNat_getBufferSize h]
  omega

/-- Equal positions, nothing unread. -/
theorem unread_eq_nil (h : pb.readPos = pb.writePos) : pb.unread = [] := by
  have hord : pb.Ordered := Nat.le_of_eq (congrArg UInt16.toNat h)
  have hend := readPos_add_length hord
  rw [h] at hend
  exact List.eq_nil_of_length_eq_zero (by omega)

/-! ## Reading the head -/

/-- `getPacketSize` is the size field of the unread bytes. -/
theorem getPacketSize_eq (pb : PacketBuffer) : pb.getPacketSize = ofLe16 pb.unread := by
  have hlen := pb.length_unread
  by_cases h : pb.getBufferSize < 2
  · rw [getPacketSize, if_pos h]
    have hshort : pb.unread.length < 2 := by
      rw [hlen]
      simpa [UInt16.lt_iff_toNat_lt] using h
    match hu : pb.unread, hshort with
    | [], _ => rfl
    | [_], _ => rfl
    | _ :: _ :: _, hshort =>
        rw [List.length_cons, List.length_cons] at hshort
        omega
  · have hlong : 2 ≤ pb.getBufferSize.toNat :=
      Nat.not_lt.mp fun hlt => h (UInt16.lt_iff_toNat_lt.mpr hlt)
    rw [getPacketSize, if_neg h, ← ofLe16_take pb.unread, unread, Mem.take_slice _ hlong]

theorem toNat_getPacketSize (pb : PacketBuffer) :
    pb.getPacketSize.toNat = packetHeader.size pb.unread := by
  rw [getPacketSize_eq, packetHeader_size]

/-- `isAbleToGetPacket` tells that a whole packet is unread. -/
theorem isAbleToGetPacket_iff (pb : PacketBuffer) :
    pb.isAbleToGetPacket = true ↔ packetHeader.Complete pb.unread := by
  have hsize := pb.toNat_getPacketSize
  have hlen := pb.length_unread
  have hzero : ∀ n : UInt16, n = 0 ↔ n.toNat = 0 := fun n => by
    rw [← UInt16.toNat_inj]; rfl
  simp only [isAbleToGetPacket, Header.Complete, hzero, UInt16.le_iff_toNat_le]
  by_cases h : pb.getPacketSize.toNat = 0
  · simp [h]; omega
  · by_cases h' : pb.getBufferSize.toNat = 0
    · simp [h, h']; omega
    · simp [h, h']; omega

theorem isAbleToGetPacket_eq_false_iff (pb : PacketBuffer) :
    pb.isAbleToGetPacket = false ↔ ¬ packetHeader.Complete pb.unread := by
  rw [← isAbleToGetPacket_iff, Bool.not_eq_true]

/-- With a whole packet of at least four bytes there, `getPacketNo` is its
second field. -/
theorem getPacketNo_eq (h : pb.Ordered) (h4 : 4 ≤ pb.unread.length) :
    pb.getPacketNo = ofLe16 (pb.unread.drop 2) := by
  have hend := readPos_add_length h
  have hbig : ¬ pb.writePos < getHeaderSize := by
    rw [UInt16.lt_iff_toNat_lt, toNat_getHeaderSize]
    omega
  have hlen : 4 ≤ pb.getBufferSize.toNat := by rwa [length_unread] at h4
  have hslice : (pb.unread.drop 2).take 2 = pb.getBuffer.slice 2 2 := by
    rw [unread, Mem.drop_slice _ (by omega), Mem.take_slice _ (by omega)]
  rw [getPacketNo, if_neg hbig, ← hslice, ofLe16_take]

/-- The bytes handed to `ParseFromArray` when the size field is at least 4:
the packet without its header. -/
theorem payload_eq (hsize : 4 ≤ packetHeader.size pb.unread)
    (hle : packetHeader.size pb.unread ≤ pb.unread.length) :
    pb.getPayloadBuffer.slice 0 pb.getPayloadBufferSize.toNat =
      (pb.unread.take (packetHeader.size pb.unread)).drop 4 := by
  have hpayload : pb.getPayloadBufferSize.toNat = packetHeader.size pb.unread - 4 := by
    have hge : getHeaderSize ≤ pb.getPacketSize := by
      rw [UInt16.le_iff_toNat_le, toNat_getPacketSize, toNat_getHeaderSize]
      exact hsize
    rw [getPayloadBufferSize, UInt16.toNat_sub_of_le _ _ hge, toNat_getPacketSize,
      toNat_getHeaderSize]
  rw [length_unread] at hle
  rw [hpayload, getPayloadBuffer, Mem.slice_offset, toNat_getHeaderSize]
  generalize packetHeader.size pb.unread = s at hsize hle ⊢
  rw [unread, Mem.take_slice _ hle, Mem.drop_slice _ hsize]

/-! ## Consuming -/

/-- `truncateBuffer` does nothing for a size beyond the unread bytes, and moves
`readPos` by any other. -/
theorem truncateBuffer_cases (h : pb.Ordered) (size : UInt16) :
    (pb.unread.length < size.toNat ∧ pb.truncateBuffer size = pb) ∨
      (size.toNat ≤ pb.unread.length ∧
        (pb.readPos + size).toNat = pb.readPos.toNat + size.toNat ∧
        pb.truncateBuffer size =
          { pb with
            readPos := pb.readPos + size
            effects := pb.effects ++ [.advance pb.readPos.toNat size.toNat] }) := by
  have hlen := pb.length_unread
  by_cases hbig : size > pb.getBufferSize
  · refine .inl ⟨?_, if_pos hbig⟩
    rw [hlen]
    exact UInt16.lt_iff_toNat_lt.mp hbig
  · have hfits : size.toNat ≤ pb.unread.length := by
      rw [hlen]
      exact UInt16.le_iff_toNat_le.mp (UInt16.not_lt.mp hbig)
    have hend := readPos_add_length h
    have hbound := pb.writePos.toNat_lt
    refine .inr ⟨hfits, ?_, if_neg hbig⟩
    rw [UInt16.toNat_add]
    omega

theorem truncateBuffer_ordered (h : pb.Ordered) (size : UInt16) :
    (pb.truncateBuffer size).Ordered := by
  have hend := readPos_add_length h
  rcases truncateBuffer_cases h size with ⟨_, heq⟩ | ⟨hfits, hread, heq⟩
  · rw [heq]
    exact h
  · rw [heq]
    show (pb.readPos + size).toNat ≤ pb.writePos.toNat
    omega

theorem unread_truncateBuffer (h : pb.Ordered) (size : UInt16) :
    (pb.truncateBuffer size).unread =
      if size.toNat ≤ pb.unread.length then pb.unread.drop size.toNat else pb.unread := by
  have hord := truncateBuffer_ordered h size
  have hend := readPos_add_length h
  rcases truncateBuffer_cases h size with ⟨hbig, heq⟩ | ⟨hfits, hread, heq⟩
  · rw [heq, if_neg (Nat.not_le.mpr hbig)]
  · rw [heq] at hord ⊢
    rw [if_pos hfits, unread_eq hord, unread_eq h, Mem.drop_slice _ (by omega)]
    simp only [hread]
    congr 1
    omega

theorem truncateBuffer_inRange (h : pb.Ordered) (size : UInt16) :
    pb.StaysInRange (pb.truncateBuffer size) := by
  rcases truncateBuffer_cases h size with ⟨_, heq⟩ | ⟨_, hread, heq⟩
  · rw [heq]
    exact .refl pb
  · rw [heq]
    refine ⟨_, rfl, fun e he => ?_⟩
    rw [List.mem_singleton.mp he]
    show pb.readPos.toNat + size.toNat < 65536
    rw [← hread]
    exact UInt16.toNat_lt _

theorem consumePacket_ordered (h : pb.Ordered) : pb.consumePacket.Ordered :=
  truncateBuffer_ordered h _

/-- `consumePacket` drops the head packet if it is all there. -/
theorem unread_consumePacket (h : pb.Ordered) :
    pb.consumePacket.unread =
      if packetHeader.size pb.unread ≤ pb.unread.length
      then pb.unread.drop (packetHeader.size pb.unread) else pb.unread := by
  rw [consumePacket, unread_truncateBuffer h, toNat_getPacketSize]

theorem consumePacket_inRange (h : pb.Ordered) : pb.StaysInRange pb.consumePacket :=
  truncateBuffer_inRange h _

/-! ## Making room -/

theorem reArrange_ordered (pb : PacketBuffer) : pb.reArrange.Ordered :=
  Nat.zero_le _

@[simp] theorem unread_reArrange (pb : PacketBuffer) : pb.reArrange.unread = pb.unread := by
  rw [unread_eq pb.reArrange_ordered]
  simp only [reArrange, UInt16.toNat_zero, Nat.sub_zero, Mem.slice_copy_self]
  rfl

theorem reArrange_inRange (h : pb.Ordered) : pb.StaysInRange pb.reArrange := by
  have hend := readPos_add_length h
  have hle := pb.writePos_le
  rw [length_unread] at hend
  refine ⟨_, rfl, fun e he => ?_⟩
  simp only [List.mem_cons, List.not_mem_nil, or_false] at he
  rcases he with rfl | rfl <;>
    simp only [Effect.InRange, Region.Inside] <;> omega

theorem makeRoom_ordered (h : pb.Ordered) (size : UInt16) : (pb.makeRoom size).Ordered := by
  unfold makeRoom
  split
  · exact pb.reArrange_ordered
  · exact h

@[simp] theorem unread_makeRoom (pb : PacketBuffer) (size : UInt16) :
    (pb.makeRoom size).unread = pb.unread := by
  unfold makeRoom
  split
  · exact pb.unread_reArrange
  · rfl

theorem makeRoom_inRange (h : pb.Ordered) (size : UInt16) :
    pb.StaysInRange (pb.makeRoom size) := by
  unfold makeRoom
  split
  · exact reArrange_inRange h
  · exact .refl pb

theorem reArrange_writePos (pb : PacketBuffer) :
    pb.reArrange.writePos.toNat = pb.unread.length := by
  rw [length_unread]
  rfl

/-- After `makeRoom` the test of the room is the test of a queue of 65535
bytes, wherever the window stood. -/
theorem makeRoom_room (h : pb.Ordered) (size : UInt16) :
    size ≤ (pb.makeRoom size).getRemainSize ↔
      pb.unread.length + size.toNat ≤ maxBufSize := by
  have hend := readPos_add_length h
  have hle := pb.writePos_le
  unfold makeRoom
  rw [UInt16.le_iff_toNat_le]
  by_cases hbig : size > pb.getRemainSize
  · -- compacted: all the room there is lies behind the window
    rw [if_pos hbig, toNat_getRemainSize, reArrange_writePos]
    have := pb.length_unread_le
    omega
  · have hfits : size.toNat ≤ pb.getRemainSize.toNat := by
      simpa [GT.gt, UInt16.lt_iff_toNat_lt] using hbig
    rw [if_neg hbig]
    rw [toNat_getRemainSize] at hfits ⊢
    omega

/-! ## Writing -/

section Write

variable {src : Mem Byte} {size : UInt16}

theorem write_writePos (hroom : pb.writePos.toNat + size.toNat ≤ maxBufSize) :
    (pb.write src size).writePos.toNat = pb.writePos.toNat + size.toNat := by
  unfold maxBufSize at hroom
  simp only [write, UInt16.toNat_add]
  omega

theorem write_ordered (h : pb.Ordered) (hroom : pb.writePos.toNat + size.toNat ≤ maxBufSize) :
    (pb.write src size).Ordered := by
  unfold Ordered at h ⊢
  rw [write_writePos hroom]
  exact Nat.le_trans h (Nat.le_add_right ..)

/-- A write within the array appends to the unread bytes. -/
theorem unread_write (h : pb.Ordered) (hroom : pb.writePos.toNat + size.toNat ≤ maxBufSize) :
    (pb.write src size).unread = pb.unread ++ src.slice 0 size.toNat := by
  have hstart : pb.writePos.toNat = pb.readPos.toNat + (pb.writePos.toNat - pb.readPos.toNat) := by
    unfold Ordered at h
    omega
  have hlen : pb.writePos.toNat + size.toNat - pb.readPos.toNat =
      (pb.writePos.toNat - pb.readPos.toNat) + size.toNat := by
    unfold Ordered at h
    omega
  rw [unread_eq (write_ordered h hroom), write_writePos hroom, unread_eq h]
  show (pb.buffer.copy pb.writePos.toNat src size.toNat).slice pb.readPos.toNat
      (pb.writePos.toNat + size.toNat - pb.readPos.toNat) = _
  rw [hlen]
  conv_lhs => enter [1, 2]; rw [hstart]
  exact Mem.slice_copy_append ..

theorem write_inRange (hroom : pb.writePos.toNat + size.toNat ≤ maxBufSize) :
    pb.StaysInRange (pb.write src size) := by
  unfold maxBufSize at hroom
  refine ⟨_, rfl, fun e he => ?_⟩
  simp only [List.mem_cons, List.not_mem_nil, or_false] at he
  rcases he with rfl | rfl <;>
    simp only [Effect.InRange, Region.Inside, maxBufSize] <;> omega

end Write

end PacketBuffer

end ServerStudy
