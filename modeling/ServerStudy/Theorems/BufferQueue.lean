import ServerStudy.Core.BoundedQueue
import ServerStudy.Core.Run
import ServerStudy.Logic.BufferOps

/-!
# The receive side of `PacketBuffer` is a bounded byte queue

`appendBuffer`, `consumePacket` and `clear`, in any order and with any
arguments: window, stale bytes and compaction do not show. The buffer acts as
a queue of at most 65535 bytes, and every copy stays in the array.
-/

namespace ServerStudy.Theorems.BufferQueue

open ServerStudy.Core PacketBuffer

/-- A call of the receive side. -/
inductive RecvOp
  | append (pBuffer : Option (Mem Byte)) (size : UInt16)
  | consume
  | clear

/-- The call on the code's buffer. -/
def RecvOp.apply (pb : PacketBuffer) : RecvOp → PacketBuffer
  | .append pBuffer size => (pb.appendBuffer pBuffer size).2
  | .consume => pb.consumePacket
  | .clear => pb.clear

/-- The same call on the queue. -/
def RecvOp.onQueue (q : BoundedQueue Byte maxBufSize) : RecvOp → BoundedQueue Byte maxBufSize
  | .append none _ => q
  | .append (some src) size => (q.offer (src.slice 0 size.toNat)).2
  | .consume => q.dropFrame packetHeader
  | .clear => .empty

/-- The queue a buffer stands for. -/
def toQueue (pb : PacketBuffer) : BoundedQueue Byte maxBufSize :=
  ⟨pb.unread, pb.length_unread_le⟩

/-- `buffer[readPos..writePos)`. -/
def content (pb : PacketBuffer) : List Byte :=
  pb.buffer.slice pb.readPos.toNat (pb.writePos.toNat - pb.readPos.toNat)

/-- Each operation, called on `pb`, is that of a queue holding `content pb`. -/
structure ActsAsQueue (pb : PacketBuffer) : Prop where
  append_iff : ∀ pBuffer size, (pb.appendBuffer pBuffer size).1 = true ↔
    pBuffer.isSome ∧ 0 < size.toNat ∧ (content pb).length + size.toNat ≤ 65535
  append_content : ∀ src size, (pb.appendBuffer (some src) size).1 = true →
    content (pb.appendBuffer (some src) size).2 = content pb ++ src.slice 0 size.toNat
  append_refused : ∀ pBuffer size, (pb.appendBuffer pBuffer size).1 = false →
    content (pb.appendBuffer pBuffer size).2 = content pb
  consume : content pb.consumePacket =
    if 2 ≤ (content pb).length ∧ (ofLe16 (content pb)).toNat ≤ (content pb).length
    then (content pb).drop (ofLe16 (content pb)).toNat else content pb
  clear : content pb.clear = []
  size : pb.getBufferSize.toNat = (content pb).length
  able_iff : pb.isAbleToGetPacket = true ↔ 2 ≤ (content pb).length ∧
    0 < (ofLe16 (content pb)).toNat ∧ (ofLe16 (content pb)).toNat ≤ (content pb).length

theorem unread_eq_content {pb : PacketBuffer} (h : pb.Ordered) : content pb = pb.unread :=
  (unread_eq h).symm

/-- An ordered buffer acts as a queue. -/
theorem actsAsQueue {pb : PacketBuffer} (h : pb.Ordered) : ActsAsQueue pb := by
  have hc : content pb = pb.unread := unread_eq_content h
  refine ⟨?_, ?_, ?_, ?_, ?_, ?_, ?_⟩
  · intro pBuffer size
    cases pBuffer with
    | none => simp [appendBuffer]
    | some src => rw [appendBuffer_fst h, hc]; simp [maxBufSize]
  · intro src size hok
    rw [unread_eq_content (appendBuffer_ordered h), unread_appendBuffer_of_true h hok, hc]
  · intro pBuffer size hno
    cases pBuffer with
    | none => rfl
    | some src =>
        rw [unread_eq_content (appendBuffer_ordered h), unread_appendBuffer_of_false h hno, hc]
  · rw [unread_eq_content (consumePacket_ordered h), unread_consumePacket h, hc]
    by_cases h2 : 2 ≤ pb.unread.length
    · rw [packetHeader_size]
      by_cases hle : (ofLe16 pb.unread).toNat ≤ pb.unread.length
      · rw [if_pos hle, if_pos ⟨h2, hle⟩]
      · rw [if_neg hle, if_neg fun hboth => hle hboth.2]
    · -- no size field: `s = 0`, and dropping nothing is doing nothing
      have hzero : packetHeader.size pb.unread = 0 := by
        by_contra hne
        exact h2 (two_le_of_size_ne_zero hne)
      simp [h2, hzero]
  · rw [unread_eq_content pb.clear_ordered, unread_clear]
  · rw [hc, length_unread]
  · rw [isAbleToGetPacket_iff, hc]
    constructor
    · intro hable
      exact ⟨two_le_of_size_ne_zero (Nat.ne_of_gt hable.1), hable.1, hable.2⟩
    · intro hable
      exact hable.2

theorem apply_ordered {pb : PacketBuffer} (h : pb.Ordered) (op : RecvOp) :
    (op.apply pb).Ordered := by
  cases op with
  | append pBuffer size =>
      cases pBuffer with
      | none => exact h
      | some src => exact appendBuffer_ordered h
  | consume => exact consumePacket_ordered h
  | clear => exact pb.clear_ordered

theorem apply_clean {pb : PacketBuffer} (h : pb.Ordered) (hclean : pb.Clean) (op : RecvOp) :
    (op.apply pb).Clean := by
  cases op with
  | append pBuffer size =>
      cases pBuffer with
      | none => exact hclean
      | some src => exact (appendBuffer_inRange h).clean hclean
  | consume => exact (consumePacket_inRange h).clean hclean
  | clear => exact pb.clear_inRange.clean hclean

/-- One call on the buffer is the same call on its queue. -/
theorem toQueue_apply {pb : PacketBuffer} (h : pb.Ordered) (op : RecvOp) :
    toQueue (op.apply pb) = op.onQueue (toQueue pb) := by
  apply BoundedQueue.ext_items
  cases op with
  | append pBuffer size =>
      cases pBuffer with
      | none => rfl
      | some src =>
          have hiff : ((toQueue pb).offer (src.slice 0 size.toNat)).1 = true ↔
              (pb.appendBuffer (some src) size).1 = true := by
            rw [BoundedQueue.offer_fst, appendBuffer_fst h, Mem.length_slice]
            rfl
          show (pb.appendBuffer (some src) size).2.unread =
            ((toQueue pb).offer (src.slice 0 size.toNat)).2.items
          rw [BoundedQueue.items_offer]
          cases hok : (pb.appendBuffer (some src) size).1 with
          | true =>
              rw [if_pos (hiff.mpr hok), unread_appendBuffer_of_true h hok]
              rfl
          | false =>
              rw [if_neg (fun hoffer => by rw [hiff.mp hoffer] at hok; cases hok),
                unread_appendBuffer_of_false h hok]
              rfl
  | consume =>
      show pb.consumePacket.unread = ((toQueue pb).dropFrame packetHeader).items
      rw [BoundedQueue.items_dropFrame, unread_consumePacket h]
      rfl
  | clear => exact pb.unread_clear

/-- The size field is read inside the array. -/
theorem getPacketSizeLoads_inside {pb : PacketBuffer} (h : pb.Ordered) :
    ∀ r ∈ pb.getPacketSizeLoads, r.Inside 0 maxBufSize := by
  intro r hr
  unfold getPacketSizeLoads at hr
  split at hr
  · exact absurd hr List.not_mem_nil
  · rename_i hlong
    rw [List.mem_singleton.mp hr]
    have hsize : 2 ≤ pb.getBufferSize.toNat :=
      Nat.not_lt.mp fun hlt => hlong (UInt16.lt_iff_toNat_lt.mpr hlt)
    have hend := readPos_add_length h
    have hle := pb.writePos_le
    rw [length_unread] at hend
    exact ⟨Nat.zero_le _, by show pb.readPos.toNat + 2 ≤ maxBufSize; omega⟩

/-- After any calls on a new buffer: it stands for the queue the same calls
make of the empty queue, it acts as that queue on the next call, and all
copies so far, and the one of the size field, are inside the array. -/
theorem packetBuffer_refines_queue (past : Mem Byte) (ops : List RecvOp) :
    content (PacketBuffer.new past) = [] ∧
      toQueue (run RecvOp.apply (PacketBuffer.new past) ops) =
        run RecvOp.onQueue .empty ops ∧
      (toQueue (run RecvOp.apply (PacketBuffer.new past) ops)).items =
        content (run RecvOp.apply (PacketBuffer.new past) ops) ∧
      ActsAsQueue (run RecvOp.apply (PacketBuffer.new past) ops) ∧
      (run RecvOp.apply (PacketBuffer.new past) ops).Clean ∧
      ∀ r ∈ (run RecvOp.apply (PacketBuffer.new past) ops).getPacketSizeLoads,
        r.Inside 0 65535 := by
  have hord : (run RecvOp.apply (PacketBuffer.new past) ops).Ordered :=
    run_invariant PacketBuffer.Ordered (fun _ op h => apply_ordered h op) ops
      (new_ordered past)
  have hclean : (run RecvOp.apply (PacketBuffer.new past) ops).Ordered ∧
      (run RecvOp.apply (PacketBuffer.new past) ops).Clean :=
    run_invariant (fun pb : PacketBuffer => pb.Ordered ∧ pb.Clean)
      (fun _ op h => ⟨apply_ordered h.1 op, apply_clean h.1 h.2 op⟩) ops
      ⟨new_ordered past, new_clean past⟩
  have hqueue := run_abs RecvOp.onQueue PacketBuffer.Ordered toQueue
    (fun _ op h => ⟨apply_ordered h op, toQueue_apply h op⟩) ops (new_ordered past)
  have hempty : toQueue (PacketBuffer.new past) = .empty :=
    BoundedQueue.ext_items (unread_new past)
  refine ⟨rfl, ?_, (unread_eq_content hord).symm, actsAsQueue hord, hclean.2,
    getPacketSizeLoads_inside hord⟩
  rw [hqueue, hempty]

end ServerStudy.Theorems.BufferQueue
