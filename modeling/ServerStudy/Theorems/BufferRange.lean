import ServerStudy.Core.Run
import ServerStudy.Logic.BufferOps

/-!
# When the mutating operations stay in the array

`setPacket` computes the size of the frame as an `int` and keeps it in a
`uint16`. From a message of 65532 bytes on the size wraps, the room test is of
the wrapped size, and the header may be written where there is no room for
it. That is the only way out of the array: over any sequence of operations
the positions stay ordered, every copy stays in the array and no sum of a
position wraps exactly when each `setPacket` finds room for its header
(`HeaderFits`).
-/

namespace ServerStudy.Theorems.BufferRange

open ServerStudy.Core PacketBuffer

/-- A call of a mutating public operation. -/
inductive BufferOp
  | append (pBuffer : Option (Mem Byte)) (size : UInt16)
  | set (packet : Packet)
  | consume
  | clear

def BufferOp.apply (pb : PacketBuffer) : BufferOp → PacketBuffer
  | .append pBuffer size => (pb.appendBuffer pBuffer size).2
  | .set packet => (pb.setPacket packet).2
  | .consume => pb.consumePacket
  | .clear => pb.clear

/-- The room a call needs and does not check. -/
def BufferOp.Fits (pb : PacketBuffer) : BufferOp → Prop
  | .set packet => pb.HeaderFits packet
  | _ => True

/-- The positions are ordered, and everything so far was in range. -/
def Sound (pb : PacketBuffer) : Prop := pb.readPos ≤ pb.writePos ∧ pb.Clean

theorem sound_new (past : Mem Byte) : Sound (PacketBuffer.new past) :=
  ⟨ordered_iff.mpr (new_ordered past), new_clean past⟩

/-- One call keeps the buffer sound exactly when it fits. -/
theorem sound_apply_iff (pb : PacketBuffer) (op : BufferOp) (h : Sound pb) :
    Sound (op.apply pb) ↔ op.Fits pb := by
  obtain ⟨hle, hclean⟩ := h
  have hord := ordered_iff.mp hle
  cases op with
  | append pBuffer size =>
      cases pBuffer with
      | none => exact iff_of_true ⟨hle, hclean⟩ trivial
      | some src =>
          exact iff_of_true ⟨ordered_iff.mpr (appendBuffer_ordered hord),
            (appendBuffer_inRange hord).clean hclean⟩ trivial
  | set packet =>
      -- only `setPacket` writes without knowing its room
      constructor
      · intro hafter
        exact headerFits_of_clean hord hafter.2
      · intro hfits
        exact ⟨ordered_iff.mpr (setPacket_ordered hord hfits),
          (setPacket_inRange hord hfits).clean hclean⟩
  | consume =>
      exact iff_of_true ⟨ordered_iff.mpr (consumePacket_ordered hord),
        (consumePacket_inRange hord).clean hclean⟩ trivial
  | clear =>
      exact iff_of_true ⟨ordered_iff.mpr pb.clear_ordered, pb.clear_inRange.clean hclean⟩ trivial

/-- Over any operations on a new buffer: after each of them the positions are
ordered, every copy was inside the array and no position sum wrapped, exactly
when each `setPacket` of the run is refused or finds four bytes for its
header. -/
theorem buffer_inRange_iff (past : Mem Byte) (ops : List BufferOp) :
    (∀ done todo, ops = done ++ todo →
        (run BufferOp.apply (PacketBuffer.new past) done).readPos ≤
          (run BufferOp.apply (PacketBuffer.new past) done).writePos ∧
        ∀ e ∈ (run BufferOp.apply (PacketBuffer.new past) done).effects, e.InRange) ↔
      ∀ done packet todo, ops = done ++ .set packet :: todo →
        (run BufferOp.apply (PacketBuffer.new past) done).HeaderFits packet := by
  have hruns := invariant_iff_along (fun pb op => BufferOp.Fits pb op) Sound
    sound_apply_iff ops (sound_new past)
  rw [along_iff] at hruns
  refine hruns.trans ⟨fun h done packet todo hsplit => h done (.set packet) todo hsplit, ?_⟩
  intro h done op todo hsplit
  cases op with
  | set packet => exact h done packet todo hsplit
  | append pBuffer size => trivial
  | consume => trivial
  | clear => trivial

/-- The room behind a full window is none. -/
theorem roomFor_full (past : Mem Byte) (src : Mem Byte) :
    ((PacketBuffer.new past).appendBuffer (some src) 65535).2.roomFor 0 = 0 := by
  simp [PacketBuffer.new, appendBuffer, makeRoom, write, roomFor, getRemainSize, maxBufSize]

/-- A size that wraps to 0 passes the room test of a full buffer. -/
theorem full_not_headerFits (past src : Mem Byte) (packet : Packet)
    (hlong : packet.byteSize = 65532) :
    ¬ ((PacketBuffer.new past).appendBuffer (some src) 65535).2.HeaderFits packet := by
  have hsize : packet.size16 = 0 := by
    rw [← UInt16.toNat_inj, Packet.toNat_size16, hlong]
    rfl
  rw [HeaderFits, hsize, roomFor_full]
  decide

/-- With such a message a full buffer is left with a store outside the array. -/
theorem full_then_long (packet : Packet) (hlong : packet.byteSize = 65532) :
    ¬ ∀ e ∈ (run BufferOp.apply (PacketBuffer.new fun _ => 0)
        [.append (some fun _ => 0) 65535, .set packet]).effects, e.InRange := by
  intro hafter
  have hfull : ((PacketBuffer.new fun _ => 0).appendBuffer (some fun _ => 0) 65535).2.Ordered :=
    appendBuffer_ordered (new_ordered _)
  exact full_not_headerFits _ _ packet hlong (headerFits_of_clean hfull hafter)

/-- A full buffer, then a message of 65532 bytes: the size field is written
behind the array. -/
theorem full_buffer_header_overrun :
    ¬ ∀ e ∈ (run BufferOp.apply (PacketBuffer.new fun _ => 0)
        [.append (some fun _ => 0) 65535, .set ⟨0, List.replicate 65532 0⟩]).effects,
      e.InRange :=
  full_then_long _ List.length_replicate

end ServerStudy.Theorems.BufferRange
