import ServerStudy.Core.FrameQueue
import ServerStudy.Core.Run
import ServerStudy.Logic.Frames

/-!
# `PacketBuffer` is a queue of packets

Whole packets come in by `SetPacket` or by `AppendBuffer` and go out by
`ConsumePacket`. Under any such calls the buffer is a first-in first-out queue
of packets whose frames have 65535 bytes together: positions, compaction and
stale bytes do not show, and the getters give the oldest packet.
-/

namespace ServerStudy.Theorems.PacketFifo

open ServerStudy.Core PacketBuffer

/-- A call with a whole packet, or none. A message to be sent is not empty. -/
inductive PacketOp
  | set (f : Frame) (hpos : 0 < f.byteSize)
  | append (f : Frame)
  | consume
  | clear

/-- Its bytes in a caller's array. -/
def source (f : Frame) : Option (Mem Byte) := some (Mem.ofList 0 f.stream)

/-- The call on the code's buffer, and what it returns after the others. -/
def PacketOp.apply (v : PacketBuffer × List Bool) : PacketOp → PacketBuffer × List Bool
  | .set f _ => ((v.1.setPacket f.toPacket).2, v.2 ++ [(v.1.setPacket f.toPacket).1])
  | .append f =>
      ((v.1.appendBuffer (source f) (UInt16.ofNat f.stream.length)).2,
        v.2 ++ [(v.1.appendBuffer (source f) (UInt16.ofNat f.stream.length)).1])
  | .consume => (v.1.consumePacket, v.2)
  | .clear => (v.1.clear, v.2)

/-- The packets the buffer may hold. -/
abbrev PacketQueue := FrameQueue Frame.stream maxBufSize

/-- The same call on the queue. -/
def PacketOp.onQueue (v : PacketQueue × List Bool) : PacketOp → PacketQueue × List Bool
  | .set f _ => ((v.1.push f).2, v.2 ++ [(v.1.push f).1])
  | .append f => ((v.1.push f).2, v.2 ++ [(v.1.push f).1])
  | .consume => (v.1.pop, v.2)
  | .clear => (.empty, v.2)

/-- The buffer stands for the queue, has returned the same and has stayed in
its array. -/
structure Refines (v : PacketBuffer × List Bool) (w : PacketQueue × List Bool) : Prop where
  ordered : v.1.Ordered
  clean : v.1.Clean
  unread : v.1.unread = w.1.cells.items
  answers : v.2 = w.2

section Step

variable {v : PacketBuffer × List Bool} {w : PacketQueue × List Bool}

/-- A packet is taken if and only if there is room for its frame. -/
theorem push_eq (q : PacketQueue) (f : Frame) :
    ((q.push f).1 = true ↔ q.cells.items.length + f.stream.length ≤ maxBufSize) ∧
      (q.push f).2.cells.items =
        if (q.push f).1 = true then q.cells.items ++ f.stream else q.cells.items := by
  have hpush := FrameQueue.cells_push q f.isFrame
  have hfst := congrArg Prod.fst hpush
  have hsnd := congrArg Prod.snd hpush
  dsimp only at hfst hsnd
  rw [hfst, hsnd]
  refine ⟨(BoundedQueue.offer_fst ..).trans ?_, BoundedQueue.items_offer ..⟩
  exact ⟨fun h => h.2, fun h => ⟨f.isFrame.length_pos, h⟩⟩

/-- What taking a packet comes to, whichever call it was. -/
theorem Refines.pushed (h : Refines v w) {f : Frame} {ok : Bool} {pb : PacketBuffer}
    (hord : pb.Ordered) (hclean : pb.Clean)
    (hok : ok = true ↔ v.1.unread.length + f.stream.length ≤ maxBufSize)
    (hunread : pb.unread = if ok = true then v.1.unread ++ f.stream else v.1.unread) :
    Refines (pb, v.2 ++ [ok]) ((w.1.push f).2, w.2 ++ [(w.1.push f).1]) := by
  obtain ⟨hroom, hitems⟩ := push_eq w.1 f
  have hsame : ok = (w.1.push f).1 := by
    rw [h.unread, ← hroom] at hok
    exact Bool.eq_iff_iff.mpr hok
  refine ⟨hord, hclean, ?_, ?_⟩
  · show pb.unread = (w.1.push f).2.cells.items
    rw [hunread, hitems, hsame, h.unread]
  · rw [h.answers, hsame]

theorem refines_step (h : Refines v w) (op : PacketOp) :
    Refines (op.apply v) (op.onQueue w) := by
  cases op with
  | set f hpos =>
      have hlen : f.stream.length = 4 + f.byteSize := f.toPacket.length_frame
      have hheader : v.1.HeaderFits f.toPacket := headerFits_of_small f.fits
      refine h.pushed (setPacket_ordered h.ordered hheader)
        ((setPacket_inRange h.ordered hheader).clean h.clean) ?_ ?_
      · rcases setPacket_small h.ordered hpos f.fits with ⟨hroom, hok, _⟩ | ⟨hbig, hno, _⟩
        · exact iff_of_true hok (by rw [hlen]; exact hroom)
        · exact iff_of_false (by rw [hno]; exact Bool.false_ne_true) (by rw [hlen]; omega)
      · rcases setPacket_small h.ordered hpos f.fits with ⟨_, hok, hset⟩ | ⟨_, hno, hset⟩
        · rw [if_pos hok, hset]
          rfl
        · rw [if_neg (by rw [hno]; exact Bool.false_ne_true), hset]
  | append f =>
      have hlen : f.stream.length = 4 + f.byteSize := f.toPacket.length_frame
      have hfits := f.fits
      have hsize : (UInt16.ofNat f.stream.length).toNat = f.stream.length :=
        toNat_ofNat_of_le (by unfold maxBufSize; omega)
      refine h.pushed (appendBuffer_ordered h.ordered)
        ((appendBuffer_inRange h.ordered).clean h.clean) ?_ ?_
      · rw [source, appendBuffer_fst h.ordered, hsize]
        exact ⟨fun hboth => hboth.2, fun hroom => ⟨f.isFrame.length_pos, hroom⟩⟩
      · cases hok : (v.1.appendBuffer (source f) (UInt16.ofNat f.stream.length)).1 with
        | true =>
            have hunread := unread_appendBuffer_of_true h.ordered hok
            rw [hsize, Mem.slice_ofList] at hunread
            rw [if_pos rfl]
            exact hunread
        | false =>
            rw [if_neg Bool.false_ne_true]
            exact unread_appendBuffer_of_false h.ordered hok
  | consume =>
      refine ⟨consumePacket_ordered h.ordered, (consumePacket_inRange h.ordered).clean h.clean,
        ?_, h.answers⟩
      show v.1.consumePacket.unread = w.1.pop.cells.items
      rw [FrameQueue.cells_pop w.1 Frame.isFrame, BoundedQueue.items_dropFrame,
        unread_consumePacket h.ordered, h.unread]
  | clear =>
      exact ⟨v.1.clear_ordered, v.1.clear_inRange.clean h.clean, v.1.unread_clear, h.answers⟩

end Step

/-- After any calls with whole packets on a new buffer: every call has returned
what it returns on the queue, the unread bytes are the frames of the packets
queued, the test for a packet and the getters give the oldest packet, and every
copy has stayed in the array. -/
theorem packetBuffer_refines_fifo (past : Mem Byte) (ops : List PacketOp) :
    let v := run PacketOp.apply (PacketBuffer.new past, []) ops
    let w := run PacketOp.onQueue (FrameQueue.empty, []) ops
    v.2 = w.2 ∧ v.1.unread = w.1.items.flatMap Frame.stream ∧ v.1.Clean ∧
      (v.1.isAbleToGetPacket = true ↔ w.1.items ≠ []) ∧
      ∀ f rest, w.1.items = f :: rest → v.1.getPacketNo = f.protocolNumber ∧
        v.1.payload = f.bytes ∧ v.1.getPacketSize.toNat = f.stream.length := by
  have hrefines : ∀ (ops : List PacketOp) v w, Refines v w →
      Refines (run PacketOp.apply v ops) (run PacketOp.onQueue w ops) := by
    -- on the calls, the two runs side by side
    intro ops
    induction ops with
    | nil => exact fun _ _ h => h
    | cons op ops ih => exact fun v w h => ih _ _ (refines_step h op)
  have h := hrefines ops (PacketBuffer.new past, []) (FrameQueue.empty, [])
    ⟨new_ordered past, new_clean past, unread_new past, rfl⟩
  refine ⟨h.answers, h.unread, h.clean, ?_, ?_⟩
  · rw [isAbleToGetPacket_iff, h.unread]
    exact FrameQueue.complete_cells_iff _ Frame.isFrame
  · intro f rest hitems
    have hhead := h.unread
    rw [FrameQueue.items_cells, hitems, List.flatMap_cons] at hhead
    refine ⟨getPacketNo_of_head h.ordered hhead, payload_of_head hhead, ?_⟩
    rw [toNat_getPacketSize, size_of_head hhead]

end ServerStudy.Theorems.PacketFifo
