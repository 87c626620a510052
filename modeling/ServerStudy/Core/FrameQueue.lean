import ServerStudy.Core.BoundedQueue

/-!
# A queue of frames in a queue of cells

A queue whose items are encoded as frames, and whose encodings together take
at most `cap` cells. It is a queue of cells that is only ever given whole
frames: pushing an item is offering its frame, and popping one is dropping the
first frame.
-/

namespace ServerStudy.Core

variable {α β : Type}

/-- Items whose frames take at most `cap` cells. -/
structure FrameQueue (enc : β → List α) (cap : Nat) where
  items : List β
  bound : (items.flatMap enc).length ≤ cap

namespace FrameQueue

variable {enc : β → List α} {cap : Nat}

def empty : FrameQueue enc cap := ⟨[], Nat.zero_le _⟩

/-- Take the item if there is room for its frame. -/
def push (q : FrameQueue enc cap) (b : β) : Bool × FrameQueue enc cap :=
  if h : (q.items.flatMap enc).length + (enc b).length ≤ cap then
    (true, ⟨q.items ++ [b], by
      rw [List.flatMap_append, List.flatMap_singleton, List.length_append]; exact h⟩)
  else (false, q)

theorem push_of_room {q : FrameQueue enc cap} {b : β}
    (h : (q.items.flatMap enc).length + (enc b).length ≤ cap) :
    (q.push b).2.items = q.items ++ [b] := by
  rw [push, dif_pos h]

theorem push_of_full {q : FrameQueue enc cap} {b : β}
    (h : cap < (q.items.flatMap enc).length + (enc b).length) : (q.push b).2 = q := by
  rw [push, dif_neg (Nat.not_le.mpr h)]

/-- Give up the first item. -/
def pop (q : FrameQueue enc cap) : FrameQueue enc cap where
  items := q.items.tail
  bound := by
    refine Nat.le_trans ?_ q.bound
    cases q.items with
    | nil => exact Nat.le_refl _
    | cons b items =>
        rw [List.flatMap_cons, List.length_append]
        exact Nat.le_add_left ..

/-- The cells of the frames. -/
def cells (q : FrameQueue enc cap) : BoundedQueue α cap := ⟨q.items.flatMap enc, q.bound⟩

@[simp] theorem items_cells (q : FrameQueue enc cap) : q.cells.items = q.items.flatMap enc := rfl

section Frames

variable {H : Header α}

/-- Pushing is offering the frame. -/
theorem cells_push (q : FrameQueue enc cap) {b : β} (hframe : H.IsFrame (enc b)) :
    ((q.push b).1, (q.push b).2.cells) = q.cells.offer (enc b) := by
  have hpos := hframe.length_pos
  rw [push, BoundedQueue.offer]
  by_cases h : (q.items.flatMap enc).length + (enc b).length ≤ cap
  · rw [dif_pos h, dif_pos ⟨hpos, h⟩]
    refine congrArg (Prod.mk true) (BoundedQueue.ext_items ?_)
    show (q.items ++ [b]).flatMap enc = q.items.flatMap enc ++ enc b
    rw [List.flatMap_append, List.flatMap_singleton]
  · rw [dif_neg h, dif_neg fun hboth => h hboth.2]

/-- Popping is dropping the first frame. -/
theorem cells_pop (q : FrameQueue enc cap) (hframes : ∀ b, H.IsFrame (enc b)) :
    q.pop.cells = q.cells.dropFrame H := by
  apply BoundedQueue.ext_items
  rw [BoundedQueue.items_dropFrame, items_cells q]
  show q.items.tail.flatMap enc = _
  cases q.items with
  | nil => simp
  | cons b items =>
      have hsize := (hframes b).size_append (items.flatMap enc)
      rw [List.tail_cons, List.flatMap_cons, hsize, List.length_append,
        if_pos (Nat.le_add_right ..), List.drop_left' rfl]

/-- The head of the cells is complete while there are items. -/
theorem complete_cells_iff (q : FrameQueue enc cap) (hframes : ∀ b, H.IsFrame (enc b)) :
    H.Complete q.cells.items ↔ q.items ≠ [] := by
  rw [items_cells]
  cases q.items with
  | nil => exact iff_of_false H.not_complete_nil (not_not.mpr rfl)
  | cons b items => exact iff_of_true ((hframes b).complete_append _) (List.cons_ne_nil _ _)

end Frames

end FrameQueue

end ServerStudy.Core
