import ServerStudy.Core.Framing

/-!
# A bounded queue of framed cells

What a receive buffer is for: a list of at most `cap` cells that takes new
cells at the end, all or nothing, and gives up its first frame at the front.
The bound is a field, so a queue that overflowed cannot be built.
-/

namespace ServerStudy.Core

/-- A list of at most `cap` cells. -/
structure BoundedQueue (α : Type) (cap : Nat) where
  items : List α
  bound : items.length ≤ cap

namespace BoundedQueue

variable {α : Type} {cap : Nat}

theorem ext_items {q q' : BoundedQueue α cap} (h : q.items = q'.items) : q = q' := by
  cases q
  cases q'
  cases h
  rfl

def empty : BoundedQueue α cap := ⟨[], Nat.zero_le _⟩

/-- Take all of `xs`, or nothing if there is nothing or no room. -/
def offer (q : BoundedQueue α cap) (xs : List α) : Bool × BoundedQueue α cap :=
  if h : 0 < xs.length ∧ q.items.length + xs.length ≤ cap then
    (true, ⟨q.items ++ xs, by rw [List.length_append]; exact h.2⟩)
  else (false, q)

/-- Give up the first frame if all of it is there. -/
def dropFrame (H : Header α) (q : BoundedQueue α cap) : BoundedQueue α cap :=
  if H.size q.items ≤ q.items.length then
    ⟨q.items.drop (H.size q.items), by
      rw [List.length_drop]; exact Nat.le_trans (Nat.sub_le ..) q.bound⟩
  else q

theorem offer_fst (q : BoundedQueue α cap) (xs : List α) :
    (q.offer xs).1 = true ↔ 0 < xs.length ∧ q.items.length + xs.length ≤ cap := by
  unfold offer
  split <;> simp [*]

theorem items_offer (q : BoundedQueue α cap) (xs : List α) :
    (q.offer xs).2.items = if (q.offer xs).1 = true then q.items ++ xs else q.items := by
  unfold offer
  split <;> simp

theorem items_dropFrame (H : Header α) (q : BoundedQueue α cap) :
    (q.dropFrame H).items =
      if H.size q.items ≤ q.items.length then q.items.drop (H.size q.items) else q.items := by
  unfold dropFrame
  split <;> rfl

end BoundedQueue

end ServerStudy.Core
