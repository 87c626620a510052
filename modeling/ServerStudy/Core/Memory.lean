import Mathlib.Data.List.Infix
import Mathlib.Tactic.Common

/-!
# Flat memory seen through windows

Memory is a total function from offsets to cells. A *window* is a start offset
and a length; `slice` reads the list of cells in it. `copy` is the block copy
both `memcpy` and `memmove` promise (the source is read before the
destination is written), so one definition serves disjoint and overlapping
ranges. `write` stores a list: writes side by side are one write of the lists
joined, and writes that do not meet commute.

Everything here is about windows of an arbitrary cell type. Buffers with a
sliding window instantiate it.
-/

namespace ServerStudy.Core

/-- Cells from one base address on. -/
abbrev Mem (α : Type) := Nat → α

/-- A window of memory: `len` cells from `start`. -/
structure Region where
  start : Nat
  len : Nat
  deriving DecidableEq, Repr

/-- The window lies in `[lo, hi)`. -/
def Region.Inside (r : Region) (lo hi : Nat) : Prop :=
  lo ≤ r.start ∧ r.start + r.len ≤ hi

instance (r : Region) (lo hi : Nat) : Decidable (r.Inside lo hi) :=
  inferInstanceAs (Decidable (_ ∧ _))

namespace Mem

variable {α : Type}

/-- The cells of a window, in order. -/
def slice (m : Mem α) : Nat → Nat → List α
  | _, 0 => []
  | start, len + 1 => m start :: slice m (start + 1) len

/-- The memory behind a pointer moved `k` cells up. -/
def offset (m : Mem α) (k : Nat) : Mem α := fun i => m (k + i)

/-- `len` cells of `src` written at `dst + start`. -/
def copy (dst : Mem α) (start : Nat) (src : Mem α) (len : Nat) : Mem α := fun i =>
  if start ≤ i ∧ i < start + len then src (i - start) else dst i

/-- An array filled with `fill` whose first cells are `xs`. -/
def ofList (fill : α) (xs : List α) : Mem α := fun i => xs.getD i fill

@[simp] theorem slice_zero (m : Mem α) (start : Nat) : m.slice start 0 = [] := rfl

theorem slice_succ (m : Mem α) (start len : Nat) :
    m.slice start (len + 1) = m start :: m.slice (start + 1) len := rfl

@[simp] theorem length_slice (m : Mem α) (start len : Nat) :
    (m.slice start len).length = len := by
  induction len generalizing start with
  | zero => rfl
  | succ len ih => simp [slice_succ, ih]

theorem getElem_slice (m : Mem α) (start len i : Nat) (h : i < (m.slice start len).length) :
    (m.slice start len)[i] = m (start + i) := by
  induction len generalizing start i with
  | zero => simp at h
  | succ len ih =>
      cases i with
      | zero => rfl
      | succ i =>
          simp only [slice_succ, List.getElem_cons_succ, ih]
          congr 1
          omega

/-- Windows that agree cell by cell read the same. -/
theorem slice_congr {m m' : Mem α} {start start' len : Nat}
    (h : ∀ i < len, m (start + i) = m' (start' + i)) :
    m.slice start len = m'.slice start' len := by
  induction len generalizing start start' with
  | zero => rfl
  | succ len ih =>
      have hhead : m start = m' start' := by simpa using h 0 (Nat.succ_pos _)
      have htail : m.slice (start + 1) len = m'.slice (start' + 1) len := by
        refine ih fun i hi => ?_
        have := h (i + 1) (by omega)
        simpa [Nat.add_assoc, Nat.add_comm 1 i] using this
      rw [slice_succ, slice_succ, hhead, htail]

/-- Adjacent windows read as one. -/
theorem slice_add (m : Mem α) (start a b : Nat) :
    m.slice start (a + b) = m.slice start a ++ m.slice (start + a) b := by
  induction a generalizing start with
  | zero => simp
  | succ a ih =>
      rw [Nat.succ_add_eq_add_succ, Nat.add_succ, slice_succ, slice_succ, ih]
      simp [Nat.add_assoc, Nat.add_comm 1 a]

theorem take_slice (m : Mem α) {start len k : Nat} (h : k ≤ len) :
    (m.slice start len).take k = m.slice start k := by
  obtain ⟨rest, rfl⟩ := Nat.exists_eq_add_of_le h
  rw [slice_add]
  exact List.take_left' (length_slice ..)

theorem drop_slice (m : Mem α) {start len k : Nat} (h : k ≤ len) :
    (m.slice start len).drop k = m.slice (start + k) (len - k) := by
  obtain ⟨rest, rfl⟩ := Nat.exists_eq_add_of_le h
  rw [slice_add, Nat.add_sub_cancel_left]
  exact List.drop_left' (length_slice ..)

@[simp] theorem slice_offset (m : Mem α) (k start len : Nat) :
    (m.offset k).slice start len = m.slice (k + start) len :=
  slice_congr fun i _ => by simp [offset, Nat.add_assoc]

/-- A block copy reads back as its source. -/
theorem slice_copy_self (dst src : Mem α) (start len : Nat) :
    (dst.copy start src len).slice start len = src.slice 0 len := by
  refine slice_congr fun i hi => ?_
  simp [copy, hi]

/-- A block copy leaves every window that ends before it or starts after it. -/
theorem slice_copy_of_disjoint (dst src : Mem α) {start len s n : Nat}
    (h : s + n ≤ start ∨ start + len ≤ s) :
    (dst.copy start src len).slice s n = dst.slice s n := by
  refine slice_congr fun i hi => ?_
  have houtside : ¬ (start ≤ s + i ∧ s + i < start + len) := by omega
  simp [copy, houtside]

/-- A copy at the end of a window extends it by the cells copied. -/
theorem slice_copy_append (dst src : Mem α) (start len n : Nat) :
    (dst.copy (start + len) src n).slice start (len + n) =
      dst.slice start len ++ src.slice 0 n := by
  rw [slice_add, slice_copy_of_disjoint _ _ (Or.inl (Nat.le_refl _)), slice_copy_self]

/-- The first cells of a filled array are the list it was made from. -/
theorem slice_ofList (fill : α) (xs : List α) :
    (ofList fill xs).slice 0 xs.length = xs := by
  refine List.ext_getElem (length_slice ..) fun i hi hi' => ?_
  simp [getElem_slice, ofList, List.getElem?_eq_getElem hi']

/-! ## Writing a list -/

/-- The cells from `start` on overwritten with a list. -/
def write (m : Mem α) (start : Nat) (xs : List α) : Mem α := fun i =>
  if start ≤ i then (xs[i - start]?).getD (m i) else m i

theorem write_of_lt (m : Mem α) {start i : Nat} (xs : List α) (h : i < start) :
    m.write start xs i = m i := if_neg (Nat.not_le.mpr h)

theorem write_of_end_le (m : Mem α) {start i : Nat} (xs : List α) (h : start + xs.length ≤ i) :
    m.write start xs i = m i := by
  rw [write, List.getElem?_eq_none (by omega)]
  exact ite_self _

theorem write_inside (m : Mem α) {start i : Nat} (xs : List α) (hlow : start ≤ i)
    (hhigh : i < start + xs.length) : some (m.write start xs i) = xs[i - start]? := by
  rw [write, if_pos hlow, List.getElem?_eq_getElem (by omega)]
  rfl

@[simp] theorem write_nil (m : Mem α) (start : Nat) : m.write start [] = m := by
  funext i
  exact ite_self _

/-- A list written in two parts, the second right behind the first. -/
theorem write_append (m : Mem α) (start : Nat) (xs ys : List α) :
    m.write start (xs ++ ys) = (m.write start xs).write (start + xs.length) ys := by
  funext i
  rcases Nat.lt_or_ge i start with hlow | hlow
  · rw [write_of_lt _ _ hlow, write_of_lt _ _ (by omega), write_of_lt _ _ hlow]
  rcases Nat.lt_or_ge i (start + xs.length) with hmid | hmid
  · rw [write_of_lt _ ys hmid, write, write, if_pos hlow, if_pos hlow,
      List.getElem?_append_left (by omega)]
  · have hbefore : m.write start xs i = m i := write_of_end_le _ _ hmid
    rw [write, write, if_pos hlow, if_pos hmid, List.getElem?_append_right (by omega), hbefore,
      Nat.sub_sub]

/-- Writes to ranges that do not meet commute. -/
theorem write_comm (m : Mem α) {start start' : Nat} {xs ys : List α}
    (h : start + xs.length ≤ start') :
    (m.write start' ys).write start xs = (m.write start xs).write start' ys := by
  funext i
  rcases Nat.lt_or_ge i start' with hlow | hlow
  · have hys : m.write start' ys i = m i := write_of_lt _ _ hlow
    rw [write_of_lt _ ys hlow]
    simp only [write] at hys ⊢
    rw [hys]
  · have hxs : (m.write start' ys).write start xs i = m.write start' ys i :=
      write_of_end_le _ _ (by omega)
    have hxs' : m.write start xs i = m i := write_of_end_le _ _ (by omega)
    rw [hxs, write, write, hxs']

/-- What was written reads back, behind what was there. -/
theorem slice_write_append (m : Mem α) (start len : Nat) (xs : List α) :
    (m.write (start + len) xs).slice start (len + xs.length) = m.slice start len ++ xs := by
  rw [slice_add]
  congr 1
  · exact slice_congr fun i hi => write_of_lt _ _ (by omega)
  · refine List.ext_getElem? fun i => ?_
    rcases Nat.lt_or_ge i xs.length with hi | hi
    · have hcell := write_inside m xs (by omega : start + len ≤ start + len + i) (by omega)
      rw [List.getElem?_eq_getElem (by rw [length_slice]; exact hi), getElem_slice, hcell,
        Nat.add_sub_cancel_left]
    · rw [List.getElem?_eq_none (by rw [length_slice]; exact hi), List.getElem?_eq_none hi]

end Mem

end ServerStudy.Core
