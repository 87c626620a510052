import Mathlib.Data.List.Infix
import Mathlib.Tactic.Common

/-!
# Length-prefixed framing of a stream

A header function reads the length of the first frame off the front of a
stream, `0` while the stream is too short to tell. Once it can tell, more
stream does not change its answer (`Header.stable`). That alone makes a
concatenation of frames cut itself up in one way:

* a complete head of a stream of frames is its first frame
  (`Header.head_of_stream`), also when the stream ends inside a frame;
* a proper prefix of a frame is not complete (`Header.not_complete_of_part`);
* the frames wholly contained in the first `n` cells (`whole`) are those a
  receiver has cut off once its rest is incomplete (`Header.whole_eq_take`).
-/

namespace ServerStudy.Core

variable {α β : Type}

/-- A length header at the front of a stream. -/
structure Header (α : Type) where
  /-- Length of the first frame, header included; `0` if it cannot be read. -/
  size : List α → Nat
  stable : ∀ u r, size u ≠ 0 → size (u ++ r) = size u

namespace Header

variable (H : Header α)

/-- The first frame of the stream is there as a whole. -/
def Complete (u : List α) : Prop := 0 < H.size u ∧ H.size u ≤ u.length

/-- `f` is one frame: its header gives its own length. -/
def IsFrame (f : List α) : Prop := f ≠ [] ∧ H.size f = f.length

instance (u : List α) : Decidable (H.Complete u) := inferInstanceAs (Decidable (_ ∧ _))

variable {H}

theorem IsFrame.size_ne_zero {f : List α} (hf : H.IsFrame f) : H.size f ≠ 0 := by
  rw [hf.2]
  exact fun h => hf.1 (List.eq_nil_of_length_eq_zero h)

theorem IsFrame.length_pos {f : List α} (hf : H.IsFrame f) : 0 < f.length :=
  List.length_pos_iff.mpr hf.1

theorem IsFrame.size_append {f : List α} (hf : H.IsFrame f) (r : List α) :
    H.size (f ++ r) = f.length := by
  rw [H.stable f r hf.size_ne_zero, hf.2]

theorem IsFrame.complete_append {f : List α} (hf : H.IsFrame f) (r : List α) :
    H.Complete (f ++ r) := by
  unfold Complete
  rw [hf.size_append, List.length_append]
  exact ⟨hf.length_pos, Nat.le_add_right ..⟩

/-- An empty stream has no frame. -/
theorem not_complete_nil (H : Header α) : ¬ H.Complete [] := by
  rintro ⟨hpos, hle⟩
  rw [List.length_nil] at hle
  omega

/-- A complete head stays the head, whatever follows. -/
theorem Complete.append {u : List α} (hu : H.Complete u) (r : List α) :
    H.Complete (u ++ r) ∧ H.size (u ++ r) = H.size u := by
  have hsize : H.size (u ++ r) = H.size u := H.stable u r (Nat.ne_of_gt hu.1)
  refine ⟨⟨?_, ?_⟩, hsize⟩
  · rw [hsize]; exact hu.1
  · rw [hsize, List.length_append]; exact Nat.le_trans hu.2 (Nat.le_add_right ..)

/-- A proper prefix of a frame is not complete. -/
theorem not_complete_of_part {u f : List α} (hf : H.IsFrame f) (hu : u <+: f)
    (hne : u ≠ f) : ¬ H.Complete u := by
  rintro ⟨hpos, hle⟩
  obtain ⟨r, rfl⟩ := hu
  have hsize : (u ++ r).length = H.size u := by
    rw [← hf.2, H.stable u r (Nat.ne_of_gt hpos)]
  have hr : r = [] := by
    rw [List.length_append] at hsize
    exact List.eq_nil_of_length_eq_zero (by omega)
  exact hne (by rw [hr, List.append_nil])

/-- A complete prefix of a stream of frames, with or without the beginning of
one more, starts with the first of them. -/
theorem head_of_stream {enc : β → List α} {u q : List α} {fs : List β}
    (hfs : ∀ f ∈ fs, H.IsFrame (enc f)) (hq : ¬ H.Complete q)
    (hu : u <+: fs.flatMap enc ++ q) (hcomplete : H.Complete u) :
    ∃ f rest u', fs = f :: rest ∧ u = enc f ++ u' ∧ u' <+: rest.flatMap enc ++ q := by
  cases fs with
  | nil =>
      -- only the beginning of a frame is left, and more of it would be complete too
      rw [List.flatMap_nil, List.nil_append] at hu
      obtain ⟨r, rfl⟩ := hu
      exact absurd (hcomplete.append r).1 hq
  | cons f rest =>
      have hf : H.IsFrame (enc f) := hfs f List.mem_cons_self
      rw [List.flatMap_cons, List.append_assoc] at hu
      rcases List.prefix_or_prefix_of_prefix hu (List.prefix_append (enc f) _) with h | h
      · have heq : u = enc f := by
          by_contra hne
          exact not_complete_of_part hf h hne hcomplete
        exact ⟨f, rest, [], rfl, by rw [heq, List.append_nil], List.nil_prefix⟩
      · obtain ⟨u', rfl⟩ := h
        exact ⟨f, rest, u', rfl, rfl, (List.prefix_append_right_inj (enc f)).mp hu⟩

/-- Whatever is there of a stream of frames is some of them and a rest that is
not complete. -/
theorem split_of_part {enc : β → List α} {u q : List α} {fs : List β}
    (hfs : ∀ f ∈ fs, H.IsFrame (enc f)) (hq : ¬ H.Complete q) (hu : u <+: fs.flatMap enc ++ q) :
    ∃ k u', u = (fs.take k).flatMap enc ++ u' ∧ ¬ H.Complete u' := by
  induction fs generalizing u with
  | nil =>
      refine ⟨0, u, rfl, fun hcomplete => ?_⟩
      obtain ⟨f, rest, _, hnil, _⟩ := head_of_stream hfs hq hu hcomplete
      cases hnil
  | cons f rest ih =>
      by_cases hcomplete : H.Complete u
      · obtain ⟨g, fs', u', heq, rfl, hrest⟩ := head_of_stream hfs hq hu hcomplete
        cases heq
        obtain ⟨k, v, rfl, hv⟩ := ih (fun g hg => hfs g (List.mem_cons_of_mem _ hg)) hrest
        exact ⟨k + 1, v, by simp, hv⟩
      · exact ⟨0, u, rfl, hcomplete⟩

end Header

/-- The frames wholly contained in the first `n` cells of their concatenation. -/
def whole (enc : β → List α) : List β → Nat → List β
  | [], _ => []
  | f :: rest, n =>
      if (enc f).length ≤ n then f :: whole enc rest (n - (enc f).length) else []

/-- What a receiver has cut off is exactly what is wholly there, once the
rest it holds is not a complete frame. -/
theorem Header.whole_eq_take {H : Header α} {enc : β → List α} {fs : List β}
    (hfs : ∀ f ∈ fs, H.IsFrame (enc f)) {k : Nat} {u q : List α}
    (hpre : (fs.take k).flatMap enc ++ u <+: fs.flatMap enc ++ q) (hrest : ¬ H.Complete u) :
    whole enc fs ((fs.take k).flatMap enc ++ u).length = fs.take k := by
  induction fs generalizing k with
  | nil => simp [whole]
  | cons f rest ih =>
      have hf : H.IsFrame (enc f) := hfs f List.mem_cons_self
      cases k with
      | zero =>
          -- nothing cut off: the first frame cannot be there
          have hshort : ¬ (enc f).length ≤ u.length := by
            intro hle
            have hfu : enc f <+: u := by
              simp only [List.take_zero, List.flatMap_nil, List.nil_append,
                List.flatMap_cons, List.append_assoc] at hpre
              exact List.prefix_of_prefix_length_le (List.prefix_append _ _) hpre hle
            obtain ⟨r, rfl⟩ := hfu
            exact hrest (hf.complete_append r)
          simp [whole, hshort]
      | succ k =>
          simp only [List.take_succ_cons, List.flatMap_cons, List.append_assoc] at hpre ⊢
          have htail := ih (fun g hg => hfs g (List.mem_cons_of_mem _ hg))
            ((List.prefix_append_right_inj (enc f)).mp hpre)
          rw [whole, List.length_append, if_pos (Nat.le_add_right ..), Nat.add_sub_cancel_left,
            htail]

/-- What is there is the frames that are wholly there and a rest that is not
complete. -/
theorem Header.whole_split {H : Header α} {enc : β → List α} {fs : List β} {u q : List α}
    (hfs : ∀ f ∈ fs, H.IsFrame (enc f)) (hq : ¬ H.Complete q) (hu : u <+: fs.flatMap enc ++ q) :
    ∃ v, u = (whole enc fs u.length).flatMap enc ++ v ∧ ¬ H.Complete v := by
  obtain ⟨k, v, rfl, hv⟩ := split_of_part hfs hq hu
  refine ⟨v, ?_, hv⟩
  rw [whole_eq_take hfs hu hv]

/-- With more cells there are no fewer frames. -/
theorem whole_mono (enc : β → List α) (fs : List β) {n m : Nat} (h : n ≤ m) :
    whole enc fs n <+: whole enc fs m := by
  induction fs generalizing n m with
  | nil => exact List.prefix_refl _
  | cons f rest ih =>
      rw [whole, whole]
      by_cases hf : (enc f).length ≤ n
      · rw [if_pos hf, if_pos (Nat.le_trans hf h), List.prefix_cons_inj]
        exact ih (Nat.sub_le_sub_right h _)
      · rw [if_neg hf]
        exact List.nil_prefix

/-- In all the cells of the stream there are all the frames. -/
theorem whole_all (enc : β → List α) (fs : List β) :
    whole enc fs (fs.flatMap enc).length = fs := by
  induction fs with
  | nil => rfl
  | cons f rest ih =>
      rw [whole, List.flatMap_cons, List.length_append, if_pos (Nat.le_add_right ..),
        Nat.add_sub_cancel_left, ih]

theorem whole_subset (enc : β → List α) (fs : List β) (n : Nat) : whole enc fs n ⊆ fs := by
  induction fs generalizing n with
  | nil => exact fun _ h => h
  | cons f rest ih =>
      rw [whole]
      split
      · exact List.cons_subset_cons f (ih _)
      · exact List.nil_subset _

end ServerStudy.Core
