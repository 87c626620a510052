import Mathlib.Logic.Function.Basic
import ServerStudy.Core.Run

/-!
# Partial maps that keep the first value

`extend` gives a key a value unless it has one. After any extensions of an
empty map a key has the first value it was given (`extendAll_apply`).
-/

namespace ServerStudy.Core

variable {κ ν : Type} [DecidableEq κ]

/-- Give the key the value, unless it has one. -/
def extend (m : κ → Option ν) (k : κ) (v : ν) : Bool × (κ → Option ν) :=
  match m k with
  | some _ => (false, m)
  | none => (true, Function.update m k (some v))

/-- The map after the extensions. -/
def extendAll (m : κ → Option ν) (entries : List (κ × ν)) : κ → Option ν :=
  run (fun m entry => (extend m entry.1 entry.2).2) m entries

/-- Only a key without a value can be given one. -/
theorem extend_fst_iff (m : κ → Option ν) (k : κ) (v : ν) :
    (extend m k v).1 = true ↔ m k = none := by
  unfold extend
  cases m k with
  | none => simp
  | some _ => simp

theorem extend_refused {m : κ → Option ν} {k : κ} {v : ν} (h : (extend m k v).1 = false) :
    (extend m k v).2 = m := by
  revert h
  unfold extend
  cases m k with
  | none => simp
  | some _ => simp

theorem extend_apply (m : κ → Option ν) (k k' : κ) (v : ν) :
    (extend m k v).2 k' = (m k').or (if k' = k then some v else none) := by
  unfold extend
  by_cases hk : k' = k
  · subst hk
    cases hm : m k' with
    | none => simp
    | some _ => simp [hm]
  · cases m k with
    | none => simp [hk]
    | some _ => simp [hk]

/-- A key has the value it had, or else the first one it is given. -/
theorem extendAll_apply (m : κ → Option ν) (entries : List (κ × ν)) (k : κ) :
    extendAll m entries k = (m k).or (entries.lookup k) := by
  induction entries generalizing m with
  | nil => simp [extendAll]
  | cons entry rest ih =>
      have hrest : extendAll m (entry :: rest) k = _ := ih (extend m entry.1 entry.2).2
      rw [hrest, extend_apply, Option.or_assoc, List.lookup_cons]
      by_cases hk : k = entry.1
      · simp [hk]
      · have hother : (k == entry.1) = false := beq_eq_false_iff_ne.mpr hk
        simp [hk, hother]

/-- It has none if it had none and is in none of the entries. -/
theorem extendAll_eq_none_iff (m : κ → Option ν) (entries : List (κ × ν)) (k : κ) :
    extendAll m entries k = none ↔ m k = none ∧ k ∉ entries.map Prod.fst := by
  rw [extendAll_apply, Option.or_eq_none_iff, List.lookup_eq_none_iff]
  refine and_congr Iff.rfl ⟨fun h hmem => ?_, fun h entry hentry => ?_⟩
  · obtain ⟨entry, hentry, hk⟩ := List.mem_map.mp hmem
    have hne := h entry hentry
    rw [hk] at hne
    simp at hne
  · rw [bne_iff_ne]
    exact fun hk => h (List.mem_map.mpr ⟨entry, hentry, hk.symm⟩)

end ServerStudy.Core
