import Mathlib.Order.WellFounded
import Mathlib.Tactic.Common

/-!
# What must happen

`Inevitably step P s`: from `s`, whichever way the system moves, it gets to a
state of `P`, and until then it can move. No fairness is assumed, so the rule
for it asks that every move but the last lowers a variant.
-/

namespace ServerStudy.Core

variable {σ τ : Type} {step : σ → σ → Prop} {P : σ → Prop}

/-- Every run from here meets `P`, and none stops before. -/
inductive Inevitably (step : σ → σ → Prop) (P : σ → Prop) : σ → Prop
  | now {s : σ} : P s → Inevitably step P s
  | next {s : σ} : (∃ s', step s s') → (∀ s', step s s' → Inevitably step P s') →
      Inevitably step P s

/-- If outside `P` there is always a move, and every move lowers the variant or
ends in `P`, then `P` is inevitable. -/
theorem inevitably_of_variant {r : τ → τ → Prop} (hr : WellFounded r) (variant : σ → τ)
    (Inv : σ → Prop)
    (hstep : ∀ s, Inv s → ¬ P s → (∃ s', step s s') ∧
      ∀ s', step s s' → P s' ∨ Inv s' ∧ r (variant s') (variant s))
    {s : σ} (hs : Inv s) : Inevitably step P s := by
  obtain ⟨v, hv⟩ : ∃ v, variant s = v := ⟨_, rfl⟩
  induction v using hr.induction generalizing s with
  | _ v ih =>
      by_cases hp : P s
      · exact .now hp
      · obtain ⟨hmove, hnext⟩ := hstep s hs hp
        refine .next hmove fun s' hs' => ?_
        rcases hnext s' hs' with hp' | ⟨hinv, hlower⟩
        · exact .now hp'
        · exact ih (variant s') (hv ▸ hlower) hinv rfl

end ServerStudy.Core
