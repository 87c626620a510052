import Mathlib.Tactic.Common

/-!
# Loops without a bound of their own

A loop `for (;;)` whose body tells whether it goes on. `Loops body s k s'` is
a run of it that ends, with `k` passes that go on. If these passes lower a
variant the loop ends from every state of the invariant, after at most as many
of them as the variant says (`exists_loops`).
-/

namespace ServerStudy.Core

variable {σ : Type} {body : σ → Bool × σ}

/-- From `s` the loop is left in `s'`, in the pass after `k` that go on. -/
inductive Loops (body : σ → Bool × σ) : σ → Nat → σ → Prop
  | leave {s s' : σ} : body s = (false, s') → Loops body s 0 s'
  | again {s s' s'' : σ} {k : Nat} :
      body s = (true, s') → Loops body s' k s'' → Loops body s (k + 1) s''

/-- A loop whose passes lower a variant ends. -/
theorem exists_loops (Inv : σ → Prop) (variant : σ → Nat)
    (hpass : ∀ s s', Inv s → body s = (true, s') → Inv s' ∧ variant s' < variant s)
    {s : σ} (hs : Inv s) : ∃ k s', k ≤ variant s ∧ Loops body s k s' := by
  -- on the variant: each pass that goes on has lowered it
  obtain ⟨n, hn⟩ : ∃ n, variant s = n := ⟨_, rfl⟩
  induction n using Nat.strongRecOn generalizing s with
  | ind n ih =>
      rcases hbody : body s with ⟨goesOn, t⟩
      cases goesOn with
      | false => exact ⟨0, t, Nat.zero_le _, .leave hbody⟩
      | true =>
          obtain ⟨ht, hlower⟩ := hpass s t hs hbody
          obtain ⟨k, s', hk, hrun⟩ := ih (variant t) (hn ▸ hlower) ht rfl
          exact ⟨k + 1, s', by omega, .again hbody hrun⟩

end ServerStudy.Core
