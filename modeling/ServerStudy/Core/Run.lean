import Mathlib.Tactic.Common

/-!
# Runs and their invariants

Two kinds of run. A *driven* run folds a step function over a list of inputs;
a *transition system* steps along a relation, so any interleaving of its
parties is a run. For both, what one step preserves holds in every state
reached. For driven runs there is also the exact form: if an invariant
survives a step precisely when a guard holds, it survives a whole run
precisely when the guard holds at each of its steps (`invariant_iff_along`).
-/

namespace ServerStudy.Core

section Driven

variable {σ ι : Type} (step : σ → ι → σ)

/-- The state after the inputs. -/
def run (s : σ) (inputs : List ι) : σ := inputs.foldl step s

@[simp] theorem run_nil (s : σ) : run step s [] = s := rfl

@[simp] theorem run_cons (s : σ) (i : ι) (inputs : List ι) :
    run step s (i :: inputs) = run step (step s i) inputs := rfl

theorem run_append (s : σ) (first second : List ι) :
    run step s (first ++ second) = run step (run step s first) second := by
  simp [run, List.foldl_append]

/-- The guard holds at every step of the run. -/
def Along (guard : σ → ι → Prop) : σ → List ι → Prop
  | _, [] => True
  | s, i :: inputs => guard s i ∧ Along guard (step s i) inputs

variable {step}

theorem Along.append {guard : σ → ι → Prop} {s : σ} {first second : List ι} :
    Along step guard s (first ++ second) ↔
      Along step guard s first ∧ Along step guard (run step s first) second := by
  induction first generalizing s with
  | nil => simp [Along]
  | cons i rest ih => simp [Along, ih, and_assoc]

/-- The guard holds along a run when it holds wherever the run gets to. -/
theorem along_iff {guard : σ → ι → Prop} {s : σ} {inputs : List ι} :
    Along step guard s inputs ↔
      ∀ done i todo, inputs = done ++ i :: todo → guard (run step s done) i := by
  constructor
  · rintro h done i todo rfl
    exact (Along.append.mp h).2.1
  · intro h
    induction inputs generalizing s with
    | nil => trivial
    | cons i rest ih =>
        refine ⟨h [] i rest rfl, ih fun done j todo hsplit => ?_⟩
        exact h (i :: done) j todo (by rw [hsplit]; rfl)

/-- What every guarded step preserves holds after a guarded run. -/
theorem invariant_of_along {guard : σ → ι → Prop} (Inv : σ → Prop)
    (hstep : ∀ s i, Inv s → guard s i → Inv (step s i))
    {s : σ} {inputs : List ι} (h : Along step guard s inputs) (hs : Inv s) :
    Inv (run step s inputs) := by
  induction inputs generalizing s with
  | nil => exact hs
  | cons i rest ih => exact ih h.2 (hstep s i hs h.1)

/-- What every step preserves holds after every run. -/
theorem run_invariant (Inv : σ → Prop) (hstep : ∀ s i, Inv s → Inv (step s i))
    {s : σ} (inputs : List ι) (hs : Inv s) : Inv (run step s inputs) := by
  induction inputs generalizing s with
  | nil => exact hs
  | cons i rest ih => exact ih (hstep s i hs)

/-- An invariant that survives a step exactly when the guard holds survives
every prefix of a run exactly when the guard holds along it. -/
theorem invariant_iff_along (guard : σ → ι → Prop) (Inv : σ → Prop)
    (hstep : ∀ s i, Inv s → (Inv (step s i) ↔ guard s i))
    {s : σ} (inputs : List ι) (hs : Inv s) :
    (∀ done todo, inputs = done ++ todo → Inv (run step s done)) ↔
      Along step guard s inputs := by
  constructor
  · intro h
    induction inputs generalizing s with
    | nil => trivial
    | cons i rest ih =>
        have hnext : Inv (step s i) := h [i] rest rfl
        refine ⟨(hstep s i hs).mp hnext, ih hnext fun done todo hsplit => ?_⟩
        exact h (i :: done) todo (by rw [hsplit]; rfl)
  · rintro h done todo rfl
    exact invariant_of_along Inv (fun t i ht hg => (hstep t i ht).mpr hg) (Along.append.mp h).1 hs

/-- Two step functions that agree through an abstraction, from the states of
an invariant, agree over whole runs. -/
theorem run_abs {τ : Type} (step' : τ → ι → τ) (Inv : σ → Prop) (abs : σ → τ)
    (hstep : ∀ s i, Inv s → Inv (step s i) ∧ abs (step s i) = step' (abs s) i)
    {s : σ} (inputs : List ι) (hs : Inv s) :
    abs (run step s inputs) = run step' (abs s) inputs := by
  induction inputs generalizing s with
  | nil => rfl
  | cons i rest ih =>
      obtain ⟨hnext, hsquare⟩ := hstep s i hs
      rw [run_cons, run_cons, ih hnext, hsquare]

end Driven

section Systems

/-- A transition system: where it may start and how it may move. -/
structure TSys (σ : Type) where
  init : σ → Prop
  step : σ → σ → Prop

variable {σ : Type} (M : TSys σ)

/-- The states some run gets to. -/
inductive TSys.Reachable : σ → Prop
  | init {s} : M.init s → TSys.Reachable s
  | step {s s'} : TSys.Reachable s → M.step s s' → TSys.Reachable s'

variable {M}

/-- An inductive property holds in every reachable state. -/
theorem TSys.Reachable.invariant (Inv : σ → Prop) (hinit : ∀ s, M.init s → Inv s)
    (hstep : ∀ s s', Inv s → M.step s s' → Inv s') {s : σ} (h : M.Reachable s) : Inv s := by
  induction h with
  | init hs => exact hinit _ hs
  | step _ hmove ih => exact hstep _ _ ih hmove

/-- A system whose steps are steps of another, or do not show there, gets to
no other states. -/
theorem TSys.Reachable.simulates {τ : Type} {N : TSys τ} (abs : σ → τ)
    (hinit : ∀ s, M.init s → N.init (abs s))
    (hstep : ∀ s s', M.Reachable s → M.step s s' → N.step (abs s) (abs s') ∨ abs s' = abs s)
    {s : σ} (h : M.Reachable s) : N.Reachable (abs s) := by
  induction h with
  | init hs => exact .init (hinit _ hs)
  | step hprev hmove ih =>
      rcases hstep _ _ hprev hmove with hnext | hsame
      · exact .step ih hnext
      · exact hsame ▸ ih

end Systems

end ServerStudy.Core
