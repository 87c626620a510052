import ServerStudy.Fmt.Formatter
import ServerStudy.Logic.Layout

/-!
# Runs of the formatter

Whatever the buffer held, a run of `format` appends one text that only the
format string and the arguments decide, or throws (`formatLoop_append`); and it
ends, since every replacement field moves the pointer on (`formatField_shrinks`).
-/

namespace ServerStudy.Fmt

open ServerStudy.Core

/-! ## The text of an argument -/

/-- An argument as the specification wants it. -/
def argText (arg : Arg) (spec : FormatSpec) : Except Text Text :=
  match arg with
  | .int value => intText value.toInt spec
  | .uint value => intText value.toNat spec
  | .longLong value => intText value.toInt spec
  | .ulongLong value => intText value.toNat spec
  | .bool value =>
      if spec.type ≠ 0 then intText (if value then 1 else 0) spec
      else strText (text (if value then "true" else "false")) spec
  | .char value => charText value spec
  | .string value => strText value spec

theorem visit_eq (w : Writer) {arg : Arg} {spec : FormatSpec}
    (hkept : arg.isNumeric = true → spec.PointerKept) :
    visit w arg spec = (argText arg spec).map w.append := by
  cases arg with
  | int value =>
      have := value.le_toInt
      have := value.toInt_lt
      refine writeInt_eq w (Or.inl rfl) ?_ ?_ (hkept rfl) <;> (norm_num; omega)
  | uint value =>
      have := value.toNat_lt
      exact writeInt_eq w (Or.inl rfl) (le_trans (by norm_num) (Int.natCast_nonneg _))
        (by norm_num; omega) (hkept rfl)
  | longLong value =>
      have := value.le_toInt
      have := value.toInt_lt
      refine writeInt_eq w (Or.inr rfl) ?_ ?_ (hkept rfl) <;> (norm_num; omega)
  | ulongLong value =>
      have := value.toNat_lt
      exact writeInt_eq w (Or.inr rfl) (le_trans (by norm_num) (Int.natCast_nonneg _))
        (by norm_num; omega) (hkept rfl)
  | bool value =>
      rw [visit, argText]
      split
      · exact writeInt_eq w (Or.inl rfl) (by cases value <;> decide) (by cases value <;> decide)
          (hkept rfl)
      · exact writeStr_eq w _ spec
  | char value => exact visitChar_eq w value (hkept rfl)
  | string value => exact writeStr_eq w value spec

/-! ## What a parser ensures -/

/-- What a parser returns, if it throws nothing, is in `P`. -/
def Ensures {α : Type} (P : α → Prop) (r : Except Text α) : Prop := ∀ x, r = .ok x → P x

namespace Ensures

variable {α β : Type} {P : α → Prop} {Q : β → Prop}

theorem ok {x : α} (h : P x) : Ensures P (.ok x) := by
  rintro _ ⟨⟩
  exact h

theorem error {e : Text} : Ensures P (.error e) := by
  rintro _ ⟨⟩

theorem bind {r : Except Text α} {f : α → Except Text β} (hr : Ensures P r)
    (hf : ∀ x, P x → Ensures Q (f x)) : Ensures Q (r >>= f) := by
  rcases r with e | x
  · exact error
  · exact hf x (hr x rfl)

/-- A check in front, or a step of which nothing need be known. -/
theorem check {r : Except Text α} {f : α → Except Text β} (hf : ∀ x, Ensures Q (f x)) :
    Ensures Q (r >>= f) :=
  bind (P := fun _ => True) (fun _ _ => trivial) fun x _ => hf x

theorem ite {p : Prop} [Decidable p] {r r' : Except Text α} (h : Ensures P r)
    (h' : Ensures P r') : Ensures P (if p then r else r') := by
  split
  · exact h
  · exact h'

end Ensures

/-! ## The precision of an integer

A precision is refused for a number, and nothing else sets one. -/

/-- A part of a specification that is no precision leaves the precision alone. -/
abbrev KeepsPrecision {α : Type} (spec : FormatSpec) (r : Except Text (FormatSpec × α)) : Prop :=
  Ensures (fun t => t.1.precision = spec.precision) r

theorem parseFillAlign_precision (arg : Arg) (spec : FormatSpec) (s : Text) :
    KeepsPrecision spec (parseFillAlign arg spec s) := by
  simp only [parseFillAlign]
  refine .ite (.ok rfl) ?_
  rcases alignmentOf (cur s.tail) with _ | align
  · rcases alignmentOf (cur s) with _ | align
    · exact .ok rfl
    · exact .check fun _ => .ok rfl
  · exact .ite (.ok rfl) (.ite .error (.check fun _ => .ok rfl))

theorem parseSign_precision (arg : Arg) (spec : FormatSpec) (s : Text) :
    KeepsPrecision spec (parseSign arg spec s) :=
  .ite (.check fun _ => .ok rfl) (.ite (.check fun _ => .ok rfl)
    (.ite (.check fun _ => .ok rfl) (.ok rfl)))

theorem parseHash_precision (arg : Arg) (spec : FormatSpec) (s : Text) :
    KeepsPrecision spec (parseHash arg spec s) :=
  .ite (.check fun _ => .ok rfl) (.ok rfl)

theorem parseZero_precision (arg : Arg) (spec : FormatSpec) (s : Text) :
    KeepsPrecision spec (parseZero arg spec s) :=
  .ite (.check fun _ => .ok rfl) (.ok rfl)

theorem parseWidth_precision (args : List Arg) (next : Int) (spec : FormatSpec) (s : Text) :
    KeepsPrecision spec (parseWidth args next spec s) :=
  .ite (.check fun _ => .ok rfl) (.ite (.check fun _ => .ok rfl) (.ok rfl))

theorem parsePrecision_precision {args : List Arg} {next : Int} {arg : Arg}
    (hnumeric : arg.isNumeric = true) (spec : FormatSpec) (s : Text) :
    KeepsPrecision spec (parsePrecision args next arg spec s) := by
  refine .ite (.check fun t => ?_) (.ok rfl)
  show KeepsPrecision spec (if arg.isNumeric = true then _ else _)
  rw [if_pos hnumeric]
  exact .error

theorem parseType_precision (spec : FormatSpec) (s : Text) :
    (parseType spec s).1.precision = spec.precision := by
  rw [parseType]
  split <;> rfl

/-- The formatter writes no number with a precision. -/
theorem parseSpec_precision {args : List Arg} {next : Int} {arg : Arg}
    (hnumeric : arg.isNumeric = true) (s : Text) :
    Ensures (fun t => t.1.precision = -1) (parseSpec args next arg s) := by
  refine .ite ?_ (.ok rfl)
  refine .bind (parseFillAlign_precision arg {} s.tail) fun t₁ h₁ => ?_
  refine .bind (parseSign_precision arg t₁.1 t₁.2) fun t₂ h₂ => ?_
  refine .bind (parseHash_precision arg t₂.1 t₂.2) fun t₃ h₃ => ?_
  refine .bind (parseZero_precision arg t₃.1 t₃.2) fun t₄ h₄ => ?_
  refine .bind (parseWidth_precision args next t₄.1 t₄.2) fun t₅ h₅ => ?_
  refine .bind (parsePrecision_precision hnumeric t₅.1 t₅.2.2) fun t₆ h₆ => ?_
  refine .ok ((parseType_precision t₆.1 t₆.2.2).trans ?_)
  rw [h₆, h₅, h₄, h₃, h₂, h₁]

/-- So what it hands out for a number it hands out before the digits. -/
theorem parseSpec_pointerKept {args : List Arg} {next next' : Int} {arg : Arg} {spec : FormatSpec}
    {s s' : Text} (h : parseSpec args next arg s = .ok (spec, next', s'))
    (hnumeric : arg.isNumeric = true) : spec.PointerKept := by
  intro _
  have hnone : spec.precision = -1 := parseSpec_precision hnumeric s _ h
  rw [hnone]
  decide

/-! ## Every run appends one text -/

/-- A field appends to the writer it is given and uses nothing else of it. -/
theorem formatField_append (args : List Arg) (next : Int) (s : Text) :
    ∃ r : Except Text (Text × Int × Text), ∀ w : Writer,
      formatField args w next s = r.map fun t => (w.append t.1, t.2) := by
  rcases harg : parseArg args next s with e | ⟨arg, next', s'⟩
  · refine ⟨.error e, fun w => ?_⟩
    rw [formatField, harg]
    rfl
  rcases hspec : parseSpec args next' arg s' with e | ⟨spec, next'', s''⟩
  · refine ⟨.error e, fun w => ?_⟩
    rw [formatField, harg]
    show formatArg args w next' arg s' = _
    rw [formatArg, hspec]
    rfl
  by_cases hclose : cur s'' ≠ char '}'
  · refine ⟨.error (text "missing '\x7d' in format string"), fun w => ?_⟩
    rw [formatField, harg]
    show formatArg args w next' arg s' = _
    rw [formatArg, hspec]
    exact if_pos hclose
  · refine ⟨(argText arg spec).map fun t => (t, next'', s''.tail), fun w => ?_⟩
    rw [formatField, harg]
    show formatArg args w next' arg s' = _
    rw [formatArg, hspec]
    refine (if_neg hclose).trans ?_
    rw [visit_eq w (parseSpec_pointerKept hspec)]
    cases argText arg spec <;> rfl

theorem formatLoop_append (args : List Arg) (fuel : Nat) (next : Int) (start s : Text) :
    ∃ r : Option (Except Text Text), ∀ w : Writer,
      formatLoop args fuel w next start s = r.map fun t => t.map w.append := by
  induction fuel generalizing next start s with
  | zero => exact ⟨none, fun _ => rfl⟩
  | succ fuel ih =>
      simp only [formatLoop]
      by_cases hend : cur s = 0
      · exact ⟨some (.ok (range start s)), fun w => if_pos hend⟩
      simp only [if_neg hend]
      by_cases hplain : cur s ≠ char '{' ∧ cur s ≠ char '}'
      · simp only [if_pos hplain]
        exact ih next start s.tail
      simp only [if_neg hplain]
      -- a text appended first joins what the rest of the run appends
      have hjoin : ∀ {r : Option (Except Text Text)} {run : Writer → Option (Except Text Writer)}
          (xs : Text), (∀ w : Writer, run w = r.map fun t => t.map w.append) →
          ∃ r' : Option (Except Text Text), ∀ w : Writer,
            run (w.append xs) = r'.map fun t => t.map w.append := by
        intro r run xs hrun
        refine ⟨r.map fun t => t.map (xs ++ ·), fun w => ?_⟩
        rw [hrun]
        rcases r with _ | e | t
        · rfl
        · rfl
        · exact congrArg (some ∘ Except.ok) (w.append_append xs t)
      by_cases hdouble : cur s.tail = cur s
      · simp only [if_pos hdouble]
        obtain ⟨r, hr⟩ := ih next s.tail.tail s.tail.tail
        exact hjoin _ hr
      simp only [if_neg hdouble]
      by_cases hclose : cur s = char '}'
      · simp only [if_pos hclose]
        exact ⟨some (.error _), fun _ => rfl⟩
      simp only [if_neg hclose]
      obtain ⟨field, hfield⟩ := formatField_append args next s.tail
      rcases field with e | ⟨t, next', s'⟩
      · refine ⟨some (.error e), fun w => ?_⟩
        rw [hfield]
        rfl
      · obtain ⟨r, hr⟩ := ih next' s' s'
        obtain ⟨r', hr'⟩ := hjoin (range start s ++ t) hr
        refine ⟨r', fun w => ?_⟩
        rw [hfield, ← hr', ← w.append_append]
        rfl

/-! ## The pointer moves on -/

/-- What a parser leaves is no longer than what it was given. -/
def Shrinks {α : Type} (rest : α → Text) (s : Text) (r : Except Text α) : Prop :=
  Ensures (fun x => (rest x).length ≤ s.length) r

namespace Shrinks

variable {α β : Type} {rest : α → Text} {rest' : β → Text} {s s' : Text}

theorem bind {r : Except Text α} {f : α → Except Text β} (hr : Shrinks rest s r)
    (hf : ∀ x, Shrinks rest' (rest x) (f x)) : Shrinks rest' s (r >>= f) :=
  Ensures.bind hr fun x hx y hy => le_trans (hf x y hy) hx

theorem mono {r : Except Text α} (h : Shrinks rest s r) (hle : s.length ≤ s'.length) :
    Shrinks rest s' r := fun x hx => le_trans (h x hx) hle

end Shrinks

theorem length_tail_le (s : Text) : s.tail.length ≤ s.length := by
  rw [List.length_tail]
  exact Nat.sub_le ..

theorem parseDigits_shrinks (value : Nat) (s : Text) :
    (parseDigits value s).2.length ≤ s.length := by
  induction s generalizing value with
  | nil => exact Nat.le_refl _
  | cons c s ih =>
      rw [parseDigits]
      split
      · dsimp only
        split
        · exact Nat.le_succ _
        · exact le_trans (ih _) (Nat.le_succ _)
      · exact Nat.le_refl _

theorem parseNonnegativeInt_shrinks (s : Text) :
    Shrinks Prod.snd s (parseNonnegativeInt s) := by
  rw [parseNonnegativeInt]
  exact .ite .error (.ok (parseDigits_shrinks 0 s))

theorem indexed_shrinks (s : Text) (found : Except Text Arg × Int) :
    Shrinks (fun t => t.2.2) s (indexed s found) := by
  rcases found with ⟨e | arg, next⟩
  · exact .error
  · exact .ok (Nat.le_refl _)

theorem parseArg_shrinks (args : List Arg) (next : Int) (s : Text) :
    Shrinks (fun t => t.2.2) s (parseArg args next s) := by
  have hname : Shrinks (fun t => t.2.2) s (parseArgName next) := by
    rw [parseArgName]
    rcases checkNoAutoIndex next with e | next
    · exact .error
    · exact .error
  have hindex : Shrinks (fun t => t.2.2) s (parseArgIndex args next s) :=
    .ite (Shrinks.bind (parseNonnegativeInt_shrinks s) fun _ => indexed_shrinks _ _)
      (indexed_shrinks _ _)
  exact .ite hname hindex

theorem parseFillAlign_shrinks (arg : Arg) (spec : FormatSpec) (s : Text) :
    Shrinks Prod.snd s (parseFillAlign arg spec s) := by
  simp only [parseFillAlign]
  refine .ite (.ok (Nat.le_refl _)) ?_
  rcases alignmentOf (cur s.tail) with _ | align
  · rcases alignmentOf (cur s) with _ | align
    · exact .ok (Nat.le_refl _)
    · exact .check fun _ => .ok (length_tail_le s)
  · exact .ite (.ok (Nat.le_refl _)) (.ite .error (.check fun _ =>
      .ok (le_trans (length_tail_le _) (length_tail_le s))))

theorem parseSign_shrinks (arg : Arg) (spec : FormatSpec) (s : Text) :
    Shrinks Prod.snd s (parseSign arg spec s) := by
  have hsigned : ∀ flags, Shrinks Prod.snd s (do
      checkSign arg (cur s)
      .ok ({ spec with flags := spec.flags ||| flags }, s.tail)) := fun _ =>
    .check fun _ => .ok (length_tail_le s)
  exact .ite (hsigned _) (.ite (hsigned _) (.ite (hsigned _) (.ok (Nat.le_refl _))))

theorem parseHash_shrinks (arg : Arg) (spec : FormatSpec) (s : Text) :
    Shrinks Prod.snd s (parseHash arg spec s) :=
  .ite (.check fun _ => .ok (length_tail_le s)) (.ok (Nat.le_refl _))

theorem parseZero_shrinks (arg : Arg) (spec : FormatSpec) (s : Text) :
    Shrinks Prod.snd s (parseZero arg spec s) :=
  .ite (.check fun _ => .ok (length_tail_le s)) (.ok (Nat.le_refl _))

theorem parseDynamic_shrinks (name : Text) (args : List Arg) (next : Int) (s : Text) :
    Shrinks (fun t => t.2.2) s (parseDynamic name args next s) := by
  refine .bind (parseArg_shrinks args next s) fun t => .ite .error ?_
  rcases dynamicValue name t.1 with e | value
  · exact .error
  · exact .ok (length_tail_le _)

theorem parseWidth_shrinks (args : List Arg) (next : Int) (spec : FormatSpec) (s : Text) :
    Shrinks (fun t => t.2.2) s (parseWidth args next spec s) := by
  refine .ite (Shrinks.bind (parseNonnegativeInt_shrinks s) fun _ => .ok (Nat.le_refl _))
    (.ite ?_ ?_)
  · refine Shrinks.bind ((parseDynamic_shrinks _ args next s.tail).mono (length_tail_le s)) ?_
    exact fun _ => .ok (Nat.le_refl _)
  · exact .ok (Nat.le_refl _)

theorem parsePrecisionValue_shrinks (args : List Arg) (next : Int) (s : Text) :
    Shrinks (fun t => t.2.2) s (parsePrecisionValue args next s) :=
  .ite (Shrinks.bind (parseNonnegativeInt_shrinks s) fun _ => .ok (Nat.le_refl _))
    (.ite ((parseDynamic_shrinks _ args next s.tail).mono (length_tail_le s)) .error)

theorem parsePrecision_shrinks (args : List Arg) (next : Int) (arg : Arg) (spec : FormatSpec)
    (s : Text) : Shrinks (fun t => t.2.2) s (parsePrecision args next arg spec s) := by
  refine .ite ?_ (.ok (Nat.le_refl _))
  refine Shrinks.bind ((parsePrecisionValue_shrinks args next s.tail).mono (length_tail_le s)) ?_
  exact fun _ => .ite .error (.ok (Nat.le_refl _))

theorem parseType_shrinks (spec : FormatSpec) (s : Text) :
    (parseType spec s).2.length ≤ s.length := by
  rw [parseType]
  split
  · exact length_tail_le s
  · exact Nat.le_refl _

theorem parseSpec_shrinks (args : List Arg) (next : Int) (arg : Arg) (s : Text) :
    Shrinks (fun t => t.2.2) s (parseSpec args next arg s) := by
  refine .ite (Shrinks.mono ?_ (length_tail_le s)) (.ok (Nat.le_refl _))
  refine .bind (parseFillAlign_shrinks arg {} s.tail) fun t₁ => ?_
  refine .bind (parseSign_shrinks arg t₁.1 t₁.2) fun t₂ => ?_
  refine .bind (parseHash_shrinks arg t₂.1 t₂.2) fun t₃ => ?_
  refine .bind (parseZero_shrinks arg t₃.1 t₃.2) fun t₄ => ?_
  refine .bind (parseWidth_shrinks args next t₄.1 t₄.2) fun t₅ => ?_
  refine .bind (parsePrecision_shrinks args t₅.2.1 arg t₅.1 t₅.2.2) fun t₆ => ?_
  exact .ok (parseType_shrinks t₆.1 t₆.2.2)

/-- A field ends behind a `'}'`. -/
theorem formatField_shrinks {args : List Arg} {w w' : Writer} {next next' : Int} {s s' : Text}
    (h : formatField args w next s = .ok (w', next', s')) : s'.length < s.length := by
  rcases harg : parseArg args next s with e | ⟨arg, next₁, s₁⟩
  · rw [formatField, harg] at h
    cases h
  have hlen₁ := parseArg_shrinks args next s _ harg
  rw [formatField, harg] at h
  change formatArg args w next₁ arg s₁ = _ at h
  rcases hspec : parseSpec args next₁ arg s₁ with e | ⟨spec, next₂, s₂⟩
  · rw [formatArg, hspec] at h
    cases h
  have hlen₂ := parseSpec_shrinks args next₁ arg s₁ _ hspec
  rw [formatArg, hspec] at h
  by_cases hclose : cur s₂ ≠ char '}'
  · cases (if_pos hclose).symm.trans h
  · replace h := (if_neg hclose).symm.trans h
    rcases hvisit : visit w arg spec with e | w₂
    · rw [hvisit] at h
      cases h
    · rw [hvisit] at h
      cases h
      have hcons : 0 < s₂.length := by
        rcases s₂ with _ | ⟨c, s₂⟩
        · exact absurd (by decide) hclose
        · exact Nat.succ_pos _
      rw [List.length_tail]
      dsimp only at hlen₁ hlen₂
      omega

/-- With more fuel than there are characters the loop comes to its end. -/
theorem formatLoop_ends (args : List Arg) {fuel : Nat} (w : Writer) (next : Int) (start : Text)
    {s : Text} (hfuel : s.length < fuel) :
    ∃ result, formatLoop args fuel w next start s = some result := by
  induction fuel generalizing w next start s with
  | zero => cases hfuel
  | succ fuel ih =>
      rw [formatLoop]
      split
      · exact ⟨_, rfl⟩
      rename_i hend
      have hcons : 0 < s.length := by
        rcases s with _ | ⟨c, s⟩
        · exact absurd rfl hend
        · exact Nat.succ_pos _
      have htail : s.tail.length = s.length - 1 := List.length_tail
      have htail' : s.tail.tail.length ≤ s.tail.length := length_tail_le _
      dsimp only
      split
      · exact ih _ _ _ (by omega)
      split
      · exact ih _ _ _ (by omega)
      split
      · exact ⟨_, rfl⟩
      rcases hfield : formatField args (w.append (range start s)) next s.tail with
        e | ⟨w', next', s'⟩
      · exact ⟨_, rfl⟩
      · have := formatField_shrinks hfield
        exact ih _ _ _ (by omega)

/-! ## The formatter as a function of its text -/

/-- What `format` returns or throws is decided by the format string and the
arguments. -/
theorem format_eq (formatStr : Text) (args : List Arg) :
    ∃ result : Except Text Text, ∀ m, format m formatStr args = some result := by
  obtain ⟨r, hr⟩ := formatLoop_append args (formatStr.length + 1) 0 formatStr formatStr
  obtain ⟨result, hends⟩ := formatLoop_ends args ⟨fun _ => 0, 0⟩ 0 formatStr
    (Nat.lt_succ_self formatStr.length)
  rw [hr] at hends
  rcases r with _ | r
  · cases hends
  refine ⟨r, fun m => ?_⟩
  rw [format, hr]
  rcases r with e | t
  · rfl
  · exact congrArg (some ∘ Except.ok) (Writer.str_append ⟨m, 0⟩ t)

end ServerStudy.Fmt
