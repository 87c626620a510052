import ServerStudy.Logic.Template

/-!
# The formatter reads templates

Each parser of the formatter, given the text of its part of a specification and
whatever may follow it, leaves what follows and does what the part means. The
parts keep apart because a character that begins one belongs to no earlier one:
`rank` numbers the parts by their characters.
-/

namespace ServerStudy.Fmt

open ServerStudy.Core

/-! ## Numbers -/

theorem isDigit_decimalDigit :
    ∀ d < 10, isDigit (decimalDigit d) ∧ (decimalDigit d).toNat = 48 + d := by
  decide

/-- Digits read one by one add up, as long as nothing wraps. -/
theorem parseDigits_decimal {value n : Nat} (rest : Text)
    (h : value * 10 ^ (decimal n).length + n < 2 ^ 32) :
    parseDigits value (decimal n ++ rest) =
      parseDigits (value * 10 ^ (decimal n).length + n) rest := by
  rw [decimal_eq] at h ⊢
  -- one digit read without a wrap
  have hstep : ∀ v d rest, d < 10 → v * 10 + d < 2 ^ 32 →
      parseDigits v (decimalDigit d :: rest) = parseDigits (v * 10 + d) rest := by
    intro v d rest hd hv
    obtain ⟨hdigit, hvalue⟩ := isDigit_decimalDigit d hd
    rw [parseDigits, if_pos hdigit]
    dsimp only
    rw [hvalue, Nat.add_sub_cancel_left, Nat.mod_eq_of_lt hv, if_neg (by omega)]
  induction n using Nat.strongRecOn generalizing rest with
  | ind n ih =>
      rcases Nat.lt_or_ge n 10 with hn | hn
      · rw [digitsOf_of_lt _ hn] at h ⊢
        exact hstep value n rest hn (by simpa using h)
      · rw [digitsOf_of_le _ (by decide) hn, List.length_append, List.length_singleton,
          Nat.pow_succ, ← Nat.mul_assoc] at h ⊢
        rw [List.append_assoc, ih (n / 10) (by omega) _ (by omega), List.singleton_append,
          hstep _ _ _ (Nat.mod_lt _ (by decide)) (by omega)]
        congr 1
        omega

theorem parseDigits_of_not_digit {value : Nat} {rest : Text} (h : isDigit (cur rest) = false) :
    parseDigits value rest = (value, rest) := by
  rcases rest with _ | ⟨c, rest⟩
  · rfl
  · rw [parseDigits, if_neg (by simpa [cur] using h)]

/-- `parse_nonnegative_int` reads back every `int` written in decimal. -/
theorem parseNonnegativeInt_decimal {n : Nat} (hn : n < 2 ^ 31) {rest : Text}
    (hrest : isDigit (cur rest) = false) :
    parseNonnegativeInt (decimal n ++ rest) = .ok (n, rest) := by
  have hdigits := parseDigits_decimal rest
    (by omega : 0 * 10 ^ (decimal n).length + n < 2 ^ 32)
  rw [Nat.zero_mul, Nat.zero_add, parseDigits_of_not_digit hrest] at hdigits
  rw [parseNonnegativeInt, hdigits]
  exact if_neg (by omega)

/-- A number begins with a digit, and with a zero only if it is zero. -/
theorem cur_decimal (n : Nat) (rest : Text) : ∃ d < 10,
    cur (decimal n ++ rest) = decimalDigit d ∧ (0 < n → 0 < d) := by
  rw [decimal_eq]
  induction n using Nat.strongRecOn generalizing rest with
  | ind n ih =>
      rcases Nat.lt_or_ge n 10 with hn | hn
      · rw [digitsOf_of_lt _ hn]
        exact ⟨n, hn, rfl, id⟩
      · rw [digitsOf_of_le _ (by decide) hn, List.append_assoc]
        obtain ⟨d, hd, hcur, hpos⟩ := ih (n / 10) (by omega) ([decimalDigit (n % 10)] ++ rest)
        exact ⟨d, hd, hcur, fun _ => hpos (by omega)⟩

/-! ## Which part a character belongs to -/

/-- The parts by their first characters: 1 the sign, 2 `#`, 3 the zero flag, 4 a
width, 5 a precision, 6 a type, 7 the end. -/
def rank (c : Byte) : Nat :=
  if c = char '}' then 7
  else if isNameStart c then 6
  else if c = char '.' then 5
  else if c = char '{' then 4
  else if c = char '0' then 3
  else if isDigit c then 4
  else if c = char '#' then 2
  else if c = char '+' ∨ c = char '-' ∨ c = char ' ' then 1
  else 0

/-- What a character of a later part is not. -/
def RankSound (c : Byte) : Prop :=
  (0 < rank c → alignmentOf c = none ∧ c ≠ 0) ∧
  (1 < rank c → c ≠ char '+' ∧ c ≠ char '-' ∧ c ≠ char ' ') ∧
  (2 < rank c → c ≠ char '#') ∧ (3 < rank c → c ≠ char '0') ∧
  (4 < rank c → isDigit c = false ∧ c ≠ char '{') ∧ (5 < rank c → c ≠ char '.') ∧
  (6 < rank c → c = char '}')

instance (c : Byte) : Decidable (RankSound c) := inferInstanceAs (Decidable (_ ∧ _))

theorem rank_sound (c : Byte) : RankSound c := by
  have hall : ∀ n < 256, RankSound (UInt8.ofNat n) := by decide +kernel
  have hc := hall c.toNat c.toNat_lt
  rwa [UInt8.ofNat_toNat] at hc

theorem rank_digit : ∀ d < 10, 3 ≤ rank (decimalDigit d) ∧ (0 < d → rank (decimalDigit d) = 4) := by
  decide

theorem rank_type {c : Byte} (h : isNameStart c) : 6 ≤ rank c := by
  rw [rank, if_pos h]
  split <;> decide

/-! ## The parts of a specification -/

section Parts

variable {parts : SpecParts} {args : List Arg} {arg : Arg} {spec : FormatSpec} {rest : Text}

/-- Results related by `g` go on to results related by `h`. -/
theorem bind_map {α α' β β' : Type} {r : Except Text α} {g : α → α'} {h : β → β'}
    {k : α' → Except Text β'} {k' : α → Except Text β} (hk : ∀ x, k (g x) = (k' x).map h) :
    (r.map g >>= k) = (r >>= k').map h := by
  rcases r with e | x
  · rfl
  · exact hk x

theorem check_map {α β : Type} (check : Except Text Unit) (x : α) (f : α → β) :
    (check >>= fun _ => .ok (f x)) = (check >>= fun _ => Except.ok x).map f := by
  cases check <;> rfl

theorem parseSign_text (hrest : 1 < rank (cur rest)) :
    parseSign arg spec (parts.signText ++ rest) = (evalSign parts arg spec).map (·, rest) := by
  rw [SpecParts.signText, evalSign]
  rcases parts.sign with _ | sign
  · obtain ⟨hplus, hminus, hspace⟩ := (rank_sound _).2.1 hrest
    exact (if_neg hplus).trans ((if_neg hminus).trans (if_neg hspace))
  · have hsigned : parseSign arg spec (sign.char :: rest) = (do
        checkSign arg sign.char
        .ok ({ spec with flags := spec.flags ||| sign.flags }, rest)) := by
      cases sign <;> rfl
    exact hsigned.trans (check_map (checkSign arg sign.char) _ (·, rest))

theorem parseHash_text (hrest : 2 < rank (cur rest)) :
    parseHash arg spec (parts.hashText ++ rest) = (evalHash parts arg spec).map (·, rest) := by
  rw [SpecParts.hashText, evalHash]
  cases parts.hash with
  | false => exact if_neg ((rank_sound _).2.2.1 hrest)
  | true =>
      exact (if_pos rfl).trans (check_map (requireNumericArgument arg (char '#')) _ (·, rest))

theorem parseZero_text (hrest : 3 < rank (cur rest)) :
    parseZero arg spec (parts.zeroText ++ rest) = (evalZero parts arg spec).map (·, rest) := by
  rw [SpecParts.zeroText, evalZero]
  cases parts.zero with
  | false => exact if_neg ((rank_sound _).2.2.2.1 hrest)
  | true =>
      exact (if_pos rfl).trans (check_map (requireNumericArgument arg (char '0')) _ (·, rest))

theorem parseFillAlign_text (hrest : 0 < rank (cur rest))
    (htail : parts.align = none → 0 < rank (cur rest.tail)) :
    parseFillAlign arg spec (parts.align.elim [] AlignPart.print ++ rest) =
      (evalAlign parts arg spec).map (·, rest) := by
  rw [evalAlign]
  rcases hpart : parts.align with _ | part
  · obtain ⟨hhead, hnonzero⟩ := (rank_sound (cur rest)).1 hrest
    have hnext := ((rank_sound (cur rest.tail)).1 (htail hpart)).1
    show parseFillAlign arg spec rest = _
    simp only [parseFillAlign, if_neg hnonzero, hnext, hhead]
    rfl
  · have hcheck := check_map (checkAlignment arg part.align)
      { spec with align := part.align, fill := part.fill.getD spec.fill } (·, rest)
    obtain ⟨halign, hnonzero⟩ : alignmentOf part.align.char = some part.align ∧
        part.align.char ≠ 0 := by
      have hexplicit := part.explicit
      revert hexplicit
      cases part.align <;> decide
    show parseFillAlign arg spec (part.fill.toList ++ [part.align.char] ++ rest) = _
    rcases hfill : part.fill with _ | c
    · have hnext : alignmentOf (cur (part.align.char :: rest).tail) = none :=
        ((rank_sound (cur rest)).1 hrest).1
      have hcur : cur (part.align.char :: rest) = part.align.char := rfl
      rw [hfill] at hcheck
      show parseFillAlign arg spec (part.align.char :: rest) = _
      simp only [parseFillAlign, hcur, if_neg hnonzero, hnext, halign, hfill]
      exact hcheck
    · obtain ⟨hzero, hopen, hclose⟩ := part.fill_ok c hfill
      have hcur : cur (c :: part.align.char :: rest) = c := rfl
      have hnext : alignmentOf (cur (c :: part.align.char :: rest).tail) = some part.align := halign
      rw [hfill] at hcheck
      show parseFillAlign arg spec (c :: part.align.char :: rest) = _
      simp only [parseFillAlign, hcur, if_neg hzero, hnext, if_neg hopen, if_neg hclose, hfill]
      exact hcheck

end Parts

/-! ## Indices and counts -/

section Counts

variable {args : List Arg} {st : Indexing} {rest : Text}

theorem not_name_digit : ∀ d < 10, isNameStart (decimalDigit d) = false := by decide

/-- The argument of a field, or of a count. -/
theorem parseArg_text (index : Option Index) (hrest : cur rest = char '}' ∨ cur rest = char ':') :
    parseArg args st.toInt (indexText index ++ rest) =
      (st.pick args (index.map Subtype.val)).map fun t => (t.1, t.2.toInt, rest) := by
  have hend : ¬ (cur rest ≠ char '}' ∧ cur rest ≠ char ':') := by
    rintro ⟨h, h'⟩
    exact hrest.elim h h'
  have hindexed : ∀ (r : Except Text Arg) (st' : Indexing),
      indexed rest (r, st'.toInt) = (r.map (·, st')).map fun t => (t.1, t.2.toInt, rest) := by
    rintro (e | found) st'
    · exact congrArg Except.error (if_neg hend)
    · rfl
  have hfail : ∀ (e : Text) (next : Int), indexed rest (.error e, next) = .error e :=
    fun _ _ => congrArg Except.error (if_neg hend)
  rcases index with _ | ⟨i, hi⟩
  · have hname : isNameStart (cur rest) = false := by
      rcases hrest with h | h <;> rw [h] <;> decide
    have hdigit : isDigit (cur rest) = false := by
      rcases hrest with h | h <;> rw [h] <;> decide
    show parseArg args st.toInt rest = _
    rw [parseArg, hname, parseArgIndex, hdigit]
    cases st with
    | automatic used => exact hindexed (doGetArg args used) (.automatic (used + 1))
    | manual => exact hfail _ (-1)
  · have hdigit : isDigit (cur rest) = false := by
      rcases hrest with h | h <;> rw [h] <;> decide
    obtain ⟨d, hd, hcur, -⟩ := cur_decimal i rest
    show parseArg args st.toInt (decimal i ++ rest) = _
    rw [parseArg, hcur, not_name_digit d hd, parseArgIndex, hcur, (isDigit_decimalDigit d hd).1,
      parseNonnegativeInt_decimal hi hdigit]
    cases st with
    | automatic used =>
        cases used with
        | zero => exact hindexed (doGetArg args i) .manual
        | succ used =>
            have hcheck : checkNoAutoIndex (Indexing.automatic (used + 1)).toInt =
                .error (text "cannot switch from automatic to manual argument indexing") :=
              if_pos (show (0 : Int) < (used + 1 : Nat) by omega)
            show indexed rest (getArg args (Indexing.automatic (used + 1)).toInt i) = _
            rw [getArg, hcheck]
            exact hfail _ _
    | manual => exact hindexed (doGetArg args i) .manual

theorem parseDynamic_text (name : Text) (index : Option Index) :
    parseDynamic name args st.toInt (indexText index ++ (char '}' :: rest)) =
      ((Count.arg index).eval name args st).map fun t => (t.1, t.2.toInt, rest) := by
  rw [parseDynamic, parseArg_text index (Or.inl rfl), Count.eval]
  rcases st.pick args (index.map Subtype.val) with e | ⟨found, st'⟩
  · rfl
  · show (do
      let value ← dynamicValue name found
      .ok (value, st'.toInt, rest)) = Except.map _ (do
        let value ← dynamicValue name found
        .ok (value, st'))
    cases dynamicValue name found <;> rfl

end Counts

section Parts

variable {parts : SpecParts} {args : List Arg} {st : Indexing} {arg : Arg} {spec : FormatSpec}
  {rest : Text}

theorem parseWidth_text (hrest : 4 < rank (cur rest)) :
    parseWidth args st.toInt spec (parts.widthText ++ rest) =
      (evalWidth parts args st spec).map fun t => (t.1, t.2.toInt, rest) := by
  obtain ⟨hdigit, hbrace⟩ := (rank_sound _).2.2.2.2.1 hrest
  rw [SpecParts.widthText, evalWidth]
  rcases parts.width with _ | count
  · show parseWidth args st.toInt spec rest = _
    rw [parseWidth, hdigit]
    exact if_neg hbrace
  cases count with
  | lit n hn =>
      obtain ⟨d, hd, hcur, -⟩ := cur_decimal n rest
      show parseWidth args st.toInt spec (decimal n ++ rest) = _
      rw [parseWidth, hcur, (isDigit_decimalDigit d hd).1, parseNonnegativeInt_decimal hn hdigit]
      rfl
  | arg index =>
      show parseWidth args st.toInt spec
        (char '{' :: (indexText index ++ [char '}'] ++ rest)) = _
      rw [List.append_assoc, List.singleton_append]
      show (parseDynamic (text "width") args st.toInt (indexText index ++ (char '}' :: rest)) >>=
        fun t => .ok ({ spec with width := t.1 }, t.2.1, t.2.2)) = _
      rw [parseDynamic_text]
      exact bind_map (fun _ => rfl)

theorem parsePrecision_text (hrest : 5 < rank (cur rest)) :
    parsePrecision args st.toInt arg spec (parts.precisionText ++ rest) =
      (evalPrecision parts args st arg spec).map fun t => (t.1, t.2.toInt, rest) := by
  obtain ⟨hdigit, -⟩ := (rank_sound _).2.2.2.2.1 (lt_trans (by decide) hrest)
  rw [SpecParts.precisionText, evalPrecision]
  rcases parts.precision with _ | count
  · exact if_neg ((rank_sound _).2.2.2.2.2.1 hrest)
  -- the value read, then the check of the argument
  have hvalue : parsePrecisionValue args st.toInt (count.print ++ rest) =
      (count.eval (text "precision") args st).map fun t => (t.1, t.2.toInt, rest) := by
    cases count with
    | lit n hn =>
        obtain ⟨d, hd, hcur, -⟩ := cur_decimal n rest
        show parsePrecisionValue args st.toInt (decimal n ++ rest) = _
        rw [parsePrecisionValue, hcur, (isDigit_decimalDigit d hd).1,
          parseNonnegativeInt_decimal hn hdigit]
        rfl
    | arg index =>
        show parsePrecisionValue args st.toInt
          (char '{' :: (indexText index ++ [char '}'] ++ rest)) = _
        rw [List.append_assoc, List.singleton_append]
        exact parseDynamic_text (text "precision") index
  show (parsePrecisionValue args st.toInt (count.print ++ rest) >>= fun t =>
    if arg.isNumeric then .error (text "precision not allowed in integer format specifier")
    else .ok ({ spec with precision := t.1 }, t.2.1, t.2.2)) = _
  rw [hvalue]
  refine bind_map fun t => ?_
  cases arg.isNumeric <;> rfl

theorem parseType_text (hrest : cur rest = char '}') :
    parseType spec (parts.type.toList ++ rest) =
      ({ spec with type := parts.type.getD spec.type }, rest) := by
  rcases htype : parts.type with _ | c
  · show parseType spec rest = _
    rw [parseType, hrest]
    rfl
  · have hname := parts.type_ok c htype
    have hother : c ≠ char '}' ∧ c ≠ 0 := by
      constructor <;> rintro rfl <;> exact absurd hname (by decide)
    exact if_pos hother

/-! ## The parts keep apart -/

theorem le_rank_append {k : Nat} {part : Text} (hpart : ∀ c tl, part = c :: tl → k ≤ rank c)
    (hrest : k ≤ rank (cur rest)) : k ≤ rank (cur (part ++ rest)) := by
  rcases part with _ | ⟨c, tl⟩
  · exact hrest
  · exact hpart c tl rfl

theorem rank_typeText (c : Byte) (tl : Text) (h : parts.type.toList = c :: tl) : 6 ≤ rank c := by
  rcases htype : parts.type with _ | c' <;> rw [htype] at h <;> cases h
  exact rank_type (parts.type_ok c htype)

theorem rank_precisionText (c : Byte) (tl : Text) (h : parts.precisionText = c :: tl) :
    5 ≤ rank c := by
  rw [SpecParts.precisionText] at h
  rcases hprecision : parts.precision with _ | count <;> rw [hprecision] at h <;> cases h
  decide

theorem rank_widthText (c : Byte) (tl : Text) (h : parts.widthText = c :: tl) : 4 ≤ rank c := by
  rw [SpecParts.widthText] at h
  rcases hwidth : parts.width with _ | count <;> rw [hwidth] at h
  · cases h
  cases count with
  | arg index =>
      cases h
      decide
  | lit n hn =>
      obtain ⟨d, hd, hcur, hpos⟩ := cur_decimal n []
      have hn0 : 0 < n := Nat.pos_of_ne_zero fun h0 => by
        subst h0
        exact parts.width_pos hn hwidth
      rw [List.append_nil, show decimal n = c :: tl from h] at hcur
      exact ((show c = decimalDigit d from hcur) ▸ (rank_digit d hd).2 (hpos hn0)).ge

theorem rank_zeroText (c : Byte) (tl : Text) (h : parts.zeroText = c :: tl) : 3 ≤ rank c := by
  rw [SpecParts.zeroText] at h
  split at h <;> cases h
  decide

theorem rank_hashText (c : Byte) (tl : Text) (h : parts.hashText = c :: tl) : 2 ≤ rank c := by
  rw [SpecParts.hashText] at h
  split at h <;> cases h
  decide

theorem rank_signText (c : Byte) (tl : Text) (h : parts.signText = c :: tl) : 1 ≤ rank c := by
  rw [SpecParts.signText] at h
  rcases hsign : parts.sign with _ | sign <;> rw [hsign] at h <;> cases h
  cases sign <;> decide

theorem mem_decimal {n : Nat} : ∀ c ∈ decimal n, ∃ d < 10, c = decimalDigit d := by
  rw [decimal_eq]
  induction n using Nat.strongRecOn with
  | ind n ih =>
      intro c hc
      rcases Nat.lt_or_ge n 10 with hn | hn
      · rw [digitsOf_of_lt _ hn, List.mem_singleton] at hc
        exact ⟨n, hn, hc⟩
      · rw [digitsOf_of_le _ (by decide) hn, List.mem_append, List.mem_singleton] at hc
        rcases hc with hc | hc
        · exact ih (n / 10) (by omega) c hc
        · exact ⟨n % 10, Nat.mod_lt _ (by decide), hc⟩

theorem rank_mem_decimal {n : Nat} : ∀ c ∈ decimal n, 0 < rank c := by
  intro c hc
  obtain ⟨d, hd, rfl⟩ := mem_decimal c hc
  exact lt_of_lt_of_le (by decide) (rank_digit d hd).1

theorem rank_mem_count {count : Count} : ∀ c ∈ count.print, 0 < rank c := by
  intro c hc
  cases count with
  | lit n _ => exact rank_mem_decimal c hc
  | arg index =>
      rw [Count.print, List.mem_cons, List.mem_append, List.mem_singleton] at hc
      rcases hc with rfl | hc | rfl
      · decide
      · rcases index with _ | i
        · cases hc
        · exact rank_mem_decimal c hc
      · decide

/-- No character behind the alignment is an alignment character. -/
theorem rank_mem_printRest : ∀ c ∈ parts.printRest, 0 < rank c := by
  intro c hc
  simp only [SpecParts.printRest, List.mem_append] at hc
  rcases hc with hc | hc | hc | hc | hc | hc
  · rw [SpecParts.signText, Option.mem_toList] at hc
    obtain ⟨sign, -, rfl⟩ := Option.map_eq_some_iff.mp hc
    cases sign <;> decide
  · rw [SpecParts.hashText] at hc
    split at hc
    · rw [List.mem_singleton.mp hc]
      decide
    · cases hc
  · rw [SpecParts.zeroText] at hc
    split at hc
    · rw [List.mem_singleton.mp hc]
      decide
    · cases hc
  · rw [SpecParts.widthText] at hc
    rcases hwidth : parts.width with _ | count <;> rw [hwidth] at hc
    · cases hc
    · exact rank_mem_count c hc
  · rw [SpecParts.precisionText] at hc
    rcases hprecision : parts.precision with _ | count <;> rw [hprecision] at hc
    · cases hc
    · rcases List.mem_cons.mp hc with rfl | hc
      · decide
      · exact rank_mem_count c hc
  · rw [Option.mem_toList] at hc
    exact lt_of_lt_of_le (by decide) (rank_type (parts.type_ok c hc))

/-- A whole specification, up to the `'}'` behind it. -/
theorem parseSpecText_print (spec : Spec) (hrest : cur rest = char '}') :
    parseSpecText args st.toInt arg (spec.print ++ rest) =
      (spec.eval args st arg).map fun t => (t.1, t.2.toInt, rest) := by
  have h₇ : 7 ≤ rank (cur rest) := by
    rw [hrest]
    decide
  have h₆ : 6 ≤ rank (cur (spec.type.toList ++ rest)) :=
    le_rank_append rank_typeText (le_trans (by decide) h₇)
  have h₅ : 5 ≤ rank (cur (spec.precisionText ++ (spec.type.toList ++ rest))) :=
    le_rank_append rank_precisionText (le_trans (by decide) h₆)
  have h₄ : 4 ≤ rank (cur (spec.widthText ++ _)) :=
    le_rank_append rank_widthText (le_trans (by decide) h₅)
  have h₃ : 3 ≤ rank (cur (spec.zeroText ++ _)) :=
    le_rank_append rank_zeroText (le_trans (by decide) h₄)
  have h₂ : 2 ≤ rank (cur (spec.hashText ++ _)) :=
    le_rank_append rank_hashText (le_trans (by decide) h₃)
  have h₁ : 1 ≤ rank (cur (spec.signText ++ _)) :=
    le_rank_append rank_signText (le_trans (by decide) h₂)
  have hsplit : spec.print ++ rest = spec.align.elim [] AlignPart.print ++
      (spec.signText ++ (spec.hashText ++ (spec.zeroText ++ (spec.widthText ++
        (spec.precisionText ++ (spec.type.toList ++ rest)))))) := by
    simp only [SpecParts.print, SpecParts.printRest, List.append_assoc]
  have hsecond : spec.align = none → 0 < rank (cur (spec.signText ++ (spec.hashText ++
      (spec.zeroText ++ (spec.widthText ++ (spec.precisionText ++
        (spec.type.toList ++ rest)))))).tail) := by
    intro hnone
    have hnonempty : spec.printRest ≠ [] := by
      have := spec.nonempty
      rwa [SpecParts.print, hnone] at this
    have hjoin : spec.signText ++ (spec.hashText ++ (spec.zeroText ++ (spec.widthText ++
        (spec.precisionText ++ (spec.type.toList ++ rest))))) = spec.printRest ++ rest := by
      simp only [SpecParts.printRest, List.append_assoc]
    rw [hjoin, List.tail_append_of_ne_nil hnonempty]
    refine le_rank_append (fun c tl htl => ?_) (le_trans (by decide) h₇)
    exact rank_mem_printRest c (List.mem_of_mem_tail (htl ▸ List.mem_cons_self))
  rw [hsplit, parseSpecText, parseFillAlign_text h₁ hsecond]
  refine bind_map fun spec₁ => ?_
  dsimp only
  rw [parseSign_text h₂]
  refine bind_map fun spec₂ => ?_
  dsimp only
  rw [parseHash_text h₃]
  refine bind_map fun spec₃ => ?_
  dsimp only
  rw [parseZero_text h₄]
  refine bind_map fun spec₄ => ?_
  dsimp only
  rw [parseWidth_text h₅]
  refine bind_map fun t₅ => ?_
  dsimp only
  rw [parsePrecision_text h₆]
  refine bind_map fun t₆ => ?_
  dsimp only
  rw [parseType_text hrest]
  rfl

end Parts

/-! ## Fields and templates -/

/-- A replacement field, up to behind its `'}'`. -/
theorem formatField_print (f : Field) (args : List Arg) (st : Indexing) (w : Writer) (rest : Text) :
    formatField args w st.toInt (indexText f.index ++ f.specText ++ [char '}'] ++ rest) =
      (f.render args st).map fun t => (w.append t.1, t.2.toInt, rest) := by
  have hbehind : cur (f.specText ++ (char '}' :: rest)) = char '}' ∨
      cur (f.specText ++ (char '}' :: rest)) = char ':' := by
    rw [Field.specText]
    rcases f.spec with _ | spec
    · exact Or.inl rfl
    · exact Or.inr rfl
  have hspec : ∀ (st' : Indexing) (arg : Arg),
      parseSpec args st'.toInt arg (f.specText ++ (char '}' :: rest)) =
        (f.spec.elim (.ok ({}, st')) fun spec => spec.eval args st' arg).map fun t =>
          (t.1, t.2.toInt, char '}' :: rest) := by
    intro st' arg
    rw [Field.specText]
    rcases f.spec with _ | spec
    · rfl
    · exact (if_pos rfl).trans (parseSpecText_print spec rfl)
  rw [List.append_assoc, List.append_assoc, List.singleton_append, formatField,
    parseArg_text f.index hbehind]
  refine bind_map fun found => ?_
  dsimp only
  rw [formatArg]
  rcases heval : (f.spec.elim (.ok ({}, found.2)) fun spec => spec.eval args found.2 found.1) with
    e | ⟨spec, st'⟩
  · rw [hspec, heval]
    rfl
  · have hparsed := hspec found.2 found.1
    rw [heval] at hparsed
    rw [hparsed, heval]
    show (visit w found.1 spec >>= fun w => .ok (w, st'.toInt, rest)) =
      Except.map _ (argText found.1 spec >>= fun shown => .ok (shown, st'))
    rw [visit_eq w (parseSpec_pointerKept hparsed)]
    exact bind_map fun _ => rfl

theorem cur_field_ne (f : Field) (rest : Text) :
    cur (indexText f.index ++ f.specText ++ [char '}'] ++ rest) ≠ char '{' := by
  rw [List.append_assoc, List.append_assoc]
  rcases f.index with _ | i
  · rw [Field.specText]
    rcases f.spec with _ | spec
    · exact show char '}' ≠ char '{' by decide
    · exact show char ':' ≠ char '{' by decide
  · obtain ⟨d, hd, hcur, -⟩ := cur_decimal i (f.specText ++ ([char '}'] ++ rest))
    have hdigit : ∀ d < 10, decimalDigit d ≠ char '{' := by decide
    rw [show indexText (some i) = decimal i from rfl, hcur]
    exact hdigit d hd

theorem range_append (pending s : Text) : range (pending ++ s) s = pending := by
  rw [range, List.length_append, Nat.add_sub_cancel]
  exact List.take_left

theorem render_cons {args : List Arg} {st st' : Indexing} {piece : Piece} {shown : Text}
    (h : piece.render args st = .ok (shown, st')) (pieces : List Piece) :
    render args st (piece :: pieces) = (render args st' pieces).map (shown ++ ·) := by
  rw [render, h]
  show (render args st' pieces >>= fun rest => .ok (shown ++ rest)) = _
  cases render args st' pieces <;> rfl

/-- What a piece shows is appended before the rest. -/
theorem map_append_shown (r : Except Text Text) (w : Writer) (pending shown : Text) :
    (r.map fun t => (w.append (pending ++ shown)).append ([] ++ t)) =
      (r.map (shown ++ ·)).map fun t => w.append (pending ++ t) := by
  rcases r with e | t
  · rfl
  · refine congrArg Except.ok ((w.append_append _ _).trans ?_)
    rw [List.append_assoc]
    rfl

/-- Characters pending, then a template: both are appended. -/
theorem formatLoop_print (args : List Arg) (pieces : List Piece) {fuel : Nat} (w : Writer)
    (st : Indexing) (pending : Text) (hfuel : (printAll pieces).length < fuel) :
    formatLoop args fuel w st.toInt (pending ++ printAll pieces) (printAll pieces) =
      some ((render args st pieces).map fun t => w.append (pending ++ t)) := by
  induction pieces generalizing fuel w st pending with
  | nil =>
      obtain ⟨fuel, rfl⟩ : ∃ k, fuel = k + 1 := ⟨fuel - 1, by omega⟩
      show some (Except.ok (w.append (range (pending ++ []) []))) =
        some (.ok (w.append (pending ++ [])))
      rw [range_append, List.append_nil]
  | cons piece pieces ih =>
      obtain ⟨fuel, rfl⟩ : ∃ k, fuel = k + 1 := ⟨fuel - 1, by omega⟩
      have hcons : printAll (piece :: pieces) = piece.print ++ printAll pieces := List.flatMap_cons
      rw [hcons, List.length_append] at hfuel
      rw [hcons]
      cases piece with
      | plain c hc =>
          have hfuel : (printAll pieces).length < fuel := by
            simp only [Piece.print, List.length_singleton] at hfuel
            omega
          have hread : formatLoop args (fuel + 1) w st.toInt (pending ++ (c :: printAll pieces))
              (c :: printAll pieces) =
              formatLoop args fuel w st.toInt (pending ++ (c :: printAll pieces))
                (printAll pieces) := (if_neg hc.1).trans (if_pos hc.2)
          rw [List.append_cons] at hread
          show formatLoop args (fuel + 1) w st.toInt (pending ++ (c :: printAll pieces))
            (c :: printAll pieces) = _
          rw [List.append_cons, hread, ih w st (pending ++ [c]) hfuel, render_cons rfl]
          cases render args st pieces <;> simp [Except.map]
      | openBrace | closeBrace =>
          have hfuel : (printAll pieces).length < fuel := by
            simp only [Piece.print, List.length_cons, List.length_nil] at hfuel
            omega
          -- the first brace joins what is pending, the second is passed over
          rw [render_cons rfl, ← map_append_shown, ← ih _ st [] hfuel,
            ← range_append (pending ++ [_]) (_ :: printAll pieces), List.append_assoc]
          rfl
      | field f =>
          have hfuel : (printAll pieces).length < fuel := by
            simp only [Piece.print, List.length_cons, List.length_append] at hfuel
            omega
          have hfield := formatField_print f args st (w.append pending) (printAll pieces)
          have hsingle := cur_field_ne f (printAll pieces)
          show formatLoop args (fuel + 1) w st.toInt
            (pending ++ (char '{' :: (indexText f.index ++ f.specText ++ [char '}'] ++ _)))
            (char '{' :: (indexText f.index ++ f.specText ++ [char '}'] ++ _)) = _
          simp only [formatLoop, range_append]
          refine (if_neg (show char '{' ≠ 0 by decide)).trans ?_
          refine (if_neg (fun h => h.1 rfl)).trans ((if_neg hsingle).trans ?_)
          refine (if_neg (show char '{' ≠ char '}' by decide)).trans ?_
          simp only [List.tail_cons]
          rw [hfield]
          rcases hrender : f.render args st with e | ⟨shown, st'⟩
          · rw [render, show (Piece.field f).render args st = .error e from hrender]
            rfl
          · rw [render_cons (show (Piece.field f).render args st = .ok (shown, st') from hrender),
              ← map_append_shown, ← ih _ st' [] hfuel, ← w.append_append]
            rfl

end ServerStudy.Fmt
