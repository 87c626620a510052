import ServerStudy.Logic.TemplateRuns
import ServerStudy.Shared.Log

/-!
# Format strings that cannot fail

The callers' format strings have fields `{}` and nothing more. Such a string
with no more fields than arguments is always formatted, the arguments in turn.
-/

namespace ServerStudy.Fmt

open ServerStudy.Core

/-- A template is formatted as it is rendered. -/
theorem format_printAll (m : Mem Byte) (pieces : List Piece) (args : List Arg) :
    format m (printAll pieces) args = some (render args (.automatic 0) pieces) := by
  have hrun := formatLoop_print args pieces ⟨m, 0⟩ (.automatic 0) [] (Nat.lt_succ_self _)
  rw [format, show formatLoop args ((printAll pieces).length + 1) ⟨m, 0⟩ 0 (printAll pieces)
    (printAll pieces) = _ from hrun]
  rcases render args (.automatic 0) pieces with e | t
  · rfl
  · exact congrArg (some ∘ Except.ok) (Writer.str_append ⟨m, 0⟩ t)

/-- An integer in decimal. -/
def signedDecimal (value : Int) : Text :=
  (if value < 0 then [char '-'] else []) ++ decimal value.natAbs

/-- An argument without a specification. -/
def showArg : Arg → Text
  | .int value | .longLong value => signedDecimal value.toInt
  | .uint value | .ulongLong value => decimal value.toNat
  | .bool value => text (if value then "true" else "false")
  | .char value => [value]
  | .string value => value

theorem argText_default (arg : Arg) : argText arg {} = .ok (showArg arg) := by
  have hjustify : ∀ (align : Alignment) (pre body : Text),
      justify align (char ' ') 0 pre body = pre ++ body :=
    fun _ _ _ => justify_of_le _ _ (Nat.zero_le _)
  have hint : ∀ value : Int, intText value {} = .ok (signedDecimal value) := by
    intro value
    have hsign : signText value {} = if value < 0 then [char '-'] else [] := rfl
    rw [intText, if_pos (Or.inl rfl)]
    show Except.ok (numberText {} (signText value {} ++ []) (decimal value.natAbs)) = _
    have hnone : ({} : FormatSpec).precision ≤ (decimal value.natAbs).length :=
      Int.le_trans (by decide) (Int.natCast_nonneg _)
    rw [numberText_of_le hnone, hjustify, hsign, List.append_nil]
    rfl
  have hnat : ∀ n : Nat, intText n {} = .ok (decimal n) := fun n =>
    (hint n).trans (congrArg Except.ok (congrArg (· ++ decimal n) (if_neg (by omega))))
  have hstr : ∀ s : Text, strText s {} = .ok s := fun s =>
    congrArg Except.ok (hjustify .left [] s)
  cases arg with
  | int value => exact hint _
  | uint value => exact hnat _
  | longLong value => exact hint _
  | ulongLong value => exact hnat _
  | bool value => exact hstr _
  | char value => exact congrArg Except.ok (hjustify .left [] [value])
  | string value => exact hstr _

/-! ## Templates of plain fields -/

/-- The texts put in for the fields, in turn. -/
def fillIn : List Text → List Piece → Text
  | _, [] => []
  | shown, .plain c _ :: pieces => c :: fillIn shown pieces
  | shown, .openBrace :: pieces => char '{' :: fillIn shown pieces
  | shown, .closeBrace :: pieces => char '}' :: fillIn shown pieces
  | shown, .field _ :: pieces => shown.headD [] ++ fillIn shown.tail pieces

/-- A template all of whose fields are `{}`, and how many there are. -/
def plainFields : List Piece → Option Nat
  | [] => some 0
  | .field f :: pieces =>
      if f.index.isNone ∧ f.spec.isNone then (plainFields pieces).map (· + 1) else none
  | .plain _ _ :: pieces | .openBrace :: pieces | .closeBrace :: pieces => plainFields pieces

/-- With an argument for every field nothing fails. -/
theorem render_plainFields {args : List Arg} {pieces : List Piece} {fields : Nat}
    (hfields : plainFields pieces = some fields) (used : Nat)
    (henough : used + fields ≤ args.length) :
    render args (.automatic used) pieces =
      .ok (fillIn ((args.drop used).map showArg) pieces) := by
  induction pieces generalizing fields used with
  | nil => rfl
  | cons piece pieces ih =>
      cases piece with
      | plain c hc => rw [render_cons rfl, ih hfields used henough]; rfl
      | openBrace => rw [render_cons rfl, ih hfields used henough]; rfl
      | closeBrace => rw [render_cons rfl, ih hfields used henough]; rfl
      | field f =>
          rw [plainFields] at hfields
          split at hfields
          · rename_i hplain
            obtain ⟨rest, hrest, rfl⟩ := Option.map_eq_some_iff.mp hfields
            obtain ⟨hindex, hspec⟩ := hplain
            have hlt : used < args.length := by omega
            have hshown : (Piece.field f).render args (.automatic used) =
                .ok (showArg args[used], .automatic (used + 1)) := by
              rw [Piece.render, Field.render, Option.isNone_iff_eq_none.mp hindex,
                Option.isNone_iff_eq_none.mp hspec]
              show (((doGetArg args used).map (·, Indexing.automatic (used + 1))) >>= fun t =>
                argText t.1 {} >>= fun shown => .ok (shown, t.2)) = _
              rw [doGetArg, List.getElem?_eq_getElem hlt]
              show (argText args[used] {} >>= fun shown => _) = _
              rw [argText_default]
              rfl
            rw [render_cons hshown, ih hrest (used + 1) (by omega), List.drop_eq_getElem_cons hlt]
            rfl
          · cases hfields

/-- The template of a string whose only fields are `{}`. -/
def scan : Text → Option (List Piece)
  | [] => some []
  | [c] => if h : c ≠ 0 ∧ c ≠ char '{' ∧ c ≠ char '}' then some [.plain c h] else none
  | c :: c' :: s =>
      if h : c ≠ 0 ∧ c ≠ char '{' ∧ c ≠ char '}' then (scan (c' :: s)).map (.plain c h :: ·)
      else if c = char '{' ∧ c' = char '}' then (scan s).map (.field {} :: ·)
      else none

theorem printAll_scan {s : Text} {pieces : List Piece} (h : scan s = some pieces) :
    printAll pieces = s := by
  induction s using scan.induct generalizing pieces with
  | case1 => cases h; rfl
  | case2 c hc =>
      rw [scan, dif_pos hc] at h
      cases h
      rfl
  | case3 c hc =>
      rw [scan, dif_neg hc] at h
      cases h
  | case4 c c' s hc ih =>
      rw [scan, dif_pos hc] at h
      obtain ⟨rest, hrest, rfl⟩ := Option.map_eq_some_iff.mp h
      exact congrArg (c :: ·) (ih hrest)
  | case5 c c' s hc hfield ih =>
      rw [scan, dif_neg hc, if_pos hfield] at h
      obtain ⟨rest, hrest, rfl⟩ := Option.map_eq_some_iff.mp h
      obtain ⟨rfl, rfl⟩ := hfield
      exact congrArg (char '{' :: char '}' :: ·) (ih hrest)
  | case6 c c' s hc hfield =>
      rw [scan, dif_neg hc, if_neg hfield] at h
      cases h

/-! ## Literals -/

theorem scan_cons {c : Byte} (h : c ≠ 0 ∧ c ≠ char '{' ∧ c ≠ char '}') (s : Text) :
    scan (c :: s) = (scan s).map (.plain c h :: ·) := by
  cases s with
  | nil =>
      show scan [c] = some [.plain c h]
      rw [scan, dif_pos h]
  | cons c' s => rw [scan, dif_pos h]

theorem scan_field (s : Text) :
    scan (char '{' :: char '}' :: s) = (scan s).map (.field {} :: ·) := by
  rw [scan, dif_neg (by decide), if_pos ⟨rfl, rfl⟩]

/-- Bytes that are no brace and no end are scanned one by one and shown as they
are. -/
theorem scan_braceFree {xs : Text} (hxs : ∀ b ∈ xs, b ≠ 0 ∧ b ≠ char '{' ∧ b ≠ char '}')
    (s : Text) : ∃ front, scan (xs ++ s) = (scan s).map (front ++ ·) ∧
      ∀ pieces, plainFields (front ++ pieces) = plainFields pieces ∧
        ∀ shown, fillIn shown (front ++ pieces) = xs ++ fillIn shown pieces := by
  induction xs with
  | nil => exact ⟨[], Option.map_id'.symm, fun _ => ⟨rfl, fun _ => rfl⟩⟩
  | cons b xs ih =>
      obtain ⟨front, hscan, hfront⟩ := ih fun c hc => hxs c (List.mem_cons_of_mem b hc)
      have hb := hxs b List.mem_cons_self
      refine ⟨.plain b hb :: front, ?_, fun pieces => ⟨(hfront pieces).1, fun shown => ?_⟩⟩
      · rw [List.cons_append, scan_cons hb, hscan, Option.map_map]
        rfl
      · exact congrArg (b :: ·) ((hfront pieces).2 shown)

/-- The number of fields of a literal whose only braces are those of `{}`. -/
def countFields : List Char → Option Nat
  | [] => some 0
  | '{' :: '}' :: s => (countFields s).map (· + 1)
  | c :: s => if c = '{' ∨ c = '}' ∨ c.toNat = 0 then none else countFields s

/-- A literal with texts in the place of its fields. -/
def putIn (cs : CharSet) : List Text → List Char → Text
  | _, [] => []
  | shown, '{' :: '}' :: s => shown.headD [] ++ putIn cs shown.tail s
  | shown, c :: s => cs.encode c ++ putIn cs shown s

/-- No character but the braces and the terminator is taken for one. -/
theorem encode_braceFree (cs : CharSet) {c : Char}
    (hc : ¬ (c = '{' ∨ c = '}' ∨ c.toNat = 0)) :
    ∀ b ∈ cs.encode c, b ≠ 0 ∧ b ≠ char '{' ∧ b ≠ char '}' := by
  rcases Nat.lt_or_ge c.toNat 128 with hascii | hother
  · intro b hb
    rw [cs.ascii c hascii, List.mem_singleton] at hb
    subst hb
    have hvalue : (char c).toNat = c.toNat := UInt8.toNat_ofNat_of_lt (Nat.lt_trans hascii (by decide))
    refine ⟨fun h => hc ?_, fun h => hc ?_, fun h => hc ?_⟩ <;>
      replace h := hvalue.symm.trans (congrArg UInt8.toNat h)
    · exact .inr (.inr h)
    · exact .inl (Char.toNat_inj.mp h)
    · exact .inr (.inl (Char.toNat_inj.mp h))
  · exact cs.braceFree c hother

/-- A literal is scanned to a template with its fields, which is shown as the
literal with the texts put in. -/
theorem scan_literal (cs : CharSet) {s : List Char} {fields : Nat}
    (h : countFields s = some fields) : ∃ pieces, scan (s.flatMap cs.encode) = some pieces ∧
      plainFields pieces = some fields ∧ ∀ shown, fillIn shown pieces = putIn cs shown s := by
  induction s using countFields.induct generalizing fields with
  | case1 => exact ⟨[], rfl, h, fun _ => rfl⟩
  | case2 s ih =>
      rw [countFields] at h
      obtain ⟨rest, hrest, rfl⟩ := Option.map_eq_some_iff.mp h
      obtain ⟨pieces, hscan, hfields, hshown⟩ := ih hrest
      refine ⟨.field {} :: pieces, ?_, ?_, fun shown => ?_⟩
      · rw [List.flatMap_cons, List.flatMap_cons, cs.ascii _ (by decide), cs.ascii _ (by decide)]
        exact (scan_field _).trans (congrArg (Option.map _) hscan)
      · rw [plainFields, if_pos ⟨rfl, rfl⟩, hfields]
        rfl
      · rw [fillIn, putIn, hshown]
  | case3 c s hno hc =>
      rw [countFields, if_pos hc] at h
      · cases h
      · exact hno
  | case4 c s hno hc ih =>
      rw [countFields, if_neg hc] at h
      · obtain ⟨pieces, hscan, hfields, hshown⟩ := ih h
        obtain ⟨front, hfront, hpieces⟩ :=
          scan_braceFree (encode_braceFree cs hc) (s.flatMap cs.encode)
        refine ⟨front ++ pieces, ?_, (hpieces pieces).1.trans hfields, fun shown => ?_⟩
        · rw [List.flatMap_cons, hfront, hscan]
          rfl
        · rw [(hpieces pieces).2 shown, hshown, putIn]
          exact hno
      · exact hno

/-- UTF-8 as an execution character set. -/
def utf8 : CharSet where
  encode := String.utf8EncodeChar
  ascii c hc := by
    have hle : c.val.toNat ≤ 0x7f := Nat.le_of_lt_succ hc
    rw [String.utf8EncodeChar]
    exact if_pos hle
  braceFree c hc := by
    -- all its bytes have the high bit
    have hhigh : ∀ k, 128 ≤ k → k < 256 →
        UInt8.ofNat k ≠ 0 ∧ UInt8.ofNat k ≠ char '{' ∧ UInt8.ofNat k ≠ char '}' := by
      intro k hlow hlt
      have hvalue : (UInt8.ofNat k).toNat = k := UInt8.toNat_ofNat_of_lt hlt
      refine ⟨fun h => ?_, fun h => ?_, fun h => ?_⟩ <;>
        replace h := hvalue.symm.trans (congrArg UInt8.toNat h) <;>
        rw [h] at hlow <;> exact absurd hlow (by decide)
    have hascii : ¬ c.val.toNat ≤ 0x7f := by
      have : 128 ≤ c.val.toNat := hc
      omega
    intro b hb
    rw [String.utf8EncodeChar, if_neg hascii] at hb
    split at hb <;> [skip; split at hb] <;>
      simp only [List.mem_cons, List.not_mem_nil, or_false] at hb
    · rcases hb with rfl | rfl <;> exact hhigh _ (by omega) (by omega)
    · rcases hb with rfl | rfl | rfl <;> exact hhigh _ (by omega) (by omega)
    · rcases hb with rfl | rfl | rfl | rfl <;> exact hhigh _ (by omega) (by omega)

/-! ## The time in front of a line -/

/-- A number filled with zeros behind its sign. -/
def zeroPadded (width : Nat) (value : Int) : Text :=
  justify .numeric (char '0') width (if value < 0 then [char '-'] else []) (decimal value.natAbs)

def paddedParts (width : Nat) (h : 0 < width ∧ width < 10) : SpecParts where
  zero := true
  width := some (.lit width (by omega))
  type := some (char 'd')
  width_pos := fun _ heq => by cases heq; omega
  type_ok := by rintro _ ⟨⟩; decide

/-- `{:02d}`, `{:04d}`. -/
def paddedField (width : Nat) (h : 0 < width ∧ width < 10) : Piece :=
  .field { spec := some ⟨paddedParts width h, List.cons_ne_nil (char '0') _⟩ }

def paddedSpec (width : Nat) : FormatSpec where
  width := width
  fill := char '0'
  align := .numeric
  type := char 'd'

theorem render_paddedField {args : List Arg} {used width : Nat} {value : Int32}
    (h : 0 < width ∧ width < 10) (hvalue : args[used]? = some (.int value)) :
    (paddedField width h).render args (.automatic used) =
      .ok (zeroPadded width value.toInt, .automatic (used + 1)) := by
  show (((doGetArg args used).map (·, Indexing.automatic (used + 1))) >>= fun t =>
    (paddedParts width h).eval args t.2 t.1 >>= fun t' =>
      argText t.1 t'.1 >>= fun shown => .ok (shown, t'.2)) = _
  rw [doGetArg, hvalue]
  have hshown : argText (.int value) (paddedSpec width) =
      .ok (zeroPadded width value.toInt) := by
    have hflags : (paddedSpec width).flags = 0 := rfl
    have hsign : signText value.toInt (paddedSpec width) =
        if value.toInt < 0 then [char '-'] else [] := by
      rw [signText, FormatSpec.flag, hflags]
      rfl
    rw [argText, intText, if_pos (show _ ∨ (paddedSpec width).type = char 'd' from Or.inr rfl)]
    show Except.ok (numberText (paddedSpec width)
      (signText value.toInt (paddedSpec width) ++ []) (decimal value.toInt.natAbs)) = _
    have hnone : (paddedSpec width).precision ≤ (decimal value.toInt.natAbs).length :=
      Int.le_trans (show -1 ≤ 0 by decide) (Int.natCast_nonneg _)
    rw [numberText_of_le hnone, List.append_nil, hsign]
    rfl
  show (argText (.int value) (paddedSpec width) >>= fun shown => .ok (shown, _)) = _
  rw [hshown]
  rfl

/-- A separator. -/
def separator (c : Byte) (h : c ≠ 0 ∧ c ≠ char '{' ∧ c ≠ char '}' := by decide) : Piece :=
  .plain c h

def timeTemplate : List Piece :=
  [paddedField 4 (by decide), separator (char '-'), paddedField 2 (by decide),
    separator (char '-'), paddedField 2 (by decide), separator (char ' '),
    paddedField 2 (by decide), separator (char ':'), paddedField 2 (by decide),
    separator (char ':'), paddedField 2 (by decide), separator (char ' ')]

theorem printAll_timeTemplate : printAll timeTemplate = timeFormat := by decide

/-- The six numbers with their separators. -/
def timeText (tm : Tm) : Text :=
  zeroPadded 4 (tm.tm_year + 1900).toInt ++ text "-" ++ zeroPadded 2 (tm.tm_mon + 1).toInt ++
    text "-" ++ zeroPadded 2 tm.tm_mday.toInt ++ text " " ++ zeroPadded 2 tm.tm_hour.toInt ++
    text ":" ++ zeroPadded 2 tm.tm_min.toInt ++ text ":" ++ zeroPadded 2 tm.tm_sec.toInt ++ text " "

theorem render_timeTemplate (tm : Tm) :
    render tm.args (.automatic 0) timeTemplate = .ok (timeText tm) := by
  rw [timeTemplate, render_cons (render_paddedField _ rfl), render_cons rfl,
    render_cons (render_paddedField _ rfl), render_cons rfl,
    render_cons (render_paddedField _ rfl), render_cons rfl,
    render_cons (render_paddedField _ rfl), render_cons rfl,
    render_cons (render_paddedField _ rfl), render_cons rfl,
    render_cons (render_paddedField _ rfl), render_cons rfl]
  refine congrArg Except.ok ?_
  simp only [timeText, List.append_assoc]
  rfl

end ServerStudy.Fmt
