import ServerStudy.Fmt.Writer
import ServerStudy.Logic.Digits

/-!
# What a writer appends

Padding and content reach the buffer in different orders, and every cell handed
out is written: each write is `Writer.append` of one text, whatever the memory
past the size held. For integers that text is `intText`, for strings and
characters `strText`.
-/

namespace ServerStudy.Fmt

open ServerStudy.Core

/-- Content padded to a width. A sign or prefix `pre` stays with the body,
unless the alignment is numeric. -/
def justify (align : Alignment) (fill : Byte) (width : Nat) (pre body : Text) : Text :=
  let n := width - (pre.length + body.length)
  match align with
  | .left => pre ++ body ++ List.replicate n fill
  | .center => List.replicate (n / 2) fill ++ (pre ++ body) ++ List.replicate (n - n / 2) fill
  | .numeric => pre ++ List.replicate n fill ++ body
  | .default | .right => List.replicate n fill ++ (pre ++ body)

/-- Nothing is padded to a width the content has. -/
theorem justify_of_le (align : Alignment) (fill : Byte) {width : Nat} {pre body : Text}
    (h : width ≤ pre.length + body.length) : justify align fill width pre body = pre ++ body := by
  have hn : width - (pre.length + body.length) = 0 := Nat.sub_eq_zero_of_le h
  cases align <;> simp [justify, hn]

theorem length_justify (align : Alignment) (fill : Byte) (width : Nat) (pre body : Text) :
    (justify align fill width pre body).length = max width (pre.length + body.length) := by
  cases align <;> simp [justify] <;> omega

namespace Writer

/-- The text after an append. -/
theorem str_append (w : Writer) (xs : Text) : (w.append xs).str = w.str ++ xs := by
  have := Mem.slice_write_append w.data 0 w.size xs
  rwa [Nat.zero_add] at this

theorem append_nil (w : Writer) : w.append [] = w := by
  rw [append, Mem.write_nil]
  rfl

theorem append_append (w : Writer) (xs ys : Text) :
    (w.append xs).append ys = w.append (xs ++ ys) := by
  rw [append, append, append, Mem.write_append, List.length_append, Nat.add_assoc]

end Writer

theorem fillN_append (m : Mem Byte) (start n : Nat) (fill : Byte) (xs : Text) :
    (fillN m start n fill).write (start + n) xs =
      m.write start (List.replicate n fill ++ xs) := by
  rw [Mem.write_append, List.length_replicate]
  rfl

/-- Filled behind a range that is written later. -/
theorem fillN_write_comm (m : Mem Byte) {start start' : Nat} (n : Nat) (fill : Byte) {xs : Text}
    (h : start + xs.length ≤ start') :
    (fillN m start' n fill).write start xs = fillN (m.write start xs) start' n fill :=
  Mem.write_comm m h

/-- The padding goes around whatever content of that size is written. -/
theorem fillPadding_eq (m : Mem Byte) (buffer totalSize : Nat) (fill : Byte) (xs : Text) :
    (fillPadding m buffer totalSize xs.length fill).2.write
        (fillPadding m buffer totalSize xs.length fill).1 xs =
      m.write buffer (List.replicate ((totalSize - xs.length) / 2) fill ++ xs ++
        List.replicate (totalSize - xs.length - (totalSize - xs.length) / 2) fill) := by
  simp only [fillPadding]
  rw [fillN_write_comm _ _ _ (Nat.le_refl _), fillN_append, fillN,
    Mem.write_append m buffer (_ ++ xs), List.length_append, List.length_replicate, Nat.add_assoc]

/-! ## Integers -/

/-- The buffer prepared for some digits: once these are written up to the cell
the result points to, the whole text has been appended. -/
theorem prepareAligned_eq (w : Writer) (spec : AlignSpec) (pre digits : Text)
    (hpos : 0 < digits.length) : ∃ w' p,
    prepareAligned w digits.length spec pre = (w', p + digits.length - 1) ∧
      ({ w' with data := w'.data.write p digits } : Writer) =
        w.append (justify spec.align spec.fill spec.width pre digits) := by
  by_cases hwidth : spec.width ≤ pre.length + digits.length
  · refine ⟨⟨w.data.write w.size pre, w.size + (pre.length + digits.length)⟩,
      w.size + pre.length, ?_, ?_⟩
    · simp only [prepareAligned, if_pos hwidth, Writer.growBuffer]
      rw [Nat.add_assoc]
    · rw [justify_of_le _ _ hwidth, Writer.append, List.length_append, Mem.write_append]
  have hsize : ∀ xs : Text, xs = justify spec.align spec.fill spec.width pre digits →
      xs.length = spec.width := by
    rintro xs rfl
    rw [length_justify]
    omega
  obtain ⟨n, hn⟩ : ∃ n, n = spec.width - (pre.length + digits.length) := ⟨_, rfl⟩
  simp only [prepareAligned, if_neg hwidth, Writer.growBuffer]
  cases halign : spec.align with
  | left =>
      have htext : pre ++ digits ++ List.replicate n spec.fill =
          justify spec.align spec.fill spec.width pre digits := by rw [halign, justify, hn]
      refine ⟨_, w.size + pre.length, Prod.ext_iff.mpr ⟨rfl, ?_⟩, ?_⟩
      · show w.size + (pre.length + digits.length) - 1 = _
        rw [Nat.add_assoc]
      · have hfill : w.size + spec.width - (w.size + (pre.length + digits.length)) = n := by omega
        rw [← halign, ← htext, Writer.append, hsize _ htext]
        simp only [hfill]
        rw [fillN_write_comm _ _ _ (by omega), Mem.write_append, Mem.write_append,
          List.length_append]
        rfl
  | center =>
      have htext : List.replicate (n / 2) spec.fill ++ (pre ++ digits) ++
          List.replicate (n - n / 2) spec.fill =
          justify spec.align spec.fill spec.width pre digits := by rw [halign, justify, hn]
      have hpad := fillPadding_eq w.data w.size spec.width spec.fill (pre ++ digits)
      rw [List.length_append, ← hn] at hpad
      refine ⟨_, w.size + n / 2 + pre.length, Prod.ext_iff.mpr ⟨rfl, ?_⟩, ?_⟩
      · show w.size + (spec.width - (pre.length + digits.length)) / 2 +
          (pre.length + digits.length) - 1 = _
        rw [← hn, Nat.add_assoc _ pre.length]
      · have hcontent : (fillPadding w.data w.size spec.width (pre.length + digits.length)
            spec.fill).1 = w.size + n / 2 := by rw [hn]; rfl
        rw [← halign, ← htext, Writer.append, hsize _ htext, ← hpad, Mem.write_append, hcontent]
  | numeric =>
      have htext : pre ++ List.replicate n spec.fill ++ digits =
          justify spec.align spec.fill spec.width pre digits := by rw [halign, justify, hn]
      refine ⟨_, w.size + pre.length + n, Prod.ext_iff.mpr ⟨rfl, ?_⟩, ?_⟩
      · show w.size + spec.width - 1 = _
        omega
      · have hfill : w.size + spec.width - (pre.length + digits.length - pre.length) -
            (w.size + pre.length) = n := by omega
        rw [← halign, ← htext, Writer.append, hsize _ htext]
        simp only [hfill]
        rw [fillN_append, List.append_assoc, Mem.write_append w.data w.size pre]
  | default | right =>
      have htext : List.replicate n spec.fill ++ (pre ++ digits) =
          justify spec.align spec.fill spec.width pre digits := by rw [halign, justify, hn]
      refine ⟨_, w.size + n + pre.length, Prod.ext_iff.mpr ⟨rfl, ?_⟩, ?_⟩
      · show w.size + spec.width - 1 = _
        omega
      · have hpre : w.size + spec.width - (pre.length + digits.length) = w.size + n := by omega
        rw [← halign, ← htext, Writer.append, hsize _ htext]
        simp only [hpre, Nat.add_sub_cancel_left]
        have hswap : fillN (w.data.write (w.size + n) pre) w.size n spec.fill =
            (fillN w.data w.size n spec.fill).write (w.size + n) pre :=
          Mem.write_comm w.data (by rw [List.length_replicate])
        rw [hswap, fillN_append, ← List.append_assoc, Mem.write_append w.data _ (_ ++ pre),
          List.length_append, List.length_replicate, Nat.add_assoc]

/-- Digits behind a sign or prefix, with zeros up to the precision. With a
precision the alignment only says on which side the padding stands. -/
def numberText (spec : FormatSpec) (pre digits : Text) : Text :=
  if (digits.length : Int) < spec.precision then
    -- an octal prefix is one of the digits asked for
    let pre := if pre.getLast? = some (char '0') then pre.dropLast else pre
    let zeros := List.replicate (spec.precision.toNat - digits.length) (char '0')
    let side : Alignment := if spec.align = .left then .left else .right
    justify side spec.fill spec.width (pre ++ zeros) digits
  else justify spec.align spec.fill spec.width pre digits

/-- Without a precision above their number the digits are justified. -/
theorem numberText_of_le {spec : FormatSpec} {pre digits : Text}
    (h : spec.precision ≤ digits.length) :
    numberText spec pre digits = justify spec.align spec.fill spec.width pre digits :=
  if_neg (Int.not_lt.mpr h)

/-- With a precision a number is as wide as this with its prefix, filled up with
zeros, and the padding stands in front. -/
theorem numberText_of_lt {spec : FormatSpec} {pre pre' digits : Text}
    (h : (digits.length : Int) < spec.precision) (hside : spec.align ≠ .left)
    (hpre : pre' = if pre.getLast? = some (char '0') then pre.dropLast else pre) :
    numberText spec pre digits =
      List.replicate (spec.width - (pre'.length + spec.precision.toNat)) spec.fill ++
        justify .numeric (char '0') (pre'.length + spec.precision.toNat) pre' digits := by
  have hwide : (pre' ++ List.replicate (spec.precision.toNat - digits.length) (char '0')).length +
      digits.length = pre'.length + spec.precision.toNat := by
    rw [List.length_append, List.length_replicate]
    omega
  rw [numberText, if_pos h, ← hpre, if_neg hside, justify, justify, hwide, Nat.add_sub_add_left]

/-- No number stands to the left with a precision above one digit: then no cell
is handed out behind it. -/
def FormatSpec.PointerKept (spec : FormatSpec) : Prop := spec.align = .left → spec.precision ≤ 1

theorem growFilled_eq (w : Writer) (n : Nat) (fill : Byte) :
    growFilled w n fill = w.append (List.replicate n fill) := by
  rw [Writer.append, List.length_replicate]
  rfl

/-- The buffer prepared for some digits, zeros included. -/
theorem prepareIntBuffer_eq (w : Writer) {spec : FormatSpec} (hkept : spec.PointerKept)
    (pre : Text) {digits : Text} (hpos : 0 < digits.length) : ∃ w' p,
    prepareIntBuffer w digits.length spec pre = (w', p + digits.length - 1) ∧
      ({ w' with data := w'.data.write p digits } : Writer) =
        w.append (numberText spec pre digits) := by
  by_cases hprec : (digits.length : Int) < spec.precision
  · have hside : spec.align ≠ .left := fun hleft => by
      have := hkept hleft
      omega
    obtain ⟨pre', hpre⟩ : ∃ pre' : Text,
        pre' = if pre.getLast? = some (char '0') then pre.dropLast else pre := ⟨_, rfl⟩
    obtain ⟨n, hn⟩ : ∃ n, n = spec.width - (pre'.length + spec.precision.toNat) := ⟨_, rfl⟩
    -- the zeros are the padding of a number as wide as its precision
    obtain ⟨w', p, hprepare, hwrite⟩ := prepareAligned_eq (w.append (List.replicate n spec.fill))
      { width := pre'.length + spec.precision.toNat, fill := char '0', align := .numeric }
      pre' digits hpos
    refine ⟨w', p, ?_, ?_⟩
    · rw [← hprepare, prepareIntBuffer, if_pos hprec, ← hpre]
      dsimp only
      by_cases hwide : spec.width ≤ pre'.length + spec.precision.toNat
      · rw [if_pos hwide, hn, Nat.sub_eq_zero_of_le hwide, List.replicate_zero, Writer.append_nil]
      · rw [if_neg hwide, if_neg hside, if_neg hside, growFilled_eq, ← hn]
    · rw [hwrite, numberText_of_lt hprec hside hpre, ← hn, Writer.append_append]
  · obtain ⟨w', p, hprepare, hwrite⟩ := prepareAligned_eq w spec.toAlignSpec pre digits hpos
    refine ⟨w', p, ?_, ?_⟩
    · rw [prepareIntBuffer, if_neg hprec, hprepare]
    · rw [hwrite, numberText_of_le (Int.not_lt.mp hprec)]

/-- A sign, if there is one. -/
def signText (value : Int) (spec : FormatSpec) : Text :=
  if value < 0 then [char '-']
  else if spec.flag SIGN_FLAG then [if spec.flag PLUS_FLAG then char '+' else char ' ']
  else []

/-- What stands between the sign and the digits under `#`. -/
def baseText (spec : FormatSpec) : Text :=
  if spec.flag HASH_FLAG then
    if spec.type = char 'o' then [char '0'] else [char '0', spec.type]
  else []

/-- An integer as the specification wants it. -/
def intText (value : Int) (spec : FormatSpec) : Except Text Text :=
  let layout pre digits := numberText spec (signText value spec ++ pre) digits
  if spec.type = 0 ∨ spec.type = char 'd' then .ok (layout [] (decimal value.natAbs))
  else if spec.type = char 'x' ∨ spec.type = char 'X' then
    let digits := if spec.type = char 'x' then lowerDigits else upperDigits
    .ok (layout (baseText spec) (digitsOf 16 (fun d => digits.getD d 0) value.natAbs))
  else if spec.type = char 'b' ∨ spec.type = char 'B' then
    .ok (layout (baseText spec) (digitsOf 2 decimalDigit value.natAbs))
  else if spec.type = char 'o' then
    .ok (layout (baseText spec) (digitsOf 8 decimalDigit value.natAbs))
  else
    .error (reportUnknownType spec.type (text (if spec.flag CHAR_FLAG then "char" else "integer")))

theorem writeShiftedInt_eq (w : Writer) (shift : Nat) [NeZero shift] (digit : Nat → Byte)
    (n : Nat) {spec : FormatSpec} (hkept : spec.PointerKept) (pre : Text) :
    writeShiftedInt w shift digit n spec pre =
      w.append (numberText spec pre (digitsOf (2 ^ shift) digit n)) := by
  obtain ⟨w', p, hprepare, hwrite⟩ := prepareIntBuffer_eq w hkept pre
    (length_digitsOf_pos (2 ^ shift) digit n)
  simp only [writeShiftedInt, countShifts_eq shift digit, Nat.zero_add, hprepare]
  rw [writeShifts_eq, writeDigits_eq _ (two_le_pow shift), hwrite]

theorem countDigitsOf_eq {bits n : Nat} (hbits : bits = 32 ∨ bits = 64) (hn : n < 2 ^ bits) :
    countDigitsOf bits n = (decimal n).length := by
  rcases hbits with rfl | rfl
  · exact countDigits32_eq hn
  · exact countDigits_eq (fun _ _ _ => rfl) hn

/-- Negating in the unsigned type gives the magnitude, of the least value too. -/
theorem absValue_eq {bits : Nat} (hbits : bits = 32 ∨ bits = 64) {value : Int}
    (hlow : -2 ^ (bits - 1) ≤ value) (hhigh : value < 2 ^ bits) :
    (if value < 0 then (2 ^ bits - (value % 2 ^ bits).toNat) % 2 ^ bits
      else (value % 2 ^ bits).toNat) = value.natAbs := by
  rcases hbits with rfl | rfl <;> norm_num at hlow hhigh ⊢ <;> split <;> omega

theorem natAbs_lt {bits : Nat} (hbits : bits = 32 ∨ bits = 64) {value : Int}
    (hlow : -2 ^ (bits - 1) ≤ value) (hhigh : value < 2 ^ bits) : value.natAbs < 2 ^ bits := by
  rcases hbits with rfl | rfl <;> norm_num at hlow hhigh ⊢ <;> omega

theorem signed_base {spec : FormatSpec} (hoct : spec.type ≠ char 'o') (sign : Text) :
    (if spec.flag HASH_FLAG then sign ++ [char '0', spec.type] else sign) =
      sign ++ baseText spec := by
  rw [baseText, if_neg hoct]
  cases spec.flag HASH_FLAG with
  | true => rfl
  | false => exact (List.append_nil sign).symm

/-- `write_int` appends the integer's text, or throws and appends nothing. -/
theorem writeInt_eq (w : Writer) {bits : Nat} (hbits : bits = 32 ∨ bits = 64) {value : Int}
    (hlow : -2 ^ (bits - 1) ≤ value) (hhigh : value < 2 ^ bits) {spec : FormatSpec}
    (hkept : spec.PointerKept) :
    writeInt w bits value spec = (intText value spec).map w.append := by
  have hpair : (if value < 0 then
        ([char '-'], (2 ^ bits - (value % 2 ^ bits).toNat) % 2 ^ bits)
      else if spec.flag SIGN_FLAG then
        ([if spec.flag PLUS_FLAG then char '+' else char ' '], (value % 2 ^ bits).toNat)
      else ([], (value % 2 ^ bits).toNat)) = (signText value spec, value.natAbs) := by
    rw [← absValue_eq hbits hlow hhigh, signText]
    split
    · rfl
    · split <;> rfl
  simp only [writeInt, intText, hpair, List.append_nil]
  split
  · obtain ⟨w', p, hprepare, hwrite⟩ := prepareIntBuffer_eq w hkept (signText value spec)
      (length_decimal_pos value.natAbs)
    have hpos := length_decimal_pos value.natAbs
    have hbegin :
        p + (decimal value.natAbs).length - 1 + 1 - (decimal value.natAbs).length = p := by
      omega
    rw [countDigitsOf_eq hbits (natAbs_lt hbits hlow hhigh), hprepare]
    simp only [hbegin, formatDecimal_eq, hwrite]
    rfl
  · rename_i hdecimal
    have hchar : ∀ c c' : Byte, spec.type = c → c ≠ c' → spec.type ≠ c' := fun _ _ h hne => h ▸ hne
    by_cases hhex : spec.type = char 'x' ∨ spec.type = char 'X'
    · have hoct : spec.type ≠ char 'o' :=
        hhex.elim (hchar _ _ · (by decide)) (hchar _ _ · (by decide))
      rw [if_pos hhex, if_pos hhex, writeShiftedInt_eq _ _ _ _ hkept, signed_base hoct]
      rfl
    rw [if_neg hhex, if_neg hhex]
    by_cases hbin : spec.type = char 'b' ∨ spec.type = char 'B'
    · have hoct : spec.type ≠ char 'o' :=
        hbin.elim (hchar _ _ · (by decide)) (hchar _ _ · (by decide))
      rw [if_pos hbin, if_pos hbin, writeShiftedInt_eq _ _ _ _ hkept, signed_base hoct]
      rfl
    rw [if_neg hbin, if_neg hbin]
    by_cases hoct : spec.type = char 'o'
    · rw [if_pos hoct, if_pos hoct, writeShiftedInt_eq _ _ _ _ hkept, baseText, if_pos hoct]
      cases spec.flag HASH_FLAG with
      | true => rfl
      | false => rw [if_neg Bool.false_ne_true, if_neg Bool.false_ne_true, List.append_nil]; rfl
    · rw [if_neg hoct, if_neg hoct]
      rfl

/-! ## Strings and characters -/

/-- Strings and characters stand to the left unless told otherwise. -/
def leftByDefault : Alignment → Alignment
  | .right => .right
  | .center => .center
  | .default | .left | .numeric => .left

/-- A string as the specification wants it. -/
def strText (s : Text) (spec : FormatSpec) : Except Text Text :=
  if spec.type ≠ 0 ∧ spec.type ≠ char 's' then
    .error (reportUnknownType spec.type (text "string"))
  else
    let s := if 0 ≤ spec.precision then s.take spec.precision.toNat else s
    .ok (justify (leftByDefault spec.align) spec.fill spec.width [] s)

/-- A character as the specification wants it. -/
def charText (value : Byte) (spec : FormatSpec) : Except Text Text :=
  if spec.type ≠ 0 ∧ spec.type ≠ char 'c' then
    intText value.toInt8.toInt { spec with flags := spec.flags ||| CHAR_FLAG }
  else if spec.align = .numeric ∨ spec.flags ≠ 0 then
    .error (text "invalid format specifier for char")
  else .ok (justify (leftByDefault spec.align) spec.fill spec.width [] [value])

theorem writeStrSized_eq (w : Writer) (s : Text) (spec : FormatSpec) :
    writeStrSized w s spec =
      w.append (justify (leftByDefault spec.align) spec.fill spec.width [] s) := by
  rw [writeStrSized]
  split
  · rename_i hwidth
    have hsize : (justify (leftByDefault spec.align) spec.fill spec.width [] s).length =
        spec.width := by
      rw [length_justify, List.length_nil]
      omega
    rw [Writer.append, hsize]
    simp only [Writer.growBuffer]
    cases spec.align with
    | right =>
        simp only [leftByDefault, justify, List.length_nil, Nat.zero_add, List.nil_append]
        rw [fillN_append]
    | center =>
        simp only [leftByDefault, justify, List.length_nil, Nat.zero_add, List.nil_append]
        rw [fillPadding_eq]
    | default | left | numeric =>
        simp only [leftByDefault, justify, List.length_nil, Nat.zero_add, List.nil_append]
        rw [fillN_write_comm _ _ _ (Nat.le_refl _), Mem.write_append]
        rfl
  · rename_i hwidth
    rw [justify_of_le _ _ (by rw [List.length_nil]; omega)]
    rfl

theorem writeStr_eq (w : Writer) (s : Text) (spec : FormatSpec) :
    writeStr w s spec = (strText s spec).map w.append := by
  rw [writeStr, strText]
  split
  · rfl
  · have htake : s.take (if 0 ≤ spec.precision ∧ spec.precision.toNat < s.length then
        spec.precision.toNat else s.length) =
        if 0 ≤ spec.precision then s.take spec.precision.toNat else s := by
      by_cases hprec : 0 ≤ spec.precision
      · rw [if_pos hprec]
        split
        · rfl
        · rw [List.take_length, List.take_of_length_le (by omega)]
      · rw [if_neg hprec, if_neg (fun h => hprec h.1), List.take_length]
    simp only [htake, writeStrSized_eq]
    rfl

theorem visitChar_eq (w : Writer) (value : Byte) {spec : FormatSpec} (hkept : spec.PointerKept) :
    visitChar w value spec = (charText value spec).map w.append := by
  rw [visitChar, charText]
  split
  · refine writeInt_eq w (Or.inl rfl) ?_ ?_ hkept
    · have := value.toInt8.le_toInt
      norm_num
      omega
    · have := value.toInt8.toInt_lt
      norm_num
      omega
  split
  · rfl
  · have hone := writeStrSized_eq w [value] spec
    rw [Except.map, ← hone, writeStrSized]
    simp only [List.length_singleton]
    split
    · cases spec.align <;> rfl
    · rfl

end ServerStudy.Fmt
