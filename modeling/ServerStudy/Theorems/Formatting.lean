import ServerStudy.Logic.LogLines

/-!
# What the formatter writes

The reply to a message, and every line logged, goes through `fmt::format`. It
writes what its format string means, from any memory, and always ends.
-/

namespace ServerStudy.Theorems.Formatting

open ServerStudy.Core ServerStudy.Fmt

/-- The versions of `count_digits` agree, and count the digits. -/
theorem count_digits_agree (n : UInt64) (k : UInt32) :
    countDigits clzll n.toNat = (decimal n.toNat).length ∧
      countDigits clzllHalves n.toNat = (decimal n.toNat).length ∧
      countDigitsFallback n.toNat = (decimal n.toNat).length ∧
      countDigits32 k.toNat = (decimal k.toNat).length :=
  ⟨countDigits_eq (fun _ _ _ => rfl) n.toNat_lt,
    countDigits_eq (fun _ hx hlt => clzllHalves_eq hx hlt) n.toNat_lt,
    countDigitsFallback_eq n.toNat, countDigits32_eq k.toNat_lt⟩

/-- An argument is appended as its specification wants it, whatever the cells
past the end of the buffer held, unless it is a number to the left with a
precision: there the buffer may move before the digits are written. -/
theorem argument_appended (w : Writer) (arg : Arg) (spec : FormatSpec)
    (hkept : arg.isNumeric = true → spec.align = .left → spec.precision ≤ 1) :
    (∀ shown, argText arg spec = .ok shown → ∃ w', visit w arg spec = .ok w' ∧
      w'.str = w.str ++ shown ∧
      ∀ i, i < w.size ∨ w.size + shown.length ≤ i → w'.data i = w.data i) ∧
    ∀ e, argText arg spec = .error e → visit w arg spec = .error e := by
  rw [visit_eq w hkept]
  constructor
  · intro shown hshown
    rw [hshown]
    refine ⟨_, rfl, w.str_append shown, fun i hi => ?_⟩
    exact hi.elim (Mem.write_of_lt _ _) (Mem.write_of_end_le _ _)
  · intro e he
    rw [he]
    rfl

/-- Five with three digits and a sign, in eight cells. -/
theorem five_appended : ∃ w', visit ⟨fun _ => 0, 0⟩ (.int 5)
      { width := 8, flags := SIGN_FLAG ||| PLUS_FLAG, precision := 3 } = .ok w' ∧
      w'.str = text "    +005" ∧
      ∀ i, i < 0 ∨ 0 + (text "    +005").length ≤ i → w'.data i = 0 :=
  (argument_appended ⟨fun _ => 0, 0⟩ (.int 5)
    { width := 8, flags := SIGN_FLAG ||| PLUS_FLAG, precision := 3 } (by decide)).1
    (text "    +005") (by decide +kernel)

/-- Every format string is formatted or refused, and neither depends on the
memory the buffer found. -/
theorem format_ends (formatStr : Text) (args : List Arg) :
    ∃ result : Except Text Text, ∀ m, format m formatStr args = some result :=
  format_eq formatStr args

/-- The interpreter of format strings does what the strings mean. -/
theorem template_formatted (m : Mem Byte) (pieces : List Piece) (args : List Arg) :
    format m (printAll pieces) args = some (render args (.automatic 0) pieces) :=
  format_printAll m pieces args

/-! ## The reply and the lines logged -/

/-- A string whose fields are all `{}` is formatted with the arguments in turn. -/
theorem format_scanned (m : Mem Byte) {s : Text} {pieces : List Piece} {args : List Arg}
    {fields : Nat} (hscan : scan s = some pieces) (hfields : plainFields pieces = some fields)
    (henough : fields ≤ args.length) :
    format m s args = some (.ok (fillIn (args.map showArg) pieces)) := by
  rw [← printAll_scan hscan, format_printAll, render_plainFields hfields 0 (by omega),
    List.drop_zero]

/-- `"{},{}"`. -/
def replyTemplate : List Piece := [.field {}, separator (char ','), .field {}]

/-- The handler's packet holds what `fmt::format("{},{}", message, count)`
returns; nothing in the message is read as a format. -/
theorem reply_formatted (codec : ChatCodec) (s : ClientState) (message : Text) (m : Mem Byte) :
    ∃ reply, format m (text "{},{}") [.string message, .ulongLong (s.count + 1)] =
        some (.ok reply) ∧
      chatReply codec s message = ({ s with count := s.count + 1 }, codec.packet reply) := by
  refine ⟨formatReply message (s.count + 1), ?_, rfl⟩
  have hprint : printAll replyTemplate = text "{},{}" := by decide
  have hrender : render [.string message, .ulongLong (s.count + 1)] (.automatic 0) replyTemplate =
      .ok (fillIn [message, decimal (s.count + 1).toNat] replyTemplate) :=
    render_plainFields rfl 0 (Nat.le_refl _)
  have hreply : fillIn [message, decimal (s.count + 1).toNat] replyTemplate =
      formatReply message (s.count + 1) := by
    show message ++ (char ',' :: (decimal (s.count + 1).toNat ++ [])) = _
    rw [List.append_nil]
    rfl
  rw [← hprint, format_printAll, hrender, hreply]

/-- A call of `LOG` with enough arguments for the fields of its format string. -/
theorem log_line (cs : CharSet) (m m' : Mem Byte) (tm : Tm) (logHeader funcName : Text) {s : String}
    {args : List Arg} {fields : Nat} (hfields : countFields s.toList = some fields)
    (henough : fields ≤ args.length) :
    LOG m m' tm logHeader funcName (cs.literal s) args =
      some (.ok (timeText tm ++ logHeader ++ text "[" ++ funcName ++ text "] " ++
        putIn cs (args.map showArg) s.toList ++ text "\n")) := by
  obtain ⟨pieces, hscan, hplain, hshown⟩ := scan_literal cs hfields
  rw [LOG, CharSet.literal, ← printAll_timeTemplate, format_printAll, render_timeTemplate,
    format_scanned m' hscan hplain henough, hshown]
  rfl

/-- The format strings of the calls have as many fields as there are arguments. -/
theorem logCalls_counted : ∀ call ∈ logCalls, countFields call.1.toList = some call.2 := by
  decide +kernel

/-- No call of `LOG` throws: it prints one line with the arguments in the place
of the fields, whatever the values, the time and the execution character set. -/
theorem log_never_throws (cs : CharSet) {call : String × Nat} (hcall : call ∈ logCalls)
    (args : List Arg) (hargs : args.length = call.2) (m m' : Mem Byte) (tm : Tm)
    (logHeader funcName : Text) :
    LOG m m' tm logHeader funcName (cs.literal call.1) args =
      some (.ok (timeText tm ++ logHeader ++ text "[" ++ funcName ++ text "] " ++
        putIn cs (args.map showArg) call.1.toList ++ text "\n")) :=
  log_line cs m m' tm logHeader funcName (logCalls_counted call hcall) hargs.ge

/-- What the client says when it has sent eight bytes, in UTF-8. -/
theorem eight_bytes_logged :
    LOG (fun _ => 0) (fun _ => 0) ⟨115, 11, 31, 23, 59, 60⟩ (text "[INFO ]") (text "_tmain")
        (utf8.literal "[TCP Client] {} 바이트를 보냈습니다.") [.int 8] =
      some (.ok (timeText ⟨115, 11, 31, 23, 59, 60⟩ ++ text "[INFO ]" ++ text "[" ++
        text "_tmain" ++ text "] " ++
        putIn utf8 ([Arg.int 8].map showArg) "[TCP Client] {} 바이트를 보냈습니다.".toList ++
        text "\n")) :=
  log_never_throws utf8 (List.mem_of_getElem? (i := 10) rfl) [.int 8] rfl _ _ _ _ _

/-! ## Numbers in a format string -/

/-- A digit more, modulo `2 ^ 32`, or the end of a wrap that was seen. -/
theorem parseDigits_digit (value : Nat) {d : Nat} (hd : d < 10) (rest : Text) :
    parseDigits value (decimalDigit d :: rest) =
      if (value * 10 + d) % 2 ^ 32 < value then (2 ^ 32 - 1, rest)
      else parseDigits ((value * 10 + d) % 2 ^ 32) rest := by
  obtain ⟨hdigit, hvalue⟩ := isDigit_decimalDigit d hd
  rw [parseDigits, if_pos hdigit]
  dsimp only
  rw [hvalue, Nat.add_sub_cancel_left]

/-- Unless a wrap is seen the digits are read modulo `2 ^ 32`. -/
theorem parseDigits_mod (v : Nat) (rest : Text) :
    (∃ s, parseDigits 0 (decimal v ++ rest) = (2 ^ 32 - 1, s)) ∨
      parseDigits 0 (decimal v ++ rest) = parseDigits (v % 2 ^ 32) rest := by
  rw [decimal_eq]
  induction v using Nat.strongRecOn generalizing rest with
  | ind v ih =>
      rcases Nat.lt_or_ge v 10 with hv | hv
      · rw [digitsOf_of_lt _ hv, List.singleton_append, parseDigits_digit 0 hv,
          if_neg (Nat.not_lt_zero _), Nat.zero_mul, Nat.zero_add]
        exact Or.inr rfl
      · rw [digitsOf_of_le _ (by decide) hv, List.append_assoc]
        rcases ih (v / 10) (by omega) ([decimalDigit (v % 10)] ++ rest) with ⟨s, hs⟩ | hread
        · exact Or.inl ⟨s, hs⟩
        have hmod : (v / 10 % 2 ^ 32 * 10 + v % 10) % 2 ^ 32 = v % 2 ^ 32 := by omega
        rw [hread, List.singleton_append, parseDigits_digit _ (Nat.mod_lt _ (by decide)), hmod]
        split
        · exact Or.inl ⟨rest, rfl⟩
        · exact Or.inr rfl

/-- With at most one digit that can wrap: it is seen if the result is less than
the number before that digit. -/
theorem parseDigits_last (v : Nat) {rest : Text} (hv : v / 10 < 2 ^ 32) :
    parseDigits 0 (decimal v ++ rest) =
      if v % 2 ^ 32 < v / 10 then (2 ^ 32 - 1, rest) else parseDigits (v % 2 ^ 32) rest := by
  rcases Nat.lt_or_ge v 10 with hsmall | hbig
  · have hread := parseDigits_decimal rest (by omega : 0 * 10 ^ (decimal v).length + v < 2 ^ 32)
    rw [hread, if_neg (by omega), Nat.mod_eq_of_lt (by omega), Nat.zero_mul, Nat.zero_add]
  · have hread := parseDigits_decimal (decimalDigit (v % 10) :: rest)
      (by omega : 0 * 10 ^ (decimal (v / 10)).length + v / 10 < 2 ^ 32)
    have hsplit : decimal v ++ rest = decimal (v / 10) ++ (decimalDigit (v % 10) :: rest) := by
      rw [decimal_eq, decimal_eq, digitsOf_of_le _ (by decide) hbig, List.append_assoc]
      rfl
    have hmod : (0 * 10 ^ (decimal (v / 10)).length + v / 10) * 10 + v % 10 = v := by omega
    rw [hsplit, hread, parseDigits_digit _ (Nat.mod_lt _ (by decide)), hmod, Nat.zero_mul,
      Nat.zero_add]

/-- `parse_nonnegative_int` reads an index, a width or a precision up to
`INT_MAX` exactly, and of a larger number at most its rest modulo `2 ^ 32`. Its
check for a wrap misses some: between `2 ^ 32` and ten times that, those where
the rest is not less than the number without its last digit. -/
theorem number_read (v : Nat) (rest : Text) (hrest : isDigit (cur rest) = false) :
    (v < 2 ^ 31 → parseNonnegativeInt (decimal v ++ rest) = .ok (v, rest)) ∧
      (∀ t, parseNonnegativeInt (decimal v ++ rest) = .ok t → t = (v % 2 ^ 32, rest)) ∧
      (2 ^ 31 ≤ v → v < 2 ^ 32 →
        parseNonnegativeInt (decimal v ++ rest) = .error (text "number is too big")) ∧
      (2 ^ 32 ≤ v → v / 10 < 2 ^ 32 →
        (parseNonnegativeInt (decimal v ++ rest) = .ok (v % 2 ^ 32, rest) ↔
          v / 10 ≤ v % 2 ^ 32 ∧ v % 2 ^ 32 < 2 ^ 31)) := by
  have hlast : v / 10 < 2 ^ 32 → parseNonnegativeInt (decimal v ++ rest) =
      if v / 10 ≤ v % 2 ^ 32 ∧ v % 2 ^ 32 < 2 ^ 31 then .ok (v % 2 ^ 32, rest)
      else .error (text "number is too big") := by
    intro hv
    rw [parseNonnegativeInt, parseDigits_last v hv, parseDigits_of_not_digit hrest]
    by_cases hwrap : v % 2 ^ 32 < v / 10
    · rw [if_pos hwrap, if_neg (fun h => absurd h.1 (Nat.not_le.mpr hwrap))]
      rfl
    · rw [if_neg hwrap]
      by_cases hbig : v % 2 ^ 32 < 2 ^ 31
      · rw [if_pos ⟨Nat.le_of_not_lt hwrap, hbig⟩]
        exact if_neg (by omega)
      · rw [if_neg fun h => hbig h.2]
        exact if_pos (by omega)
  refine ⟨fun hv => parseNonnegativeInt_decimal hv hrest, fun t ht => ?_, fun hlow hhigh => ?_,
    fun hlow hhigh => ?_⟩
  · rw [parseNonnegativeInt] at ht
    rcases parseDigits_mod v rest with ⟨s, hs⟩ | hs
    · rw [hs] at ht
      cases ht
    · rw [hs, parseDigits_of_not_digit hrest] at ht
      dsimp only at ht
      split at ht <;> cases ht
      rfl
  · rw [hlast (by omega), if_neg (by omega)]
  · rw [hlast hhigh]
    constructor
    · intro h
      split at h
      · assumption
      · cases h
    · exact fun h => if_pos h

/-- 5000000000 is taken for 705032704, as the width of a field or otherwise. -/
theorem number_read_wrapped :
    parseNonnegativeInt (decimal 5000000000 ++ [char '}']) = .ok (705032704, [char '}']) :=
  ((number_read 5000000000 ([char '}']) (by decide)).2.2.2 (by decide) (by decide)).mpr (by decide)

end ServerStudy.Theorems.Formatting
