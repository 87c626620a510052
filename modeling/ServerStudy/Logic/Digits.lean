import ServerStudy.Fmt.Decimal
import ServerStudy.MServer.ClientSessionHandler
import Mathlib.Algebra.Group.Nat.Defs

/-!
# What the digit routines compute

All versions of `count_digits` give the number of decimal digits, and every
digit loop writes its digits into the window that many cells long.
-/

namespace ServerStudy.Fmt

open ServerStudy.Core

/-- The characters `'0'` to `'9'`. -/
def decimalDigit (d : Nat) : Byte := UInt8.ofNat (48 + d)

theorem decimal_eq (n : Nat) : decimal n = digitsOf 10 decimalDigit n := by
  rw [decimal, toDigits_eq_digitsOf (by decide), digitsOf_map _ _ (by decide)]
  refine digitsOf_congr (by decide) (fun d hd => ?_) n
  revert d
  decide

theorem length_decimal_pos (n : Nat) : 0 < (decimal n).length := by
  rw [decimal_eq]
  exact length_digitsOf_pos ..

/-! ## `count_digits` -/

/-- `1233 / 4096` is close enough to the logarithm of 2 up to `2 ^ 64`. -/
theorem log_estimate : ∀ bits < 65, 1 ≤ bits →
    (bits * 1233) >>> 12 < 20 ∧
    (((bits * 1233) >>> 12 = 0) ∨
      10 ^ ((bits * 1233) >>> 12 - 1) < 2 ^ (bits - 1)) ∧
    2 ^ bits ≤ 10 ^ ((bits * 1233) >>> 12 + 1) := by
  decide +kernel

theorem powersOf10_64 : ∀ t < 20, POWERS_OF_10_64.getD t 0 = if t = 0 then 0 else 10 ^ t := by
  decide +kernel

theorem powersOf10_32 : ∀ t < 10, POWERS_OF_10_32.getD t 0 = if t = 0 then 0 else 10 ^ t := by
  decide +kernel

theorem or_one_le (n : Nat) : n ||| 1 ≤ n + 1 := by
  have hhalf : (n ||| 1) / 2 = n / 2 := by simp [Nat.or_div_two]
  omega

theorem or_one_ne_zero (n : Nat) : n ||| 1 ≠ 0 := by
  have hone : 1 ≤ n ||| 1 := Nat.right_le_or
  omega

/-- The estimate is the number of digits or one less, and a look at the power
tells which. -/
theorem estimate_eq {n bits t power : Nat} (hbits : bits = Nat.log2 (n ||| 1) + 1)
    (hwidth : bits < 65) (ht : t = (bits * 1233) >>> 12)
    (hpower : power = if t = 0 then 0 else 10 ^ t) :
    t - (if n < power then 1 else 0) + 1 = (decimal n).length := by
  have hhigh : n < 2 ^ bits := by
    rw [hbits]
    exact lt_of_le_of_lt Nat.left_le_or Nat.lt_log2_self
  have hlow : 2 ^ (bits - 1) ≤ n + 1 := by
    rw [hbits, Nat.add_sub_cancel]
    exact le_trans (Nat.log2_self_le (or_one_ne_zero n)) (or_one_le n)
  obtain ⟨-, hunder, hover⟩ := log_estimate bits hwidth (by omega)
  rw [← ht] at hunder hover
  have hmax : n < 10 ^ (t + 1) := lt_of_lt_of_le hhigh hover
  rw [decimal_eq]
  rcases Nat.eq_zero_or_pos t with hzero | hpos
  · rw [hpower, if_pos hzero, if_neg (Nat.not_lt_zero n),
      length_digitsOf_eq _ (by decide) (Or.inr hzero) hmax, Nat.sub_zero]
  · have hmin : 10 ^ (t - 1) ≤ n := by
      have hstrict := hunder.resolve_left (by omega)
      omega
    rw [hpower, if_neg (show t ≠ 0 by omega)]
    split
    · rename_i hless
      rw [length_digitsOf_eq _ (by decide) (Or.inl hmin) (by rwa [Nat.sub_add_cancel hpos])]
    · rename_i hmore
      rw [length_digitsOf_eq _ (by decide) (Or.inl (Nat.le_of_not_lt hmore)) hmax, Nat.sub_zero]

theorem log2_lt_of_lt {n w : Nat} (hw : 0 < w) (h : n < 2 ^ w) : Nat.log2 n < w := by
  rcases Nat.eq_zero_or_pos n with hzero | hpos
  · rw [hzero]
    exact hw
  · exact (Nat.log2_lt (by omega)).mpr h

theorem or_one_lt {n w : Nat} (hw : 0 < w) (h : n < 2 ^ w) : n ||| 1 < 2 ^ w :=
  Nat.or_lt_two_pow h (Nat.one_lt_two_pow (by omega))

theorem clzll_eq {x : Nat} (h : x ≠ 0) : clzll x = 63 - Nat.log2 x := by
  rw [clzll, bitScanReverse, if_neg h]
  rfl

/-- The two halves see the same highest bit. -/
theorem clzllHalves_eq {x : Nat} (h : x ≠ 0) (hx : x < 2 ^ 64) : clzllHalves x = clzll x := by
  rw [clzll_eq h, clzllHalves, bitScanReverse, Nat.shiftRight_eq_div_pow]
  rcases Nat.lt_or_ge x (2 ^ 32) with hlow | hhigh
  · rw [if_pos (Nat.div_eq_of_lt hlow), Nat.mod_eq_of_lt hlow, bitScanReverse, if_neg h]
    rfl
  · have hquot : x / 2 ^ 32 ≠ 0 := by omega
    have hlog : Nat.log2 (x / 2 ^ 32) + 32 = Nat.log2 x := by
      refine ((Nat.log2_eq_iff h).mpr ⟨?_, ?_⟩).symm
      · have := Nat.log2_self_le hquot
        rw [Nat.pow_add]
        omega
      · have := Nat.lt_log2_self (n := x / 2 ^ 32)
        rw [Nat.add_right_comm, Nat.pow_add]
        omega
    rw [if_neg hquot]
    show 63 - (Nat.log2 (x / 2 ^ 32) + 32) = _
    rw [hlog]

/-- `count_digits` with either `clzll`. -/
theorem countDigits_eq {clzll' : Nat → Nat} (hclzll : ∀ x, x ≠ 0 → x < 2 ^ 64 → clzll' x = clzll x)
    {n : Nat} (hn : n < 2 ^ 64) : countDigits clzll' n = (decimal n).length := by
  have hlog : Nat.log2 (n ||| 1) < 64 := log2_lt_of_lt (by decide) (or_one_lt (by decide) hn)
  have hbits : 64 - clzll' (n ||| 1) = Nat.log2 (n ||| 1) + 1 := by
    rw [hclzll _ (or_one_ne_zero n) (or_one_lt (by decide) hn), clzll_eq (or_one_ne_zero n)]
    omega
  have hindex := (log_estimate (Nat.log2 (n ||| 1) + 1) (by omega) (by omega)).1
  rw [countDigits, hbits]
  exact estimate_eq rfl (by omega) rfl (powersOf10_64 _ hindex)

theorem countDigits32_eq {n : Nat} (hn : n < 2 ^ 32) :
    countDigits32 n = (decimal n).length := by
  have hlog : Nat.log2 (n ||| 1) < 32 := log2_lt_of_lt (by decide) (or_one_lt (by decide) hn)
  have hbits : 32 - clz (n ||| 1) = Nat.log2 (n ||| 1) + 1 := by
    rw [clz, bitScanReverse, if_neg (or_one_ne_zero n)]
    show 32 - (31 - Nat.log2 (n ||| 1)) = _
    omega
  have hindex : ((Nat.log2 (n ||| 1) + 1) * 1233) >>> 12 < 10 := by
    rw [Nat.shiftRight_eq_div_pow]
    omega
  rw [countDigits32, hbits]
  exact estimate_eq rfl (by omega) rfl (powersOf10_32 _ hindex)

theorem countDigitsLoop_eq (count n : Nat) :
    countDigitsLoop count n + 1 = count + (decimal n).length := by
  rw [decimal_eq]
  induction count, n using countDigitsLoop.induct with
  | case1 count n h =>
      rw [countDigitsLoop, if_pos h, digitsOf_of_lt _ h]
      rfl
  | case2 count n h₁ h₂ =>
      rw [countDigitsLoop, if_neg h₁, if_pos h₂,
        length_digitsOf_eq (k := 1) _ (by decide) (by omega) (by omega)]
  | case3 count n h₁ h₂ h₃ =>
      rw [countDigitsLoop, if_neg h₁, if_neg h₂, if_pos h₃,
        length_digitsOf_eq (k := 2) _ (by decide) (by omega) (by omega)]
  | case4 count n h₁ h₂ h₃ h₄ =>
      rw [countDigitsLoop, if_neg h₁, if_neg h₂, if_neg h₃, if_pos h₄,
        length_digitsOf_eq (k := 3) _ (by decide) (by omega) (by omega)]
  | case5 count n h₁ h₂ h₃ h₄ ih =>
      rw [countDigitsLoop, if_neg h₁, if_neg h₂, if_neg h₃, if_neg h₄, ih]
      have hfour : (digitsOf 10 decimalDigit n).length =
          (digitsOf 10 decimalDigit (n / 10000)).length + 4 := by
        rw [digitsOf_of_le _ (by decide) (by omega), digitsOf_of_le _ (by decide) (by omega),
          digitsOf_of_le _ (by decide) (by omega), digitsOf_of_le _ (by decide) (by omega),
          Nat.div_div_eq_div_mul, Nat.div_div_eq_div_mul, Nat.div_div_eq_div_mul]
        simp only [List.length_append, List.length_singleton]
      omega

theorem countDigitsFallback_eq (n : Nat) : countDigitsFallback n = (decimal n).length := by
  have := countDigitsLoop_eq 1 n
  rw [countDigitsFallback]
  omega

/-! ## Writing digits -/

/-- The pairs of digits below 100. -/
def digitPairs : Text :=
  (List.range 100).flatMap fun v => [decimalDigit (v / 10), decimalDigit (v % 10)]

theorem DIGITS_eq_pairs : DIGITS = digitPairs := by decide +kernel

theorem DIGITS_eq : ∀ v < 100, DIGITS.getD (v * 2) 0 = decimalDigit (v / 10) ∧
    DIGITS.getD (v * 2 + 1) 0 = decimalDigit (v % 10) := by
  rw [DIGITS_eq_pairs]
  decide +kernel

/-- Two digits a pass are two steps of one digit. -/
theorem formatDecimalLoop_eq (m : Mem Byte) (buffer value : Nat) :
    formatDecimalLoop m buffer value = writeDigits 10 decimalDigit m (buffer - 1) value := by
  induction value using Nat.strongRecOn generalizing m buffer with
  | ind value ih =>
      rw [formatDecimalLoop]
      split
      · rename_i hbig
        obtain ⟨htens, hones⟩ := DIGITS_eq (value % 100) (Nat.mod_lt _ (by decide))
        have htwo : writeDigits 10 decimalDigit m (buffer - 1) value =
            writeDigits 10 decimalDigit ((m.write (buffer - 1) [decimalDigit (value % 10)]).write
              (buffer - 2) [decimalDigit (value / 10 % 10)]) (buffer - 2 - 1) (value / 100) := by
          rw [writeDigits_of_le _ _ _ (by decide) (by omega),
            writeDigits_of_le _ _ _ (by decide) (by omega : 10 ≤ value / 10),
            Nat.div_div_eq_div_mul]
          rfl
        rw [htwo, ← ih _ (by omega), ← Nat.mod_mul_right_mod value 10 10,
          ← Nat.mod_mul_right_div_self value 10 10]
        show formatDecimalLoop ((m.write _ [DIGITS.getD (value % 100 * 2 + 1) 0]).write _
          [DIGITS.getD (value % 100 * 2) 0]) _ _ = _
        rw [hones, htens]
      · rename_i hsmall
        split
        · rename_i hone
          rw [writeDigits_of_lt _ _ _ hone]
          rfl
        · rename_i htwo
          obtain ⟨htens, hones⟩ := DIGITS_eq value (by omega)
          rw [writeDigits_of_le _ _ _ (by decide) (by omega), writeDigits_of_lt _ _ _ (by omega),
            ← hones, ← htens]
          rfl

/-- `format_decimal` with the right count writes the number into its window. -/
theorem formatDecimal_eq (m : Mem Byte) (buffer value : Nat) :
    formatDecimal m buffer value (decimal value).length = m.write buffer (decimal value) := by
  rw [formatDecimal, formatDecimalLoop_eq, decimal_eq]
  exact writeDigits_eq _ (by decide) _ _ _

section Shifts

variable (shift : Nat) [hshift : NeZero shift]

theorem two_le_pow : 2 ≤ 2 ^ shift := Nat.one_lt_two_pow hshift.ne

theorem shiftRight_ne_zero_iff (n : Nat) : n >>> shift ≠ 0 ↔ 2 ^ shift ≤ n := by
  rw [Nat.shiftRight_eq_div_pow, Nat.div_ne_zero_iff]
  exact and_iff_right (by have := two_le_pow shift; omega)

theorem countShifts_eq (digit : Nat → Byte) (count n : Nat) :
    countShifts shift count n = count + (digitsOf (2 ^ shift) digit n).length := by
  induction n using Nat.strongRecOn generalizing count with
  | ind n ih =>
      rw [countShifts]
      split
      · rename_i h
        have hle := (shiftRight_ne_zero_iff shift n).mp h
        have hlt : n / 2 ^ shift < n :=
          Nat.div_lt_self (by have := two_le_pow shift; omega) (two_le_pow shift)
        rw [Nat.shiftRight_eq_div_pow, ih _ hlt, digitsOf_of_le _ (two_le_pow shift) hle,
          List.length_append, List.length_singleton]
        omega
      · rename_i h
        have hlt := Nat.lt_of_not_le fun hle => h ((shiftRight_ne_zero_iff shift n).mpr hle)
        rw [digitsOf_of_lt _ hlt]
        rfl

theorem writeShifts_eq (digit : Nat → Byte) (m : Mem Byte) (p n : Nat) :
    writeShifts shift digit m p n = writeDigits (2 ^ shift) digit m p n := by
  induction n using Nat.strongRecOn generalizing m p with
  | ind n ih =>
      rw [writeShifts, Nat.and_two_pow_sub_one_eq_mod]
      split
      · rename_i h
        have hle := (shiftRight_ne_zero_iff shift n).mp h
        have hlt : n / 2 ^ shift < n :=
          Nat.div_lt_self (by have := two_le_pow shift; omega) (two_le_pow shift)
        rw [Nat.shiftRight_eq_div_pow, ih _ hlt, writeDigits_of_le _ _ _ (two_le_pow shift) hle]
      · rename_i h
        have hlt : n < 2 ^ shift :=
          Nat.lt_of_not_le fun hle => h ((shiftRight_ne_zero_iff shift n).mpr hle)
        rw [writeDigits_of_lt _ _ _ hlt, Nat.mod_eq_of_lt hlt]

end Shifts

end ServerStudy.Fmt
