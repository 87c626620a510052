import ServerStudy.Core.Memory
import Mathlib.Algebra.Group.Nat.Defs

/-!
# Positional digits

`digitsOf b digit n` is a number written in base `b`, most significant digit
first, with `digit` for the characters. How many there are is read off the
powers of the base (`length_digitsOf_eq`), and a writer that goes down from the
end of its window, a digit at a time, leaves exactly them there
(`writeDigits_eq`).
-/

namespace ServerStudy.Core

variable {α : Type}

/-- The digits of `n`, at least one. A base below 2 has no digits but `n`. -/
def digitsOf (b : Nat) (digit : Nat → α) (n : Nat) : List α :=
  if _h : n < b ∨ b < 2 then [digit n] else digitsOf b digit (n / b) ++ [digit (n % b)]
termination_by n
decreasing_by exact Nat.div_lt_self (by omega) (by omega)

theorem digitsOf_of_lt {b n : Nat} (digit : Nat → α) (h : n < b) :
    digitsOf b digit n = [digit n] := by
  rw [digitsOf, dif_pos (Or.inl h)]

theorem digitsOf_of_le {b n : Nat} (digit : Nat → α) (hb : 2 ≤ b) (h : b ≤ n) :
    digitsOf b digit n = digitsOf b digit (n / b) ++ [digit (n % b)] := by
  rw [digitsOf, dif_neg (by omega)]

theorem digitsOf_map {β : Type} (f : α → β) {b : Nat} (digit : Nat → α) (hb : 2 ≤ b) (n : Nat) :
    (digitsOf b digit n).map f = digitsOf b (f ∘ digit) n := by
  induction n using Nat.strongRecOn with
  | ind n ih =>
      rcases Nat.lt_or_ge n b with hn | hn
      · rw [digitsOf_of_lt digit hn, digitsOf_of_lt (f ∘ digit) hn]
        rfl
      · rw [digitsOf_of_le digit hb hn, digitsOf_of_le (f ∘ digit) hb hn, List.map_append,
          ih (n / b) (Nat.div_lt_self (by omega) hb)]
        rfl

/-- Lean's own digits. -/
theorem toDigits_eq_digitsOf {b : Nat} (hb : 2 ≤ b) (n : Nat) :
    Nat.toDigits b n = digitsOf b Nat.digitChar n := by
  induction n using Nat.strongRecOn with
  | ind n ih =>
      rcases Nat.lt_or_ge n b with hn | hn
      · rw [Nat.toDigits_of_lt_base hn, digitsOf_of_lt _ hn]
      · rw [Nat.toDigits_of_base_le hb hn, digitsOf_of_le _ hb hn,
          ih (n / b) (Nat.div_lt_self (by omega) hb)]

theorem length_digitsOf_pos (b : Nat) (digit : Nat → α) (n : Nat) :
    0 < (digitsOf b digit n).length := by
  rw [digitsOf]
  split
  · exact Nat.one_pos
  · rw [List.length_append]
    exact Nat.succ_pos _

/-- `k + 1` digits: from `b ^ k`, or from zero, up to `b ^ (k + 1)`. -/
theorem length_digitsOf_eq {b n k : Nat} (digit : Nat → α) (hb : 2 ≤ b)
    (hlow : b ^ k ≤ n ∨ k = 0) (hhigh : n < b ^ (k + 1)) :
    (digitsOf b digit n).length = k + 1 := by
  induction k generalizing n with
  | zero => rw [digitsOf_of_lt _ (by simpa using hhigh)]; rfl
  | succ k ih =>
      have hpos : 0 < b ^ k := Nat.pow_pos (by omega)
      have hlow : b ^ k * b ≤ n := by simpa [Nat.pow_succ] using hlow
      have hbn : b ≤ n := le_trans (Nat.le_mul_of_pos_left b hpos) hlow
      have hhigh : n / b < b ^ (k + 1) := by
        rw [Nat.div_lt_iff_lt_mul (by omega), ← Nat.pow_succ]
        exact hhigh
      have hquot : b ^ k ≤ n / b := (Nat.le_div_iff_mul_le (by omega)).mpr hlow
      rw [digitsOf_of_le _ hb hbn, List.length_append, ih (Or.inl hquot) hhigh]
      rfl

/-- Digits below the base are all that is looked at. -/
theorem digitsOf_congr {b : Nat} {digit digit' : Nat → α} (hb : 2 ≤ b)
    (h : ∀ d < b, digit d = digit' d) (n : Nat) : digitsOf b digit n = digitsOf b digit' n := by
  induction n using Nat.strongRecOn with
  | ind n ih =>
      rcases Nat.lt_or_ge n b with hn | hn
      · rw [digitsOf_of_lt digit hn, digitsOf_of_lt digit' hn, h n hn]
      · rw [digitsOf_of_le digit hb hn, digitsOf_of_le digit' hb hn, h _ (Nat.mod_lt _ (by omega)),
          ih (n / b) (Nat.div_lt_self (by omega) hb)]

/-! ## Written from the end -/

/-- The digits of `n` written downwards, the last of them at `p`. -/
def writeDigits (b : Nat) (digit : Nat → α) (m : Mem α) (p n : Nat) : Mem α :=
  if _h : n < b ∨ b < 2 then m.write p [digit n]
  else writeDigits b digit (m.write p [digit (n % b)]) (p - 1) (n / b)
termination_by n
decreasing_by exact Nat.div_lt_self (by omega) (by omega)

theorem writeDigits_of_lt {b n : Nat} (digit : Nat → α) (m : Mem α) (p : Nat) (h : n < b) :
    writeDigits b digit m p n = m.write p [digit n] := by
  rw [writeDigits, dif_pos (Or.inl h)]

theorem writeDigits_of_le {b n : Nat} (digit : Nat → α) (m : Mem α) (p : Nat) (hb : 2 ≤ b)
    (h : b ≤ n) : writeDigits b digit m p n =
      writeDigits b digit (m.write p [digit (n % b)]) (p - 1) (n / b) := by
  rw [writeDigits, dif_neg (by omega)]

/-- A window as long as the digits is what gets written, and nothing else. -/
theorem writeDigits_eq {b : Nat} (digit : Nat → α) (hb : 2 ≤ b) (m : Mem α) (start n : Nat) :
    writeDigits b digit m (start + (digitsOf b digit n).length - 1) n =
      m.write start (digitsOf b digit n) := by
  induction n using Nat.strongRecOn generalizing m with
  | ind n ih =>
      rcases Nat.lt_or_ge n b with hn | hn
      · rw [writeDigits_of_lt _ _ _ hn, digitsOf_of_lt _ hn]
        rfl
      · have hlast : start + (digitsOf b digit n).length - 1 =
            start + (digitsOf b digit (n / b)).length := by
          rw [digitsOf_of_le _ hb hn, List.length_append, List.length_singleton]
          omega
        rw [writeDigits_of_le _ _ _ hb hn, hlast, ih (n / b) (Nat.div_lt_self (by omega) hb),
          digitsOf_of_le _ hb hn, Mem.write_append, Mem.write_comm m (Nat.le_refl _)]

end ServerStudy.Core
