import ServerStudy.Core.Digits
import ServerStudy.Shared.ChatMessage
import Mathlib.Algebra.Group.Nat.Defs

/-!
# Counting and writing digits (Shared/format.h, format.cc)

`count_digits` comes in three versions: with `clzll`, with `clz` for 32-bit
values, and a fallback loop. `clzll` itself has a 64-bit and a 32-bit body.
Values are `Nat`, below `2 ^ 64` or `2 ^ 32`: nothing here wraps.
-/

namespace ServerStudy.Fmt

open ServerStudy.Core

/-- A string literal. -/
def text (s : String) : Text := s.toList.map fun c => UInt8.ofNat c.toNat

/-- A character literal. -/
def char (c : Char) : Byte := UInt8.ofNat c.toNat

/-- `_BitScanReverse`, `_BitScanReverse64`: the index of the highest bit set. -/
def bitScanReverse (x : Nat) : Option Nat := if x = 0 then none else some (Nat.log2 x)

def clz (x : Nat) : Nat := 31 - (bitScanReverse x).getD 0

/-- `clzll` where `_WIN64` is defined. -/
def clzll (x : Nat) : Nat := 63 - (bitScanReverse x).getD 0

/-- `clzll` of a 32-bit build: the high half, then the low half. -/
def clzllHalves (x : Nat) : Nat :=
  if let some r := bitScanReverse (x >>> 32) then 63 - (r + 32)
  else 63 - (bitScanReverse (x % 2 ^ 32)).getD 0

/-- `FMT_POWERS_OF_10`. -/
def powersOf10 (factor : Nat) : List Nat :=
  [factor * 10, factor * 100, factor * 1000, factor * 10000, factor * 100000, factor * 1000000,
    factor * 10000000, factor * 100000000, factor * 1000000000]

def POWERS_OF_10_32 : List Nat := 0 :: powersOf10 1

def POWERS_OF_10_64 : List Nat :=
  0 :: (powersOf10 1 ++ powersOf10 1000000000 ++ [1000000000 * 1000000000 * 10])

/-- `count_digits` with `FMT_BUILTIN_CLZLL`. -/
def countDigits (clzll : Nat → Nat) (n : Nat) : Nat :=
  let t := ((64 - clzll (n ||| 1)) * 1233) >>> 12
  t - (if n < POWERS_OF_10_64.getD t 0 then 1 else 0) + 1

/-- `count_digits(uint32_t)` with `FMT_BUILTIN_CLZ`. -/
def countDigits32 (n : Nat) : Nat :=
  let t := ((32 - clz (n ||| 1)) * 1233) >>> 12
  t - (if n < POWERS_OF_10_32.getD t 0 then 1 else 0) + 1

/-- The loop of the fallback `count_digits`. -/
def countDigitsLoop (count n : Nat) : Nat :=
  if n < 10 then count
  else if n < 100 then count + 1
  else if n < 1000 then count + 2
  else if n < 10000 then count + 3
  else countDigitsLoop (count + 4) (n / 10000)
termination_by n
decreasing_by omega

/-- `count_digits` without the built-ins. -/
def countDigitsFallback (n : Nat) : Nat := countDigitsLoop 1 n

/-- Every two-digit number. -/
def DIGITS : Text :=
  text "0001020304050607080910111213141516171819" ++
    text "2021222324252627282930313233343536373839" ++
    text "4041424344454647484950515253545556575859" ++
    text "6061626364656667686970717273747576777879" ++
    text "8081828384858687888990919293949596979899"

/-- The loop of `format_decimal` and what follows it: two digits a pass, down
from `buffer`. -/
def formatDecimalLoop (m : Mem Byte) (buffer value : Nat) : Mem Byte :=
  if 100 ≤ value then
    let index := value % 100 * 2
    let m := m.write (buffer - 1) [DIGITS.getD (index + 1) 0]
    let m := m.write (buffer - 2) [DIGITS.getD index 0]
    formatDecimalLoop m (buffer - 2) (value / 100)
  else if value < 10 then m.write (buffer - 1) [UInt8.ofNat (48 + value)]
  else
    let index := value * 2
    let m := m.write (buffer - 1) [DIGITS.getD (index + 1) 0]
    m.write (buffer - 2) [DIGITS.getD index 0]
termination_by value
decreasing_by omega

def formatDecimal (m : Mem Byte) (buffer value numDigits : Nat) : Mem Byte :=
  formatDecimalLoop m (buffer + numDigits) value

/-- `do { ++num_digits; } while ((n >>= shift) != 0);` -/
def countShifts (shift : Nat) [NeZero shift] (numDigits n : Nat) : Nat :=
  if n >>> shift ≠ 0 then countShifts shift (numDigits + 1) (n >>> shift) else numDigits + 1
termination_by n
decreasing_by
  rename_i h
  rw [Nat.shiftRight_eq_div_pow] at h ⊢
  have hn : 0 < n := Nat.pos_of_ne_zero fun h0 => h (by rw [h0, Nat.zero_div])
  exact Nat.div_lt_self hn (Nat.one_lt_two_pow (NeZero.ne shift))

/-- `do { *p-- = digit(n & mask); } while ((n >>= shift) != 0);` with `mask` the
low `shift` bits. -/
def writeShifts (shift : Nat) [NeZero shift] (digit : Nat → Byte) (m : Mem Byte) (p n : Nat) :
    Mem Byte :=
  let m := m.write p [digit (n &&& (2 ^ shift - 1))]
  if n >>> shift ≠ 0 then writeShifts shift digit m (p - 1) (n >>> shift) else m
termination_by n
decreasing_by
  rename_i h
  rw [Nat.shiftRight_eq_div_pow] at h ⊢
  have hn : 0 < n := Nat.pos_of_ne_zero fun h0 => h (by rw [h0, Nat.zero_div])
  exact Nat.div_lt_self hn (Nat.one_lt_two_pow (NeZero.ne shift))

end ServerStudy.Fmt
