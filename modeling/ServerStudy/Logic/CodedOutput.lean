import ServerStudy.Logic.CodedInput
import ServerStudy.Protobuf.Chat

/-!
# What the writers write

Every branch of the unrolled writers gives the varint of the value, so a Chat
message is written as the tag of field 1, the varint of the length and the text.
-/

namespace ServerStudy.Protobuf

open ServerStudy.Core

/-! ## Bytes of a varint -/

theorem or_128 {n : Nat} (h : n < 256) : n ||| 128 = n % 128 + 128 := by
  have hadd : ∀ k, k < 128 → 128 + k = 128 ||| k := fun k hk =>
    Nat.two_pow_add_eq_or_of_lt (i := 7) hk 1
  rcases Nat.lt_or_ge n 128 with hlt | hge
  · rw [Nat.mod_eq_of_lt hlt, Nat.or_comm, ← hadd n hlt, Nat.add_comm]
  · have hn : n = 128 ||| (n - 128) := by
      rw [← hadd (n - 128) (by omega)]
      omega
    have hself : n ||| 128 = n := by
      rw [hn, Nat.or_comm, ← Nat.or_assoc, Nat.or_self]
    omega

/-- A byte with its high bit set. -/
theorem groupByte_eq (value shift : UInt32) (h : shift.toNat < 32) :
    groupByte value shift = UInt8.ofNat (value.toNat / 2 ^ shift.toNat % 128 + 128) := by
  apply UInt8.toNat_inj.mp
  have hhigh : (0x80 : UInt32).toNat % 2 ^ 8 = 128 := rfl
  rw [groupByte, UInt32.toNat_toUInt8, UInt32.toNat_or, UInt32.toNat_shiftRight,
    Nat.mod_eq_of_lt h, Nat.shiftRight_eq_div_pow, Nat.or_mod_two_pow, hhigh,
    or_128 (Nat.mod_lt _ (by decide)), toNat_ofNat_of_lt (by omega)]
  omega

/-- The last byte, with its high bit cleared again. -/
theorem groupByte_and_0x7F (value shift : UInt32) (h : shift.toNat < 32) :
    groupByte value shift &&& 0x7F = UInt8.ofNat (value.toNat / 2 ^ shift.toNat % 128) := by
  apply UInt8.toNat_inj.mp
  rw [toNat_and_0x7F, groupByte_eq value shift h, toNat_ofNat_of_lt (by omega),
    toNat_ofNat_of_lt (by omega)]
  omega

theorem shiftRight_toUInt8 (value shift : UInt32) (h : shift.toNat < 32)
    (hsmall : value.toNat / 2 ^ shift.toNat < 256) :
    (value >>> shift).toUInt8 = UInt8.ofNat (value.toNat / 2 ^ shift.toNat) := by
  apply UInt8.toNat_inj.mp
  rw [UInt32.toNat_toUInt8, UInt32.toNat_shiftRight, Nat.mod_eq_of_lt h,
    Nat.shiftRight_eq_div_pow, Nat.mod_eq_of_lt hsmall, toNat_ofNat_of_lt hsmall]

theorem toUInt8_of_lt {value : UInt32} (h : value.toNat < 128) :
    value.toUInt8 = UInt8.ofNat value.toNat := by
  apply UInt8.toNat_inj.mp
  rw [UInt32.toNat_toUInt8, Nat.mod_eq_of_lt (by omega), toNat_ofNat_of_lt (by omega)]

theorem varint_of_lt {bytes n : Nat} (h : n < 128) :
    varint (bytes + 1) n = [UInt8.ofNat n] := by
  rw [varint, if_pos h]

theorem varint_of_le {bytes n : Nat} (h : 128 ≤ n) :
    varint (bytes + 1) n = UInt8.ofNat (n % 128 + 128) :: varint bytes (n / 128) := by
  rw [varint, if_neg (Nat.not_lt.mpr h)]

/-! ## The writers -/

section Writers

variable (value : UInt32)

/-- The bound that a value is compared with, on the quotient of the varint. -/
theorem le_iff_128_le (bound : UInt32) (d : Nat) (hd : 0 < d) (hbound : bound.toNat = 128 * d) :
    bound ≤ value ↔ 128 ≤ value.toNat / d := by
  rw [UInt32.le_iff_toNat_le, hbound, Nat.le_div_iff_mul_le hd]

theorem writeVarint32FallbackToArrayInline_eq :
    writeVarint32FallbackToArrayInline value = varint 5 value.toNat := by
  have h80 := le_iff_128_le value 0x80 1 (by decide) rfl
  have h4000 := le_iff_128_le value 0x4000 (2 ^ 7) (by decide) rfl
  have h200000 := le_iff_128_le value 0x200000 (2 ^ 14) (by decide) rfl
  have h10000000 := le_iff_128_le value 0x10000000 (2 ^ 21) (by decide) rfl
  have hlt := value.toNat_lt
  have h0 := groupByte_eq value 0 (by decide)
  have h7 := groupByte_eq value 7 (by decide)
  have h14 := groupByte_eq value 14 (by decide)
  have h21 := groupByte_eq value 21 (by decide)
  have h0' := groupByte_and_0x7F value 0 (by decide)
  have h7' := groupByte_and_0x7F value 7 (by decide)
  have h14' := groupByte_and_0x7F value 14 (by decide)
  have h21' := groupByte_and_0x7F value 21 (by decide)
  simp only [show (0 : UInt32).toNat = 0 from rfl, show (7 : UInt32).toNat = 7 from rfl,
    show (14 : UInt32).toNat = 14 from rfl, show (21 : UInt32).toNat = 21 from rfl, Nat.pow_zero,
    Nat.div_one] at h80 h0 h7 h14 h21 h0' h7' h14' h21'
  -- the quotients of the varint are those of the shifts
  have hq14 : value.toNat / 128 / 128 = value.toNat / 2 ^ 14 := Nat.div_div_eq_div_mul ..
  have hq21 : value.toNat / 2 ^ 14 / 128 = value.toNat / 2 ^ 21 := Nat.div_div_eq_div_mul ..
  have hq28 : value.toNat / 2 ^ 21 / 128 = value.toNat / 2 ^ 28 := Nat.div_div_eq_div_mul ..
  have hq7 : value.toNat / 128 = value.toNat / 2 ^ 7 := rfl
  rw [writeVarint32FallbackToArrayInline]
  by_cases hb1 : 128 ≤ value.toNat
  · rw [if_pos (h80.mpr hb1), varint_of_le hb1, ← h0, hq7]
    by_cases hb2 : 128 ≤ value.toNat / 2 ^ 7
    · rw [if_pos (h4000.mpr hb2), varint_of_le hb2, ← h7, ← hq7, hq14]
      by_cases hb3 : 128 ≤ value.toNat / 2 ^ 14
      · rw [if_pos (h200000.mpr hb3), varint_of_le hb3, ← h14, hq21]
        by_cases hb4 : 128 ≤ value.toNat / 2 ^ 21
        · have hlast := shiftRight_toUInt8 value 28 (by decide)
          rw [show (28 : UInt32).toNat = 28 from rfl] at hlast
          rw [if_pos (h10000000.mpr hb4), varint_of_le hb4, ← h21, hq28,
            varint_of_lt (by omega), hlast (by omega)]
        · rw [if_neg (mt h10000000.mp hb4), varint_of_lt (Nat.not_le.mp hb4), h21',
            Nat.mod_eq_of_lt (Nat.not_le.mp hb4)]
      · rw [if_neg (mt h200000.mp hb3), varint_of_lt (Nat.not_le.mp hb3), h14',
          Nat.mod_eq_of_lt (Nat.not_le.mp hb3)]
    · rw [if_neg (mt h4000.mp hb2), varint_of_lt (Nat.not_le.mp hb2), h7',
        Nat.mod_eq_of_lt (Nat.not_le.mp hb2)]
  · rw [if_neg (mt h80.mp hb1), varint_of_lt (Nat.not_le.mp hb1), h0',
      Nat.mod_eq_of_lt (Nat.not_le.mp hb1)]

theorem writeVarint32ToArray_eq : writeVarint32ToArray value = varint 5 value.toNat := by
  rw [writeVarint32ToArray]
  split
  · next hsmall =>
    have hlt : value.toNat < 128 := UInt32.lt_iff_toNat_lt.mp hsmall
    rw [varint_of_lt hlt, toUInt8_of_lt hlt]
  · exact writeVarint32FallbackToArrayInline_eq value

/-- The path for tags of two bytes writes what the others would. -/
theorem writeTagToArray_eq : writeTagToArray value = varint 5 value.toNat := by
  rw [writeTagToArray]
  split
  · next hsmall =>
    have hlt : value.toNat < 128 := UInt32.lt_iff_toNat_lt.mp hsmall
    rw [varint_of_lt hlt, toUInt8_of_lt hlt]
  · next hlarge =>
    split
    · next htwo =>
      have hge : 128 ≤ value.toNat :=
        Nat.not_lt.mp fun hlt => hlarge (UInt32.lt_iff_toNat_lt.mpr hlt)
      have hlt : value.toNat < 16384 := UInt32.lt_iff_toNat_lt.mp htwo
      have hfirst : (value ||| 0x80).toUInt8 = UInt8.ofNat (value.toNat % 128 + 128) := by
        have hgroup := groupByte_eq value 0 (by decide)
        rw [groupByte, UInt32.shiftRight_zero] at hgroup
        rw [hgroup, show 2 ^ (0 : UInt32).toNat = 1 from rfl, Nat.div_one]
      have hsecond := shiftRight_toUInt8 value 7 (by decide)
      rw [show 2 ^ (7 : UInt32).toNat = 128 from rfl] at hsecond
      rw [varint_of_le hge, varint_of_lt (by omega), hfirst, hsecond (by omega)]
    · exact writeVarint32FallbackToArrayInline_eq value

end Writers

/-- A message that is set is written as the tag of a string in field 1, its
length and its text. -/
theorem serialize_eq {message : Text} (h : message.length < 2 ^ 32) :
    chatClass.serialize message = 10 :: (varint 5 message.length ++ message) := by
  have htag : makeTag 1 .lengthDelimited = 10 := by decide
  have hlen : (UInt32.ofNat message.length).toNat = message.length := by
    rw [UInt32.toNat_ofNat']
    exact Nat.mod_eq_of_lt h
  show writeStringToArray 1 message = _
  rw [writeStringToArray, htag, writeVarint32ToArray_eq, hlen, writeTagToArray_eq]
  rfl

end ServerStudy.Protobuf
