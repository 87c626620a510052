import Mathlib.Data.Nat.Bitwise
import ServerStudy.Core.Varint
import ServerStudy.Protobuf.CodedInputStream

/-!
# What the readers of `CodedInputStream` read

Every reader has one equation, on the bytes that remain. Whichever of its paths
is taken, a varint is what `readVarint 10` finds there (`readVarint64_eq`,
`readVarint32_eq`, `readTagFallback_eq`); nothing past the array counts, though
the fast paths do not look where it ends.
-/

namespace ServerStudy.Protobuf

open ServerStudy.Core

/-! ## Bytes of a varint -/

theorem continues_iff (b : Byte) : continues b = true ↔ 128 ≤ b.toNat := by
  have hb := b.toNat_lt
  have hand : (b &&& 0x80).toNat = (b.toNat.testBit 7).toNat * 2 ^ 7 := by
    rw [UInt8.toNat_and]
    exact Nat.and_two_pow b.toNat 7
  have hbit : b.toNat.testBit 7 = decide (128 ≤ b.toNat) := by
    rw [Nat.testBit_eq_decide_div_mod_eq]
    exact decide_eq_decide.mpr (by omega)
  rw [continues, bne_iff_ne, Ne, ← UInt8.toNat_inj, hand, hbit]
  by_cases hle : 128 ≤ b.toNat
  · simp [hle]
  · simp [hle]

theorem continues_eq_false_iff (b : Byte) : continues b = false ↔ b.toNat < 128 := by
  rw [← Bool.not_eq_true, continues_iff, Nat.not_le]

theorem lt_0x80_iff (b : Byte) : b < 0x80 ↔ b.toNat < 128 := UInt8.lt_iff_toNat_lt

/-! ## The unrolled steps -/

section Unrolled

variable {memory : Mem Byte}

theorem toNat_shiftLeft32 {a shift : UInt32} (h : shift.toNat < 32) :
    (a <<< shift).toNat = a.toNat * 2 ^ shift.toNat % 2 ^ 32 := by
  rw [UInt32.toNat_shiftLeft, Nat.mod_eq_of_lt h, Nat.shiftLeft_eq]

/-- A byte is added, and its high bit taken back. -/
theorem toNat_step {part shift : UInt32} {b : Byte} (hshift : shift.toNat < 32)
    (hb : 128 ≤ b.toNat) :
    (part + (b.toUInt32 <<< shift) - ((0x80 : UInt32) <<< shift)).toNat =
      (part.toNat + 2 ^ shift.toNat * (b.toNat - 128)) % 2 ^ 32 := by
  have hbyte : (b.toUInt32 <<< shift).toNat = b.toNat * 2 ^ shift.toNat % 2 ^ 32 :=
    toNat_shiftLeft32 hshift
  have hhigh : ((0x80 : UInt32) <<< shift).toNat = 128 * 2 ^ shift.toNat % 2 ^ 32 :=
    toNat_shiftLeft32 hshift
  have hsplit : b.toNat * 2 ^ shift.toNat =
      128 * 2 ^ shift.toNat + 2 ^ shift.toNat * (b.toNat - 128) := by
    rw [← Nat.sub_add_cancel hb, Nat.add_sub_cancel]
    ring
  rw [UInt32.toNat_sub, UInt32.toNat_add, hbyte, hhigh, hsplit]
  omega

/-- The next step's shift. -/
theorem toNat_next {count : Nat} {shift : UInt32} (h : shift.toNat + 7 * (count + 1) ≤ 35) :
    (shift + 7).toNat = shift.toNat + 7 := by
  have hseven : (7 : UInt32).toNat = 7 := rfl
  rw [UInt32.toNat_add, hseven]
  omega

/-- The rest of a number is added behind its first byte. -/
theorem toNat_steps {part₀ part₁ n b s : Nat}
    (h : part₁ = (part₀ + 2 ^ s * (b - 128)) % 2 ^ 32) :
    (part₁ + 2 ^ (s + 7) * n) % 2 ^ 32 =
      (part₀ + 2 ^ s * (b - 128 + 128 * n)) % 2 ^ 32 := by
  have hsplit : part₀ + 2 ^ s * (b - 128 + 128 * n) =
      part₀ + 2 ^ s * (b - 128) + 2 ^ (s + 7) * n := by
    rw [Nat.pow_add]
    ring
  rw [h, hsplit, Nat.mod_add_mod]

/-- The steps end where the number does. -/
theorem varintPart_of_some {count n ptr : Nat} {rest : List Byte} (shift part : UInt32)
    (hshift : shift.toNat + 7 * count ≤ 35)
    (h : readVarint count (memory.slice ptr count) = some (n, rest)) :
    ∃ part', varintPart memory count shift ptr part =
        (part', ptr + (count - rest.length), true) ∧
      part'.toNat = (part.toNat + 2 ^ shift.toNat * n) % 2 ^ 32 := by
  induction count generalizing n ptr shift part with
  | zero => cases h
  | succ count ih =>
      rw [Mem.slice_succ] at h
      by_cases hb : (memory ptr).toNat < 128
      · rw [readVarint_cons_of_lt hb] at h
        cases h
        have hend : continues (memory ptr) = false := (continues_eq_false_iff _).mpr hb
        refine ⟨part + ((memory ptr).toUInt32 <<< shift), ?_, ?_⟩
        · rw [varintPart]
          simp only [hend, Mem.length_slice]
          rw [if_neg Bool.false_ne_true, Nat.add_sub_cancel_left]
        · rw [UInt32.toNat_add, toNat_shiftLeft32 (by omega), Nat.add_mod_mod, Nat.mul_comm]
          rfl
      · have hle := Nat.not_lt.mp hb
        rw [readVarint_cons_of_le hle, Option.map_eq_some_iff] at h
        obtain ⟨⟨n', rest'⟩, hrest, heq⟩ := h
        cases heq
        have hnext := toNat_next hshift
        obtain ⟨part', hpart, hvalue⟩ :=
          ih (shift + 7) (part + ((memory ptr).toUInt32 <<< shift) - ((0x80 : UInt32) <<< shift))
            (by rw [hnext]; omega) hrest
        obtain ⟨vb, hvb, _, _, _⟩ := readVarint_split hrest
        have hlen := congrArg List.length hvb
        rw [Mem.length_slice, List.length_append] at hlen
        refine ⟨part', ?_, ?_⟩
        · rw [varintPart]
          simp only [(continues_iff _).mpr hle, if_true]
          rw [hpart]
          have hptr : ptr + 1 + (count - rest'.length) = ptr + (count + 1 - rest'.length) := by
            omega
          rw [hptr]
        · rw [hvalue, hnext]
          exact toNat_steps (toNat_step (by omega) hle)

/-- If the number does not end the steps give its low part. -/
theorem varintPart_of_none {count ptr : Nat} (shift part : UInt32)
    (hshift : shift.toNat + 7 * count ≤ 35)
    (h : readVarint count (memory.slice ptr count) = none) :
    ∃ part', varintPart memory count shift ptr part = (part', ptr + count, false) ∧
      part'.toNat =
        (part.toNat + 2 ^ shift.toNat * varintLow (memory.slice ptr count)) % 2 ^ 32 := by
  induction count generalizing ptr shift part with
  | zero =>
      refine ⟨part, rfl, ?_⟩
      rw [Mem.slice_zero, varintLow, Nat.mul_zero, Nat.add_zero]
      exact (Nat.mod_eq_of_lt part.toNat_lt).symm
  | succ count ih =>
      rw [Mem.slice_succ] at h
      by_cases hb : (memory ptr).toNat < 128
      · rw [readVarint_cons_of_lt hb] at h
        cases h
      · have hle := Nat.not_lt.mp hb
        have hb256 := (memory ptr).toNat_lt
        rw [readVarint_cons_of_le hle, Option.map_eq_none_iff] at h
        have hnext := toNat_next hshift
        obtain ⟨part', hpart, hvalue⟩ :=
          ih (shift + 7) (part + ((memory ptr).toUInt32 <<< shift) - ((0x80 : UInt32) <<< shift))
            (by rw [hnext]; omega) h
        refine ⟨part', ?_, ?_⟩
        · rw [varintPart]
          simp only [(continues_iff _).mpr hle, if_true]
          rw [hpart, Nat.add_right_comm, Nat.add_assoc ptr count 1]
        · have hlow : (memory ptr).toNat % 128 = (memory ptr).toNat - 128 := by omega
          rw [hvalue, hnext, Mem.slice_succ, varintLow, hlow]
          exact toNat_steps (toNat_step (by omega) hle)

/-- Discarding bytes finds the end too. -/
theorem discardVarint_eq (count ptr : Nat) :
    discardVarint memory count ptr =
      (readVarint count (memory.slice ptr count)).map fun r => ptr + (count - r.2.length) := by
  induction count generalizing ptr with
  | zero => rfl
  | succ count ih =>
      rw [Mem.slice_succ, discardVarint]
      by_cases hb : (memory ptr).toNat < 128
      · rw [readVarint_cons_of_lt hb, (continues_eq_false_iff _).mpr hb, if_neg Bool.false_ne_true]
        simp
      · have hle := Nat.not_lt.mp hb
        rw [readVarint_cons_of_le hle, if_pos ((continues_iff _).mpr hle), ih]
        cases hrest : readVarint count (memory.slice (ptr + 1) count) with
        | none => rfl
        | some r =>
            obtain ⟨vb, hvb, _, _, _⟩ := readVarint_split hrest
            have hlen := congrArg List.length hvb
            rw [Mem.length_slice, List.length_append] at hlen
            simp only [Option.map_some, Option.some.injEq]
            omega

theorem readVarint32FromArray_eq (ptr : Nat) :
    readVarint32FromArray memory ptr =
      (readVarint 10 (memory.slice ptr 10)).map fun r =>
        (UInt32.ofNat r.1, ptr + (10 - r.2.length)) := by
  have hsplit : memory.slice ptr 10 = memory.slice ptr 5 ++ memory.slice (ptr + 5) 5 :=
    memory.slice_add ptr 5 5
  cases hfirst : readVarint 5 (memory.slice ptr 5) with
  | some r =>
      obtain ⟨n, rest⟩ := r
      obtain ⟨part, hpart, hvalue⟩ := varintPart_of_some 0 0 (by decide) hfirst
      have hall : readVarint 10 _ = _ :=
        readVarint_append (readVarint_mono hfirst 5) (memory.slice (ptr + 5) 5)
      have hpart32 : part = UInt32.ofNat n := by
        apply UInt32.toNat_inj.mp
        rw [hvalue, UInt32.toNat_ofNat']
        simp
      rw [hsplit, hall, readVarint32FromArray, kMaxVarint32Bytes, hpart, Option.map_some, hpart32,
        List.length_append, Mem.length_slice]
      simp only [Option.some.injEq, Prod.mk.injEq, true_and]
      omega
  | none =>
      obtain ⟨part, hpart, hvalue⟩ := varintPart_of_none 0 0 (by decide) hfirst
      have hall : readVarint 10 _ = _ :=
        readVarint_add (Mem.length_slice ..) hfirst 5 (memory.slice (ptr + 5) 5)
      rw [hsplit, hall, readVarint32FromArray, kMaxVarint32Bytes, hpart]
      simp only [kMaxVarintBytes, discardVarint_eq]
      cases hrest : readVarint 5 (memory.slice (ptr + 5) 5) with
      | none => rfl
      | some r =>
          obtain ⟨vb, hvb, _, _, _⟩ := readVarint_split hrest
          have hlen := congrArg List.length hvb
          rw [Mem.length_slice, List.length_append] at hlen
          -- what the other bytes say is shifted out
          have hpart32 : part = UInt32.ofNat (varintLow (memory.slice ptr 5) + 128 ^ 5 * r.1) := by
            apply UInt32.toNat_inj.mp
            rw [hvalue, UInt32.toNat_ofNat']
            simp only [UInt32.toNat_zero]
            omega
          simp only [Option.map_some, hpart32, Option.some.injEq, Prod.mk.injEq, true_and]
          omega

/-- The bits of a piece stand above those before it. -/
theorem toNat_or_shift (x y : UInt64) {shift : UInt64} (hshift : shift.toNat < 64)
    (hx : x.toNat < 2 ^ shift.toNat) :
    (x ||| y <<< shift).toNat = (x.toNat + 2 ^ shift.toNat * y.toNat) % 2 ^ 64 := by
  have hx64 : x.toNat = x.toNat % 2 ^ 64 := (Nat.mod_eq_of_lt x.toNat_lt).symm
  rw [UInt64.toNat_or, UInt64.toNat_shiftLeft, Nat.mod_eq_of_lt hshift, hx64,
    ← Nat.or_mod_two_pow, Nat.or_comm, ← hx64, ← Nat.shiftLeft_add_eq_or_of_lt hx,
    Nat.shiftLeft_eq, Nat.add_comm, Nat.mul_comm]

/-- One 32-bit piece: the number ends in it, or it holds the low part. -/
theorem piece_cases (memory : Mem Byte) {count : Nat} (hcount : count ≤ 4) (ptr : Nat) :
    (∃ n rest part, readVarint count (memory.slice ptr count) = some (n, rest) ∧
        varintPart memory count 0 ptr 0 = (part, ptr + (count - rest.length), true) ∧
        UInt64.ofNat n = part.toUInt64 ∧ n = part.toUInt64.toNat ∧ rest.length ≤ count) ∨
      (readVarint count (memory.slice ptr count) = none ∧
        ∃ part, varintPart memory count 0 ptr 0 = (part, ptr + count, false) ∧
          part.toUInt64.toNat = varintLow (memory.slice ptr count) ∧
          part.toUInt64.toNat < 128 ^ count) := by
  have hzero : (0 : UInt32).toNat = 0 := rfl
  have hshift : (0 : UInt32).toNat + 7 * count ≤ 35 := by
    rw [hzero]
    omega
  have hpow : 128 ^ count ≤ 128 ^ 4 := Nat.pow_le_pow_right (by decide) hcount
  cases hread : readVarint count (memory.slice ptr count) with
  | some r =>
      obtain ⟨n, rest⟩ := r
      obtain ⟨part, hpart, hvalue⟩ := varintPart_of_some 0 0 hshift hread
      obtain ⟨vb, hvb, _, _, _⟩ := readVarint_split hread
      have hlen := congrArg List.length hvb
      have hlt := readVarint_lt hread
      rw [Mem.length_slice, List.length_append] at hlen
      have hn : n = part.toUInt64.toNat := by
        rw [UInt32.toNat_toUInt64, hvalue, hzero, Nat.pow_zero, Nat.one_mul, Nat.zero_add]
        omega
      refine .inl ⟨n, rest, part, rfl, hpart, ?_, hn, by omega⟩
      rw [hn, UInt64.ofNat_toNat]
  | none =>
      obtain ⟨part, hpart, hvalue⟩ := varintPart_of_none 0 0 hshift hread
      have hlt := varintLow_lt (memory.slice ptr count)
      rw [Mem.length_slice] at hlt
      have hlow : part.toUInt64.toNat = varintLow (memory.slice ptr count) := by
        rw [UInt32.toNat_toUInt64, hvalue, hzero, Nat.pow_zero, Nat.one_mul, Nat.zero_add]
        omega
      exact .inr ⟨rfl, part, hpart, hlow, hlow ▸ hlt⟩

theorem readVarint64FromArray_eq (ptr : Nat) :
    readVarint64FromArray memory ptr =
      (readVarint 10 (memory.slice ptr 10)).map fun r =>
        (UInt64.ofNat r.1, ptr + (10 - r.2.length)) := by
  have hsplit : memory.slice ptr 10 = memory.slice ptr 4 ++ memory.slice (ptr + 4) 6 :=
    memory.slice_add ptr 4 6
  have hsplit' : memory.slice (ptr + 4) 6 =
      memory.slice (ptr + 4) 4 ++ memory.slice (ptr + 4 + 4) 2 :=
    memory.slice_add (ptr + 4) 4 2
  rw [readVarint64FromArray, hsplit]
  rcases piece_cases memory (Nat.le_refl 4) ptr with
    ⟨n, rest, part₀, hread, hpart, hvalue, _, hlen⟩ | ⟨hread₀, part₀, hpart₀, hvalue₀, hlt₀⟩
  · have hall : readVarint 10 _ = _ :=
      readVarint_append (readVarint_mono hread 6) (memory.slice (ptr + 4) 6)
    simp only [hpart, hall, Option.map_some, List.length_append, Mem.length_slice,
      Option.some.injEq, Prod.mk.injEq]
    exact ⟨hvalue.symm, by omega⟩
  have hall₀ : readVarint 10 _ = _ :=
    readVarint_add (Mem.length_slice ..) hread₀ 6 (memory.slice (ptr + 4) 6)
  rw [hall₀, hsplit', ← hvalue₀, Option.map_map]
  rcases piece_cases memory (Nat.le_refl 4) (ptr + 4) with
    ⟨n, rest, part₁, hread, hpart, _, hn, hlen⟩ | ⟨hread₁, part₁, hpart₁, hvalue₁, hlt₁⟩
  · have hall : readVarint 6 _ = _ :=
      readVarint_append (readVarint_mono hread 2) (memory.slice (ptr + 4 + 4) 2)
    simp only [hpart₀, hpart, hall, Option.map_some, Function.comp_apply, List.length_append,
      Mem.length_slice, Option.some.injEq, Prod.mk.injEq]
    refine ⟨?_, by omega⟩
    apply UInt64.toNat_inj.mp
    rw [toNat_or_shift _ _ (by decide) hlt₀, UInt64.toNat_ofNat', hn]
    rfl
  have hall₁ : readVarint 6 _ = _ :=
    readVarint_add (Mem.length_slice ..) hread₁ 2 (memory.slice (ptr + 4 + 4) 2)
  rw [hall₁, ← hvalue₁, Option.map_map]
  rcases piece_cases memory (show 2 ≤ 4 by decide) (ptr + 4 + 4) with
    ⟨n, rest, part₂, hread, hpart, _, hn, hlen⟩ | ⟨hread₂, part₂, hpart₂, _, _⟩
  · simp only [hpart₀, hpart₁, hpart, hread, Option.map_some, Function.comp_apply,
      Option.some.injEq, Prod.mk.injEq]
    refine ⟨?_, by omega⟩
    have hlow : (part₀.toUInt64 ||| part₁.toUInt64 <<< 28).toNat =
        part₀.toUInt64.toNat + 2 ^ 28 * part₁.toUInt64.toNat := by
      rw [toNat_or_shift _ _ (by decide) hlt₀]
      refine Nat.mod_eq_of_lt ?_
      show part₀.toUInt64.toNat + 2 ^ 28 * part₁.toUInt64.toNat < 2 ^ 64
      omega
    apply UInt64.toNat_inj.mp
    rw [toNat_or_shift _ _ (by decide) (by rw [hlow]; show _ < 2 ^ 56; omega), hlow,
      UInt64.toNat_ofNat', hn]
    show (_ + 2 ^ 56 * _) % _ = _
    congr 1
    ring
  · simp only [hpart₀, hpart₁, hpart₂, hread₂, Option.map_none]

theorem toNat_and_0x7F (b : Byte) : (b &&& 0x7F).toNat = b.toNat % 128 := by
  rw [UInt8.toNat_and]
  exact Nat.and_two_pow_sub_one_eq_mod b.toNat 7

/-- The loop adds the bits of one byte after the other. -/
theorem slowLoop_eq (memory : Mem Byte) {bufferEnd left count ptr : Nat} (result : UInt64)
    (hcount : left + count = 10) (hresult : result.toNat < 2 ^ (7 * count))
    (hptr : ptr ≤ bufferEnd) :
    slowLoop memory bufferEnd left count ptr result =
      (readVarint left (memory.slice ptr (bufferEnd - ptr))).map fun r =>
        (UInt64.ofNat (result.toNat + 2 ^ (7 * count) * r.1), bufferEnd - r.2.length) := by
  induction left generalizing count ptr result with
  | zero => rfl
  | succ left ih =>
      rw [slowLoop]
      by_cases hend : ptr = bufferEnd
      · rw [if_pos hend, hend, Nat.sub_self]
        rfl
      · have hlen : bufferEnd - ptr = bufferEnd - (ptr + 1) + 1 := by omega
        have hshift : (UInt64.ofNat (7 * count)).toNat = 7 * count := by
          rw [UInt64.toNat_ofNat']
          omega
        have hbits : ((memory ptr &&& 0x7F).toUInt64).toNat = (memory ptr).toNat % 128 :=
          toNat_and_0x7F _
        have hnext := toNat_or_shift result (memory ptr &&& 0x7F).toUInt64
          (show (UInt64.ofNat (7 * count)).toNat < 64 by omega) (by rw [hshift]; exact hresult)
        rw [hshift, hbits] at hnext
        rw [if_neg hend, hlen, Mem.slice_succ]
        by_cases hb : (memory ptr).toNat < 128
        · rw [readVarint_cons_of_lt hb]
          simp only [(continues_eq_false_iff _).mpr hb, Bool.false_eq_true, if_false,
            Option.map_some, Option.some.injEq, Prod.mk.injEq, Mem.length_slice]
          refine ⟨?_, by omega⟩
          apply UInt64.toNat_inj.mp
          rw [hnext, Nat.mod_eq_of_lt hb, UInt64.toNat_ofNat']
        · have hle := Nat.not_lt.mp hb
          have hb256 := (memory ptr).toNat_lt
          have hmod : (memory ptr).toNat % 128 = (memory ptr).toNat - 128 := by omega
          have hbelow : (result ||| (memory ptr &&& 0x7F).toUInt64 <<<
              UInt64.ofNat (7 * count)).toNat < 2 ^ (7 * (count + 1)) := by
            have hbyte : 2 ^ (7 * count) * ((memory ptr).toNat % 128) ≤ 2 ^ (7 * count) * 127 :=
              Nat.mul_le_mul_left _ (by omega)
            rw [hnext, Nat.mul_succ, Nat.pow_add]
            refine Nat.lt_of_le_of_lt (Nat.mod_le ..) ?_
            omega
          rw [readVarint_cons_of_le hle]
          simp only [(continues_iff _).mpr hle, if_true]
          rw [ih _ (by omega) hbelow (by omega)]
          cases hrest : readVarint left (memory.slice (ptr + 1) (bufferEnd - (ptr + 1))) with
          | none => rfl
          | some r =>
              simp only [Option.map_some, Option.some.injEq, Prod.mk.injEq, and_true]
              apply UInt64.toNat_inj.mp
              have hsum : result.toNat + 2 ^ (7 * count) * ((memory ptr).toNat - 128) +
                  2 ^ (7 * (count + 1)) * r.1 =
                    result.toNat + 2 ^ (7 * count) * ((memory ptr).toNat - 128 + 128 * r.1) := by
                rw [Nat.mul_succ, Nat.pow_add]
                ring
              rw [UInt64.toNat_ofNat', UInt64.toNat_ofNat', hnext, hmod, Nat.mod_add_mod, hsum]

end Unrolled

/-! ## The bytes that remain -/

namespace CodedInputStream

variable {s : CodedInputStream}

/-- The bytes not yet read. -/
def remaining (s : CodedInputStream) : List Byte := s.memory.slice s.buffer s.bufferSize

/-- The stream where these bytes are left. -/
def seek (s : CodedInputStream) (rest : List Byte) : CodedInputStream :=
  { s with buffer := s.bufferEnd - rest.length }

@[simp] theorem length_remaining (s : CodedInputStream) : s.remaining.length = s.bufferSize :=
  Mem.length_slice ..

/-- The stream at the same place of an array in other memory. -/
def within (s : CodedInputStream) (memory : Mem Byte) : CodedInputStream :=
  { s with memory := memory }

theorem remaining_eq_nil_iff (hs : s.buffer ≤ s.bufferEnd) :
    s.remaining = [] ↔ s.buffer = s.bufferEnd := by
  rw [← List.length_eq_zero_iff, length_remaining, bufferSize]
  omega

theorem remaining_cons (hlt : s.buffer < s.bufferEnd) :
    s.remaining = s.memory s.buffer :: (s.advance 1).remaining := by
  obtain ⟨k, hk⟩ : ∃ k, s.bufferSize = k + 1 := ⟨s.bufferSize - 1, by rw [bufferSize]; omega⟩
  have hk' : (s.advance 1).bufferSize = k := by
    rw [bufferSize] at hk
    show s.bufferEnd - (s.buffer + 1) = k
    omega
  rw [remaining, remaining, hk, hk', Mem.slice_succ]
  rfl

/-- Moving on is leaving the rest. -/
theorem advance_eq_seek {k : Nat} (hs : s.buffer ≤ s.bufferEnd) (hk : k ≤ s.bufferSize) :
    s.advance k = s.seek (s.remaining.drop k) := by
  have hbuffer : s.buffer + k = s.bufferEnd - (s.bufferSize - k) := by
    rw [bufferSize] at hk ⊢
    omega
  rw [seek, List.length_drop, length_remaining, ← hbuffer, advance]

theorem remaining_seek {rest : List Byte} (hs : s.buffer ≤ s.bufferEnd)
    (hrest : rest <:+ s.remaining) : (s.seek rest).remaining = rest := by
  obtain ⟨front, hfront⟩ := hrest
  have hlen := congrArg List.length hfront
  rw [List.length_append, length_remaining, bufferSize] at hlen
  have hdrop : rest = s.memory.slice (s.buffer + front.length) (s.bufferSize - front.length) := by
    rw [← Mem.drop_slice _ (by rw [bufferSize]; omega)]
    show rest = s.remaining.drop front.length
    rw [← hfront, List.drop_left]
  have hbuffer : (s.seek rest).buffer = s.buffer + front.length := by
    show s.bufferEnd - rest.length = _
    omega
  have hsize : (s.seek rest).bufferSize = s.bufferSize - front.length := by
    rw [bufferSize, bufferSize, hbuffer]
    show s.bufferEnd - _ = _
    omega
  rw [remaining, hsize, hbuffer]
  exact hdrop.symm

/-! ## Varints of the stream -/

/-- Where the fast path is safe it reads what the array holds: the number ends
there, or ten bytes of the array do not end it. -/
theorem fast_eq {α : Type} (f : Nat → α) (hs : s.buffer ≤ s.bufferEnd) (hfast : s.fast = true) :
    ((readVarint 10 (s.memory.slice s.buffer 10)).map fun r =>
        (f r.1, s.buffer + (10 - r.2.length))) =
      (readVarint 10 s.remaining).map fun r => (f r.1, s.bufferEnd - r.2.length) := by
  by_cases hten : 10 ≤ s.bufferSize
  · -- ten bytes are left
    obtain ⟨k, hk⟩ := Nat.exists_eq_add_of_le hten
    have hsplit : s.remaining = s.memory.slice s.buffer 10 ++ s.memory.slice (s.buffer + 10) k := by
      rw [remaining, hk, Mem.slice_add]
    rw [bufferSize] at hk
    rw [hsplit]
    cases hread : readVarint 10 (s.memory.slice s.buffer 10) with
    | some r =>
        obtain ⟨n, rest⟩ := r
        obtain ⟨vb, hvb, _, _, _⟩ := readVarint_split hread
        have hlen := congrArg List.length hvb
        rw [Mem.length_slice, List.length_append] at hlen
        rw [readVarint_append hread]
        simp only [Option.map_some, List.length_append, Mem.length_slice, Option.some.injEq,
          Prod.mk.injEq, true_and]
        omega
    | none =>
        have hnone : readVarint 10 _ = _ :=
          readVarint_add (Mem.length_slice ..) hread 0 (s.memory.slice (s.buffer + 10) k)
        rw [hnone]
        rfl
  · -- the last byte ends the number, if no byte before it does
    have hlast : s.buffer < s.bufferEnd ∧ continues (s.memory (s.bufferEnd - 1)) = false := by
      rw [fast, kMaxVarintBytes, decide_eq_false hten, Bool.false_or, Bool.and_eq_true,
        Bool.not_eq_true', decide_eq_true_eq] at hfast
      exact hfast
    obtain ⟨k, hk⟩ : ∃ k, s.bufferSize = k + 1 := ⟨s.bufferSize - 1, by rw [bufferSize]; omega⟩
    have hfront : s.remaining = s.memory.slice s.buffer k ++ [s.memory (s.bufferEnd - 1)] := by
      have hpos : s.bufferEnd - 1 = s.buffer + k := by
        rw [bufferSize] at hk
        omega
      rw [remaining, hk, Mem.slice_add, hpos]
      rfl
    obtain ⟨⟨n, rest⟩, hread⟩ : ∃ r, readVarint 10 s.remaining = some r := by
      rw [hfront]
      exact readVarint_of_last ((continues_eq_false_iff _).mp hlast.2)
        (by rw [Mem.length_slice]; omega)
    obtain ⟨vb, hvb, _, _, _⟩ := readVarint_split hread
    have hlen := congrArg List.length hvb
    rw [length_remaining, List.length_append] at hlen
    obtain ⟨j, hj⟩ : ∃ j, 10 = s.bufferSize + j := ⟨10 - s.bufferSize, by omega⟩
    have hwindow : s.memory.slice s.buffer 10 =
        s.remaining ++ s.memory.slice (s.buffer + s.bufferSize) j := by
      rw [remaining, ← Mem.slice_add, ← hj]
    rw [hwindow, readVarint_append hread, hread]
    simp only [Option.map_some, List.length_append, Mem.length_slice, Option.some.injEq,
      Prod.mk.injEq, true_and]
    rw [bufferSize] at *
    omega

/-- A byte below 0x80 is a number. -/
theorem readVarint_of_one (hlt : s.buffer < s.bufferEnd)
    (hbyte : (s.memory s.buffer).toNat < 128) :
    readVarint 10 s.remaining = some ((s.memory s.buffer).toNat, (s.advance 1).remaining) := by
  rw [remaining_cons hlt]
  exact readVarint_cons_of_lt hbyte

theorem seek_advance_one (hlt : s.buffer < s.bufferEnd) :
    s.seek (s.advance 1).remaining = s.advance 1 := by
  rw [advance_eq_seek (Nat.le_of_lt hlt) (by rw [bufferSize]; omega), remaining_cons hlt]
  have hrest : (s.seek ((s.memory s.buffer :: (s.advance 1).remaining).drop 1)).remaining = _ :=
    remaining_seek (Nat.le_of_lt hlt) (by
      rw [← remaining_cons hlt]
      exact List.drop_suffix ..)
  rw [hrest]

theorem readVarint64Slow_eq (hs : s.buffer ≤ s.bufferEnd) :
    s.readVarint64Slow =
      (readVarint 10 s.remaining).map fun r => (UInt64.ofNat r.1, s.seek r.2) := by
  have hloop := slowLoop_eq s.memory 0 (show 10 + 0 = 10 from rfl) (by decide) hs
  rw [readVarint64Slow, kMaxVarintBytes, hloop, ← bufferSize, ← remaining]
  cases readVarint 10 s.remaining with
  | none => rfl
  | some r =>
      simp only [Option.map_some, Nat.mul_zero, Nat.pow_zero, Nat.one_mul, seek,
        UInt64.toNat_zero, Nat.zero_add]

theorem readVarint64Fallback_eq (hs : s.buffer ≤ s.bufferEnd) :
    s.readVarint64Fallback =
      (readVarint 10 s.remaining).map fun r => (UInt64.ofNat r.1, s.seek r.2) := by
  rw [readVarint64Fallback]
  by_cases hfast : s.fast = true
  · have hread := fast_eq UInt64.ofNat hs hfast
    rw [if_pos hfast, readVarint64FromArray_eq, hread]
    cases hrest : readVarint 10 s.remaining with
    | none => rfl
    | some r =>
        obtain ⟨n, rest⟩ := r
        obtain ⟨vb, hvb, _, _, _⟩ := readVarint_split hrest
        have hlen := congrArg List.length hvb
        rw [length_remaining, List.length_append, bufferSize] at hlen
        have hbuffer : s.buffer + (s.bufferEnd - rest.length - s.buffer) =
            s.bufferEnd - rest.length := by omega
        simp only [Option.map_some, advance, seek, hbuffer]
  · rw [if_neg hfast, readVarint64Slow_eq hs]

/-- Whichever path is taken. -/
theorem readVarint64_eq (hs : s.buffer ≤ s.bufferEnd) :
    s.readVarint64 =
      (readVarint 10 s.remaining).map fun r => (UInt64.ofNat r.1, s.seek r.2) := by
  rw [readVarint64]
  split
  · next hone =>
    rw [Bool.and_eq_true, decide_eq_true_eq, decide_eq_true_eq, lt_0x80_iff] at hone
    rw [readVarint_of_one hone.1 hone.2, Option.map_some, seek_advance_one hone.1]
    congr 2
    apply UInt64.toNat_inj.mp
    have hbyte := (s.memory s.buffer).toNat_lt
    rw [UInt64.toNat_ofNat', UInt8.toNat_toUInt64]
    omega
  · exact readVarint64Fallback_eq hs

/-- Whichever path is taken; the bits past 32 are dropped. -/
theorem readVarint32_eq (hs : s.buffer ≤ s.bufferEnd) :
    s.readVarint32 =
      (readVarint 10 s.remaining).map fun r => (UInt32.ofNat r.1, s.seek r.2) := by
  rw [readVarint32]
  split
  · next hone =>
    rw [Bool.and_eq_true, decide_eq_true_eq, decide_eq_true_eq, lt_0x80_iff] at hone
    rw [readVarint_of_one hone.1 hone.2, Option.map_some, seek_advance_one hone.1]
    congr 2
    apply UInt32.toNat_inj.mp
    have hbyte := (s.memory s.buffer).toNat_lt
    rw [UInt32.toNat_ofNat', UInt8.toNat_toUInt32]
    omega
  · rw [readVarint32Fallback]
    by_cases hfast : s.fast = true
    · rw [if_pos hfast, readVarint32FromArray_eq, fast_eq UInt32.ofNat hs hfast]
      cases readVarint 10 s.remaining with
      | none => rfl
      | some r => rfl
    · rw [if_neg hfast, readVarint32Slow, readVarint64Fallback_eq hs]
      cases readVarint 10 s.remaining with
      | none => rfl
      | some r =>
          simp only [Option.map_some, Option.some.injEq, Prod.mk.injEq, and_true]
          apply UInt32.toNat_inj.mp
          rw [UInt64.toNat_toUInt32, UInt64.toNat_ofNat', UInt32.toNat_ofNat']
          omega

/-! ## Tags of the stream -/

/-- The end of the array is a legitimate end of a message unless the array is
past the limit for all messages. -/
def ended (s : CodedInputStream) : CodedInputStream :=
  { s with legitimateMessageEnd := s.bufferEnd ≤ kDefaultTotalBytesLimit }

/-- A tag is a varint; 0 stands for the end and for what is no varint. -/
def plainTag (s : CodedInputStream) : UInt32 × CodedInputStream :=
  if s.buffer = s.bufferEnd then (0, s.ended)
  else
    match readVarint 10 s.remaining with
    | none => (0, s)
    | some (n, rest) => (UInt32.ofNat n, s.seek rest)

/-- `ReadTagFallback`, whichever path is taken. -/
theorem readTagFallback_eq (hs : s.buffer ≤ s.bufferEnd) : s.readTagFallback = s.plainTag := by
  rw [readTagFallback, plainTag]
  by_cases hend : s.buffer = s.bufferEnd
  · -- nothing is left, and the limits are compared in one of two places
    have hslow : s.fast = false := by
      rw [fast, bufferSize, hend, Nat.sub_self]
      simp [kMaxVarintBytes]
    have hsize : s.bufferSize = 0 := by rw [bufferSize, hend, Nat.sub_self]
    rw [if_neg (by rw [hslow]; exact Bool.false_ne_true), if_pos hend]
    rw [decide_eq_true hsize, Bool.true_and, readTagSlow, if_pos hend, ended]
    have htotal : s.totalBytesRead = s.bufferEnd := rfl
    by_cases hlt : s.totalBytesRead < kDefaultTotalBytesLimit
    · rw [if_pos (decide_eq_true hlt), decide_eq_true (by omega)]
    · rw [if_neg (by rw [decide_eq_true_eq]; exact hlt), if_pos (Nat.not_lt.mp hlt)]
      congr 2
      exact decide_eq_decide.mpr (by omega)
  · rw [if_neg hend]
    by_cases hfast : s.fast = true
    · rw [if_pos hfast, readVarint32FromArray_eq, fast_eq UInt32.ofNat hs hfast]
      cases readVarint 10 s.remaining with
      | none => rfl
      | some r => rfl
    · have hsize : s.bufferSize ≠ 0 := by
        rw [bufferSize]
        omega
      rw [if_neg hfast, if_neg (by simp [hsize]), readTagSlow, if_neg hend, readVarint64_eq hs]
      cases readVarint 10 s.remaining with
      | none => rfl
      | some r =>
          simp only [Option.map_some, Prod.mk.injEq, and_true]
          apply UInt32.toNat_inj.mp
          rw [UInt64.toNat_toUInt32, UInt64.toNat_ofNat', UInt32.toNat_ofNat']
          omega

/-- `last_tag_` follows the tag. -/
def noted (r : UInt32 × CodedInputStream) : UInt32 × CodedInputStream :=
  (r.1, { r.2 with lastTag := r.1 })

theorem readLastTag_eq (hs : s.buffer ≤ s.bufferEnd) : s.readLastTag = noted s.plainTag := by
  rw [readLastTag, readTagFallback_eq hs]
  rfl

/-- A tag of one byte is found by every reader. -/
theorem plainTag_of_one (hlt : s.buffer < s.bufferEnd)
    (hbyte : (s.memory s.buffer).toNat < 128) :
    s.plainTag = ((s.memory s.buffer).toUInt32, s.advance 1) := by
  rw [plainTag, if_neg (Nat.ne_of_lt hlt), readVarint_of_one hlt hbyte]
  simp only [seek_advance_one hlt, Prod.mk.injEq, and_true]
  apply UInt32.toNat_inj.mp
  have hbyte := (s.memory s.buffer).toNat_lt
  rw [UInt32.toNat_ofNat', UInt8.toNat_toUInt32]
  omega

theorem readTag_eq (hs : s.buffer ≤ s.bufferEnd) : s.readTag = noted s.plainTag := by
  rw [readTag]
  split
  · next hone =>
    rw [Bool.and_eq_true, decide_eq_true_eq, decide_eq_true_eq, lt_0x80_iff] at hone
    rw [plainTag_of_one hone.1 hone.2]
    rfl
  · exact readLastTag_eq hs

/-- The test of the two-byte path: the first byte goes on, the second ends. -/
theorem two_bytes_iff (b₀ b₁ : Byte) :
    0x80 ≤ b₀ &&& ~~~b₁ ↔ 128 ≤ b₀.toNat ∧ b₁.toNat < 128 := by
  have hmsb : ∀ b : Byte, b.toBitVec.msb = decide (128 ≤ b.toNat) := fun b =>
    BitVec.msb_eq_decide b.toBitVec
  have hand : (b₀ &&& ~~~b₁).toBitVec.msb = (b₀.toBitVec.msb && !b₁.toBitVec.msb) := by
    rw [UInt8.toBitVec_and, UInt8.toBitVec_not, BitVec.msb_and, BitVec.msb_not]
    rfl
  rw [hmsb, hmsb, hmsb] at hand
  have hle : 0x80 ≤ b₀ &&& ~~~b₁ ↔ 128 ≤ (b₀ &&& ~~~b₁).toNat := UInt8.le_iff_toNat_le
  have hbits := congrArg (· = true) hand
  simp only [decide_eq_true_eq, Bool.and_eq_true, Bool.not_eq_true', decide_eq_false_iff_not,
    Nat.not_le] at hbits
  rw [hle, hbits]

/-- A tag of two bytes. -/
theorem plainTag_of_two (hlt : s.buffer + 1 < s.bufferEnd) (h₀ : 128 ≤ (s.memory s.buffer).toNat)
    (h₁ : (s.memory (s.buffer + 1)).toNat < 128) :
    s.plainTag =
      (((1 : UInt32) <<< 7) * (s.memory (s.buffer + 1)).toUInt32 +
        ((s.memory s.buffer).toUInt32 - 0x80), s.advance 2) := by
  have hfirst : s.buffer < s.bufferEnd := by omega
  have hsecond : (s.advance 1).buffer < (s.advance 1).bufferEnd := hlt
  have hread : readVarint 10 s.remaining =
      some ((s.memory s.buffer).toNat - 128 + 128 * (s.memory (s.buffer + 1)).toNat,
        ((s.advance 1).advance 1).remaining) := by
    have hend : ((s.advance 1).memory (s.advance 1).buffer).toNat < 128 := h₁
    rw [remaining_cons hfirst, readVarint_cons_of_le h₀, remaining_cons hsecond,
      readVarint_cons_of_lt hend]
    rfl
  have hseek : s.seek ((s.advance 1).advance 1).remaining = s.advance 2 := by
    have hdrop : s.remaining.drop 2 = ((s.advance 1).advance 1).remaining := by
      rw [remaining_cons hfirst, remaining_cons hsecond]
      rfl
    rw [← hdrop]
    exact (advance_eq_seek (Nat.le_of_lt hfirst) (by rw [bufferSize]; omega)).symm
  rw [plainTag, if_neg (Nat.ne_of_lt hfirst), hread]
  simp only [hseek, Prod.mk.injEq, and_true]
  apply UInt32.toNat_inj.mp
  have hb₀ := (s.memory s.buffer).toNat_lt
  have hone : ((1 : UInt32) <<< 7).toNat = 128 := rfl
  have hhigh : (0x80 : UInt32).toNat = 128 := rfl
  rw [UInt32.toNat_ofNat', UInt32.toNat_add, UInt32.toNat_mul, UInt32.toNat_sub, hone, hhigh,
    UInt8.toNat_toUInt32, UInt8.toNat_toUInt32]
  omega

/-- The optimised reader finds the same tag, and says whether it is at or below
the cutoff; of a tag of 0 it may say either. -/
theorem readTagWithCutoff_eq (hs : s.buffer ≤ s.bufferEnd) (cutoff : UInt32) :
    ∃ below, s.readTagWithCutoff cutoff =
        (((noted s.plainTag).1, below), (noted s.plainTag).2) ∧
      ((noted s.plainTag).1 ≠ 0 → (below = true ↔ (noted s.plainTag).1 ≤ cutoff)) := by
  rw [readTagWithCutoff]
  split
  · next hone =>
    rw [Bool.and_eq_true, Bool.and_eq_true, decide_eq_true_eq, decide_eq_true_eq,
      decide_eq_true_eq, lt_0x80_iff] at hone
    rw [plainTag_of_one hone.1.1 hone.2]
    refine ⟨_, rfl, fun _ => ?_⟩
    have hsmall : (s.memory s.buffer).toUInt32 ≤ 0x7f := by
      rw [UInt32.le_iff_toNat_le, UInt8.toNat_toUInt32]
      exact Nat.le_of_lt_succ hone.2
    rw [Bool.or_eq_true, decide_eq_true_eq, decide_eq_true_eq]
    exact ⟨fun h => h.elim (UInt32.le_trans hsmall) id, .inr⟩
  · split
    · next htwo =>
      simp only [Bool.and_eq_true, decide_eq_true_eq, two_bytes_iff] at htwo
      obtain ⟨⟨_, hlt⟩, h₀, h₁⟩ := htwo
      rw [plainTag_of_two hlt h₀ h₁]
      refine ⟨_, rfl, fun _ => ?_⟩
      have hsmall : ((1 : UInt32) <<< 7) * (s.memory (s.buffer + 1)).toUInt32 +
          ((s.memory s.buffer).toUInt32 - (0x80 : UInt32)) ≤ ((0x7f : UInt32) <<< 7) + 0x7f := by
        have hb₀ := (s.memory s.buffer).toNat_lt
        have hone : ((1 : UInt32) <<< 7).toNat = 128 := rfl
        have hhigh : (0x80 : UInt32).toNat = 128 := rfl
        have htop : (((0x7f : UInt32) <<< 7) + 0x7f).toNat = 16383 := rfl
        rw [UInt32.le_iff_toNat_le, UInt32.toNat_add, UInt32.toNat_mul, UInt32.toNat_sub, hone,
          hhigh, htop, UInt8.toNat_toUInt32, UInt8.toNat_toUInt32]
        omega
      rw [Bool.or_eq_true, decide_eq_true_eq, decide_eq_true_eq]
      exact ⟨fun h => h.elim (UInt32.le_trans hsmall) id, .inr⟩
    · rw [readLastTag_eq hs]
      obtain ⟨⟨tag, s'⟩, htag⟩ : ∃ r, noted s.plainTag = r := ⟨_, rfl⟩
      rw [htag]
      refine ⟨_, rfl, fun hne => ?_⟩
      have hpos : 0 < tag.toNat :=
        Nat.pos_of_ne_zero fun hzero => hne (UInt32.toNat_inj.mp hzero)
      have hlt := tag.toNat_lt
      have hone : (1 : UInt32).toNat = 1 := rfl
      show decide (tag - 1 < cutoff) = true ↔ tag ≤ cutoff
      rw [decide_eq_true_eq, UInt32.lt_iff_toNat_lt, UInt32.le_iff_toNat_le, UInt32.toNat_sub,
        hone]
      omega

/-! ## The other readers -/

theorem bytes_eq {k : Nat} (hk : k ≤ s.bufferSize) : s.bytes k = s.remaining.take k :=
  (Mem.take_slice _ hk).symm

theorem readLittleEndian32_eq (hs : s.buffer ≤ s.bufferEnd) :
    s.readLittleEndian32 =
      if 4 ≤ s.remaining.length then
        some (UInt32.ofNat (ofLe (s.remaining.take 4)), s.seek (s.remaining.drop 4))
      else none := by
  rw [readLittleEndian32, length_remaining]
  split
  · next hsize => rw [bytes_eq hsize, advance_eq_seek hs hsize]
  · rfl

theorem readLittleEndian64_eq (hs : s.buffer ≤ s.bufferEnd) :
    s.readLittleEndian64 =
      if 8 ≤ s.remaining.length then
        some (UInt64.ofNat (ofLe (s.remaining.take 8)), s.seek (s.remaining.drop 8))
      else none := by
  rw [readLittleEndian64, length_remaining]
  split
  · next hsize => rw [bytes_eq hsize, advance_eq_seek hs hsize]
  · rfl

theorem readString_eq (hs : s.buffer ≤ s.bufferEnd) (size : UInt32) :
    s.readString size =
      if size.toNat < 2 ^ 31 ∧ size.toNat ≤ s.remaining.length then
        some (s.remaining.take size.toNat, s.seek (s.remaining.drop size.toNat))
      else none := by
  rw [readString, length_remaining]
  by_cases hsmall : size.toNat < 2 ^ 31
  · rw [if_neg (Nat.not_le.mpr hsmall)]
    by_cases hsize : size.toNat ≤ s.bufferSize
    · rw [if_pos hsize, if_pos ⟨hsmall, hsize⟩, bytes_eq hsize, advance_eq_seek hs hsize]
    · rw [if_neg hsize, if_neg fun h => hsize h.2]
  · rw [if_pos (Nat.not_lt.mp hsmall), if_neg fun h => hsmall h.1]

end CodedInputStream

end ServerStudy.Protobuf
