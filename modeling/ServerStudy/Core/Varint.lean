import Mathlib.Algebra.Group.Nat.Defs
import Mathlib.Data.List.Basic
import Mathlib.Tactic.Common
import Mathlib.Tactic.Ring

/-!
# Varints

A number in groups of seven bits, lowest first; every byte but the last has
its high bit set. `bytes` is the most bytes a writer may use and a reader may
look at: five for a 32-bit number.
-/

namespace ServerStudy.Core

/-- The bytes of `n`, which must be below `128 ^ bytes`. -/
def varint : Nat → Nat → List UInt8
  | 0, _ => []
  | bytes + 1, n =>
      if n < 128 then [UInt8.ofNat n]
      else UInt8.ofNat (n % 128 + 128) :: varint bytes (n / 128)

/-- The number at the front of a stream and what follows it; `none` if the
stream ends inside the number or the number is too long. -/
def readVarint : Nat → List UInt8 → Option (Nat × List UInt8)
  | 0, _ => none
  | _ + 1, [] => none
  | bytes + 1, b :: rest =>
      if b.toNat < 128 then some (b.toNat, rest)
      else
        match readVarint bytes rest with
        | none => none
        | some (n, rest) => some (b.toNat - 128 + 128 * n, rest)

theorem toNat_ofNat_of_lt {n : Nat} (h : n < 256) : (UInt8.ofNat n).toNat = n := by
  rw [UInt8.toNat_ofNat']
  exact Nat.mod_eq_of_lt h

/-- Reading back what was written, whatever follows it. -/
theorem readVarint_varint {bytes n : Nat} (h : n < 128 ^ (bytes + 1)) (rest : List UInt8) :
    readVarint (bytes + 1) (varint (bytes + 1) n ++ rest) = some (n, rest) := by
  induction bytes generalizing n with
  | zero =>
      have hsmall : n < 128 := by simpa using h
      have hbyte : (UInt8.ofNat n).toNat = n := toNat_ofNat_of_lt (by omega)
      simp only [varint, readVarint, if_pos hsmall, List.cons_append, List.nil_append, hbyte]
  | succ bytes ih =>
      rw [varint]
      by_cases hsmall : n < 128
      · have hbyte : (UInt8.ofNat n).toNat = n := toNat_ofNat_of_lt (by omega)
        simp only [if_pos hsmall, List.cons_append, List.nil_append, readVarint, hbyte]
      · have hbyte : (UInt8.ofNat (n % 128 + 128)).toNat = n % 128 + 128 :=
          toNat_ofNat_of_lt (by omega)
        -- the other bytes encode the quotient
        have hrest : n / 128 < 128 ^ (bytes + 1) := by
          rw [Nat.pow_succ] at h
          exact Nat.div_lt_of_lt_mul (by omega)
        have hbig : ¬ n % 128 + 128 < 128 := by omega
        rw [if_neg hsmall, List.cons_append, readVarint, hbyte, if_neg hbig, ih hrest]
        simp only [Option.some.injEq, Prod.mk.injEq, and_true]
        omega

/-! ## Where a number ends -/

theorem readVarint_cons_of_lt {bytes : Nat} {b : UInt8} {rest : List UInt8} (h : b.toNat < 128) :
    readVarint (bytes + 1) (b :: rest) = some (b.toNat, rest) := by
  rw [readVarint, if_pos h]

theorem readVarint_cons_of_le {bytes : Nat} {b : UInt8} {rest : List UInt8}
    (h : 128 ≤ b.toNat) :
    readVarint (bytes + 1) (b :: rest) =
      (readVarint bytes rest).map fun r => (b.toNat - 128 + 128 * r.1, r.2) := by
  rw [readVarint, if_neg (Nat.not_lt.mpr h)]
  cases readVarint bytes rest with
  | none => rfl
  | some r => rfl

/-- The number takes up a front part of the stream, which reads alone as it
reads with anything behind it. -/
theorem readVarint_split {bytes n : Nat} {u rest : List UInt8}
    (h : readVarint bytes u = some (n, rest)) :
    ∃ vb, u = vb ++ rest ∧ 0 < vb.length ∧ vb.length ≤ bytes ∧
      ∀ v, readVarint bytes (vb ++ v) = some (n, v) := by
  induction bytes generalizing u n with
  | zero => cases h
  | succ bytes ih =>
      cases u with
      | nil => cases h
      | cons b u =>
          by_cases hb : b.toNat < 128
          · rw [readVarint_cons_of_lt hb] at h
            cases h
            exact ⟨[b], rfl, by simp, by simp, fun v => readVarint_cons_of_lt hb⟩
          · have hle := Nat.not_lt.mp hb
            rw [readVarint_cons_of_le hle, Option.map_eq_some_iff] at h
            obtain ⟨⟨n', rest'⟩, hrest, heq⟩ := h
            cases heq
            obtain ⟨vb, rfl, _, hlen, hread⟩ := ih hrest
            refine ⟨b :: vb, rfl, by simp, by simpa using hlen, fun v => ?_⟩
            rw [List.cons_append, readVarint_cons_of_le hle, hread v]
            rfl

/-- Seven bits a byte. -/
theorem readVarint_lt {bytes n : Nat} {u rest : List UInt8}
    (h : readVarint bytes u = some (n, rest)) : n < 128 ^ bytes := by
  induction bytes generalizing u n with
  | zero => cases h
  | succ bytes ih =>
      cases u with
      | nil => cases h
      | cons b u =>
          have hpos := Nat.pow_pos (show 0 < 128 by decide) (n := bytes)
          by_cases hb : b.toNat < 128
          · rw [readVarint_cons_of_lt hb] at h
            cases h
            rw [Nat.pow_succ]
            omega
          · rw [readVarint_cons_of_le (Nat.not_lt.mp hb), Option.map_eq_some_iff] at h
            obtain ⟨⟨n', rest'⟩, hrest, heq⟩ := h
            cases heq
            have hb256 := b.toNat_lt
            have hn' := ih hrest
            rw [Nat.pow_succ]
            omega

/-- A number read is read the same with more behind the stream. -/
theorem readVarint_append {bytes n : Nat} {u rest : List UInt8}
    (h : readVarint bytes u = some (n, rest)) (v : List UInt8) :
    readVarint bytes (u ++ v) = some (n, rest ++ v) := by
  obtain ⟨vb, rfl, _, _, hread⟩ := readVarint_split h
  rw [List.append_assoc]
  exact hread (rest ++ v)

/-- A reader that may look at more bytes finds no less. -/
theorem readVarint_mono {bytes : Nat} {u : List UInt8} {r : Nat × List UInt8}
    (h : readVarint bytes u = some r) (more : Nat) : readVarint (bytes + more) u = some r := by
  induction bytes generalizing u r with
  | zero => cases h
  | succ bytes ih =>
      rw [Nat.add_right_comm]
      cases u with
      | nil => cases h
      | cons b u =>
          by_cases hb : b.toNat < 128
          · rw [readVarint_cons_of_lt hb] at h ⊢
            exact h
          · have hle := Nat.not_lt.mp hb
            rw [readVarint_cons_of_le hle, Option.map_eq_some_iff] at h
            obtain ⟨r', hrest, rfl⟩ := h
            rw [readVarint_cons_of_le hle, ih hrest]
            rfl

/-- A stream with too few bytes ends inside the number or is too long for it:
if there is a byte that ends a number there is one. -/
theorem readVarint_of_last {bytes : Nat} {u : List UInt8} {b : UInt8} (hb : b.toNat < 128)
    (hlen : u.length < bytes) : ∃ r, readVarint bytes (u ++ [b]) = some r := by
  induction bytes generalizing u with
  | zero => exact absurd hlen (Nat.not_lt_zero _)
  | succ bytes ih =>
      cases u with
      | nil => exact ⟨_, readVarint_cons_of_lt hb⟩
      | cons a u =>
          by_cases ha : a.toNat < 128
          · exact ⟨_, readVarint_cons_of_lt ha⟩
          · obtain ⟨r, hr⟩ := ih (Nat.lt_of_succ_lt_succ hlen)
            rw [List.cons_append, readVarint_cons_of_le (Nat.not_lt.mp ha), hr]
            exact ⟨_, rfl⟩

/-- The low seven bits of the bytes, lowest first. -/
def varintLow : List UInt8 → Nat
  | [] => 0
  | b :: rest => b.toNat % 128 + 128 * varintLow rest

theorem varintLow_lt (u : List UInt8) : varintLow u < 128 ^ u.length := by
  induction u with
  | nil => exact Nat.one_pos
  | cons b u ih =>
      have hb := Nat.mod_lt b.toNat (show 128 > 0 by decide)
      rw [varintLow, List.length_cons, Nat.pow_succ]
      omega

/-- Bytes that do not end a number give its low part. -/
theorem readVarint_add {count : Nat} {u : List UInt8} (hlen : u.length = count)
    (h : readVarint count u = none) (bytes : Nat) (v : List UInt8) :
    readVarint (count + bytes) (u ++ v) =
      (readVarint bytes v).map fun r => (varintLow u + 128 ^ count * r.1, r.2) := by
  induction count generalizing u with
  | zero =>
      rw [List.length_eq_zero_iff.mp hlen, Nat.zero_add, List.nil_append]
      cases readVarint bytes v with
      | none => rfl
      | some r => simp [varintLow]
  | succ count ih =>
      cases u with
      | nil => cases hlen
      | cons b u =>
          by_cases hb : b.toNat < 128
          · rw [readVarint_cons_of_lt hb] at h
            cases h
          · have hle := Nat.not_lt.mp hb
            have hb256 := b.toNat_lt
            rw [readVarint_cons_of_le hle, Option.map_eq_none_iff] at h
            have hrest := ih (Nat.succ.inj hlen) h
            rw [List.cons_append, Nat.succ_add, readVarint_cons_of_le hle, hrest]
            cases readVarint bytes v with
            | none => simp only [Option.map_none]
            | some r =>
                simp only [Option.map_some, varintLow, Nat.pow_succ, Option.some.injEq,
                  Prod.mk.injEq, and_true]
                have hmod : b.toNat % 128 = b.toNat - 128 := by omega
                rw [hmod]
                ring

end ServerStudy.Core
