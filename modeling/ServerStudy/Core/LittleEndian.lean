import Mathlib.Data.List.Basic
import Mathlib.Tactic.Common

/-!
# Numbers in memory order

The bytes of a `uint16` on a little-endian machine, and the number two bytes
stand for when they are copied over one. `ofLe` is the number of any bytes.
-/

namespace ServerStudy.Core

/-- Low byte first. -/
def le16 (n : UInt16) : List UInt8 :=
  [UInt8.ofNat (n.toNat % 256), UInt8.ofNat (n.toNat / 256)]

/-- The number whose bytes are the first two of the list; `0` if there are
not two. -/
def ofLe16 : List UInt8 → UInt16
  | low :: high :: _ => UInt16.ofNat (low.toNat + 256 * high.toNat)
  | _ => 0

@[simp] theorem length_le16 (n : UInt16) : (le16 n).length = 2 := rfl

theorem toNat_ofLe16_cons (low high : UInt8) (rest : List UInt8) :
    (ofLe16 (low :: high :: rest)).toNat = low.toNat + 256 * high.toNat := by
  have hlow := low.toNat_lt
  have hhigh := high.toNat_lt
  simp only [ofLe16, UInt16.toNat_ofNat']
  omega

/-- Reading back what was written. -/
@[simp] theorem ofLe16_le16_append (n : UInt16) (rest : List UInt8) :
    ofLe16 (le16 n ++ rest) = n := by
  have hn := n.toNat_lt
  apply UInt16.toNat_inj.mp
  simp only [le16, List.cons_append, List.nil_append, toNat_ofLe16_cons, UInt8.toNat_ofNat']
  omega

/-- Writing back what was read. -/
theorem le16_ofLe16_cons (low high : UInt8) (rest : List UInt8) :
    le16 (ofLe16 (low :: high :: rest)) = [low, high] := by
  have hlow := low.toNat_lt
  have hhigh := high.toNat_lt
  have hl : UInt8.ofNat ((low.toNat + 256 * high.toNat) % 256) = low := by
    apply UInt8.toNat_inj.mp
    rw [UInt8.toNat_ofNat']
    omega
  have hh : UInt8.ofNat ((low.toNat + 256 * high.toNat) / 256) = high := by
    apply UInt8.toNat_inj.mp
    rw [UInt8.toNat_ofNat']
    omega
  rw [le16, toNat_ofLe16_cons, hl, hh]

/-- Two bytes are all a number is read from. -/
theorem ofLe16_append {bytes : List UInt8} (h : 2 ≤ bytes.length) (rest : List UInt8) :
    ofLe16 (bytes ++ rest) = ofLe16 bytes := by
  match bytes, h with
  | _ :: _ :: _, _ => rfl

theorem ofLe16_take (bytes : List UInt8) : ofLe16 (bytes.take 2) = ofLe16 bytes := by
  match bytes with
  | [] => rfl
  | [_] => rfl
  | _ :: _ :: _ => rfl

/-- The number whose bytes these are. -/
def ofLe : List UInt8 → Nat
  | [] => 0
  | b :: rest => b.toNat + 256 * ofLe rest

end ServerStudy.Core
