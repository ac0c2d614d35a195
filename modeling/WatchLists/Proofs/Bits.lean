import Mathlib.Algebra.Order.Ring.Nat
import Mathlib.Data.Nat.Bitwise

/-!
# Words of bits as numbers

A field that is shifted over another is a multiple of a power of two, and what is below it is
added. A word that is read with a sign has an absolute value, which is a number of as many
bits even where its integer is the least.

- `toNat_shiftLeft_or`: two fields in one word.
- `toNat_xor_one`: the lowest bit flipped.
- `toNat_abs_eq`, `slt_zero_eq`, `natAbs_toInt_pos_iff`: absolute value, sign and zero.
-/

namespace WatchLists

variable {w : Nat}

/-- A field that leaves room for `k` bits, over a field of `k` bits. -/
theorem toNat_shiftLeft_or {p t : BitVec w} {k : Nat} (hp : p.toNat * 2 ^ k < 2 ^ w)
    (ht : t.toNat < 2 ^ k) : (p <<< k ||| t).toNat = p.toNat * 2 ^ k + t.toNat := by
  have hshift : (p <<< k).toNat = p.toNat <<< k := by
    rw [BitVec.toNat_shiftLeft, Nat.shiftLeft_eq]
    exact Nat.mod_eq_of_lt hp
  rw [BitVec.toNat_or, hshift, ← Nat.shiftLeft_add_eq_or_of_lt ht, Nat.shiftLeft_eq]

/-- To flip the lowest bit is to go to the other of an even number and its successor. -/
theorem toNat_xor_one (hw : 0 < w) (x : BitVec w) :
    (x ^^^ 1).toNat = if x.toNat % 2 = 0 then x.toNat + 1 else x.toNat - 1 := by
  have hone : (1 : BitVec w).toNat = 1 := BitVec.toNat_one hw
  rw [BitVec.toNat_xor, hone]
  by_cases h : x.toNat % 2 = 0
  · rw [if_pos h, Nat.xor_one_of_even (Nat.even_iff.mpr h)]
  · rw [if_neg h, Nat.xor_one_of_odd (Nat.not_even_iff_odd.mp (mt Nat.even_iff.mp h))]

theorem toNat_abs_eq (x : BitVec w) : x.abs.toNat = x.toInt.natAbs := by
  have := x.isLt
  rw [BitVec.toNat_abs, BitVec.toInt_eq_msb_cond]
  split <;> omega

theorem slt_zero_eq (x : BitVec w) : BitVec.slt 0 x = decide (0 < x.toInt) := by
  rw [BitVec.slt_eq_decide, BitVec.ofNat_eq_ofNat, BitVec.toInt_zero]

theorem natAbs_toInt_pos_iff (x : BitVec w) : 0 < x.toInt.natAbs ↔ x ≠ 0 := by
  rw [Int.natAbs_pos, ← BitVec.toInt_zero (w := w)]
  exact not_congr BitVec.toInt_inj

end WatchLists
