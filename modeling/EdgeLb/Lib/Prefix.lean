/-
  EdgeLb.Lib.Prefix — masked 32-bit addresses as numbers.

  A mask that clears the lowest `k` bits cuts the addresses into blocks of `2 ^ k`: masking an
  address gives the start of its block, masking with the complement its number in the block.
-/

import Mathlib.Data.Nat.Bitwise

namespace EdgeLb.Lib

/-- The mask clears the lowest `k` bits and keeps the others. -/
structure Clears (m : UInt32) (k : Nat) : Prop where
  width : k ≤ 32
  low : (~~~m).toNat = 2 ^ k - 1

namespace Clears

variable {m x y : UInt32} {k : Nat}

theorem host (h : Clears m k) (x : UInt32) : (x &&& ~~~m).toNat = x.toNat % 2 ^ k := by
  rw [UInt32.toNat_and, h.low, Nat.and_two_pow_sub_one_eq_mod]

theorem start_add_host (m x : UInt32) : (x &&& m).toNat + (x &&& ~~~m).toNat = x.toNat := by
  have hdisjoint : (x.toBitVec &&& m.toBitVec) &&& (x.toBitVec &&& ~~~m.toBitVec) = 0#32 := by
    ext i hi
    cases hx : x.toBitVec[i] <;> simp [hx]
  have hjoin : (x.toBitVec &&& m.toBitVec) ||| (x.toBitVec &&& ~~~m.toBitVec) = x.toBitVec := by
    ext i hi
    cases hx : x.toBitVec[i] <;> simp [hx]
  have hadd := BitVec.toNat_add_of_and_eq_zero hdisjoint
  rw [BitVec.add_eq_or_of_and_eq_zero _ _ hdisjoint, hjoin] at hadd
  exact hadd.symm

section

variable (h : Clears m k) (x : UInt32)
include h

theorem start : (x &&& m).toNat = x.toNat / 2 ^ k * 2 ^ k := by
  have hsum := start_add_host m x
  rw [h.host] at hsum
  have hdiv := Nat.div_add_mod x.toNat (2 ^ k)
  rw [Nat.mul_comm] at hdiv
  omega

/-- A block does not reach over the last address. -/
theorem start_add_le : (x &&& m).toNat + 2 ^ k ≤ 2 ^ 32 := by
  have hlt : x.toNat / 2 ^ k < 2 ^ (32 - k) := by
    rw [Nat.div_lt_iff_lt_mul (Nat.two_pow_pos k), ← Nat.pow_add, Nat.sub_add_cancel h.width]
    exact x.toNat_lt
  calc (x &&& m).toNat + 2 ^ k = (x.toNat / 2 ^ k + 1) * 2 ^ k := by rw [h.start, Nat.add_mul, Nat.one_mul]
    _ ≤ 2 ^ (32 - k) * 2 ^ k := Nat.mul_le_mul_right _ hlt
    _ = 2 ^ 32 := by rw [← Nat.pow_add, Nat.sub_add_cancel h.width]

/-- The last address of a block. -/
theorem last : ((x &&& m) ||| ~~~m).toNat = (x &&& m).toNat + (2 ^ k - 1) := by
  have hdisjoint : (x.toBitVec &&& m.toBitVec) &&& ~~~m.toBitVec = 0#32 := by
    ext i hi
    cases hm : m.toBitVec[i] <;> simp [hm]
  have hadd := BitVec.toNat_add_of_and_eq_zero hdisjoint
  rw [BitVec.add_eq_or_of_and_eq_zero _ _ hdisjoint] at hadd
  rw [← h.low]
  exact hadd

end

/-- The addresses of a block. -/
theorem start_eq_iff (h : Clears m k) : y &&& m = x &&& m ↔
    (x &&& m).toNat ≤ y.toNat ∧ y.toNat < (x &&& m).toNat + 2 ^ k := by
  rw [← UInt32.toNat_inj, h.start, h.start]
  have hpos := Nat.two_pow_pos k
  constructor
  · intro heq
    have hmod := Nat.mod_lt y.toNat hpos
    have hdiv := Nat.div_add_mod y.toNat (2 ^ k)
    rw [Nat.mul_comm] at hdiv
    omega
  · rintro ⟨hle, hlt⟩
    have hle' : x.toNat / 2 ^ k ≤ y.toNat / 2 ^ k := (Nat.le_div_iff_mul_le hpos).mpr hle
    have hlt' : y.toNat / 2 ^ k < x.toNat / 2 ^ k + 1 := by
      rw [Nat.div_lt_iff_lt_mul hpos, Nat.add_mul, Nat.one_mul]
      exact hlt
    rw [show y.toNat / 2 ^ k = x.toNat / 2 ^ k by omega]

end Clears

end EdgeLb.Lib
