/-
  EdgeLb.Lib.OnesComplement — Internet checksums: sums of 16-bit words modulo 2^16 - 1.

  A checksum covers a list of words and is itself one of the words summed. The sum is right
  when it is a multiple of 65535, so nothing is lost by looking at it modulo 65535, and a
  checksum is kept right by adding to it what is taken from the words it covers (`Updates`).
  Byte order does not matter: swapping the bytes of every word multiplies the sum by 256.
-/

import Mathlib.Data.Nat.ModEq
import Mathlib.Tactic.Ring

namespace EdgeLb.Lib

/-! ## Bytes -/

/-- Numbers that share no bit are added by `|||`. -/
theorem or_below {k b : Nat} (a : Nat) (h : b < 2 ^ k) : a * 2 ^ k ||| b = a * 2 ^ k + b := by
  rw [← Nat.shiftLeft_eq]
  exact (Nat.shiftLeft_add_eq_or_of_lt h a).symm

theorem and_ff00 (n : Nat) : n &&& 0xff00 = n / 2 ^ 8 % 2 ^ 8 * 2 ^ 8 := by
  have hlow : n / 2 ^ 8 &&& 2 ^ 8 - 1 = n / 2 ^ 8 % 2 ^ 8 := Nat.and_two_pow_sub_one_eq_mod _ 8
  rw [← hlow, ← Nat.shiftLeft_eq, ← Nat.shiftRight_eq_div_pow]
  show n &&& 0xff <<< 8 = (n >>> 8 &&& 0xff) <<< 8
  apply Nat.eq_of_testBit_eq
  intro i
  rw [Nat.testBit_and, Nat.testBit_shiftLeft, Nat.testBit_shiftLeft, Nat.testBit_and, Nat.testBit_shiftRight]
  by_cases hi : 8 ≤ i
  · rw [Nat.add_sub_cancel' hi]
    simp [hi]
  · simp [hi]

/-! ## Sums -/

/-- A sum kept in 32 bits. -/
theorem foldl_add_toNat (ws : List UInt32) (start : UInt32) :
    (ws.foldl (· + ·) start).toNat = (start.toNat + (ws.map (·.toNat)).sum) % 2 ^ 32 := by
  induction ws generalizing start with
  | nil => exact (Nat.mod_eq_of_lt (by simpa using start.toNat_lt)).symm
  | cons w ws ih =>
    rw [List.foldl_cons, ih, UInt32.toNat_add, Nat.mod_add_mod, List.map_cons, List.sum_cons, Nat.add_assoc]

/-- The sum of the two halves of a 32-bit word. -/
def halves (n : Nat) : Nat := n / 65536 + n % 65536

/-- The two bytes of a 16-bit word the other way round. -/
def swap16 (n : Nat) : Nat := n % 256 * 256 + n / 256

theorem swap16_modEq (n : Nat) : swap16 n ≡ 256 * n [MOD 65535] := by
  unfold swap16 Nat.ModEq
  omega

/-- Swapping can be undone modulo 65535, since 256 * 256 is 1 there. -/
theorem modEq_of_swapped {a b : Nat} (h : 256 * a ≡ 256 * b [MOD 65535]) : a ≡ b [MOD 65535] := by
  unfold Nat.ModEq at h ⊢
  omega

/-- The checksum `c'` makes up for words that summed to `old` before and to `new` now. -/
def Updates (c c' old new : Nat) : Prop := c' + new ≡ c + old [MOD 65535]

namespace Updates

variable {c c' c'' old new old' new' : Nat}

theorem trans (h : Updates c c' old new) (h' : Updates c' c'' old' new') : Updates c c'' (old + old') (new + new') := by
  unfold Updates Nat.ModEq at *
  omega

/-- An update computed on byte-swapped words is one on the words themselves. -/
theorem of_swapped (h : Updates (swap16 c) (swap16 c') old' new') (hold : old' ≡ 256 * old [MOD 65535])
    (hnew : new' ≡ 256 * new [MOD 65535]) : Updates c c' old new := by
  have hc := swap16_modEq c
  have hc' := swap16_modEq c'
  apply modEq_of_swapped
  unfold Updates Nat.ModEq at *
  omega

end Updates

/-! ## The update of RFC 1624 -/

/-- The ones-complement sum of words that add up to `n`. It is zero for zeros only: what is a
    multiple of 65535 otherwise is all ones. -/
def onesSum (n : Nat) : Nat := if n = 0 then 0 else (n - 1) % 65535 + 1

/-- `HC' = ~(~HC + ~m + m')`, for `k` words that added up to `old` and add up to `new`. -/
def rfc1624 (k c old new : Nat) : Nat := 65535 - onesSum ((65535 - c) + (k * 65535 - old) + new)

section rfc1624

variable {k c old : Nat} (new : Nat) (hc : c ≤ 65535) (hold : old ≤ k * 65535)
include hc hold

theorem rfc1624_updates : Updates c (rfc1624 k c old new) old new := by
  unfold Updates Nat.ModEq rfc1624 onesSum
  split
  · omega
  · omega

/-- The result is all ones only where there is nothing but zeros to add up. -/
theorem rfc1624_ones_iff : rfc1624 k c old new = 65535 ↔ c = 65535 ∧ old = k * 65535 ∧ new = 0 := by
  unfold rfc1624 onesSum
  split
  · omega
  · omega

omit hc hold in
theorem rfc1624_le : rfc1624 k c old new ≤ 65535 := Nat.sub_le ..

end rfc1624

end EdgeLb.Lib
