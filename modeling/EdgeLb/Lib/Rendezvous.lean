/-
  EdgeLb.Lib.Rendezvous — the choice of the element whose key has the highest score
  (highest random weight), and the mixing steps of 64-bit words that keep scores apart.

  A scan that keeps the first highest score depends on the order of the list only among
  equal scores. If the score tells the keys apart there are none but of equal keys, so the
  chosen key depends on the set of keys alone. A mixing step tells words apart if it can be
  undone: `x ^ (x >> s)` can, from the top bits down, and so can a product with an odd number.
-/

import Mathlib.Data.List.MinMax
import Mathlib.Data.Nat.Bitwise

namespace EdgeLb.Lib

/-! ## The highest score -/

section choice

variable {α κ : Type*} (key : α → κ) {score : κ → Nat} (hinj : Function.Injective score)
include hinj

/-- What is chosen beats every other key. -/
theorem argmax_beats {xs : List α} {x : α} (h : xs.argmax (fun x => score (key x)) = some x) :
    x ∈ xs ∧ ∀ y ∈ xs, key y ≠ key x → score (key y) < score (key x) := by
  refine ⟨List.argmax_mem h, ?_⟩
  intro y hy hne
  have hle : score (key y) ≤ score (key x) := List.le_of_mem_argmax (f := fun x => score (key x)) hy h
  have hscore : score (key y) ≠ score (key x) := fun heq => hne (hinj heq)
  omega

/-- Two lists that have the keys of a kind in common choose the same key if both choose one of
    that kind. -/
theorem argmax_key_eq_of {P : κ → Prop} {xs ys : List α} (hkeys : ∀ k, P k → (k ∈ xs.map key ↔ k ∈ ys.map key))
    (hxs : ∀ k ∈ (xs.argmax fun x => score (key x)).map key, P k)
    (hys : ∀ k ∈ (ys.argmax fun x => score (key x)).map key, P k) :
    (xs.argmax fun x => score (key x)).map key = (ys.argmax fun x => score (key x)).map key := by
  cases hx : xs.argmax (fun x => score (key x)) with
  | none =>
    have hnil : xs = [] := List.argmax_eq_none.mp hx
    cases hy : ys.argmax (fun x => score (key x)) with
    | none => rfl
    | some y =>
      have hkey := (hkeys (key y) (hys _ (by rw [hy]; rfl))).mpr (List.mem_map_of_mem (List.argmax_mem hy))
      rw [hnil] at hkey
      cases hkey
  | some x =>
    obtain ⟨hmem, hbeats⟩ := argmax_beats key hinj hx
    have hxkey := (hkeys (key x) (hxs _ (by rw [hx]; rfl))).mp (List.mem_map_of_mem hmem)
    cases hy : ys.argmax (fun x => score (key x)) with
    | none =>
      have hnil : ys = [] := List.argmax_eq_none.mp hy
      rw [hnil] at hxkey
      cases hxkey
    | some y =>
      obtain ⟨hmem', hbeats'⟩ := argmax_beats key hinj hy
      have hykey := (hkeys (key y) (hys _ (by rw [hy]; rfl))).mpr (List.mem_map_of_mem hmem')
      -- each key is among the other's, and would beat it if they differed
      obtain ⟨x', hx', hkx⟩ := List.mem_map.mp hykey
      obtain ⟨y', hy', hky⟩ := List.mem_map.mp hxkey
      by_cases heq : key x = key y
      · exact congrArg some heq
      · have hlt := hbeats x' hx' (fun h => heq (h.symm.trans hkx))
        have hgt := hbeats' y' hy' (fun h => heq (hky.symm.trans h))
        rw [hkx] at hlt
        rw [hky] at hgt
        omega

/-- Two lists of the same keys, in whatever order and however often, choose the same key. -/
theorem argmax_key_eq {xs ys : List α} (hkeys : ∀ k, k ∈ xs.map key ↔ k ∈ ys.map key) :
    (xs.argmax fun x => score (key x)).map key = (ys.argmax fun x => score (key x)).map key :=
  argmax_key_eq_of key hinj (P := fun _ => True) (fun k _ => hkeys k) (fun _ _ => trivial) fun _ _ => trivial

end choice

/-! ## Mixing -/

/-- A number that its own shift leaves as it is, is zero. -/
theorem eq_zero_of_shiftRight_eq {z s : Nat} (hs : 0 < s) (h : z >>> s = z) : z = 0 := by
  rw [Nat.shiftRight_eq_div_pow] at h
  by_cases hz : z = 0
  · exact hz
  · have hlt : z / 2 ^ s < z := Nat.div_lt_self (by omega) (Nat.one_lt_two_pow (by omega))
    omega

theorem xorShift_injective {s : UInt64} (hs : 0 < s.toNat % 64) :
    Function.Injective fun x : UInt64 => x ^^^ (x >>> s) := by
  intro x y hxy
  have hnat : x.toNat ^^^ (x.toNat >>> (s.toNat % 64)) = y.toNat ^^^ (y.toNat >>> (s.toNat % 64)) := by
    simpa using congrArg UInt64.toNat hxy
  -- the two differ in the same places as their shifts do
  have hdiff : (x.toNat ^^^ y.toNat) >>> (s.toNat % 64) = x.toNat ^^^ y.toNat := by
    rw [Nat.shiftRight_xor_distrib]
    calc x.toNat >>> (s.toNat % 64) ^^^ y.toNat >>> (s.toNat % 64)
        = x.toNat ^^^ (x.toNat ^^^ x.toNat >>> (s.toNat % 64)) ^^^ y.toNat >>> (s.toNat % 64) := by
          rw [Nat.xor_xor_cancel_left]
      _ = x.toNat ^^^ (y.toNat ^^^ y.toNat >>> (s.toNat % 64)) ^^^ y.toNat >>> (s.toNat % 64) := by rw [hnat]
      _ = x.toNat ^^^ y.toNat := by rw [Nat.xor_assoc, Nat.xor_assoc, Nat.xor_self, Nat.xor_zero]
  apply UInt64.toNat_inj.mp
  exact Nat.xor_eq_zero_iff.mp (eq_zero_of_shiftRight_eq hs hdiff)

theorem mul_injective_of_inverse {c c' : UInt64} (h : c * c' = 1) : Function.Injective fun x : UInt64 => x * c := by
  intro x y hxy
  calc x = x * c * c' := by rw [UInt64.mul_assoc, h, UInt64.mul_one]
    _ = y * c * c' := by rw [show x * c = y * c from hxy]
    _ = y := by rw [UInt64.mul_assoc, h, UInt64.mul_one]

/-- What is put into the low bits leaves the others alone. -/
theorem xor_low_div (x v : UInt64) {n : Nat} (hv : v.toNat < 2 ^ n) : (x ^^^ v).toNat / 2 ^ n = x.toNat / 2 ^ n := by
  rw [UInt64.toNat_xor, Nat.xor_div_two_pow, Nat.div_eq_of_lt hv, Nat.xor_zero]

end EdgeLb.Lib
