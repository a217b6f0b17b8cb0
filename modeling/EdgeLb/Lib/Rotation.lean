/-
  EdgeLb.Lib.Rotation — how often a cursor that moves on by one each time comes to whom.

  Two rules. The weighted one takes the cursor modulo the total weight and walks the intervals
  of the weights: a window of as many turns as the total weight gives everyone their weight,
  wherever it starts (`count_window`, `count_walk`). The other starts each turn one slot further
  on and goes on to the next slot that is in. A slot that is out passes its turn on to its
  successor, who then has two: as many turns as slots are in come to each of them once exactly
  when all but the last start on slots that are in, and the last comes to the one that is left
  (`next_once_iff`). On a cycle it always does (`last_of_cycle`).
-/

import Mathlib.Data.Nat.Periodic
import Mathlib.Algebra.GroupWithZero.Nat
import Mathlib.Algebra.Order.Interval.Finset.Basic

namespace EdgeLb.Lib

/-! ## Windows of a cycle -/

/-- A window as long as the cycle counts what the cycle counts. -/
theorem count_window (p : Nat → Prop) [DecidablePred p] (c n : Nat) :
    Nat.count (fun i => p ((c + i) % n)) n = Nat.count p n := by
  have hperiodic : Function.Periodic (fun x => p (x % n)) n := fun x => by simp
  have hwindow := Nat.filter_Ico_card_eq_of_periodic c n (fun x => p (x % n)) hperiodic
  have hshift : Finset.Ico c (c + n) = (Finset.range n).map (addLeftEmbedding c) := by
    rw [Finset.range_eq_Ico, Finset.map_add_left_Ico, Nat.add_zero]
  have hcycle : Nat.count (fun x => p (x % n)) n = Nat.count p n := by
    rw [Nat.count_eq_card_filter_range, Nat.count_eq_card_filter_range]
    congr 1
    apply Finset.filter_congr
    intro x hx
    rw [Nat.mod_eq_of_lt (Finset.mem_range.mp hx)]
  rw [hshift, Finset.filter_map, Finset.card_map, hcycle] at hwindow
  rw [Nat.count_eq_card_filter_range]
  exact hwindow

theorem countP_range (p : Nat → Prop) [DecidablePred p] (n : Nat) :
    (List.range n).countP (fun i => decide (p i)) = Nat.count p n := by
  induction n with
  | zero => rfl
  | succ n ih =>
    rw [List.range_succ, List.countP_append, ih, Nat.count_succ]
    simp [List.countP_singleton]

/-! ## Weights -/

/-- The index whose interval of the weights holds `r`. -/
def walk : List Nat → Nat → Option Nat
  | [], _ => none
  | w :: ws, r => if r < w then some 0 else (walk ws (r - w)).map (· + 1)

theorem walk_isSome_iff {ws : List Nat} {r : Nat} : (walk ws r).isSome = true ↔ r < ws.sum := by
  induction ws generalizing r with
  | nil => simp [walk]
  | cons w ws ih =>
    rw [walk, List.sum_cons]
    by_cases h : r < w
    · rw [if_pos h]
      simp only [Option.isSome_some, true_iff]
      omega
    · rw [if_neg h, Option.isSome_map, ih]
      omega

/-- Only those who have a weight are come to. -/
theorem weight_of_walk {ws : List Nat} {r i : Nat} (h : walk ws r = some i) : ∃ w, ws[i]? = some w ∧ 0 < w := by
  induction ws generalizing r i with
  | nil => cases h
  | cons w ws ih =>
    rw [walk] at h
    split at h
    next hlt =>
      obtain rfl := Option.some.inj h
      exact ⟨w, rfl, by omega⟩
    next =>
      obtain ⟨j, hj, rfl⟩ := Option.map_eq_some_iff.mp h
      obtain ⟨v, hv, hpos⟩ := ih hj
      exact ⟨v, by simpa using hv, hpos⟩

/-- In one cycle everyone is come to as often as their weight says. -/
theorem count_walk (ws : List Nat) (i : Nat) : Nat.count (fun r => walk ws r = some i) ws.sum = ws.getD i 0 := by
  induction ws generalizing i with
  | nil => rfl
  | cons w ws ih =>
    rw [List.sum_cons, Nat.count_add]
    have hrest : (fun k => walk (w :: ws) (w + k) = some i) = fun k => (walk ws k).map (· + 1) = some i := by
      funext k
      rw [walk, if_neg (by omega), Nat.add_sub_cancel_left]
    have hhere : ∀ r < w, (walk (w :: ws) r = some i ↔ i = 0) := by
      intro r hr
      rw [walk, if_pos hr, Option.some.injEq]
      exact eq_comm
    simp only [hrest]
    cases i with
    | zero =>
      have hall : Nat.count (fun r => walk (w :: ws) r = some 0) w = w :=
        Nat.count_of_forall fun r hr => (hhere r hr).mpr rfl
      have hnone : Nat.count (fun k => (walk ws k).map (· + 1) = some 0) ws.sum = 0 := by
        refine Nat.count_of_forall_not fun k _ h => ?_
        obtain ⟨j, -, hj⟩ := Option.map_eq_some_iff.mp h
        cases hj
      rw [hall, hnone]
      rfl
    | succ i =>
      have hnone : Nat.count (fun r => walk (w :: ws) r = some (i + 1)) w = 0 :=
        Nat.count_of_forall_not fun r hr h => absurd ((hhere r hr).mp h) (Nat.succ_ne_zero i)
      have hmap : (fun k => (walk ws k).map (· + 1) = some (i + 1)) = fun k => walk ws k = some i := by
        funext k
        rw [Option.map_eq_some_iff]
        simp
      simp only [hnone, hmap, Nat.zero_add, List.getD_cons_succ]
      exact ih i

/-! ## Slots that are out -/

section draws

variable {u : Nat → Bool} {n : Nat}

variable (u n) in
/-- How many slots are in. -/
def inCount : Nat := Nat.count (fun s => u s = true) n

theorem inCount_eq_card : inCount u n = ((Finset.range n).filter fun s => u s = true).card :=
  Nat.count_eq_card_filter_range ..

/-- As many draws as slots are in come to each of them once exactly when none comes to nothing
    and no two come to one slot. -/
theorem once_iff_injOn {f : Nat → Option Nat} (hin : ∀ i s, f i = some s → s < n ∧ u s = true) :
    (∀ s < n, u s = true → Nat.count (fun i => f i = some s) (inCount u n) = 1) ↔
      (∀ i < inCount u n, f i ≠ none) ∧ Set.InjOn f (Finset.range (inCount u n)) := by
  have hcard : (((Finset.range n).filter fun s => u s = true).image some).card = inCount u n := by
    rw [Finset.card_image_of_injective _ (Option.some_injective _), inCount_eq_card]
  constructor
  · intro honce
    have hsub : ((Finset.range n).filter fun s => u s = true).image some ⊆ (Finset.range (inCount u n)).image f := by
      intro x hx
      obtain ⟨s, hs, rfl⟩ := Finset.mem_image.mp hx
      obtain ⟨hlt, hus⟩ := Finset.mem_filter.mp hs
      have hone := honce s (Finset.mem_range.mp hlt) hus
      rw [Nat.count_eq_card_filter_range, Finset.card_eq_one] at hone
      obtain ⟨i, hi⟩ := hone
      obtain ⟨hi, hf⟩ := Finset.mem_filter.mp (hi ▸ Finset.mem_singleton_self i)
      exact Finset.mem_image.mpr ⟨i, hi, hf⟩
    have himage : ((Finset.range (inCount u n)).image f).card ≤ inCount u n := by
      simpa using Finset.card_image_le (s := Finset.range (inCount u n)) (f := f)
    have hslots := Finset.eq_of_subset_of_card_le hsub (by omega)
    refine ⟨?_, ?_⟩
    · intro i hi hnone
      have hmem := Finset.mem_image_of_mem f (Finset.mem_range.mpr hi)
      rw [← hslots, hnone] at hmem
      obtain ⟨s, -, hs⟩ := Finset.mem_image.mp hmem
      cases hs
    · rw [← Finset.card_image_iff, ← hslots, hcard, Finset.card_range]
  · intro ⟨hsome, hinj⟩ s hs hus
    -- as many turns as slots that are in, all different: they are the slots that are in
    have hslots : (Finset.range (inCount u n)).image f = ((Finset.range n).filter fun s => u s = true).image some := by
      apply Finset.eq_of_subset_of_card_le
      · intro x hx
        obtain ⟨i, hi, rfl⟩ := Finset.mem_image.mp hx
        obtain ⟨t, ht⟩ := Option.ne_none_iff_exists'.mp (hsome i (Finset.mem_range.mp hi))
        obtain ⟨hlt, hut⟩ := hin i t ht
        rw [ht]
        exact Finset.mem_image_of_mem some (Finset.mem_filter.mpr ⟨Finset.mem_range.mpr hlt, hut⟩)
      · rw [Finset.card_image_of_injOn hinj, Finset.card_range, hcard]
    have hmem : some s ∈ (Finset.range (inCount u n)).image f := by
      rw [hslots]
      exact Finset.mem_image_of_mem some (Finset.mem_filter.mpr ⟨Finset.mem_range.mpr hs, hus⟩)
    obtain ⟨i, hi, hf⟩ := Finset.mem_image.mp hmem
    rw [Nat.count_eq_card_filter_range, Finset.card_eq_one]
    refine ⟨i, Finset.ext fun j => ?_⟩
    rw [Finset.mem_filter, Finset.mem_singleton]
    constructor
    · intro ⟨hj, hturn⟩
      exact hinj hj hi (hturn.trans hf.symm)
    · intro h
      rw [h]
      exact ⟨hi, hf⟩

end draws

section rotation

variable (u : Nat → Bool) (slot : Nat → Nat) (n : Nat)

/-- How far on from the `i`th slot the next one that is in is, of `n` slots in a row. -/
def ahead (i : Nat) : Option Nat := (List.range n).find? fun k => u (slot (i + k))

/-- The next slot that is in, from the `i`th on. -/
def next (i : Nat) : Option Nat := (ahead u slot n i).map fun k => slot (i + k)

/-- The last turn comes to a slot where none of the others started. -/
def LastNew : Prop :=
  ∃ k < n, u (slot (inCount u n - 1 + k)) = true ∧ (∀ j < k, u (slot (inCount u n - 1 + j)) = false) ∧
    ∀ i, i + 1 < inCount u n → slot i ≠ slot (inCount u n - 1 + k)

variable {u slot n} {i k s : Nat}

theorem ahead_eq_some_iff :
    ahead u slot n i = some k ↔ u (slot (i + k)) = true ∧ k < n ∧ ∀ j < k, u (slot (i + j)) = false := by
  rw [ahead, List.find?_range_eq_some]
  simp

theorem next_in (h : next u slot n i = some s) : u s = true := by
  obtain ⟨k, hk, rfl⟩ := Option.map_eq_some_iff.mp h
  exact (ahead_eq_some_iff.mp hk).1

theorem next_of_in (hn : 0 < n) (h : u (slot i) = true) : next u slot n i = some (slot i) := by
  have hahead : ahead u slot n i = some 0 := ahead_eq_some_iff.mpr ⟨h, hn, by omega⟩
  rw [next, hahead]
  rfl

/-- A slot that is out passes its turn on. -/
theorem next_of_out (h : u (slot i) = false) (hs : next u slot n i = some s) : next u slot n (i + 1) = some s := by
  obtain ⟨k, hk, rfl⟩ := Option.map_eq_some_iff.mp hs
  obtain ⟨huk, hlt, hbefore⟩ := ahead_eq_some_iff.mp hk
  cases k with
  | zero =>
    rw [Nat.add_zero, h] at huk
    cases huk
  | succ k =>
    have hnext : ahead u slot n (i + 1) = some k := by
      refine ahead_eq_some_iff.mpr ⟨by rwa [Nat.add_assoc, Nat.add_comm 1 k], by omega, fun j hj => ?_⟩
      rw [Nat.add_assoc, Nat.add_comm 1 j]
      exact hbefore (j + 1) (by omega)
    rw [next, hnext, Option.map_some, Nat.add_assoc, Nat.add_comm 1 k]

/-- As many turns as slots are in come to each of them once exactly when all but the last start on
    slots that are in and the last comes to a new one. -/
theorem next_once_iff (hslot : ∀ j, slot j < n) (hpos : 0 < inCount u n)
    (hinj : ∀ i j, i < j → j + 1 < inCount u n → slot i ≠ slot j) :
    (∀ s < n, u s = true → Nat.count (fun i => next u slot n i = some s) (inCount u n) = 1) ↔
      (∀ i, i + 1 < inCount u n → u (slot i) = true) ∧ LastNew u slot n := by
  have hn : 0 < n := Nat.lt_of_lt_of_le hpos (Nat.count_le _)
  rw [once_iff_injOn fun i s h => ?_]
  · constructor
    · intro ⟨hsome, hdiffer⟩
      have hall : ∀ i, i + 1 < inCount u n → u (slot i) = true := by
        intro i hi
        by_contra hout
        obtain ⟨s, hs⟩ := Option.ne_none_iff_exists'.mp (hsome i (by omega))
        have hsucc := next_of_out (by simpa using hout) hs
        have := hdiffer (Finset.mem_coe.mpr (Finset.mem_range.mpr (by omega : i < _)))
          (Finset.mem_coe.mpr (Finset.mem_range.mpr hi)) (hs.trans hsucc.symm)
        omega
      obtain ⟨s, hs⟩ := Option.ne_none_iff_exists'.mp (hsome (inCount u n - 1) (by omega))
      obtain ⟨k, hk, rfl⟩ := Option.map_eq_some_iff.mp hs
      obtain ⟨huk, hlt, hbefore⟩ := ahead_eq_some_iff.mp hk
      refine ⟨hall, k, hlt, huk, hbefore, ?_⟩
      intro i hi hsame
      have := hdiffer (Finset.mem_coe.mpr (Finset.mem_range.mpr (by omega : i < _)))
        (Finset.mem_coe.mpr (Finset.mem_range.mpr (by omega : inCount u n - 1 < _)))
        (show next u slot n i = next u slot n (inCount u n - 1) by rw [next_of_in hn (hall i hi), hs, hsame])
      omega
    · intro ⟨hall, k, hlt, huk, hbefore, hnew⟩
      have hlast : next u slot n (inCount u n - 1) = some (slot (inCount u n - 1 + k)) := by
        rw [next, ahead_eq_some_iff.mpr ⟨huk, hlt, hbefore⟩]
        rfl
      have hcases : ∀ i < inCount u n, (i + 1 < inCount u n ∧ next u slot n i = some (slot i)) ∨ i = inCount u n - 1 := by
        intro i hi
        by_cases h : i + 1 < inCount u n
        · exact .inl ⟨h, next_of_in hn (hall i h)⟩
        · exact .inr (by omega)
      have hdiffer : ∀ i j, i < j → j < inCount u n → next u slot n i ≠ next u slot n j := by
        intro i j hij hj
        rw [next_of_in hn (hall i (by omega))]
        rcases hcases j hj with ⟨hj, hnext⟩ | rfl
        · rw [hnext]
          exact fun h => hinj i j hij hj (Option.some.inj h)
        · rw [hlast]
          exact fun h => hnew i (by omega) (Option.some.inj h)
      refine ⟨?_, ?_⟩
      · intro i hi
        rcases hcases i hi with ⟨-, hnext⟩ | rfl
        · simp [hnext]
        · simp [hlast]
      · intro i hi j hj h
        have hi := Finset.mem_range.mp hi
        have hj := Finset.mem_range.mp hj
        rcases Nat.lt_trichotomy i j with hlt | heq | hgt
        · exact absurd h (hdiffer i j hlt hj)
        · exact heq
        · exact absurd h.symm (hdiffer j i hgt hi)
  · refine ⟨?_, next_in h⟩
    obtain ⟨k, -, rfl⟩ := Option.map_eq_some_iff.mp h
    exact hslot _

/-- Every slot of a cycle is some way ahead. -/
theorem exists_ahead (c : Nat) (hs : s < n) : ∃ k < n, (c + k) % n = s := by
  have hpos : 0 < n := by omega
  have hc : c % n < n := Nat.mod_lt c hpos
  refine ⟨(s + (n - c % n)) % n, Nat.mod_lt _ hpos, ?_⟩
  rw [Nat.add_mod_mod, ← Nat.mod_add_mod, show c % n + (s + (n - c % n)) = s + n by omega, Nat.add_mod_right,
    Nat.mod_eq_of_lt hs]

/-- Where the slots come round in a cycle, the last turn comes to the one that is left. -/
theorem last_of_cycle {c : Nat} (hpos : 0 < inCount u n) (hcycle : ∀ j, j + 1 < inCount u n + n → slot j = (c + j) % n) :
    LastNew u slot n := by
  have hle : inCount u n ≤ n := Nat.count_le _
  have hexists : ∃ k, k < n ∧ u (slot (inCount u n - 1 + k)) = true := by
    have hcard := hpos
    rw [inCount_eq_card, Finset.card_pos] at hcard
    obtain ⟨s, hs⟩ := hcard
    obtain ⟨hlt, hus⟩ := Finset.mem_filter.mp hs
    obtain ⟨k, hk, rfl⟩ := exists_ahead (c + (inCount u n - 1)) (Finset.mem_range.mp hlt)
    exact ⟨k, hk, by rwa [hcycle _ (by omega), ← Nat.add_assoc]⟩
  obtain ⟨hlt, huk⟩ := Nat.find_spec hexists
  have hbefore : ∀ j < Nat.find hexists, u (slot (inCount u n - 1 + j)) = false := by
    intro j hj
    have := Nat.find_min hexists hj
    simpa [show j < n by omega] using this
  refine ⟨Nat.find hexists, hlt, huk, hbefore, ?_⟩
  intro i hi hsame
  rw [hcycle _ (by omega), hcycle _ (by omega)] at hsame
  -- it would have gone round past every slot that is not among the first turns'
  have hround : inCount u n - 1 + Nat.find hexists = i + n := by
    have hmod : (inCount u n - 1 + Nat.find hexists) % n = i % n := Nat.ModEq.add_left_cancel' c hsame.symm
    rw [Nat.mod_eq_of_lt (by omega : i < n)] at hmod
    have hdiv := Nat.div_add_mod (inCount u n - 1 + Nat.find hexists) n
    have hone : (inCount u n - 1 + Nat.find hexists) / n = 1 := by
      apply Nat.div_eq_of_lt_le
      · rw [Nat.one_mul]
        by_contra hnot
        rw [Nat.mod_eq_of_lt (by omega)] at hmod
        omega
      · omega
    rw [hone, hmod] at hdiv
    omega
  -- so that only the slots of the first turns are in, one too few
  have hsub : (Finset.range n).filter (fun s => u s = true) ⊆
      (Finset.range (inCount u n - 1)).image fun j => (c + j) % n := by
    intro s hs
    obtain ⟨hsn, hus⟩ := Finset.mem_filter.mp hs
    obtain ⟨d, hd, rfl⟩ := exists_ahead c (Finset.mem_range.mp hsn)
    by_cases hfirst : d < inCount u n - 1
    · exact Finset.mem_image.mpr ⟨d, Finset.mem_range.mpr hfirst, rfl⟩
    · have hout := hbefore (d - (inCount u n - 1)) (by omega)
      rw [Nat.add_sub_cancel' (by omega), hcycle _ (by omega), hus] at hout
      cases hout
  have hcard := (Finset.card_le_card hsub).trans Finset.card_image_le
  rw [← inCount_eq_card, Finset.card_range] at hcard
  omega

end rotation

end EdgeLb.Lib
