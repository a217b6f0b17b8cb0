/-
  EdgeLb.Datapath.Selectors — what each selector of `select_target` answers, on any maps
  (`edge-lb-ebpf/src/main.rs`).

  `hash`, `persist` and `consistent_hash` end in a walk over all slots and find a usable one
  if there is one. The other three start from the listener's cursor. `rr` and `lc` look at the
  slots `(cursor + k) % count`, a sum of 32 bits: where it wraps round, the slots it would have
  come to are skipped, unless the count divides 2^32. `priority` takes the cursor modulo the
  published total weight and walks the published weights, which must add up to it.

  Proved: one lemma for each selector, and `selectTarget_outcome`, which says when there is a slot.
-/

import EdgeLb.Datapath.Select
import EdgeLb.Lib.Rotation

namespace EdgeLb.Datapath

open EdgeLb.Common EdgeLb.Lib

/-! ## Scans over the slots -/

/-- The bounded `while` of `first_usable_target` and of `select_round_robin`: the first index that
    passes the test decides. -/
def scanFrom (test : UInt32 → Bool) (answer : UInt32 → UInt32) (count : UInt32) : Nat → UInt32 → UInt32
  | 0, _ => MAX_TARGETS_PER_LISTENER
  | fuel + 1, index =>
    if count ≤ index then MAX_TARGETS_PER_LISTENER
    else if test index then answer index
    else scanFrom test answer count fuel (index + 1)

theorem firstUsableFrom_eq_scan (m : Maps) (listenerId count : UInt32) (fuel : Nat) (index : UInt32) :
    firstUsableFrom m listenerId count fuel index = scanFrom (targetSlotIsUsable m listenerId) id count fuel index := by
  induction fuel generalizing index with
  | zero => rfl
  | succ fuel ih => rw [firstUsableFrom, scanFrom, ih, id]

/-- The slot `select_round_robin` and `select_least_connections` look at in the `k`th place. -/
def candidate (count cursor : UInt32) (k : Nat) : UInt32 := (cursor + UInt32.ofNat k) % count

/-- The slot in the `k`th place, as a number: the sum is one of 32 bits. -/
theorem candidate_eq (count cursor : UInt32) (k : Nat) :
    candidate count cursor k = UInt32.ofNat ((cursor.toNat + k) % 2 ^ 32 % count.toNat) := by
  have hlt : (cursor.toNat + k) % 2 ^ 32 % count.toNat < 2 ^ 32 :=
    Nat.lt_of_le_of_lt (Nat.mod_le _ _) (Nat.mod_lt _ (by decide))
  rw [← UInt32.toNat_inj, candidate, UInt32.toNat_mod, UInt32.toNat_add, UInt32.toNat_ofNat', Nat.add_mod_mod,
    UInt32.toNat_ofNat_of_lt' hlt]

theorem roundRobinFrom_eq_scan (m : Maps) (listenerId count cursor : UInt32) (fuel : Nat) (offset : UInt32) :
    roundRobinFrom m listenerId count cursor fuel offset =
      scanFrom (fun k => targetSlotIsUsable m listenerId ((cursor + k) % count)) (fun k => (cursor + k) % count) count fuel
        offset := by
  induction fuel generalizing offset with
  | zero => rfl
  | succ fuel ih => rw [roundRobinFrom, scanFrom, ih]

theorem toNat_succ {i : UInt32} (h : i.toNat < 64) : (i + 1).toNat = i.toNat + 1 := by
  rw [UInt32.toNat_add]
  change (i.toNat + 1) % 4294967296 = _
  omega

theorem range'_head {start stop : Nat} (h : start < stop) :
    List.range' start (stop - start) = start :: List.range' (start + 1) (stop - (start + 1)) := by
  rw [show stop - start = stop - (start + 1) + 1 by omega, List.range'_succ]

section scan

variable (test : UInt32 → Bool) (answer : UInt32 → UInt32) {count : UInt32} (hcount : count.toNat ≤ 64)
include hcount

theorem scanFrom_eq {fuel : Nat} {index : UInt32} (hfuel : count.toNat ≤ index.toNat + fuel) :
    scanFrom test answer count fuel index =
      ((List.range' index.toNat (count.toNat - index.toNat)).find? fun k => test (UInt32.ofNat k)).elim
        MAX_TARGETS_PER_LISTENER fun k => answer (UInt32.ofNat k) := by
  induction fuel generalizing index with
  | zero =>
    rw [show count.toNat - index.toNat = 0 by omega]
    rfl
  | succ fuel ih =>
    rw [scanFrom]
    by_cases hend : count ≤ index
    · have hnat : count.toNat ≤ index.toNat := hend
      rw [if_pos hend, show count.toNat - index.toNat = 0 by omega]
      rfl
    · have hnat : ¬ count.toNat ≤ index.toNat := hend
      have hsucc := toNat_succ (i := index) (by omega)
      rw [if_neg hend, range'_head (by omega), List.find?_cons, UInt32.ofNat_toNat]
      cases htest : test index with
      | true =>
        rw [if_pos rfl]
        exact congrArg answer UInt32.ofNat_toNat.symm
      | false =>
        rw [if_neg (by simp), ih (by omega), hsucc]

/-- The scan's answer is that of the first index that passes, if any does. -/
theorem scan_cases :
    (∃ k < count.toNat, test (UInt32.ofNat k) = true ∧ (∀ j < k, test (UInt32.ofNat j) = false) ∧
      scanFrom test answer count 64 0 = answer (UInt32.ofNat k)) ∨
    ((∀ k < count.toNat, test (UInt32.ofNat k) = false) ∧ scanFrom test answer count 64 0 = MAX_TARGETS_PER_LISTENER) := by
  have hscan : scanFrom test answer count 64 0 = ((List.range' 0 count.toNat).find? fun k => test (UInt32.ofNat k)).elim
      MAX_TARGETS_PER_LISTENER fun k => answer (UInt32.ofNat k) :=
    scanFrom_eq test answer hcount (Nat.le_trans hcount (Nat.le_add_left ..))
  rw [hscan, ← List.range_eq_range']
  cases hfind : (List.range count.toNat).find? fun k => test (UInt32.ofNat k) with
  | some k =>
    obtain ⟨htest, hlt, hbefore⟩ := List.find?_range_eq_some.mp hfind
    exact .inl ⟨k, List.mem_range.mp hlt, htest, fun j hj => by simpa using hbefore j hj, rfl⟩
  | none =>
    rw [List.find?_eq_none] at hfind
    exact .inr ⟨fun k hk => by simpa using hfind k (List.mem_range.mpr hk), rfl⟩

end scan

/-! ## One lemma for each selector -/

/-- A usable slot below `count`, or 64 where none is usable. -/
inductive Answers (m : Maps) (listenerId count slot : UInt32) : Prop
  | usable (lt : slot < count) (usable : targetSlotIsUsable m listenerId slot = true)
  | nothing (eq : slot = MAX_TARGETS_PER_LISTENER) (none : ∀ t < count, targetSlotIsUsable m listenerId t = false)

theorem ofNat_lt {k : Nat} {count : UInt32} (h : k < count.toNat) : UInt32.ofNat k < count := by
  have hcount := count.toNat_lt
  rw [UInt32.lt_iff_toNat_lt, UInt32.toNat_ofNat']
  omega

theorem mod_lt_count (x : UInt32) {count : UInt32} (h : 0 < count.toNat) : x % count < count := by
  rw [UInt32.lt_iff_toNat_lt, UInt32.toNat_mod]
  exact Nat.mod_lt _ h

section selectors

variable (m : Maps) (l : NativeListenerLookupValue) {count : UInt32} (hcount : count.toNat ≤ 64)
include hcount

theorem firstUsableTarget_answers (listenerId : UInt32) :
    Answers m listenerId count (firstUsableTarget m listenerId count) := by
  rw [firstUsableTarget, firstUsableFrom_eq_scan]
  rcases scan_cases (targetSlotIsUsable m listenerId) id hcount with ⟨k, hk, husable, -, heq⟩ | ⟨hnone, heq⟩
  · rw [heq]
    exact .usable (ofNat_lt hk) husable
  · refine .nothing heq fun t ht => ?_
    have := hnone t.toNat (UInt32.lt_iff_toNat_lt.mp ht)
    rwa [UInt32.ofNat_toNat] at this

theorem selectHashSlot_answers (hash : UInt32) (hpos : 0 < count.toNat) :
    Answers m l.listenerId count (selectHashSlot m hash l count) := by
  have hne : count ≠ 0 := fun h => by simp [h] at hpos
  rw [selectHashSlot, if_neg hne]
  dsimp only
  split
  next husable => exact .usable (mod_lt_count _ hpos) husable
  next => exact firstUsableTarget_answers m hcount l.listenerId

theorem selectPersistSlot_answers (clientIp : UInt32) (hpos : 0 < count.toNat) :
    Answers m l.listenerId count (selectPersistSlot m clientIp l count) := by
  have hne : count ≠ 0 := fun h => by simp [h] at hpos
  rw [selectPersistSlot, if_neg hne]
  dsimp only
  split
  next husable => exact .usable (mod_lt_count _ hpos) husable
  next =>
    split
    next husable => exact .usable (mod_lt_count _ hpos) husable
    next => exact firstUsableTarget_answers m hcount l.listenerId

theorem selectConsistentHash_answers (key : NativeFlowKey) :
    Answers m l.listenerId count (selectConsistentHash m key l count) := by
  unfold selectConsistentHash
  split
  next value _ =>
    split
    next h => exact .usable h.1 h.2
    next => exact firstUsableTarget_answers m hcount l.listenerId
  next => exact firstUsableTarget_answers m hcount l.listenerId

/-- `rr` takes the first usable one of the slots it looks at. -/
theorem selectRoundRobin_cases :
    (∃ k < count.toNat, targetSlotIsUsable m l.listenerId (candidate count (cursor m l.listenerId) k) = true ∧
      (∀ j < k, targetSlotIsUsable m l.listenerId (candidate count (cursor m l.listenerId) j) = false) ∧
      selectRoundRobin m l count = candidate count (cursor m l.listenerId) k) ∨
    ((∀ k < count.toNat, targetSlotIsUsable m l.listenerId (candidate count (cursor m l.listenerId) k) = false) ∧
      selectRoundRobin m l count = MAX_TARGETS_PER_LISTENER) := by
  rw [selectRoundRobin, roundRobinFrom_eq_scan]
  exact scan_cases (fun k => targetSlotIsUsable m l.listenerId ((cursor m l.listenerId + k) % count))
    (fun k => (cursor m l.listenerId + k) % count) hcount

end selectors

/-! ## Least connections -/

/-- `NATIVE_ACTIVE_FLOWS(listener, slot)` as the selector reads it. -/
def slotLoad (m : Maps) (listenerId slot : UInt32) : UInt32 := (m.activeFlows.lookup ⟨listenerId, slot⟩).getD 0

/-- The loop's best slot so far: the first of the least loaded ones, or none below the top load. -/
structure Best (m : Maps) (listenerId count cursor : UInt32) (index : Nat) (best bestLoad : UInt32) : Prop where
  least : ∀ j < index, targetSlotIsUsable m listenerId (candidate count cursor j) = true →
    bestLoad ≤ slotLoad m listenerId (candidate count cursor j)
  from_ : (best = MAX_TARGETS_PER_LISTENER ∧ bestLoad = 0xffffffff) ∨
    ∃ k < index, best = candidate count cursor k ∧ targetSlotIsUsable m listenerId best = true ∧
      bestLoad = slotLoad m listenerId best ∧ bestLoad ≠ 0xffffffff

section leastConnections

variable {m : Maps} {listenerId count cursor : UInt32}

section

variable {index : Nat} {best bestLoad : UInt32} (h : Best m listenerId count cursor index best bestLoad)
include h

theorem Best.take (husable : targetSlotIsUsable m listenerId (candidate count cursor index) = true)
    (hless : slotLoad m listenerId (candidate count cursor index) < bestLoad) :
    Best m listenerId count cursor (index + 1) (candidate count cursor index)
      (slotLoad m listenerId (candidate count cursor index)) where
  least j hj hj' := by
    rcases Nat.lt_succ_iff_lt_or_eq.mp hj with hj | rfl
    · exact UInt32.le_trans (UInt32.le_of_lt hless) (h.least j hj hj')
    · exact UInt32.le_refl _
  from_ := .inr ⟨index, Nat.lt_succ_self index, rfl, husable, rfl, fun heq => by
    have htop := bestLoad.toNat_lt
    rw [heq, UInt32.lt_iff_toNat_lt] at hless
    change 4294967295 < bestLoad.toNat at hless
    omega⟩

theorem Best.skip
    (hskip : targetSlotIsUsable m listenerId (candidate count cursor index) = true →
      bestLoad ≤ slotLoad m listenerId (candidate count cursor index)) :
    Best m listenerId count cursor (index + 1) best bestLoad where
  least j hj hj' := by
    rcases Nat.lt_succ_iff_lt_or_eq.mp hj with hj | rfl
    · exact h.least j hj hj'
    · exact hskip hj'
  from_ := by
    rcases h.from_ with hnone | ⟨k, hk, hbest⟩
    · exact .inl hnone
    · exact .inr ⟨k, Nat.lt_succ_of_lt hk, hbest⟩

end

theorem leastConnectionsFrom_best (hcount : count.toNat ≤ 64) {fuel : Nat} {index best bestLoad : UInt32}
    (hfuel : index.toNat + fuel = 64) (h : Best m listenerId count cursor (min index.toNat count.toNat) best bestLoad) :
    ∃ load, Best m listenerId count cursor count.toNat (leastConnectionsFrom m listenerId count cursor fuel index best bestLoad)
      load := by
  induction fuel generalizing index best bestLoad with
  | zero =>
    rw [Nat.min_eq_right (by omega)] at h
    exact ⟨bestLoad, h⟩
  | succ fuel ih =>
    have hsucc := toNat_succ (i := index) (by omega)
    rw [leastConnectionsFrom]
    by_cases hlt : index < count
    · have hnat : index.toNat < count.toNat := UInt32.lt_iff_toNat_lt.mp hlt
      have hmin : min (index + 1).toNat count.toNat = index.toNat + 1 := by omega
      have hcandidate : (cursor + index) % count = candidate count cursor index.toNat := by
        rw [candidate, UInt32.ofNat_toNat]
      rw [Nat.min_eq_left (by omega)] at h
      rw [if_pos hlt]
      dsimp only
      rw [hcandidate]
      split
      next husable =>
        split
        next hless =>
          refine ih (by omega) ?_
          rw [hmin]
          exact h.take husable hless
        next hnot =>
          refine ih (by omega) ?_
          rw [hmin]
          exact h.skip fun _ => UInt32.not_lt.mp hnot
      next hnot =>
        refine ih (by omega) ?_
        rw [hmin]
        exact h.skip fun husable => absurd husable hnot
    · have hnat : ¬ index.toNat < count.toNat := fun h => hlt (UInt32.lt_iff_toNat_lt.mpr h)
      rw [if_neg hlt]
      refine ih (by omega) ?_
      rw [show min (index + 1).toNat count.toNat = min index.toNat count.toNat by omega]
      exact h

/-- `lc` takes a usable slot of those it looks at that none of them undercuts; 64 stands for
    loads that are all at the top. -/
theorem selectLeastConnections_best (l : NativeListenerLookupValue) (hcount : count.toNat ≤ 64) :
    ∃ load, Best m l.listenerId count (EdgeLb.Datapath.cursor m l.listenerId) count.toNat
      (selectLeastConnections m l count) load := by
  refine leastConnectionsFrom_best hcount rfl ⟨fun j hj => ?_, .inl ⟨rfl, rfl⟩⟩
  change j < min 0 _ at hj
  omega

end leastConnections

/-! ## Weights -/

/-- The published weight in a slot, 0 where it is not usable. -/
def slotWeight (m : Maps) (listenerId : UInt32) (slot : Nat) : Nat :=
  match m.targets.lookup ⟨listenerId, UInt32.ofNat slot⟩ with
  | some target => if target.usable then target.weight.toNat else 0
  | none => 0

def slotWeights (m : Maps) (listenerId count : UInt32) : List Nat :=
  (List.range count.toNat).map (slotWeight m listenerId)

theorem slotWeight_pos_iff {m : Maps} {listenerId : UInt32} {slot : Nat} :
    0 < slotWeight m listenerId slot ↔ targetSlotIsUsable m listenerId (UInt32.ofNat slot) = true := by
  unfold slotWeight targetSlotIsUsable
  cases m.targets.lookup ⟨listenerId, UInt32.ofNat slot⟩ with
  | none => simp
  | some target =>
    cases h : target.usable with
    | false => simp [h]
    | true =>
      have hweight : 0 < target.weight := by
        unfold NativeTargetValue.usable at h
        exact of_decide_eq_true (Bool.and_eq_true_iff.mp h).2
      simpa [h] using UInt16.lt_iff_toNat_lt.mp hweight

section weights

variable (m : Maps) (listenerId : UInt32) {count : UInt32} (hcount : count.toNat ≤ 64)
include hcount

theorem weightedFrom_eq {fuel : Nat} {index cursor : UInt32} (hfuel : count.toNat ≤ index.toNat + fuel) :
    weightedFrom m listenerId count fuel index cursor =
      (walk ((List.range' index.toNat (count.toNat - index.toNat)).map (slotWeight m listenerId)) cursor.toNat).elim
        MAX_TARGETS_PER_LISTENER fun i => UInt32.ofNat (index.toNat + i) := by
  induction fuel generalizing index cursor with
  | zero =>
    rw [show count.toNat - index.toNat = 0 by omega]
    rfl
  | succ fuel ih =>
    rw [weightedFrom]
    by_cases hend : count ≤ index
    · have hnat : count.toNat ≤ index.toNat := hend
      rw [if_pos hend, show count.toNat - index.toNat = 0 by omega]
      rfl
    · have hnat : ¬ count.toNat ≤ index.toNat := hend
      have hsucc := toNat_succ (i := index) (by omega)
      have hhead := range'_head (show index.toNat < count.toNat by omega)
      -- a slot that is not usable has no interval
      have hpast (c : UInt32) (hc : c.toNat = cursor.toNat - slotWeight m listenerId index.toNat)
          (hge : ¬ cursor.toNat < slotWeight m listenerId index.toNat) :
          weightedFrom m listenerId count fuel (index + 1) c =
            (walk ((List.range' index.toNat (count.toNat - index.toNat)).map (slotWeight m listenerId)) cursor.toNat).elim
              MAX_TARGETS_PER_LISTENER fun i => UInt32.ofNat (index.toNat + i) := by
        rw [ih (by omega), hhead, List.map_cons, walk, if_neg hge, hsucc, hc]
        cases walk _ (cursor.toNat - slotWeight m listenerId index.toNat) with
        | none => rfl
        | some i =>
          show UInt32.ofNat (index.toNat + 1 + i) = UInt32.ofNat (index.toNat + (i + 1))
          rw [Nat.add_assoc, Nat.add_comm 1 i]
      rw [if_neg hend]
      cases htarget : m.targets.lookup ⟨listenerId, index⟩ with
      | none =>
        have hzero : slotWeight m listenerId index.toNat = 0 := by rw [slotWeight, UInt32.ofNat_toNat, htarget]
        exact hpast cursor (by omega) (by omega)
      | some target =>
        dsimp only
        cases husable : target.usable with
        | false =>
          have hzero : slotWeight m listenerId index.toNat = 0 := by
            rw [slotWeight, UInt32.ofNat_toNat, htarget]
            simp [husable]
          rw [if_neg (by simp)]
          exact hpast cursor (by omega) (by omega)
        | true =>
          have hweight : slotWeight m listenerId index.toNat = target.weight.toUInt32.toNat := by
            rw [slotWeight, UInt32.ofNat_toNat, htarget]
            exact if_pos husable
          rw [if_pos rfl]
          by_cases hlt : cursor < target.weight.toUInt32
          · have hnatlt : cursor.toNat < slotWeight m listenerId index.toNat := by
              rw [hweight]
              exact UInt32.lt_iff_toNat_lt.mp hlt
            rw [if_pos hlt, hhead, List.map_cons, walk, if_pos hnatlt]
            exact UInt32.ofNat_toNat.symm
          · have hle : target.weight.toUInt32 ≤ cursor := UInt32.not_lt.mp hlt
            rw [if_neg hlt]
            refine hpast _ ?_ ?_
            · rw [UInt32.toNat_sub_of_le _ _ hle, hweight]
            · rw [hweight]
              exact fun h => hlt (UInt32.lt_iff_toNat_lt.mpr h)

/-- `priority` walks the weights with the cursor modulo the published total. -/
theorem selectWeightedHash_eq (hash : UInt32) (l : NativeListenerLookupValue) (htotal : l.weightTotal ≠ 0) :
    selectWeightedHash m hash l count =
      (walk (slotWeights m l.listenerId count) (hash.toNat % l.weightTotal.toNat)).elim MAX_TARGETS_PER_LISTENER
        UInt32.ofNat := by
  have h : weightedFrom m l.listenerId count 64 0 (hash % l.weightTotal) =
      (walk ((List.range' 0 count.toNat).map (slotWeight m l.listenerId)) (hash % l.weightTotal).toNat).elim
        MAX_TARGETS_PER_LISTENER fun i => UInt32.ofNat (0 + i) :=
    weightedFrom_eq m l.listenerId hcount (Nat.le_trans hcount (Nat.le_add_left ..))
  rw [selectWeightedHash, if_neg htotal, h, ← List.range_eq_range', UInt32.toNat_mod]
  simp only [Nat.zero_add]
  rfl

end weights

/-! ## `select_target` -/

variable (l : NativeListenerLookupValue)

/-- How many slots `select_target` looks at. -/
def slotCount : UInt32 :=
  if l.targetCount < MAX_TARGETS_PER_LISTENER then l.targetCount else MAX_TARGETS_PER_LISTENER

theorem slotCount_toNat : (slotCount l).toNat = min l.targetCount.toNat 64 := by
  unfold slotCount
  split
  next h =>
    have : l.targetCount.toNat < 64 := UInt32.lt_iff_toNat_lt.mp h
    omega
  next h =>
    have : ¬ l.targetCount.toNat < 64 := fun hlt => h (UInt32.lt_iff_toNat_lt.mpr hlt)
    change 64 = _
    omega

theorem slotCount_le : (slotCount l).toNat ≤ 64 := by
  rw [slotCount_toNat]
  omega

theorem slotCount_pos {l : NativeListenerLookupValue} (h : l.targetCount ≠ 0) : 0 < (slotCount l).toNat := by
  have : l.targetCount.toNat ≠ 0 := fun hzero => h (UInt32.toNat_inj.mp hzero)
  rw [slotCount_toNat]
  omega

/-- The selectors that end in a walk over all slots. -/
def walksAll : Bool :=
  l.select = NATIVE_SELECT_HASH ∨ l.select = NATIVE_SELECT_PERSIST ∨ l.select = NATIVE_SELECT_CONSISTENT_HASH

/-- The listener's selector comes to a usable slot. -/
def Comes (m : Maps) (l : NativeListenerLookupValue) : Prop :=
  if l.select = NATIVE_SELECT_PRIORITY then
    (cursor m l.listenerId).toNat % l.weightTotal.toNat < (slotWeights m l.listenerId (slotCount l)).sum
  else if walksAll l then ∃ t < slotCount l, targetSlotIsUsable m l.listenerId t = true
  else ∃ k < (slotCount l).toNat,
    targetSlotIsUsable m l.listenerId (candidate (slotCount l) (cursor m l.listenerId) k) = true ∧
      (l.select = NATIVE_SELECT_LC →
        slotLoad m l.listenerId (candidate (slotCount l) (cursor m l.listenerId) k) ≠ 0xffffffff)

/-- What is answered, by whether the selector comes to a usable slot. -/
inductive Outcome (m : Maps) (listenerId count slot : UInt32) (comes : Prop) : Prop
  | slot (comes : comes) (lt : slot < count) (usable : targetSlotIsUsable m listenerId slot = true)
  | nothing (comes : ¬ comes) (eq : slot = MAX_TARGETS_PER_LISTENER)

section outcomes

variable {m : Maps} {l : NativeListenerLookupValue} {count : UInt32} (hcount : count.toNat ≤ 64)

theorem Answers.outcome {listenerId slot : UInt32} (h : Answers m listenerId count slot) :
    Outcome m listenerId count slot (∃ t < count, targetSlotIsUsable m listenerId t = true) := by
  cases h with
  | usable lt usable => exact .slot ⟨slot, lt, usable⟩ lt usable
  | nothing eq none =>
    refine .nothing ?_ eq
    intro ⟨t, ht, husable⟩
    rw [none t ht] at husable
    cases husable

include hcount

theorem roundRobin_outcome (hpos : 0 < count.toNat) :
    Outcome m l.listenerId count (selectRoundRobin m l count)
      (∃ k < count.toNat, targetSlotIsUsable m l.listenerId (candidate count (cursor m l.listenerId) k) = true) := by
  rcases selectRoundRobin_cases m l hcount with ⟨k, hk, husable, -, heq⟩ | ⟨hnone, heq⟩
  · rw [heq]
    exact .slot ⟨k, hk, husable⟩ (mod_lt_count _ hpos) husable
  · refine .nothing ?_ heq
    intro ⟨k, hk, husable⟩
    rw [hnone k hk] at husable
    cases husable

theorem leastConnections_outcome (hpos : 0 < count.toNat) :
    Outcome m l.listenerId count (selectLeastConnections m l count)
      (∃ k < count.toNat, targetSlotIsUsable m l.listenerId (candidate count (cursor m l.listenerId) k) = true ∧
        slotLoad m l.listenerId (candidate count (cursor m l.listenerId) k) ≠ 0xffffffff) := by
  obtain ⟨load, hbest⟩ := selectLeastConnections_best l hcount
  rcases hbest.from_ with ⟨heq, htop⟩ | ⟨k, hk, heq, husable, hload, hne⟩
  · refine .nothing ?_ heq
    intro ⟨k, hk, husable, hne⟩
    have hle := hbest.least k hk husable
    rw [htop, UInt32.le_iff_toNat_le] at hle
    apply hne
    apply UInt32.toNat_inj.mp
    have := (slotLoad m l.listenerId (candidate count (cursor m l.listenerId) k)).toNat_lt
    change 4294967295 ≤ _ at hle
    change _ = 4294967295
    omega
  · rw [hload, heq] at hne
    rw [heq] at husable ⊢
    exact .slot ⟨k, hk, husable, hne⟩ (mod_lt_count _ hpos) husable

theorem weightedRoundRobin_outcome (htotal : l.weightTotal ≠ 0) :
    Outcome m l.listenerId count (selectWeightedRoundRobin m l count)
      ((cursor m l.listenerId).toNat % l.weightTotal.toNat < (slotWeights m l.listenerId count).sum) := by
  rw [selectWeightedRoundRobin, selectWeightedHash_eq m hcount _ l htotal]
  cases hwalk : walk (slotWeights m l.listenerId count) ((cursor m l.listenerId).toNat % l.weightTotal.toNat) with
  | none =>
    refine .nothing ?_ rfl
    rw [← walk_isSome_iff, hwalk]
    simp
  | some i =>
    obtain ⟨w, hw, hpos⟩ := weight_of_walk hwalk
    rw [slotWeights, List.getElem?_map, Option.map_eq_some_iff] at hw
    obtain ⟨j, hj, rfl⟩ := hw
    obtain ⟨hi, rfl⟩ := List.getElem?_eq_some_iff.mp hj
    rw [List.getElem_range] at hpos
    rw [List.length_range] at hi
    refine .slot ?_ (ofNat_lt hi) (slotWeight_pos_iff.mp hpos)
    rw [← walk_isSome_iff, hwalk]
    rfl

end outcomes

theorem selectTarget_weightless {m : Maps} {key : NativeFlowKey} {l : NativeListenerLookupValue} {hash : UInt32}
    (h : l.weightTotal = 0) : (selectTarget m key l hash).1 = MAX_TARGETS_PER_LISTENER := by
  unfold selectTarget
  by_cases htargets : l.targetCount = 0
  · rw [if_pos htargets]
  · rw [if_neg htargets, if_pos (.inl h)]

/-! The branches of `select_target`, for a listener with targets and a total weight. -/

section branches

variable {m : Maps} {key : NativeFlowKey} {l : NativeListenerLookupValue} {hash : UInt32}
  (htargets : l.targetCount ≠ 0) (htotal : l.weightTotal ≠ 0)
include htargets htotal

theorem selectTarget_priority (h : l.select = NATIVE_SELECT_PRIORITY) :
    selectTarget m key l hash = (selectWeightedRoundRobin m l (slotCount l), bumpCursor m l.listenerId) := by
  unfold selectTarget
  rw [if_neg htargets, if_neg (not_or.mpr ⟨htotal, htargets⟩), h]
  rfl

theorem selectTarget_rr (h : l.select = NATIVE_SELECT_RR) :
    selectTarget m key l hash = (selectRoundRobin m l (slotCount l), bumpCursor m l.listenerId) := by
  unfold selectTarget
  rw [if_neg htargets, if_neg (not_or.mpr ⟨htotal, htargets⟩), h]
  rfl

theorem selectTarget_lc (h : l.select = NATIVE_SELECT_LC) :
    selectTarget m key l hash = (selectLeastConnections m l (slotCount l), bumpCursor m l.listenerId) := by
  unfold selectTarget
  rw [if_neg htargets, if_neg (not_or.mpr ⟨htotal, htargets⟩), h]
  rfl

/-- The selectors that end in a walk over all slots answer a usable slot if there is one. -/
theorem selectTarget_walksAll (h : walksAll l = true) :
    Answers m l.listenerId (slotCount l) (selectTarget m key l hash).1 := by
  have hcount := slotCount_le l
  have hpos := slotCount_pos htargets
  rcases of_decide_eq_true h with h | h | h
  · have hslot : (selectTarget m key l hash).1 = selectHashSlot m hash l (slotCount l) := by
      unfold selectTarget
      rw [if_neg htargets, if_neg (not_or.mpr ⟨htotal, htargets⟩), h]
      rfl
    rw [hslot]
    exact selectHashSlot_answers m l hcount hash hpos
  · have hslot : (selectTarget m key l hash).1 = selectPersistSlot m key.src l (slotCount l) := by
      unfold selectTarget
      rw [if_neg htargets, if_neg (not_or.mpr ⟨htotal, htargets⟩), h]
      rfl
    rw [hslot]
    exact selectPersistSlot_answers m l hcount key.src hpos
  · have hslot : (selectTarget m key l hash).1 = selectConsistentHash m key l (slotCount l) := by
      unfold selectTarget
      rw [if_neg htargets, if_neg (not_or.mpr ⟨htotal, htargets⟩), h]
      rfl
    rw [hslot]
    exact selectConsistentHash_answers m l hcount key

/-- An unknown selector is round robin. -/
theorem selectTarget_other (hpriority : l.select ≠ NATIVE_SELECT_PRIORITY) (hwalk : walksAll l = false)
    (hlc : l.select ≠ NATIVE_SELECT_LC) : (selectTarget m key l hash).1 = selectRoundRobin m l (slotCount l) := by
  obtain ⟨hhash, hpersist, hconsistent⟩ : l.select ≠ NATIVE_SELECT_HASH ∧ l.select ≠ NATIVE_SELECT_PERSIST ∧
      l.select ≠ NATIVE_SELECT_CONSISTENT_HASH := by
    simpa [walksAll] using hwalk
  unfold selectTarget
  rw [if_neg htargets, if_neg (not_or.mpr ⟨htotal, htargets⟩)]
  by_cases hrr : l.select = NATIVE_SELECT_RR
  · rw [if_pos hrr]
    rfl
  · rw [if_neg hrr, if_neg hpriority, if_neg hhash, if_neg hpersist, if_neg hconsistent, if_neg hlc]
    rfl

/-- A listener with targets and a total weight gets a usable slot exactly when its selector comes
    to one. -/
theorem selectTarget_outcome : Outcome m l.listenerId (slotCount l) (selectTarget m key l hash).1 (Comes m l) := by
  have hcount := slotCount_le l
  have hpos := slotCount_pos htargets
  unfold Comes
  by_cases hpriority : l.select = NATIVE_SELECT_PRIORITY
  · rw [if_pos hpriority, selectTarget_priority htargets htotal hpriority]
    exact weightedRoundRobin_outcome hcount htotal
  rw [if_neg hpriority]
  cases hwalk : walksAll l with
  | true =>
    rw [if_pos rfl]
    exact (selectTarget_walksAll htargets htotal hwalk).outcome
  | false =>
    rw [if_neg (by simp)]
    by_cases hlc : l.select = NATIVE_SELECT_LC
    · rw [selectTarget_lc htargets htotal hlc]
      simp only [hlc, true_implies]
      exact leastConnections_outcome hcount hpos
    · rw [selectTarget_other htargets htotal hpriority hwalk hlc]
      simp only [hlc, false_implies, and_true]
      exact roundRobin_outcome hcount hpos

end branches

end EdgeLb.Datapath
