/-
  EdgeLb.Datapath.Selected — whether a listener with a healthy target gets one, on the maps that
  are published for it (`edge-lb-ebpf/src/main.rs`, `select_target`, over what
  `sync_listener_map` and `sync_target_map` of `edge-lb/src/linux/native_dnat.rs` write).

  The total weight of a listener is a sum of 32 bits over the configured weights, while a
  target's entry holds its weight cut off at 65535. The configuration takes any weight from 1
  on, so the two need not agree: `priority` draws from the total, walks the entries, and runs
  past the last one. A total that comes to 0 modulo 2^32 turns the whole listener off. `rr` and
  `lc` skip slots where the cursor is about to wrap round, and `lc` takes no slot whose load stands at
  the top.

  Proved: exactly when a listener with a healthy target is given one (`healthy_slot_iff`).
-/

import EdgeLb.Datapath.ConsistentHash
import EdgeLb.Datapath.Selectors
import EdgeLb.Lib.OnesComplement
import EdgeLb.Provider.Listeners

namespace EdgeLb.Datapath

open EdgeLb.Common EdgeLb.Lib EdgeLb.Provider

/-! ## The listener as configured -/

section

variable (observed : Option (List TargetHealthEntry)) (l : NativeListener)

def healthyWeights : List Nat := (l.targets.filter (nativeTargetIsActive observed l)).map (·.weight.toNat)

/-- The total weight, as 32 bits hold it. -/
def publishedTotal : Nat := (healthyWeights observed l).sum % 2 ^ 32

/-- A healthy target with a weight stands in the slot. -/
def HealthyAt (slot : Nat) : Prop :=
  ∃ t, l.targets[slot]? = some t ∧ nativeTargetIsActive observed l t = true ∧ t.weight ≠ 0

/-- The slots `rr` and `lc` look at. -/
def slotFrom (cursor : UInt32) (k : Nat) : Nat := (cursor.toNat + k) % 2 ^ 32 % l.targets.length

/-- The listener's selector comes to a healthy target, from its cursor and at these loads. -/
def Reaches (cursor : UInt32) (load : Nat → UInt32) : Prop :=
  publishedTotal observed l ≠ 0 ∧
    if l.select = NATIVE_SELECT_PRIORITY then
      cursor.toNat % publishedTotal observed l < ((healthyWeights observed l).map fun w => min w 65535).sum
    else
      l.select ∈ [NATIVE_SELECT_HASH, NATIVE_SELECT_PERSIST, NATIVE_SELECT_CONSISTENT_HASH] ∨
      ∃ k < l.targets.length, HealthyAt observed l (slotFrom l cursor k) ∧
        (l.select = NATIVE_SELECT_LC → load (slotFrom l cursor k) ≠ 0xffffffff)

end

variable {observed : Option (List TargetHealthEntry)} {l : NativeListener}

theorem weightTotal_toNat : (weightTotal observed l).toNat = publishedTotal observed l := by
  rw [weightTotal, foldl_add_toNat, publishedTotal, healthyWeights, List.map_map]
  simp [Function.comp_def]

theorem weightTotal_eq_zero : weightTotal observed l = 0 ↔ publishedTotal observed l = 0 := by
  rw [← weightTotal_toNat, ← UInt32.toNat_inj]
  rfl

/-- A total weight comes from a healthy target with a weight. -/
theorem exists_healthyAt (h : publishedTotal observed l ≠ 0) : ∃ slot < l.targets.length, HealthyAt observed l slot := by
  have hsum : ¬ ∀ w ∈ healthyWeights observed l, w = 0 := by
    intro hall
    apply h
    rw [publishedTotal, List.sum_eq_zero_iff.mpr hall]
    rfl
  obtain ⟨w, hw⟩ := Classical.not_forall.mp hsum
  obtain ⟨hw, hne⟩ := Classical.not_imp.mp hw
  obtain ⟨t, ht, rfl⟩ := List.mem_map.mp hw
  obtain ⟨hmem, hactive⟩ := List.mem_filter.mp ht
  obtain ⟨slot, hlt, hget⟩ := List.getElem_of_mem hmem
  refine ⟨slot, hlt, t, List.getElem?_eq_some_iff.mpr ⟨hlt, hget⟩, hactive, ?_⟩
  intro hzero
  exact hne (by rw [hzero]; rfl)

/-! ## The listener as published -/

section published

variable {obs : Observations} {listeners : List NativeListener} {ids : Assignments} {before m : Maps}
  {a : UInt32 × NativeListener} (hids : stableListenerAssignments listeners = .ok ids) (hsync : Synced obs ids before m)
  (ha : a ∈ ids)
include hids hsync ha

theorem usable_iff_healthyAt {slot : Nat} (hslot : slot < 64) :
    targetSlotIsUsable m a.1 (UInt32.ofNat slot) = true ↔ HealthyAt obs.second a.2 slot := by
  have hcount := synced_count hsync ha
  unfold targetSlotIsUsable
  constructor
  · intro h
    cases hlookup : m.targets.lookup ⟨a.1, UInt32.ofNat slot⟩ with
    | none => simp [hlookup] at h
    | some v =>
      obtain ⟨t, i, hget, hactive, heq, rfl⟩ := (synced_target_iff hids hsync ha).mp hlookup
      have hi : i < a.2.targets.length := (List.getElem?_eq_some_iff.mp hget).1
      obtain rfl : slot = i := slot_inj hslot (by omega) heq
      rw [hlookup] at h
      exact ⟨t, hget, hactive, (usable_targetValue t).mp h⟩
  · intro ⟨t, hget, hactive, hweight⟩
    rw [(synced_target_iff hids hsync ha).mpr ⟨t, slot, hget, hactive, rfl, rfl⟩]
    exact (usable_targetValue t).mpr hweight

theorem slotWeight_eq {slot : Nat} (hslot : slot < a.2.targets.length) :
    slotWeight m a.1 slot =
      if nativeTargetIsActive obs.second a.2 a.2.targets[slot] then min a.2.targets[slot].weight.toNat 65535 else 0 := by
  have hcount := synced_count hsync ha
  have hget : a.2.targets[slot]? = some a.2.targets[slot] := List.getElem?_eq_getElem hslot
  unfold slotWeight
  by_cases hactive : nativeTargetIsActive obs.second a.2 a.2.targets[slot] = true
  · rw [(synced_target_iff hids hsync ha).mpr ⟨_, slot, hget, hactive, rfl, rfl⟩, if_pos hactive]
    show (if (targetValue a.2.targets[slot]).usable = true then (targetValue a.2.targets[slot]).weight.toNat else 0) = _
    by_cases hzero : a.2.targets[slot].weight = 0
    · rw [if_neg (by rw [usable_targetValue]; exact fun h => h hzero), hzero]
      rfl
    · rw [if_pos ((usable_targetValue _).mpr hzero), targetValue_weight]
  · rw [if_neg hactive]
    cases hlookup : m.targets.lookup ⟨a.1, UInt32.ofNat slot⟩ with
    | none => rfl
    | some v =>
      obtain ⟨t, i, hget', hactive', heq, -⟩ := (synced_target_iff hids hsync ha).mp hlookup
      have hi : i < a.2.targets.length := (List.getElem?_eq_some_iff.mp hget').1
      obtain rfl : slot = i := slot_inj (by omega) (by omega) heq
      obtain rfl : t = a.2.targets[slot] := Option.some.inj (hget'.symm.trans hget)
      exact absurd hactive' hactive

/-- The weights that are walked are the healthy targets', cut off. -/
theorem slotWeights_sum {count : UInt32} (hcount : count.toNat = a.2.targets.length) :
    (slotWeights m a.1 count).sum = ((healthyWeights obs.second a.2).map fun w => min w 65535).sum := by
  have hweights : slotWeights m a.1 count = a.2.targets.map fun t =>
      if nativeTargetIsActive obs.second a.2 t then min t.weight.toNat 65535 else 0 := by
    apply List.ext_getElem
    · rw [slotWeights, List.length_map, List.length_range, List.length_map, hcount]
    · intro slot _ hslot
      rw [List.length_map] at hslot
      simp only [slotWeights, List.getElem_map, List.getElem_range]
      exact slotWeight_eq hids hsync ha hslot
  rw [hweights, healthyWeights, List.map_map]
  induction a.2.targets with
  | nil => rfl
  | cons t ts ih =>
    by_cases hactive : nativeTargetIsActive obs.second a.2 t = true
    · rw [List.filter_cons_of_pos hactive, List.map_cons, List.map_cons, List.sum_cons, List.sum_cons, ih, if_pos hactive]
      rfl
    · rw [List.filter_cons_of_neg hactive, List.map_cons, List.sum_cons, ih, if_neg hactive, Nat.zero_add]

omit hids in
theorem slotCount_published (o : Option (List TargetHealthEntry)) :
    (slotCount (lookupValue o a.1 a.2)).toNat = a.2.targets.length := by
  have hcount := synced_count hsync ha
  rw [slotCount_toNat]
  change min (UInt32.ofNat a.2.targets.length).toNat 64 = _
  rw [UInt32.toNat_ofNat']
  omega

/-- The selector comes to a usable entry where it would come to a healthy target. -/
theorem comes_iff (htotal : publishedTotal obs.second a.2 ≠ 0) :
    Comes m (lookupValue obs.second a.1 a.2) ↔
      Reaches obs.second a.2 (cursor m a.1) fun slot => slotLoad m a.1 (UInt32.ofNat slot) := by
  have hcount := slotCount_published hsync ha obs.second
  have hlength := synced_count hsync ha
  have hselect : (lookupValue obs.second a.1 a.2).select = a.2.select := rfl
  unfold Comes Reaches
  rw [and_iff_right htotal, hselect]
  by_cases hpriority : a.2.select = NATIVE_SELECT_PRIORITY
  · rw [if_pos hpriority, if_pos hpriority]
    show (cursor m a.1).toNat % (weightTotal obs.second a.2).toNat < (slotWeights m a.1 _).sum ↔ _
    rw [weightTotal_toNat, slotWeights_sum hids hsync ha hcount]
  rw [if_neg hpriority, if_neg hpriority]
  have hwalks : walksAll (lookupValue obs.second a.1 a.2) = true ↔
      a.2.select ∈ [NATIVE_SELECT_HASH, NATIVE_SELECT_PERSIST, NATIVE_SELECT_CONSISTENT_HASH] := by
    rw [walksAll, decide_eq_true_iff]
    simp [lookupValue]
  by_cases hwalk : a.2.select ∈ [NATIVE_SELECT_HASH, NATIVE_SELECT_PERSIST, NATIVE_SELECT_CONSISTENT_HASH]
  · rw [if_pos (hwalks.mpr hwalk)]
    refine iff_of_true ?_ (.inl hwalk)
    obtain ⟨slot, hlt, hhealthy⟩ := exists_healthyAt htotal
    exact ⟨UInt32.ofNat slot, ofNat_lt (by omega), (usable_iff_healthyAt hids hsync ha (by omega)).mpr hhealthy⟩
  rw [if_neg fun h => hwalk (hwalks.mp h), or_iff_right hwalk, hcount]
  refine exists_congr fun k => and_congr_right fun hk => ?_
  have hlt : slotFrom a.2 (cursor m a.1) k < a.2.targets.length := Nat.mod_lt _ (by omega)
  -- the slot in the `k`th place is the same one
  have hslot : candidate (slotCount (lookupValue obs.second a.1 a.2)) (cursor m a.1) k =
      UInt32.ofNat (slotFrom a.2 (cursor m a.1) k) := by
    rw [candidate_eq, hcount, slotFrom]
  show targetSlotIsUsable m a.1 (candidate _ (cursor m a.1) k) = true ∧ (a.2.select = NATIVE_SELECT_LC →
    slotLoad m a.1 (candidate _ (cursor m a.1) k) ≠ 0xffffffff) ↔ _
  rw [hslot, usable_iff_healthyAt hids hsync ha (by omega)]

end published

/-! ## The answer -/

/-- A healthy target where the listener has one, and 64 only where it has none. -/
structure Serves (observed : Option (List TargetHealthEntry)) (l : NativeListener) (m : Maps) (v : NativeListenerLookupValue)
    (slot : UInt32) : Prop where
  healthy : (∃ t ∈ l.targets, nativeTargetIsActive observed l t = true) → slot < v.targetCount ∧
    ∃ t, l.targets[slot.toNat]? = some t ∧ nativeTargetIsActive observed l t = true ∧
      m.targets.lookup ⟨v.listenerId, slot⟩ = some (targetValue t)
  none : slot = MAX_TARGETS_PER_LISTENER → ¬ ∃ t ∈ l.targets, nativeTargetIsActive observed l t = true

theorem serves_iff {obs : Observations} {listeners : List NativeListener} {ids : Assignments} {before m : Maps}
    {a : UInt32 × NativeListener} (hids : stableListenerAssignments listeners = .ok ids) (hsync : Synced obs ids before m)
    (ha : a ∈ ids) (key : NativeFlowKey) (hash : UInt32) :
    Serves obs.second a.2 m (lookupValue obs.second a.1 a.2) (selectTarget m key (lookupValue obs.second a.1 a.2) hash).1 ↔
      ((∃ t ∈ a.2.targets, nativeTargetIsActive obs.second a.2 t = true) →
        Reaches obs.second a.2 (cursor m a.1) fun slot => slotLoad m a.1 (UInt32.ofNat slot)) := by
  have hcount := slotCount_published hsync ha obs.second
  have hlength := synced_count hsync ha
  by_cases hany : ∃ t ∈ a.2.targets, nativeTargetIsActive obs.second a.2 t = true
  · rw [forall_prop_of_true hany]
    have hfails (h : (selectTarget m key (lookupValue obs.second a.1 a.2) hash).1 = MAX_TARGETS_PER_LISTENER) :
        ¬ Serves obs.second a.2 m (lookupValue obs.second a.1 a.2)
          (selectTarget m key (lookupValue obs.second a.1 a.2) hash).1 :=
      fun hserves => hserves.none h hany
    by_cases htotal : publishedTotal obs.second a.2 = 0
    · refine iff_of_false (hfails ?_) fun h => h.1 htotal
      exact selectTarget_weightless (weightTotal_eq_zero.mpr htotal)
    have htargets : (lookupValue obs.second a.1 a.2).targetCount ≠ 0 := by
      obtain ⟨t, ht, -⟩ := hany
      have hpos : 0 < a.2.targets.length := List.length_pos_of_mem ht
      intro hzero
      rw [slotCount_toNat, hzero] at hcount
      change 0 = _ at hcount
      omega
    have houtcome : Outcome m a.1 (slotCount (lookupValue obs.second a.1 a.2))
        (selectTarget m key (lookupValue obs.second a.1 a.2) hash).1 (Comes m (lookupValue obs.second a.1 a.2)) :=
      selectTarget_outcome htargets (mt weightTotal_eq_zero.mp htotal)
    cases houtcome with
    | slot comes lt usable =>
      refine iff_of_true ⟨fun _ => ?_, ?_⟩ ((comes_iff hids hsync ha htotal).mp comes)
      · have hlt := UInt32.lt_iff_toNat_lt.mp lt
        have hle : (slotCount (lookupValue obs.second a.1 a.2)).toNat ≤ (lookupValue obs.second a.1 a.2).targetCount.toNat := by
          rw [slotCount_toNat]
          omega
        rw [← UInt32.ofNat_toNat (x := (selectTarget m key (lookupValue obs.second a.1 a.2) hash).1)] at usable
        obtain ⟨t, hget, hactive, -⟩ := (usable_iff_healthyAt hids hsync ha (by omega)).mp usable
        refine ⟨UInt32.lt_iff_toNat_lt.mpr (by omega), t, hget, hactive, ?_⟩
        exact (synced_target_iff hids hsync ha).mpr ⟨t, _, hget, hactive, UInt32.ofNat_toNat.symm, rfl⟩
      · intro h
        have hlt := UInt32.lt_iff_toNat_lt.mp lt
        rw [h, hcount] at hlt
        change 64 < _ at hlt
        omega
    | nothing comes eq =>
      exact iff_of_false (hfails eq) fun h => comes ((comes_iff hids hsync ha htotal).mpr h)
  · exact iff_of_true ⟨fun h => absurd h hany, fun _ => hany⟩ fun h => absurd h hany

/-- On the maps a sync leaves, with any cursors and loads, a listener with a healthy target is
    given one exactly when its selector comes to one. -/
theorem healthy_slot_iff (observed : Option (List TargetHealthEntry)) (listeners : List NativeListener) (ids : Assignments)
    (before : Maps) (hids : stableListenerAssignments listeners = .ok ids)
    (hok : (syncPinnedDatapath ⟨observed, observed, observed⟩ listeners before).2 = .ok ())
    (cursors : UInt32 → UInt32) (loads : BpfMap NativeTargetLoadKey UInt32) (a : UInt32 × NativeListener) (ha : a ∈ ids)
    (v : NativeListenerLookupValue)
    (hentry : (publish ⟨observed, observed, observed⟩ listeners before).listeners.lookup (lookupKey a.2.key) = some v)
    (hid : v.listenerId = a.1) (key : NativeFlowKey) (hash : UInt32) :
    let m := { publish ⟨observed, observed, observed⟩ listeners before with rrCounters := cursors, activeFlows := loads }
    Serves observed a.2 m v (selectTarget m key v hash).1 ↔
      ((∃ t ∈ a.2.targets, nativeTargetIsActive observed a.2 t = true) →
        Reaches observed a.2 (cursor m a.1) fun slot => slotLoad m a.1 (UInt32.ofNat slot)) := by
  intro m
  obtain ⟨hfinished, hpublish⟩ := publish_eq hids hok
  have hsync : Synced ⟨observed, observed, observed⟩ ids before m := by
    refine ⟨hfinished, ?_, ?_⟩
    · show (publish ⟨observed, observed, observed⟩ listeners before).targets = _
      rw [hpublish]
    · show (publish ⟨observed, observed, observed⟩ listeners before).chashBuckets = _
      rw [hpublish]
  obtain ⟨b, hb, -, rfl⟩ := published_listener hids hok hentry
  obtain rfl : b = a := assignments_inj hids hb ha hid
  exact serves_iff hids hsync ha key hash

/-- One target of the weight, on the gateway's own address. -/
def weightedWeb (weight : UInt32) : NativeListener :=
  { name := "web", targetGroup := "web", key := ⟨0xc000020b, 80, .tcp⟩, select := NATIVE_SELECT_PRIORITY
    inactiveTimeoutSecs := 240, dscp := 46, targets := [⟨0x0a000001, 8080, weight⟩] }

def weightedConfig (weight : UInt32) : Config.FileConfig :=
  gatewayWith [webTargets [{ address := .v4 0x0a000001, weight }]]
    [{ name := "web", port := 80, targetPort := 8080, targetGroup := "web", select := .priority }]

def webClient : NativeFlowKey := ⟨0xcb007105, 0xc000020b, toBe 40000, toBe 80, 6⟩

theorem weighted_web_served :
    let m := { publish ⟨none, none, none⟩ [weightedWeb 3] {} with rrCounters := fun _ => 7, activeFlows := ∅ }
    let v := lookupValue none (stableListenerId (weightedWeb 3).key) (weightedWeb 3)
    Serves none (weightedWeb 3) m v (selectTarget m webClient v 0).1 := by
  refine (healthy_slot_iff none [weightedWeb 3] [(stableListenerId (weightedWeb 3).key, weightedWeb 3)] {}
    (by decide) (by decide) (fun _ => 7) ∅ _ List.mem_cons_self _ (by decide) rfl webClient 0).mpr ?_
  intro _
  refine ⟨by decide, (if_pos rfl).mpr ?_⟩
  decide

/-- The third of three targets is the only healthy one. -/
def lastOfThree : NativeListener :=
  { weightedWeb 1 with
    select := NATIVE_SELECT_RR
    targets := [⟨0x0a000001, 8080, 1⟩, ⟨0x0a000002, 8080, 1⟩, ⟨0x0a000003, 8080, 1⟩] }

def threeConfig : Config.FileConfig :=
  gatewayWith [webTargets [{ address := .v4 0x0a000001 }, { address := .v4 0x0a000002 }, { address := .v4 0x0a000003 }]]
    [{ name := "web", port := 80, targetPort := 8080, targetGroup := "web" }]

def lastOfThreeSeen : List TargetHealthEntry :=
  [⟨"web", "web:10.0.0.1_tcp_8080", some "nok"⟩, ⟨"web", "web:10.0.0.2_tcp_8080", some "nok"⟩]

/-- The draw 70000 of 100000 is past the entry's 65535; and before the cursor wraps round, the
    slots 0, 0 and 1 are looked at. -/
theorem healthy_target_not_found :
    ((weightedConfig 100000).validate = .ok () ∧
      listenersFromConfig (weightedConfig 100000) none = .ok [weightedWeb 100000]) ∧
    (let m := { publish ⟨none, none, none⟩ [weightedWeb 100000] {} with rrCounters := fun _ => 70000 }
     let v := lookupValue none (stableListenerId (weightedWeb 100000).key) (weightedWeb 100000)
     m.listeners.lookup (lookupKey (weightedWeb 100000).key) = some v ∧
       (m.targets.lookup ⟨v.listenerId, 0⟩).isSome = true ∧ (selectTarget m webClient v 0).1 = MAX_TARGETS_PER_LISTENER) ∧
    (threeConfig.validate = .ok () ∧ listenersFromConfig threeConfig none = .ok [lastOfThree]) ∧
    let seen := some lastOfThreeSeen
    let m := { publish ⟨seen, seen, seen⟩ [lastOfThree] {} with rrCounters := fun _ => 0xffffffff }
    let v := lookupValue seen (stableListenerId lastOfThree.key) lastOfThree
    m.listeners.lookup (lookupKey lastOfThree.key) = some v ∧
      (m.targets.lookup ⟨v.listenerId, 2⟩).isSome = true ∧ (selectTarget m webClient v 0).1 = MAX_TARGETS_PER_LISTENER := by
  refine ⟨⟨?_, ?_⟩, ?_, ⟨?_, ?_⟩, ?_⟩ <;> decide

end EdgeLb.Datapath
