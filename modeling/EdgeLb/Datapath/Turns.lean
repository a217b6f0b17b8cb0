/-
  EdgeLb.Datapath.Turns — to whom the new flows of a listener go, one after the other, under
  `priority` and `rr` (`select_weighted_round_robin` and `select_round_robin` of
  `edge-lb-ebpf/src/main.rs`).

  Both read the listener's cursor and move it on by one for each new flow. Listener ids are
  distinct and within the array of cursors, so that no other listener moves it, and packets of
  known flows, replies and sweeps do not either: the `i`th new flow finds the cursor `i` further.
  The maps of listeners and targets stay as published throughout.

  Proved, over every run of packets and sweeps in which the cursor does not wrap round:
  - `priority_gives_weights`: as many new flows as the total weight give every target its weight,
    if the published weights add up to the published total.
  - `rr_once_iff`: as many new flows as there are usable slots give each of them one exactly when
    all but the last start on usable slots. A slot that is not usable passes its turn on to the
    next one, which then has two (`rr_doubles_behind_hole`).
-/

import EdgeLb.Datapath.ActiveFlows
import EdgeLb.Datapath.ListenerIds
import EdgeLb.Datapath.Selectors

namespace EdgeLb.Datapath

open EdgeLb.Common EdgeLb.Lib EdgeLb.Provider

/-! ## New flows -/

/-- The maps a target is chosen on for the packet, if one is: the packet is of no live flow, and
    an entry that has run out is dropped first. -/
def opensOn (m : Maps) (p : Skb) (now : UInt64) : Option Maps :=
  if !p.parses then none
  else match m.flows.lookup (flowKey p) with
    | none => some m
    | some existing =>
      if !existing.expired now then none
      else some (dropFlow m (flowKey p) ((flowKey p).reverseFor existing) existing)

/-- The slot `select_target` answers for a new flow of the listener at `k`. -/
def slotGiven (k : NativeListenerLookupKey) (m : Maps) : Traffic → Option UInt32
  | .packet (.ingress p now) => (opensOn m p now).bind fun m =>
    if listenerKey p = k then
      (m.listeners.lookup k).map fun l => (selectTarget m (flowKey p) l (packetHash p l)).1
    else none
  | _ => none

/-- The slots answered along a run. -/
def slotsGiven (K : Kernel) (k : NativeListenerLookupKey) : Maps → List Traffic → List UInt32
  | _, [] => []
  | m, e :: es => (slotGiven k m e).toList ++ slotsGiven K k (stepTraffic K m e) es

section opensOn

variable {m m' : Maps} {p : Skb} {now : UInt64}

theorem opensOn_cases (h : opensOn m p now = some m') : p.parses = true ∧
    ((m.flows.lookup (flowKey p) = none ∧ m' = m) ∨
      ∃ v, m.flows.lookup (flowKey p) = some v ∧ v.expired now = true ∧
        m' = dropFlow m (flowKey p) ((flowKey p).reverseFor v) v) := by
  cases hparses : p.parses with
  | false => simp [opensOn, hparses] at h
  | true =>
    refine ⟨rfl, ?_⟩
    cases hv : m.flows.lookup (flowKey p) with
    | none =>
      simp only [opensOn, hparses, hv, Bool.not_true, Bool.false_eq_true, if_false] at h
      exact .inl ⟨rfl, (Option.some.inj h).symm⟩
    | some v =>
      cases hexpired : v.expired now with
      | false => simp [opensOn, hparses, hv, hexpired] at h
      | true =>
        simp only [opensOn, hparses, hv, hexpired, Bool.not_true, Bool.false_eq_true, if_false] at h
        exact .inr ⟨v, rfl, hexpired, (Option.some.inj h).symm⟩

theorem opensOn_none_cases (h : opensOn m p now = none) :
    p.parses = false ∨ ∃ v, p.parses = true ∧ m.flows.lookup (flowKey p) = some v ∧ v.expired now = false := by
  cases hparses : p.parses with
  | false => exact .inl rfl
  | true =>
    cases hv : m.flows.lookup (flowKey p) with
    | none => simp [opensOn, hparses, hv] at h
    | some v => exact .inr ⟨v, rfl, rfl, by simpa [opensOn, hparses, hv] using h⟩

theorem dropFlow_rrCounters (m : Maps) (k o : NativeFlowKey) (v : NativeFlowValue) :
    (dropFlow m k o v).rrCounters = m.rrCounters := by
  unfold dropFlow emitFlowEvent adjustActiveFlows
  dsimp only
  split <;> rfl

/-- Nothing that a choice reads has changed but for the loads. -/
theorem opensOn_maps (h : opensOn m p now = some m') :
    m'.listeners = m.listeners ∧ m'.targets = m.targets ∧ m'.rrCounters = m.rrCounters := by
  rcases (opensOn_cases h).2 with ⟨-, rfl⟩ | ⟨v, -, -, rfl⟩
  · exact ⟨rfl, rfl, rfl⟩
  · exact ⟨dropFlow_listeners .., dropFlow_targets .., dropFlow_rrCounters ..⟩

theorem ingress_of_opens (K : Kernel) (h : opensOn m p now = some m') : nativeDnatIngress K m p now = openFlow K m' p now := by
  obtain ⟨hparses, ⟨hmiss, rfl⟩ | ⟨v, hv, hexpired, rfl⟩⟩ := opensOn_cases h
  · exact ingress_miss hparses hmiss
  · exact ingress_expired hparses hv hexpired

theorem ingress_of_not_opens (K : Kernel) (h : opensOn m p now = none) :
    (nativeDnatIngress K m p now).1.rrCounters = m.rrCounters := by
  rcases opensOn_none_cases h with hparses | ⟨v, hparses, hv, hlive⟩
  · simp [nativeDnatIngress, hparses]
  · rw [ingress_live_maps hparses hv hlive]
    rfl

end opensOn

/-! ## The cursors -/

section cursors

variable {m m' : Maps} {id other : UInt32}

theorem cursor_congr (h : m'.rrCounters = m.rrCounters) (id : UInt32) : cursor m' id = cursor m id := by
  rw [cursor, cursor, h]

theorem cursor_bump_self (h : cursorIndex id < NATIVE_LISTENER_ID_CAPACITY) (hm : m'.rrCounters = bumpCursor m id) :
    cursor m' id = cursor m id + 1 := by
  rw [cursor, cursor, if_pos h, if_pos h, hm, bumpCursor, if_pos h, Function.update_self]

theorem cursor_bump_other (h : cursorIndex other ≠ cursorIndex id) (hm : m'.rrCounters = bumpCursor m other) :
    cursor m' id = cursor m id := by
  rw [cursor, cursor, hm, bumpCursor]
  by_cases hother : cursorIndex other < NATIVE_LISTENER_ID_CAPACITY
  · rw [if_pos hother, Function.update_of_ne h.symm]
  · rw [if_neg hother]

/-- The cursors are left alone, or the listener's one moves on. -/
def CursorsOf (m : Maps) (id : UInt32) (r : UInt32 × (UInt32 → UInt32)) : Prop :=
  r.2 = m.rrCounters ∨ r.2 = bumpCursor m id

theorem selectTarget_cursors (m : Maps) (key : NativeFlowKey) (l : NativeListenerLookupValue) (hash : UInt32) :
    CursorsOf m l.listenerId (selectTarget m key l hash) := by
  have hkept : ∀ slot, CursorsOf m l.listenerId (slot, m.rrCounters) := fun _ => .inl rfl
  have hbump : ∀ slot, CursorsOf m l.listenerId (slot, bumpCursor m l.listenerId) := fun _ => .inr rfl
  unfold selectTarget
  -- branch by branch, so that the choices below are not carried along
  refine iteInduction (fun _ => hkept _) fun _ => ?_
  dsimp only
  refine iteInduction (fun _ => hkept _) fun _ => ?_
  refine iteInduction (fun _ => hbump _) fun _ => ?_
  refine iteInduction (fun _ => hbump _) fun _ => ?_
  refine iteInduction (fun _ => hkept _) fun _ => ?_
  refine iteInduction (fun _ => hkept _) fun _ => ?_
  refine iteInduction (fun _ => hkept _) fun _ => ?_
  exact iteInduction (fun _ => hbump _) fun _ => hbump _

theorem pick_cursors_of {p : Skb} {l : NativeListenerLookupValue} (hl : m.listeners.lookup (listenerKey p) = some l)
    (htargets : l.targetCount ≠ 0) : (pick m p).2 = (selectTarget m (flowKey p) l (packetHash p l)).2 := by
  unfold pick
  rw [hl]
  dsimp only
  rw [if_neg htargets]
  repeat' split
  all_goals rfl

/-- Only the packet's own listener has its cursor moved. -/
theorem pick_cursors (m : Maps) (p : Skb) : (pick m p).2 = m.rrCounters ∨
    ∃ l, m.listeners.lookup (listenerKey p) = some l ∧ (pick m p).2 = bumpCursor m l.listenerId := by
  cases hl : m.listeners.lookup (listenerKey p) with
  | none =>
    left
    unfold pick
    rw [hl]
  | some l =>
    by_cases htargets : l.targetCount = 0
    · left
      unfold pick
      rw [hl]
      dsimp only
      rw [if_pos htargets]
    · rw [pick_cursors_of hl htargets]
      rcases selectTarget_cursors m (flowKey p) l (packetHash p l) with h | h
      · exact .inl h
      · exact .inr ⟨l, rfl, h⟩

theorem openFlow_cursors (K : Kernel) (m : Maps) (p : Skb) (now : UInt64) :
    (openFlow K m p now).1.rrCounters = (pick m p).2 := by
  cases h : (pick m p).1 with
  | none => rw [openFlow_none h]
  | some o =>
    simp only [openFlow, h, insertFlow, emitFlowEvent, adjustActiveFlows]
    split <;> rfl

theorem return_cursors (K : Kernel) (m : Maps) (p : Skb) (now : UInt64) :
    (nativeDnatReturn K m p now).1.rrCounters = m.rrCounters := by
  cases hparses : p.parses with
  | false => rw [nativeDnatReturn, hparses]; rfl
  | true =>
    cases hv : m.flows.lookup (flowKey p) with
    | none => rw [return_miss hv]
    | some v =>
      cases hexpired : v.expired now with
      | true =>
        rw [return_expired hparses hv hexpired]
        exact dropFlow_rrCounters ..
      | false =>
        rw [return_live_maps hparses hv hexpired]
        rfl

end cursors

theorem stepTraffic_config (K : Kernel) (m : Maps) (e : Traffic) :
    (stepTraffic K m e).listeners = m.listeners ∧ (stepTraffic K m e).targets = m.targets := by
  cases e with
  | packet e => exact stepEv_config K m e
  | sweep now => exact ⟨rfl, rfl⟩

/-! ## One listener's turns -/

/-- The listener at `k` has a cursor that no other listener moves. -/
structure OwnCursor (m : Maps) (k : NativeListenerLookupKey) (l : NativeListenerLookupValue) : Prop where
  entry : m.listeners.lookup k = some l
  inRange : cursorIndex l.listenerId < NATIVE_LISTENER_ID_CAPACITY
  apart : ∀ k' l', m.listeners.lookup k' = some l' → k' ≠ k → cursorIndex l'.listenerId ≠ cursorIndex l.listenerId

theorem cursorIndex_toNat (id : UInt32) : (cursorIndex id).toNat = id.toNat - 1 := by
  unfold cursorIndex
  by_cases hzero : id = 0
  · rw [if_pos hzero, hzero]
    rfl
  · have hpos : id.toNat ≠ 0 := fun h => hzero (UInt32.toNat_inj.mp h)
    have hle : (1 : UInt32) ≤ id := UInt32.le_iff_toNat_le.mpr (show 1 ≤ id.toNat by omega)
    rw [if_neg hzero, UInt32.toNat_sub_of_le _ _ hle]
    rfl

theorem exists_assignments {obs : Observations} {listeners : List NativeListener} {before : Maps}
    (hok : (syncPinnedDatapath obs listeners before).2 = .ok ()) : ∃ ids, stableListenerAssignments listeners = .ok ids := by
  cases hids : stableListenerAssignments listeners with
  | ok ids => exact ⟨ids, rfl⟩
  | error e =>
    rw [syncPinnedDatapath, hids] at hok
    cases hok

/-- On published maps every listener has a cursor of its own. -/
theorem ownCursor_of_publish {obs : Observations} {listeners : List NativeListener} {before m : Maps}
    {k : NativeListenerLookupKey} {l : NativeListenerLookupValue}
    (hok : (syncPinnedDatapath obs listeners before).2 = .ok ())
    (hm : m.listeners = (publish obs listeners before).listeners) (hk : m.listeners.lookup k = some l) : OwnCursor m k l := by
  obtain ⟨ids, hids⟩ := exists_assignments hok
  have hentry : ∀ k l, m.listeners.lookup k = some l → ∃ a ∈ ids, lookupKey a.2.key = k ∧ l.listenerId = a.1 := by
    intro k l h
    rw [hm] at h
    obtain ⟨a, ha, hkey, rfl⟩ := published_listener hids hok h
    exact ⟨a, ha, hkey, rfl⟩
  have hrange : ∀ a ∈ ids, 1 ≤ a.1.toNat ∧ a.1.toNat ≤ 4096 := by
    rw [assignments_eq hids]
    exact assignIds_range _ _
  obtain ⟨a, ha, hkey, hid⟩ := hentry k l hk
  refine ⟨hk, ?_, ?_⟩
  · have := hrange a ha
    rw [UInt32.lt_iff_toNat_lt, cursorIndex_toNat, hid]
    show _ < 4096
    omega
  · intro k' l' hk' hne hsame
    obtain ⟨b, hb, hkey', hid'⟩ := hentry k' l' hk'
    have hindex := congrArg UInt32.toNat hsame
    rw [cursorIndex_toNat, cursorIndex_toNat, hid, hid'] at hindex
    have := hrange a ha
    have := hrange b hb
    obtain rfl : a = b := assignments_inj hids ha hb (UInt32.toNat_inj.mp (by omega))
    exact hne (hkey'.symm.trans hkey)

section turns

variable {K : Kernel} {m m₀ : Maps} {k : NativeListenerLookupKey} {l : NativeListenerLookupValue}

theorem slotGiven_eq_some (hown : OwnCursor m k l) {e : Traffic} {s : UInt32} (h : slotGiven k m e = some s) :
    ∃ m' key hash, m'.targets = m.targets ∧ m'.rrCounters = m.rrCounters ∧ s = (selectTarget m' key l hash).1 := by
  match e, h with
  | .packet (.ingress p now), h =>
    obtain ⟨m', hopens, h⟩ := Option.bind_eq_some_iff.mp h
    obtain ⟨hlisteners, htargets, hcursors⟩ := opensOn_maps hopens
    split at h
    · rw [hlisteners, hown.entry] at h
      exact ⟨m', flowKey p, packetHash p l, htargets, hcursors, (Option.some.inj h).symm⟩
    · cases h

theorem OwnCursor.step (hown : OwnCursor m k l) (K : Kernel) (e : Traffic) : OwnCursor (stepTraffic K m e) k l := by
  have hlisteners := (stepTraffic_config K m e).1
  exact ⟨by rw [hlisteners]; exact hown.entry, hown.inRange, by rw [hlisteners]; exact hown.apart⟩

/-- A new flow of the listener moves its cursor on by one, and nothing else does. -/
theorem cursor_step (hown : OwnCursor m k l) (htargets : l.targetCount ≠ 0)
    (hbump : ∀ m' key hash, (selectTarget m' key l hash).2 = bumpCursor m' l.listenerId) (e : Traffic) :
    cursor (stepTraffic K m e) l.listenerId = cursor m l.listenerId + UInt32.ofNat (slotGiven k m e).toList.length := by
  match e with
  | .sweep now => exact (UInt32.add_zero _).symm
  | .packet (.ret p now) => exact (cursor_congr (return_cursors K m p now) _).trans (UInt32.add_zero _).symm
  | .packet (.ingress p now) =>
    cases hopens : opensOn m p now with
    | none =>
      rw [slotGiven, hopens]
      exact (cursor_congr (ingress_of_not_opens K hopens) _).trans (UInt32.add_zero _).symm
    | some m' =>
      obtain ⟨hlisteners, -, hcursors⟩ := opensOn_maps hopens
      have hstep : (stepTraffic K m (.packet (.ingress p now))).rrCounters = (pick m' p).2 := by
        show (nativeDnatIngress K m p now).1.rrCounters = _
        rw [ingress_of_opens K hopens, openFlow_cursors]
      rw [slotGiven, hopens, Option.bind_some, ← cursor_congr hcursors]
      by_cases hk : listenerKey p = k
      · have hentry : m'.listeners.lookup k = some l := by rw [hlisteners, hown.entry]
        rw [if_pos hk, hentry]
        rw [pick_cursors_of (by rw [hk, hentry]) htargets, hbump] at hstep
        exact cursor_bump_self hown.inRange hstep
      · rw [if_neg hk]
        show _ = _ + 0
        rw [UInt32.add_zero]
        rcases pick_cursors m' p with hsame | ⟨l', hl', hother⟩
        · exact cursor_congr (hstep.trans hsame) _
        · rw [hlisteners] at hl'
          exact cursor_bump_other (hown.apart _ _ hl' hk) (hstep.trans hother)

/-- A selector that goes by the cursor answers the new flows of a run in the order of the cursor. -/
theorem slotsGiven_eq (give : UInt32 → UInt32) (htargets : l.targetCount ≠ 0)
    (hgive : ∀ m', m'.targets = m₀.targets → ∀ key hash, (selectTarget m' key l hash).1 = give (cursor m' l.listenerId))
    (hbump : ∀ m' key hash, (selectTarget m' key l hash).2 = bumpCursor m' l.listenerId) (hown : OwnCursor m k l)
    (hm : m.targets = m₀.targets) (es : List Traffic) :
    slotsGiven K k m es =
      (List.range (slotsGiven K k m es).length).map fun i => give (cursor m l.listenerId + UInt32.ofNat i) := by
  induction es generalizing m with
  | nil => rfl
  | cons e es ih =>
    have hrest := ih (hown.step K e) ((stepTraffic_config K m e).2.trans hm)
    have hcursor := cursor_step (K := K) hown htargets hbump e
    rw [slotsGiven]
    cases hgiven : slotGiven k m e with
    | none =>
      rw [hgiven] at hcursor
      rw [hcursor] at hrest
      simpa using hrest
    | some s =>
      obtain ⟨m', key, hash, hmaps, hcursors, hs⟩ := slotGiven_eq_some hown hgiven
      rw [hgive m' (hmaps.trans hm), cursor_congr hcursors] at hs
      rw [hgiven] at hcursor
      rw [hcursor] at hrest
      rw [Option.toList_some, List.singleton_append, List.length_cons, List.range_succ_eq_map, List.map_cons, List.map_map]
      refine List.cons_eq_cons.mpr ⟨?_, ?_⟩
      · rw [hs]
        exact congrArg give (UInt32.add_zero _).symm
      · rw [hrest, List.length_map, List.length_range]
        apply List.map_congr_left
        intro i _
        show give (cursor m l.listenerId + UInt32.ofNat 1 + UInt32.ofNat i) = give (cursor m l.listenerId + UInt32.ofNat (i + 1))
        rw [UInt32.add_assoc, ← UInt32.ofNat_add, Nat.add_comm 1 i]

end turns

/-! ## Weights -/

theorem count_map_range {g : Nat → UInt32} {p : Nat → Prop} [DecidablePred p] {slot : UInt32} {n : Nat}
    (h : ∀ i < n, g i = slot ↔ p i) : ((List.range n).map g).count slot = Nat.count p n := by
  rw [List.count_eq_countP, List.countP_map, ← countP_range]
  apply List.countP_congr
  intro i hi
  simpa using h i (List.mem_range.mp hi)

theorem cursor_add {c : UInt32} {i : Nat} (h : c.toNat + i < 2 ^ 32) : (c + UInt32.ofNat i).toNat = c.toNat + i := by
  rw [UInt32.toNat_add, UInt32.toNat_ofNat', Nat.add_mod_mod, Nat.mod_eq_of_lt h]

theorem weightedSlot_eq_iff {m : Maps} {id count slot : UInt32} {r : Nat} (hcount : count.toNat ≤ 64)
    (hslot : slot.toNat < count.toNat) :
    (walk (slotWeights m id count) r).elim MAX_TARGETS_PER_LISTENER UInt32.ofNat = slot ↔
      walk (slotWeights m id count) r = some slot.toNat := by
  cases hwalk : walk (slotWeights m id count) r with
  | none =>
    refine iff_of_false ?_ (by simp)
    intro h
    rw [← h] at hslot
    change 64 < count.toNat at hslot
    omega
  | some i =>
    obtain ⟨w, hw, -⟩ := weight_of_walk hwalk
    have hi : i < (slotWeights m id count).length := (List.getElem?_eq_some_iff.mp hw).1
    rw [slotWeights, List.length_map, List.length_range] at hi
    show UInt32.ofNat i = slot ↔ _
    rw [← UInt32.toNat_inj, UInt32.toNat_ofNat_of_lt' (show i < 2 ^ 32 by omega), Option.some.injEq]

theorem slotWeights_congr {m m' : Maps} (h : m'.targets = m.targets) (id count : UInt32) :
    slotWeights m' id count = slotWeights m id count := by
  have hslot : slotWeight m' id = slotWeight m id := by
    funext slot
    rw [slotWeight, slotWeight, h]
  rw [slotWeights, slotWeights, hslot]

/-- As many new flows of a `priority` listener as its total weight, served without the cursor
    wrapping round, give every target as many as its weight. -/
theorem priority_gives_weights (K : Kernel) (obs : Observations) (listeners : List NativeListener) (before m : Maps)
    (hok : (syncPinnedDatapath obs listeners before).2 = .ok ())
    (hlisteners : m.listeners = (publish obs listeners before).listeners)
    (k : NativeListenerLookupKey) (l : NativeListenerLookupValue) (hentry : m.listeners.lookup k = some l)
    (hselect : l.select = NATIVE_SELECT_PRIORITY)
    (htotal : l.weightTotal.toNat = (slotWeights m l.listenerId (slotCount l)).sum) (es : List Traffic)
    (hflows : (slotsGiven K k m es).length = l.weightTotal.toNat)
    (hwrap : (cursor m l.listenerId).toNat + l.weightTotal.toNat ≤ 2 ^ 32) (slot : UInt32) (hslot : slot < slotCount l) :
    (slotsGiven K k m es).count slot = slotWeight m l.listenerId slot.toNat := by
  have hcount := slotCount_le l
  have hlt := UInt32.lt_iff_toNat_lt.mp hslot
  have hnonempty : l.targetCount ≠ 0 := by
    intro hzero
    rw [slotCount_toNat, hzero] at hlt
    simp at hlt
  have hweight : (slotWeights m l.listenerId (slotCount l)).getD slot.toNat 0 = slotWeight m l.listenerId slot.toNat := by
    rw [slotWeights, List.getD_eq_getElem?_getD, List.getElem?_map, List.getElem?_range hlt]
    rfl
  by_cases hzero : l.weightTotal = 0
  · -- no weight and no flows
    rw [hzero] at hflows htotal
    have hall := List.sum_eq_zero_iff.mp htotal.symm
    rw [List.length_eq_zero_iff.mp hflows]
    exact (hall _ (List.mem_map.mpr ⟨slot.toNat, List.mem_range.mpr hlt, rfl⟩)).symm
  have hgive : ∀ m', m'.targets = m.targets → ∀ key hash,
      (selectTarget m' key l hash).1 = selectWeightedHash m (cursor m' l.listenerId) l (slotCount l) := by
    intro m' hm' key hash
    rw [selectTarget_priority hnonempty hzero hselect]
    show selectWeightedHash m' (cursor m' l.listenerId) l (slotCount l) = _
    rw [selectWeightedHash_eq m' hcount _ l hzero, selectWeightedHash_eq m hcount _ l hzero, slotWeights_congr hm']
  have hbump : ∀ m' key hash, (selectTarget m' key l hash).2 = bumpCursor m' l.listenerId := by
    intro m' key hash
    rw [selectTarget_priority hnonempty hzero hselect]
  rw [slotsGiven_eq (fun c => selectWeightedHash m c l (slotCount l)) hnonempty hgive hbump
    (ownCursor_of_publish hok hlisteners hentry) rfl es, hflows,
    count_map_range (p := fun i => walk (slotWeights m l.listenerId (slotCount l))
      (((cursor m l.listenerId).toNat + i) % l.weightTotal.toNat) = some slot.toNat)]
  · rw [count_window (fun r => walk (slotWeights m l.listenerId (slotCount l)) r = some slot.toNat), htotal, count_walk, hweight]
  · intro i hi
    rw [selectWeightedHash_eq m hcount _ l hzero, cursor_add (by omega)]
    exact weightedSlot_eq_iff hcount hlt

/-! ## Round robin -/

/-- The slot `j` turns on from the cursor. -/
def turnSlot (count cursor : UInt32) (j : Nat) : Nat := (cursor.toNat + j) % 2 ^ 32 % count.toNat

def usableSlot (m : Maps) (id : UInt32) (s : Nat) : Bool := targetSlotIsUsable m id (UInt32.ofNat s)

/-- How many of the listener's slots are usable. -/
def usableCount (m : Maps) (l : NativeListenerLookupValue) : Nat :=
  inCount (usableSlot m l.listenerId) (slotCount l).toNat

theorem candidate_turn (count cursor : UInt32) (i k : Nat) :
    candidate count (cursor + UInt32.ofNat i) k = UInt32.ofNat (turnSlot count cursor (i + k)) := by
  rw [candidate_eq, UInt32.toNat_add, UInt32.toNat_ofNat', Nat.add_mod_mod, Nat.mod_add_mod, turnSlot, Nat.add_assoc]

theorem roundRobinFrom_eq_next (m : Maps) (id cursor : UInt32) {count : UInt32} (hcount : count.toNat ≤ 64) (i : Nat) :
    roundRobinFrom m id count (cursor + UInt32.ofNat i) 64 0 =
      (next (usableSlot m id) (turnSlot count cursor) count.toNat i).elim MAX_TARGETS_PER_LISTENER UInt32.ofNat := by
  have hscan := scanFrom_eq (fun k => targetSlotIsUsable m id ((cursor + UInt32.ofNat i + k) % count))
    (fun k => (cursor + UInt32.ofNat i + k) % count) hcount (Nat.le_trans hcount (Nat.le_add_left 64 (0 : UInt32).toNat))
  have htest : (fun k => targetSlotIsUsable m id ((cursor + UInt32.ofNat i + UInt32.ofNat k) % count)) =
      fun k => usableSlot m id (turnSlot count cursor (i + k)) := by
    funext k
    exact congrArg (targetSlotIsUsable m id) (candidate_turn count cursor i k)
  rw [roundRobinFrom_eq_scan, hscan, htest, next, ahead]
  show ((List.range' 0 count.toNat).find? _).elim _ _ = _
  rw [← List.range_eq_range']
  cases (List.range count.toNat).find? fun k => usableSlot m id (turnSlot count cursor (i + k)) with
  | none => rfl
  | some k => exact candidate_turn count cursor i k

theorem slotsGiven_weightless {K : Kernel} {m : Maps} {k : NativeListenerLookupKey} {l : NativeListenerLookupValue}
    (hown : OwnCursor m k l) (htotal : l.weightTotal = 0) (es : List Traffic) :
    ∀ s ∈ slotsGiven K k m es, s = MAX_TARGETS_PER_LISTENER := by
  induction es generalizing m with
  | nil =>
    intro s hs
    cases hs
  | cons e es ih =>
    intro s hs
    rcases List.mem_append.mp hs with hs | hs
    · obtain ⟨m', key, hash, -, -, rfl⟩ := slotGiven_eq_some hown (Option.mem_toList.mp hs)
      exact selectTarget_weightless htotal
    · exact ih (hown.step K e) s hs

/-- A usable slot as a number. -/
theorem forall_usable_iff {m : Maps} {id count : UInt32} {P : UInt32 → Prop} :
    (∀ slot < count, targetSlotIsUsable m id slot = true → P slot) ↔
      ∀ s < count.toNat, usableSlot m id s = true → P (UInt32.ofNat s) := by
  constructor
  · intro h s hs husable
    exact h _ (ofNat_lt hs) husable
  · intro h slot hslot husable
    have := h slot.toNat (UInt32.lt_iff_toNat_lt.mp hslot)
    rw [usableSlot, UInt32.ofNat_toNat] at this
    exact this husable

theorem turn_eq_iff {u : Nat → Bool} {count cursor : UInt32} {i s : Nat} (hcount : count.toNat ≤ 64) (hs : s < count.toNat) :
    (next u (turnSlot count cursor) count.toNat i).elim MAX_TARGETS_PER_LISTENER UInt32.ofNat = UInt32.ofNat s ↔
      next u (turnSlot count cursor) count.toNat i = some s := by
  cases hnext : next u (turnSlot count cursor) count.toNat i with
  | none =>
    refine iff_of_false ?_ (by simp)
    intro h
    have hslot := congrArg UInt32.toNat h
    rw [UInt32.toNat_ofNat_of_lt' (show s < 2 ^ 32 by omega)] at hslot
    change 64 = s at hslot
    omega
  | some t =>
    obtain ⟨k, -, rfl⟩ := Option.map_eq_some_iff.mp hnext
    have hlt : turnSlot count cursor (i + k) < count.toNat := Nat.mod_lt _ (by omega)
    show UInt32.ofNat _ = UInt32.ofNat s ↔ _
    rw [← UInt32.toNat_inj, UInt32.toNat_ofNat_of_lt' (show _ < 2 ^ 32 by omega),
      UInt32.toNat_ofNat_of_lt' (show s < 2 ^ 32 by omega), Option.some.injEq]

theorem rr_count {K : Kernel} {m : Maps} {k : NativeListenerLookupKey} {l : NativeListenerLookupValue}
    (hown : OwnCursor m k l) (hnonempty : l.targetCount ≠ 0) (htotal : l.weightTotal ≠ 0)
    (hselect : l.select = NATIVE_SELECT_RR) (es : List Traffic) {s : Nat} (hs : s < (slotCount l).toNat) :
    (slotsGiven K k m es).count (UInt32.ofNat s) =
      Nat.count (fun i => next (usableSlot m l.listenerId) (turnSlot (slotCount l) (cursor m l.listenerId))
        (slotCount l).toNat i = some s) (slotsGiven K k m es).length := by
  have hcount := slotCount_le l
  have hgive : ∀ m', m'.targets = m.targets → ∀ key hash, (selectTarget m' key l hash).1 =
      roundRobinFrom m l.listenerId (slotCount l) (cursor m' l.listenerId) 64 0 := by
    intro m' hm' key hash
    have husable : targetSlotIsUsable m' l.listenerId = targetSlotIsUsable m l.listenerId := by
      funext slot
      rw [targetSlotIsUsable, targetSlotIsUsable, hm']
    rw [selectTarget_rr hnonempty htotal hselect]
    show roundRobinFrom m' l.listenerId (slotCount l) (cursor m' l.listenerId) 64 0 = _
    rw [roundRobinFrom_eq_scan, roundRobinFrom_eq_scan, husable]
  have hbump : ∀ m' key hash, (selectTarget m' key l hash).2 = bumpCursor m' l.listenerId := by
    intro m' key hash
    rw [selectTarget_rr hnonempty htotal hselect]
  have hgiven := slotsGiven_eq (K := K) (fun c => roundRobinFrom m l.listenerId (slotCount l) c 64 0) hnonempty hgive hbump
    hown rfl es
  rw [hgiven, List.length_map, List.length_range]
  apply count_map_range
  intro i _
  rw [roundRobinFrom_eq_next m l.listenerId _ hcount]
  exact turn_eq_iff hcount hs

theorem usableCount_pos_iff {m : Maps} {l : NativeListenerLookupValue} :
    0 < usableCount m l ↔ ∃ s < (slotCount l).toNat, usableSlot m l.listenerId s = true := by
  rw [usableCount, inCount_eq_card, Finset.card_pos]
  constructor
  · rintro ⟨s, hs⟩
    obtain ⟨hlt, husable⟩ := Finset.mem_filter.mp hs
    exact ⟨s, Finset.mem_range.mp hlt, husable⟩
  · rintro ⟨s, hlt, husable⟩
    exact ⟨s, Finset.mem_filter.mpr ⟨Finset.mem_range.mpr hlt, husable⟩⟩

/-- Without a total weight no slot is given. -/
theorem weightless_count {K : Kernel} {m : Maps} {k : NativeListenerLookupKey} {l : NativeListenerLookupValue}
    (hown : OwnCursor m k l) (htotal : l.weightTotal = 0) (es : List Traffic) {s : Nat} (hs : s < (slotCount l).toNat) :
    (slotsGiven K k m es).count (UInt32.ofNat s) = 0 := by
  have hcount := slotCount_le l
  rw [List.count_eq_zero]
  intro hmem
  have hslot := congrArg UInt32.toNat (slotsGiven_weightless hown htotal es _ hmem)
  rw [UInt32.toNat_ofNat_of_lt' (show s < 2 ^ 32 by omega)] at hslot
  change s = 64 at hslot
  omega

theorem turnSlot_straight {count cursor : UInt32} {j : Nat} (h : cursor.toNat + j < 2 ^ 32) :
    turnSlot count cursor j = (cursor.toNat + j) % count.toNat := by
  rw [turnSlot, Nat.mod_eq_of_lt h]

/-- The turns of one round start on different slots. -/
theorem turnSlot_apart {count cursor : UInt32} {i j : Nat} (hij : i < j) (hj : j < count.toNat)
    (hroom : cursor.toNat + j < 2 ^ 32) : turnSlot count cursor i ≠ turnSlot count cursor j := by
  intro h
  rw [turnSlot_straight (by omega), turnSlot_straight hroom] at h
  have hmod : i % count.toNat = j % count.toNat := Nat.ModEq.add_left_cancel' _ h
  rw [Nat.mod_eq_of_lt (by omega), Nat.mod_eq_of_lt hj] at hmod
  omega

/-- As many new flows of an `rr` listener as it has usable slots, served without the cursor
    wrapping round, give each of them one exactly when the listener has a total weight, the turns
    but the last start on usable slots, and the last scan comes to the slot that is left, which it
    can fail to do only where it wraps round itself. -/
theorem rr_once_iff (K : Kernel) (obs : Observations) (listeners : List NativeListener) (before m : Maps)
    (hok : (syncPinnedDatapath obs listeners before).2 = .ok ())
    (hlisteners : m.listeners = (publish obs listeners before).listeners) (k : NativeListenerLookupKey)
    (l : NativeListenerLookupValue) (hentry : m.listeners.lookup k = some l) (hselect : l.select = NATIVE_SELECT_RR)
    (es : List Traffic) (hflows : (slotsGiven K k m es).length = usableCount m l)
    (hwrap : (cursor m l.listenerId).toNat + usableCount m l ≤ 2 ^ 32) :
    (∀ slot < slotCount l, targetSlotIsUsable m l.listenerId slot = true → (slotsGiven K k m es).count slot = 1) ↔
      (0 < usableCount m l → l.weightTotal ≠ 0 ∧
        (∀ i, i + 1 < usableCount m l →
          usableSlot m l.listenerId (turnSlot (slotCount l) (cursor m l.listenerId) i) = true) ∧
        (2 ^ 32 < (cursor m l.listenerId).toNat + usableCount m l + (slotCount l).toNat - 1 →
          LastNew (usableSlot m l.listenerId) (turnSlot (slotCount l) (cursor m l.listenerId)) (slotCount l).toNat)) := by
  have hown := ownCursor_of_publish hok hlisteners hentry
  rw [forall_usable_iff]
  by_cases hpos : 0 < usableCount m l
  swap
  · -- no usable slot
    refine iff_of_true ?_ fun h => absurd h hpos
    intro s hs husable
    exact absurd (usableCount_pos_iff.mpr ⟨s, hs, husable⟩) hpos
  rw [forall_prop_of_true hpos]
  have hle : usableCount m l ≤ (slotCount l).toNat := Nat.count_le _
  have hnonempty : l.targetCount ≠ 0 := by
    intro hzero
    rw [slotCount_toNat, hzero] at hle
    simp at hle
    omega
  by_cases htotal : l.weightTotal = 0
  · -- nothing is given to anyone
    refine iff_of_false ?_ fun h => h.1 htotal
    intro honce
    obtain ⟨s, hs, husable⟩ := usableCount_pos_iff.mp hpos
    have hone := honce s hs husable
    rw [weightless_count hown htotal es hs] at hone
    cases hone
  rw [and_iff_right htotal]
  have hslots : ∀ j, turnSlot (slotCount l) (cursor m l.listenerId) j < (slotCount l).toNat :=
    fun j => Nat.mod_lt _ (by omega)
  have hapart : ∀ i j, i < j → j + 1 < usableCount m l →
      turnSlot (slotCount l) (cursor m l.listenerId) i ≠ turnSlot (slotCount l) (cursor m l.listenerId) j :=
    fun i j hij hj => turnSlot_apart hij (by omega) (by omega)
  have hcounts : (∀ s < (slotCount l).toNat, usableSlot m l.listenerId s = true →
      (slotsGiven K k m es).count (UInt32.ofNat s) = 1) ↔ ∀ s < (slotCount l).toNat, usableSlot m l.listenerId s = true →
      Nat.count (fun i => next (usableSlot m l.listenerId) (turnSlot (slotCount l) (cursor m l.listenerId))
        (slotCount l).toNat i = some s) (usableCount m l) = 1 := by
    refine forall_congr' fun s => forall_congr' fun hs => ?_
    rw [rr_count hown hnonempty htotal hselect es hs, hflows]
  rw [hcounts]
  refine (next_once_iff hslots hpos hapart).trans ?_
  refine and_congr_right fun _ => ⟨fun h _ => h, fun h => ?_⟩
  by_cases hlong : 2 ^ 32 < (cursor m l.listenerId).toNat + usableCount m l + (slotCount l).toNat - 1
  · exact h hlong
  · refine last_of_cycle (c := (cursor m l.listenerId).toNat) hpos fun j hj => turnSlot_straight ?_
    have hj : j + 1 < usableCount m l + (slotCount l).toNat := hj
    omega

/-- Three targets, of weights 2, 1 and 1. -/
def threeWeb (select : UInt32) : NativeListener :=
  { name := "web", targetGroup := "web", key := ⟨0xc000020b, 80, .tcp⟩, select, inactiveTimeoutSecs := 240, dscp := 46
    targets := [⟨0x0a000001, 8080, 2⟩, ⟨0x0a000002, 8080, 1⟩, ⟨0x0a000003, 8080, 1⟩] }

/-- The second target is down. -/
def middleDown : Option (List TargetHealthEntry) := some [⟨"web", "web:10.0.0.2_tcp_8080", some "nok"⟩]

/-- The published maps, with the cursor at `c`. -/
def threeMaps (select c : UInt32) : Maps :=
  { publish ⟨middleDown, middleDown, middleDown⟩ [threeWeb select] {} with rrCounters := fun _ => c }

def threeEntry (select : UInt32) : NativeListenerLookupValue :=
  lookupValue middleDown (stableListenerId (threeWeb select).key) (threeWeb select)

/-- One new flow from each of these ports. -/
def clientsFrom (ports : List UInt16) : List Traffic :=
  ports.map fun sport => .packet (.ingress (tcpPacket 0xcb007105 sport 0xc000020b 80) 1000)

theorem three_flows_weighted :
    (slotsGiven quietKernel (lookupKey (threeWeb NATIVE_SELECT_PRIORITY).key) (threeMaps NATIVE_SELECT_PRIORITY 1)
      (clientsFrom [40000, 40001, 40002])).count 0 = 2 :=
  priority_gives_weights quietKernel ⟨middleDown, middleDown, middleDown⟩ [threeWeb NATIVE_SELECT_PRIORITY] {}
    (threeMaps NATIVE_SELECT_PRIORITY 1) (by decide) rfl _ (threeEntry NATIVE_SELECT_PRIORITY) (by decide) rfl
    (by decide) _ (by decide) (by decide) 0 (by decide)

/-- From the first slot on, both healthy targets get one of two flows. -/
theorem two_flows_shared :
    usableCount (threeMaps NATIVE_SELECT_RR 0) (threeEntry NATIVE_SELECT_RR) = 2 ∧
      ∀ slot < slotCount (threeEntry NATIVE_SELECT_RR),
        targetSlotIsUsable (threeMaps NATIVE_SELECT_RR 0) (threeEntry NATIVE_SELECT_RR).listenerId slot = true →
        (slotsGiven quietKernel (lookupKey (threeWeb NATIVE_SELECT_RR).key) (threeMaps NATIVE_SELECT_RR 0)
          (clientsFrom [40000, 40001])).count slot = 1 := by
  have hcount : usableCount (threeMaps NATIVE_SELECT_RR 0) (threeEntry NATIVE_SELECT_RR) = 2 := by decide
  refine ⟨hcount, (rr_once_iff quietKernel ⟨middleDown, middleDown, middleDown⟩ [threeWeb NATIVE_SELECT_RR] {}
    (threeMaps NATIVE_SELECT_RR 0) (by decide) rfl _ (threeEntry NATIVE_SELECT_RR) (by decide) rfl _
    (by decide) (by decide)).mpr fun _ => ⟨by decide, ?_, ?_⟩⟩
  · intro i hi
    obtain rfl : i = 0 := by omega
    decide
  · intro hlong
    exact absurd hlong (by decide)

/-- The cursor stands on the slot that is down: the one behind it gets both flows. -/
theorem rr_doubles_behind_hole :
    let m := threeMaps NATIVE_SELECT_RR 1
    let l := threeEntry NATIVE_SELECT_RR
    let given := slotsGiven quietKernel (lookupKey (threeWeb NATIVE_SELECT_RR).key) m (clientsFrom [40000, 40001])
    m.listeners.lookup (lookupKey (threeWeb NATIVE_SELECT_RR).key) = some l ∧ usableCount m l = 2 ∧
      targetSlotIsUsable m l.listenerId 0 = true ∧ targetSlotIsUsable m l.listenerId 2 = true ∧ given = [2, 2] := by
  decide

end EdgeLb.Datapath
