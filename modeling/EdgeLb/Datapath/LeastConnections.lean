/-
  EdgeLb.Datapath.LeastConnections — which target `lc` chooses while the target lists are edited
  (`select_least_connections` of `edge-lb-ebpf/src/main.rs`, `sync_target_map` and
  `sweep_flows_inner` of `edge-lb/src/linux/native_dnat.rs`).

  A flow carries the id of its listener and the position its target had in the list when the flow
  was opened, and the loads are counted by the two. An edit moves targets to other positions and
  leaves the flows as they are, and a sweep counts them again under the old positions. From then
  on the load of a slot may be that of another backend (`lc_reads_old_positions`).

  Proved: along every history of edits, packets and sweeps in which the flows that are open at an
  edit keep the positions of their backends (`Keeps`), packets are directed, and a new flow of the
  listener finds no other flow of it run out and a cursor that does not skip slots (`Timely`), the
  slot chosen holds a usable target with no more unexpired flows than any other
  (`lc_picks_least_loaded`).

  `scope` says of which sockets the flows are counted: of all, or of the listener's own.
-/

import EdgeLb.Datapath.Selected
import EdgeLb.Datapath.Disruption
import EdgeLb.Datapath.Turns

namespace EdgeLb.Datapath

open EdgeLb.Common EdgeLb.Lib EdgeLb.Provider

/-! ## Histories -/

inductive ServiceEv
  | traffic (e : Traffic)
  | edit (obs : Observations) (listeners : List NativeListener)

def stepService (K : Kernel) (m : Maps) : ServiceEv → Maps
  | .traffic e => stepTraffic K m e
  | .edit obs listeners => publish obs listeners m

/-- The socket a client's tuple addresses. -/
def socketOf (x : NativeFlowKey) : NativeListenerLookupKey := ⟨x.dst, x.dport, x.proto⟩

def flowBackend (v : NativeFlowValue) : Backend := (v.target, v.targetPort)

/-- The unexpired client entries to a backend, of the sockets in scope. -/
def liveFlows (scope : NativeListenerLookupKey → Bool) (m : Maps) (now : UInt64) (b : Backend) : Nat :=
  countEntries (fun x v => !v.expired now && decide (IsForward x v ∧ scope (socketOf x) = true ∧ flowBackend v = b)) m.flows

/-- If a target of the listener is usable, the slot holds a usable one with no more unexpired
    flows than any other. -/
def LeastLoaded (scope : NativeListenerLookupKey → Bool) (m : Maps) (now : UInt64) (l : NativeListenerLookupValue)
    (slot : UInt32) : Prop :=
  ∀ t u, m.targets.lookup ⟨l.listenerId, t⟩ = some u → u.usable = true →
    ∃ best, m.targets.lookup ⟨l.listenerId, slot⟩ = some best ∧ best.usable = true ∧
      liveFlows scope m now (backendOf best) ≤ liveFlows scope m now (backendOf u)

/-! ## The condition -/

/-- The targets that are published, with their positions. -/
def activeAt (observed : Option (List TargetHealthEntry)) (l : NativeListener) : List (NativeTarget × Nat) :=
  l.targets.zipIdx.filter fun e => nativeTargetIsActive observed l e.1

/-- The backends of the listener are distinct and no other listener's in scope, and a flow in the
    table goes to one of them exactly when it has the listener's id and the backend's position. -/
def Keeps (scope : NativeListenerLookupKey → Bool) (m : Maps) (observed : Option (List TargetHealthEntry))
    (ids : Assignments) (a : UInt32 × NativeListener) : Prop :=
  (∀ e ∈ activeAt observed a.2, ∀ e' ∈ activeAt observed a.2, targetBackend e.1 = targetBackend e'.1 → e.2 = e'.2) ∧
    (∀ b ∈ ids, lookupKey b.2.key ≠ lookupKey a.2.key → scope (lookupKey b.2.key) = true →
      ∀ e ∈ activeAt observed a.2, ∀ e' ∈ activeAt observed b.2, targetBackend e'.1 ≠ targetBackend e.1) ∧
    ∀ f ∈ m.flows.entries, IsForward f.1 f.2 → ∀ e ∈ activeAt observed a.2,
      ((scope (socketOf f.1) = true ∧ flowBackend f.2 = targetBackend e.1) ↔
        (f.2.listenerId = a.1 ∧ f.2.targetId = UInt32.ofNat e.2))

instance (scope : NativeListenerLookupKey → Bool) (m : Maps) (observed : Option (List TargetHealthEntry)) (ids : Assignments)
    (a : UInt32 × NativeListener) : Decidable (Keeps scope m observed ids a) :=
  inferInstanceAs (Decidable (_ ∧ _ ∧ _))

/-- Every listener gets an id and has no more targets than slots, and the listener at `k` keeps
    its flows. -/
def EditKeeps (scope : NativeListenerLookupKey → Bool) (k : NativeListenerLookupKey) (m : Maps)
    (observed : Option (List TargetHealthEntry)) : Except String Assignments → Prop
  | .error _ => False
  | .ok ids => (∀ a ∈ ids, a.2.targets.length ≤ MAX_TARGETS_PER_LISTENER.toNat) ∧
    ∀ a ∈ ids, lookupKey a.2.key = k → Keeps scope m observed ids a

instance (scope : NativeListenerLookupKey → Bool) (k : NativeListenerLookupKey) (m : Maps)
    (observed : Option (List TargetHealthEntry)) : ∀ ids, Decidable (EditKeeps scope k m observed ids)
  | .error _ => .isFalse id
  | .ok _ => inferInstanceAs (Decidable (_ ∧ _))

/-- At a new flow of the listener no other flow of it has run out, and the cursor comes to every
    slot. -/
def Timely (k : NativeListenerLookupKey) (m : Maps) : Ev → Prop
  | .ingress p now => listenerKey p = k → HitsNoLive m p now → ∀ l ∈ m.listeners.lookup k,
    (∀ f ∈ m.flows.entries, f.1 ≠ flowKey p → IsForward f.1 f.2 → f.2.listenerId = l.listenerId →
        f.2.expired now = false) ∧
      ((cursor m l.listenerId).toNat + (slotCount l).toNat ≤ 2 ^ 32 ∨ (slotCount l).toNat ∣ 2 ^ 32)
  | .ret _ _ => True

instance (k : NativeListenerLookupKey) (m : Maps) : ∀ e, Decidable (Timely k m e)
  | .ingress _ _ => inferInstanceAs (Decidable (_ → _))
  | .ret _ _ => .isTrue trivial

def Steady (scope : NativeListenerLookupKey → Bool) (k : NativeListenerLookupKey) (m : Maps) : ServiceEv → Prop
  | .traffic (.packet e) => Directed m e ∧ Roomy m ∧ Timely k m e
  | .traffic (.sweep _) => True
  | .edit obs listeners => EditKeeps scope k m obs.second (stableListenerAssignments listeners)

instance (scope : NativeListenerLookupKey → Bool) (k : NativeListenerLookupKey) (m : Maps) :
    ∀ e, Decidable (Steady scope k m e)
  | .traffic (.packet _) => inferInstanceAs (Decidable (_ ∧ _ ∧ _))
  | .traffic (.sweep _) => .isTrue trivial
  | .edit _ _ => inferInstanceAs (Decidable (EditKeeps ..))

/-! ## What a step does to the client entries -/

section entries

variable {K : Kernel} {m m' : Maps} {p : Skb} {now : UInt64}

/-- A client entry is one that was there, seen again at most, or the packet's new one. -/
inductive From (m : Maps) : Traffic → NativeFlowKey → NativeFlowValue → Prop
  | kept {e : Traffic} {x : NativeFlowKey} {w : NativeFlowValue} (seen : UInt64) (h : m.flows.lookup x = some w) :
    From m e x (w.refreshed seen)
  | opened {p : Skb} {now : UInt64} {o : Opening} (hl : m.listeners.lookup (listenerKey p) = some o.listener)
    (ht : m.targets.lookup ⟨o.listener.listenerId, o.targetId⟩ = some o.target) :
    From m (.packet (.ingress p now)) (flowKey p) (o.value p now)

variable {v : NativeFlowValue} {x : NativeFlowKey}

theorem From.old {e : Traffic} (h : m.flows.lookup x = some v) : From m e x v :=
  .kept v.lastSeenNs h

section

variable (h : opensOn m p now = some m')
include h

theorem opensOn_flows (hx : m'.flows.lookup x = some v) : m.flows.lookup x = some v := by
  rcases (opensOn_cases h).2 with ⟨-, rfl⟩ | ⟨w, -, -, rfl⟩
  · exact hx
  · rw [dropFlow_flows, lookup_erasePair] at hx
    split at hx
    · cases hx
    · exact hx

/-- The packet's own entry is gone from the maps its target is chosen on. -/
theorem opensOn_free : m'.flows.lookup (flowKey p) = none := by
  rcases (opensOn_cases h).2 with ⟨hmiss, rfl⟩ | ⟨w, -, -, rfl⟩
  · exact hmiss
  · rw [dropFlow_flows, lookup_erasePair, if_pos (.inl rfl)]

theorem opensOn_hits : HitsNoLive m p now := by
  intro w hw
  rcases (opensOn_cases h).2 with ⟨hmiss, -⟩ | ⟨v, hv, hexpired, -⟩
  · rw [hmiss] at hw
    cases hw
  · obtain rfl : v = w := Option.some.inj (hv.symm.trans hw)
    exact hexpired

end

theorem opensOn_accounted (hm : Accounted m) (hdirected : Directed m (.ingress p now)) (h : opensOn m p now = some m') :
    Accounted m' := by
  obtain ⟨hparses, ⟨-, rfl⟩ | ⟨v, hv, -, rfl⟩⟩ := opensOn_cases h
  · exact hm
  · obtain ⟨hfwd, hslot⟩ := (hdirected hparses).1 v hv
    exact hm.drop hv hfwd hslot (.inl ⟨rfl, rfl⟩)

theorem openFlow_from (hopens : opensOn m p now = some m') (hself : ∀ t ∈ usableTargets m' p, ¬ SelfAddressed (flowKey p))
    (hx : (openFlow K m' p now).1.flows.lookup x = some v) (hfwd : IsForward x v) :
    From m (.packet (.ingress p now)) x v := by
  cases hpick : (pick m' p).1 with
  | none =>
    rw [openFlow_none hpick] at hx
    exact .old (opensOn_flows hopens hx)
  | some o =>
    rw [openFlow_maps hpick, insertFlow_flows, lookup_insertPair] at hx
    split at hx
    next hends =>
      obtain rfl := Option.some.inj hx
      rcases hends with rfl | rfl
      · obtain ⟨hlisteners, htargets, -⟩ := opensOn_maps hopens
        obtain ⟨hl, ht, -⟩ := pick_some hpick
        exact .opened (hlisteners ▸ hl) (htargets ▸ ht)
      · have hnot := hself o.target (pick_mem_usableTargets hpick)
        exact absurd hfwd (not_isForward_reverseFor ⟨rfl, rfl⟩ hnot)
    · exact .old (opensOn_flows hopens hx)

theorem ingress_from (hm : Accounted m) (hdirected : Directed m (.ingress p now))
    (hx : (nativeDnatIngress K m p now).1.flows.lookup x = some v) (hfwd : IsForward x v) :
    From m (.packet (.ingress p now)) x v := by
  cases hopens : opensOn m p now with
  | some m' =>
    obtain ⟨hparses, -⟩ := opensOn_cases hopens
    obtain ⟨hlisteners, htargets, -⟩ := opensOn_maps hopens
    have hsame : usableTargets m' p = usableTargets m p := by
      unfold usableTargets
      rw [hlisteners, htargets]
    rw [ingress_of_opens K hopens] at hx
    refine openFlow_from hopens ?_ hx hfwd
    intro t ht
    exact ((hdirected hparses).2 (opensOn_hits hopens) t (hsame ▸ ht)).1
  | none =>
    rcases opensOn_none_cases hopens with hparses | ⟨w, hparses, hw, hlive⟩
    · rw [nativeDnatIngress, hparses] at hx
      exact .old hx
    · obtain ⟨hclient, -⟩ := (hdirected hparses).1 w hw
      have hself := (hm.directions.client _ w hw hclient).1
      rw [ingress_live_maps hparses hw hlive, refreshFlow_flows, lookup_insertPair] at hx
      split at hx
      next hends =>
        obtain rfl := Option.some.inj hx
        rcases hends with rfl | rfl
        · exact .kept now hw
        · exact absurd hfwd (not_isForward_reverseFor hclient hself)
      · exact .old hx

theorem return_from (hm : Accounted m) (hdirected : Directed m (.ret p now))
    (hx : (nativeDnatReturn K m p now).1.flows.lookup x = some v) : From m (.packet (.ret p now)) x v := by
  cases hparses : p.parses with
  | false =>
    rw [nativeDnatReturn, hparses] at hx
    exact .old hx
  | true =>
    cases hw : m.flows.lookup (flowKey p) with
    | none =>
      rw [return_miss hw] at hx
      exact .old hx
    | some w =>
      cases hexpired : w.expired now with
      | true =>
        rw [return_expired hparses hw hexpired, dropFlow_flows, lookup_erasePair] at hx
        split at hx
        · cases hx
        · exact .old hx
      | false =>
        -- the reply's client entry is there, and is refreshed with it
        have hclient := (hm.directions.reply _ w hw (hdirected hparses w hw)).2
        rw [return_live_maps hparses hw hexpired, refreshFlow_flows, lookup_insertPair] at hx
        split at hx
        next hends =>
          obtain rfl := Option.some.inj hx
          rcases hends with rfl | rfl
          · exact .kept now hw
          · exact .kept now hclient
        · exact .old hx

theorem stepTraffic_from {e : Traffic} (hm : Accounted m) (he : Admissible m e)
    (hx : (stepTraffic K m e).flows.lookup x = some v) (hfwd : IsForward x v) : From m e x v := by
  match e with
  | .packet (.ingress p now) => exact ingress_from hm he.1 hx hfwd
  | .packet (.ret p now) => exact return_from hm he.1 hx
  | .sweep now =>
    have hkept : (m.flows.lookup x).filter (fun v => !v.expired now) = some v := sweep_lookup x ▸ hx
    exact .old (Option.filter_eq_some_iff.mp hkept).1

end entries

/-! ## The invariant -/

/-- What an edit publishes for the listener at `k`. -/
structure Assigned (scope : NativeListenerLookupKey → Bool) (k : NativeListenerLookupKey) (m : Maps)
    (l : NativeListenerLookupValue) : Prop where
  ids : ∀ k' l', m.listeners.lookup k' = some l' → l'.listenerId = l.listenerId → k' = k
  slots : ∀ t u, m.targets.lookup ⟨l.listenerId, t⟩ = some u → t.toNat < (slotCount l).toNat
  distinct : ∀ t t' u u', m.targets.lookup ⟨l.listenerId, t⟩ = some u → m.targets.lookup ⟨l.listenerId, t'⟩ = some u' →
    backendOf u = backendOf u' → t = t'
  apart : ∀ k' l', m.listeners.lookup k' = some l' → k' ≠ k → scope k' = true → ∀ t t' u u',
    m.targets.lookup ⟨l.listenerId, t⟩ = some u → m.targets.lookup ⟨l'.listenerId, t'⟩ = some u' →
    backendOf u' ≠ backendOf u

/-- A client entry goes to the backend of a slot exactly when it names the slot. -/
def Named (scope : NativeListenerLookupKey → Bool) (m : Maps) (l : NativeListenerLookupValue) (x : NativeFlowKey)
    (v : NativeFlowValue) : Prop :=
  ∀ t u, m.targets.lookup ⟨l.listenerId, t⟩ = some u →
    ((scope (socketOf x) = true ∧ flowBackend v = backendOf u) ↔ (v.listenerId = l.listenerId ∧ v.targetId = t))

structure Tracked (scope : NativeListenerLookupKey → Bool) (k : NativeListenerLookupKey) (m : Maps) : Prop where
  accounted : Accounted m
  assigned : ∀ l, m.listeners.lookup k = some l → Assigned scope k m l
  named : ∀ l, m.listeners.lookup k = some l → ∀ x v, m.flows.lookup x = some v → IsForward x v → Named scope m l x v

section tracked

variable {K : Kernel} {scope : NativeListenerLookupKey → Bool} {k : NativeListenerLookupKey} {m m' : Maps}

section

variable {l : NativeListenerLookupValue} (h : Assigned scope k m l)
include h

theorem Assigned.congr (hlisteners : m'.listeners = m.listeners)
    (htargets : m'.targets = m.targets) : Assigned scope k m' l where
  ids := by rw [hlisteners]; exact h.ids
  slots := by rw [htargets]; exact h.slots
  distinct := by rw [htargets]; exact h.distinct
  apart := by rw [hlisteners, htargets]; exact h.apart

/-- A flow that is opened names the slot of its backend. -/
theorem Assigned.opened (hk : scope k = true) (hl : m.listeners.lookup k = some l) {p : Skb} {o : Opening}
    (now : UInt64) (hlistener : m.listeners.lookup (listenerKey p) = some o.listener)
    (htarget : m.targets.lookup ⟨o.listener.listenerId, o.targetId⟩ = some o.target) :
    Named scope m l (flowKey p) (o.value p now) := by
  intro t u hu
  have hsocket : socketOf (flowKey p) = listenerKey p := rfl
  rw [hsocket]
  by_cases hown : listenerKey p = k
  · rw [hown] at hlistener ⊢
    obtain rfl : o.listener = l := Option.some.inj (hlistener.symm.trans hl)
    constructor
    · rintro ⟨-, hbackend⟩
      exact ⟨rfl, h.distinct _ _ _ _ htarget hu hbackend⟩
    · rintro ⟨-, hslot⟩
      obtain rfl : o.targetId = t := hslot
      obtain rfl : o.target = u := Option.some.inj (htarget.symm.trans hu)
      exact ⟨hk, rfl⟩
  · constructor
    · rintro ⟨hscope, hbackend⟩
      exact absurd hbackend (h.apart _ _ hlistener hown hscope _ _ _ _ hu htarget)
    · rintro ⟨hid, -⟩
      exact absurd (h.ids _ _ hlistener hid) hown

end

theorem Tracked.traffic (K : Kernel) (h : Tracked scope k m) (hk : scope k = true) {e : Traffic} (he : Admissible m e) :
    Tracked scope k (stepTraffic K m e) := by
  obtain ⟨hlisteners, htargets⟩ := stepTraffic_config K m e
  refine ⟨step_accounted m e h.accounted he, ?_, ?_⟩
  · intro l hl
    rw [hlisteners] at hl
    exact (h.assigned l hl).congr hlisteners htargets
  · intro l hl x v hx hfwd
    rw [hlisteners] at hl
    have hnamed : Named scope m l x v := by
      cases stepTraffic_from h.accounted he hx hfwd with
      | @kept _ _ w seen hw => exact h.named l hl x w hw hfwd
      | opened ho ht => exact (h.assigned l hl).opened hk hl _ ho ht
    intro t u hu
    rw [htargets] at hu
    exact hnamed t u hu

theorem mem_activeAt {observed : Option (List TargetHealthEntry)} {l : NativeListener} {e : NativeTarget × Nat} :
    e ∈ activeAt observed l ↔ l.targets[e.2]? = some e.1 ∧ nativeTargetIsActive observed l e.1 = true := by
  rw [activeAt, List.mem_filter, List.mem_zipIdx_iff_getElem?]

section edit

variable {obs : Observations} {listeners : List NativeListener} {ids : Assignments} {a : UInt32 × NativeListener}
  (hids : stableListenerAssignments listeners = .ok ids) (hok : (syncPinnedDatapath obs listeners m).2 = .ok ())
include hids hok

theorem publish_synced : Synced obs ids m (publish obs listeners m) := by
  have hupdate : (updatePass obs listeners m true).2 = .ok () := hok
  exact update_synced hids hupdate

theorem publish_accounted (h : Accounted m) : Accounted (publish obs listeners m) := by
  obtain ⟨-, hpublish⟩ := publish_eq hids hok
  rw [hpublish]
  exact ⟨h.counted, h.directions, h.fits⟩

/-- A published slot is an active target at its position. -/
theorem published_target (ha : a ∈ ids) {t : UInt32} {u : NativeTargetValue}
    (hu : (publish obs listeners m).targets.lookup ⟨a.1, t⟩ = some u) :
    ∃ e ∈ activeAt obs.second a.2, t = UInt32.ofNat e.2 ∧ backendOf u = targetBackend e.1 := by
  obtain ⟨target, i, hget, hactive, rfl, rfl⟩ := (synced_target_iff hids (publish_synced hids hok) ha).mp hu
  exact ⟨(target, i), mem_activeAt.mpr ⟨hget, hactive⟩, rfl, rfl⟩

theorem Keeps.assigned (h : Keeps scope m obs.second ids a) (ha : a ∈ ids) (hkey : lookupKey a.2.key = k) :
    Assigned scope k (publish obs listeners m) (lookupValue obs.first a.1 a.2) := by
  have hsync := publish_synced hids hok
  obtain ⟨hdistinct, hapart, -⟩ := h
  refine ⟨?_, ?_, ?_, ?_⟩
  · intro k' l' hl' hid
    obtain ⟨b, hb, hkey', rfl⟩ := published_listener hids hok hl'
    obtain rfl : b = a := assignments_inj hids hb ha hid
    exact hkey'.symm.trans hkey
  · intro t u hu
    obtain ⟨e, he, rfl, -⟩ := published_target hids hok ha hu
    have hlt := (List.getElem?_eq_some_iff.mp (mem_activeAt.mp he).1).1
    have hcount := synced_count hsync ha
    rw [slotCount_published hsync ha, UInt32.toNat_ofNat_of_lt' (show e.2 < 2 ^ 32 by omega)]
    exact hlt
  · intro t t' u u' hu hu' hbackend
    obtain ⟨e, he, rfl, heq⟩ := published_target hids hok ha hu
    obtain ⟨e', he', rfl, heq'⟩ := published_target hids hok ha hu'
    rw [hdistinct e he e' he' (heq.symm.trans (hbackend.trans heq'))]
  · intro k' l' hl' hne hscope t t' u u' hu hu'
    obtain ⟨b, hb, rfl, rfl⟩ := published_listener hids hok hl'
    obtain ⟨e, he, -, heq⟩ := published_target hids hok ha hu
    obtain ⟨e', he', -, heq'⟩ := published_target hids hok hb hu'
    rw [heq, heq']
    exact hapart b hb (hkey ▸ hne) hscope e he e' he'

theorem Keeps.named (h : Keeps scope m obs.second ids a) (ha : a ∈ ids) {x : NativeFlowKey} {v : NativeFlowValue}
    (hx : m.flows.lookup x = some v) (hfwd : IsForward x v) :
    Named scope (publish obs listeners m) (lookupValue obs.first a.1 a.2) x v := by
  intro t u hu
  obtain ⟨e, he, rfl, heq⟩ := published_target hids hok ha hu
  rw [heq]
  exact h.2.2 ⟨x, v⟩ (AList.mem_lookup_iff.mp hx) hfwd e he

end edit

theorem Tracked.edit (h : Tracked scope k m) {obs : Observations} {listeners : List NativeListener}
    (hedit : EditKeeps scope k m obs.second (stableListenerAssignments listeners)) :
    Tracked scope k (publish obs listeners m) := by
  cases hids : stableListenerAssignments listeners with
  | error e =>
    rw [hids] at hedit
    exact hedit.elim
  | ok ids =>
    rw [hids] at hedit
    obtain ⟨hcounts, hkeeps⟩ := hedit
    have hok : (syncPinnedDatapath obs listeners m).2 = .ok () := sync_finishes hids hcounts m
    refine ⟨publish_accounted hids hok h.accounted, ?_, ?_⟩
    · intro l hl
      obtain ⟨a, ha, hkey, rfl⟩ := published_listener hids hok hl
      exact (hkeeps a ha hkey).assigned hids hok ha hkey
    · intro l hl x v hx hfwd
      obtain ⟨a, ha, hkey, rfl⟩ := published_listener hids hok hl
      rw [(publish_eq hids hok).2] at hx
      exact (hkeeps a ha hkey).named hids hok ha hx hfwd

theorem tracked_empty : Tracked scope k {} := by
  refine ⟨⟨fun _ _ => rfl, directional_empty, Nat.zero_le _⟩, ?_, ?_⟩
  · intro l hl
    simp at hl
  · intro l hl
    simp at hl

theorem Tracked.step (h : Tracked scope k m) (hk : scope k = true) {e : ServiceEv} (he : Steady scope k m e) :
    Tracked scope k (stepService K m e) := by
  match e with
  | .traffic (.packet ev) =>
    have hok : Admissible m (.packet ev) := ⟨he.1, he.2.1⟩
    exact h.traffic K hk hok
  | .traffic (.sweep now) =>
    have hok : Admissible m (.sweep now) := trivial
    exact h.traffic K hk hok
  | .edit obs listeners => exact h.edit he

end tracked

/-! ## The choice -/

/-- Where the sum does not wrap, or wraps at a multiple of the count, every slot is looked at. -/
theorem exists_candidate {count c t : UInt32} (h : c.toNat + count.toNat ≤ 2 ^ 32 ∨ count.toNat ∣ 2 ^ 32)
    (ht : t.toNat < count.toNat) : ∃ j < count.toNat, candidate count c j = t := by
  obtain ⟨j, hj, heq⟩ := exists_ahead c.toNat ht
  refine ⟨j, hj, ?_⟩
  have hslot : (c.toNat + j) % 2 ^ 32 % count.toNat = t.toNat := by
    rcases h with hroom | hdvd
    · rw [Nat.mod_eq_of_lt (show c.toNat + j < 2 ^ 32 by omega), heq]
    · rw [Nat.mod_mod_of_dvd _ hdvd, heq]
  rw [candidate_eq, hslot, UInt32.ofNat_toNat]

section

variable {scope : NativeListenerLookupKey → Bool} {k : NativeListenerLookupKey} {m : Maps} (h : Tracked scope k m)
  {l : NativeListenerLookupValue} (hl : m.listeners.lookup k = some l) {now : UInt64}
  (hlive : ∀ x v, m.flows.lookup x = some v → IsForward x v → v.listenerId = l.listenerId → v.expired now = false)
include h hl hlive

/-- The load of a slot is the number of its backend's flows. -/
theorem Tracked.load {t : UInt32} {u : NativeTargetValue} (hu : m.targets.lookup ⟨l.listenerId, t⟩ = some u) :
    liveFlows scope m now (backendOf u) = (slotLoad m l.listenerId t).toNat := by
  have hload : (slotLoad m l.listenerId t).toNat = countEntries (namedClient l.listenerId t) m.flows :=
    h.accounted.counted l.listenerId t
  rw [hload]
  refine countEntries_congr fun x v hx => ?_
  rw [Bool.eq_iff_iff, Bool.and_eq_true, decide_eq_true_iff, namedClient, decide_eq_true_iff]
  constructor
  · rintro ⟨-, hfwd, hto⟩
    exact ⟨hfwd, (h.named l hl x v hx hfwd t u hu).mp hto⟩
  · rintro ⟨hfwd, hname⟩
    exact ⟨by rw [hlive x v hx hfwd hname.1]; rfl, hfwd, (h.named l hl x v hx hfwd t u hu).mpr hname⟩

/-- The choice on maps whose loads are the flows of the backends. -/
theorem Tracked.leastLoaded
    (hcursor : (cursor m l.listenerId).toNat + (slotCount l).toNat ≤ 2 ^ 32 ∨ (slotCount l).toNat ∣ 2 ^ 32) :
    LeastLoaded scope m now l (selectLeastConnections m l (slotCount l)) := by
  intro t u hu husable
  obtain ⟨load, hbest⟩ := selectLeastConnections_best (m := m) l (slotCount_le l)
  obtain ⟨j, hj, hslot⟩ := exists_candidate hcursor ((h.assigned l hl).slots t u hu)
  have husable' : targetSlotIsUsable m l.listenerId t = true := by
    rw [targetSlotIsUsable, hu]
    exact husable
  have hleast := hbest.least j hj (by rw [hslot]; exact husable')
  rw [hslot, UInt32.le_iff_toNat_le, ← h.load hl hlive hu] at hleast
  rcases hbest.from_ with ⟨-, htop⟩ | ⟨i, -, -, hpicked, hload, -⟩
  · -- a full table has fewer entries than the load the scan starts from
    exfalso
    have hle : liveFlows scope m now (backendOf u) ≤ m.flows.entries.length := countEntries_le
    have hfits := h.accounted.fits
    unfold NATIVE_FLOW_MAP_CAPACITY at hfits
    rw [htop] at hleast
    change 4294967295 ≤ _ at hleast
    omega
  · rw [targetSlotIsUsable] at hpicked
    split at hpicked
    next best hbest' =>
      refine ⟨best, hbest', hpicked, ?_⟩
      rw [h.load hl hlive hbest', ← hload]
      exact hleast
    · cases hpicked

end

/-- In every history that is steady for the listener at `k`, a new flow of it finds the slot of a
    usable target with no more unexpired flows than any other. -/
theorem lc_picks_least_loaded (K : Kernel) (scope : NativeListenerLookupKey → Bool) (k : NativeListenerLookupKey)
    (hk : scope k = true) (es : List ServiceEv) (hmeet : StepsMeet (stepService K) (Steady scope k) {} es) (p : Skb)
    (now : UInt64) (hpacket : Steady scope k (run (stepService K) {} es) (.traffic (.packet (.ingress p now))))
    (hp : listenerKey p = k) (m : Maps) (hopens : opensOn (run (stepService K) {} es) p now = some m)
    (l : NativeListenerLookupValue) (hl : m.listeners.lookup k = some l) :
    LeastLoaded scope m now l (selectLeastConnections m l (slotCount l)) := by
  have hbefore : Tracked scope k (run (stepService K) {} es) :=
    inv_run (stepService K) (fun _ _ h he => h.step hk he) tracked_empty hmeet
  obtain ⟨hdirected, -, htimely⟩ := hpacket
  obtain ⟨hlisteners, htargets, hcursors⟩ := opensOn_maps hopens
  rw [hlisteners] at hl
  obtain ⟨hexpired, hcursor⟩ := htimely hp (opensOn_hits hopens) l hl
  have hm : Tracked scope k m := by
    refine ⟨opensOn_accounted hbefore.accounted hdirected hopens, ?_, ?_⟩
    · intro l hl
      rw [hlisteners] at hl
      exact (hbefore.assigned l hl).congr hlisteners htargets
    · intro l hl x v hx hfwd t u hu
      rw [hlisteners] at hl
      rw [htargets] at hu
      exact hbefore.named l hl x v (opensOn_flows hopens hx) hfwd t u hu
  refine hm.leastLoaded (by rw [hlisteners]; exact hl) ?_ (by rw [cursor_congr hcursors]; exact hcursor)
  intro x v hx hfwd hid
  have hne : x ≠ flowKey p := by
    rintro rfl
    rw [opensOn_free hopens] at hx
    cases hx
  exact hexpired ⟨x, v⟩ (AList.mem_lookup_iff.mp (opensOn_flows hopens hx)) hne hfwd hid

def lcWeb (addresses : List UInt32) : NativeListener :=
  { name := "web", targetGroup := "web", key := ⟨0xc000020b, 80, .tcp⟩, select := NATIVE_SELECT_LC, inactiveTimeoutSecs := 240
    dscp := 46, targets := addresses.map fun address => ⟨address, 8080, 1⟩ }

def lcEdit (addresses : List UInt32) : ServiceEv := .edit unobserved [lcWeb addresses]

def lcClient (sport : UInt16) : Skb := tcpPacket 0xcb007105 sport 0xc000020b 80

def lcFlow (sport : UInt16) (now : UInt64) : ServiceEv := .traffic (.packet (.ingress (lcClient sport) now))

/-- The listener's entry, as an edit publishes it. -/
def lcEntry (addresses : List UInt32) : NativeListenerLookupValue :=
  lookupValue none (stableListenerId (lcWeb addresses).key) (lcWeb addresses)

/-- A third target is added behind two that have a flow each. -/
def appended : List ServiceEv :=
  [lcEdit [0x0a000001, 0x0a000002], lcFlow 40000 1000, lcFlow 40001 1100, .traffic (.sweep 1200),
    lcEdit [0x0a000001, 0x0a000002, 0x0a000003]]

theorem appended_target_picked :
    let m := run (stepService quietKernel) {} appended
    let l := lcEntry [0x0a000001, 0x0a000002, 0x0a000003]
    selectLeastConnections m l (slotCount l) = 2 ∧
      LeastLoaded (fun _ => true) m 2000 l (selectLeastConnections m l (slotCount l)) := by
  intro m l
  have hmiss : m.flows.lookup (flowKey (lcClient 40002)) = none := by decide
  have hopens : opensOn m (lcClient 40002) 2000 = some m := by
    rw [opensOn, hmiss]
    rfl
  exact ⟨by decide, lc_picks_least_loaded quietKernel (fun _ => true) (lookupKey (lcWeb []).key) rfl appended
    (by decide) (lcClient 40002) 2000 (by decide) (by decide) m hopens l (by decide)⟩

/-- A target is put in front of two: the flow of the first is counted for the new one, and the
    next flow joins it where both others have none. -/
theorem lc_reads_old_positions :
    let m := run (stepService quietKernel) {} [lcEdit [0x0a000001, 0x0a000002], lcFlow 40000 1000,
      lcEdit [0x0a000003, 0x0a000001, 0x0a000002], .traffic (.sweep 1500)]
    let l := lcEntry [0x0a000003, 0x0a000001, 0x0a000002]
    m.listeners.lookup (lookupKey (lcWeb []).key) = some l ∧ m.flows.lookup (flowKey (lcClient 40001)) = none ∧
      selectLeastConnections m l (slotCount l) = 1 ∧
      (m.targets.lookup ⟨l.listenerId, 1⟩).map backendOf = some (0x0a000001, 8080) ∧
      (m.targets.lookup ⟨l.listenerId, 2⟩).map backendOf = some (0x0a000002, 8080) ∧
      targetSlotIsUsable m l.listenerId 2 = true ∧
      liveFlows (fun _ => true) m 2000 (0x0a000001, 8080) = 1 ∧ liveFlows (fun _ => true) m 2000 (0x0a000002, 8080) = 0 := by
  decide

end EdgeLb.Datapath
