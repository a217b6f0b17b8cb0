/-
  EdgeLb.Datapath.ActiveFlows — the load counters of least-connections and the sweep that
  recomputes them (`edge-lb-ebpf/src/main.rs` `adjust_active_flows`,
  `edge-lb/src/linux/native_dnat.rs` `sweep_flows_inner`, `replace_active_flows`).

  A flow is counted where its client entry is written and where either of its entries is found
  expired. Both programs look a packet up in one table, so a packet that meets an entry of the
  other direction moves a counter without the client entry it stands for, or adds an entry no
  counter stands for. `Directed` excludes those packets: what the ingress program sees is a
  client's tuple, what the return program sees a reply's, and the reply tuple of a client's
  packet is no client's.

  Proved: along every run of directed packets and of sweeps the counters are the numbers of
  client entries, and a sweep recomputes the numbers of unexpired ones. Flows of one client
  socket that share a reply slot are counted right.
-/

import EdgeLb.Lib.CountMap
import EdgeLb.Provider.Restore

namespace EdgeLb.Datapath

open EdgeLb.Common EdgeLb.Lib EdgeLb.Provider

def NATIVE_FLOW_MAP_CAPACITY : Nat := 1048576

/-! ## The sweep -/

structure Swept where
  expired : List NativeFlowKey := []
  loads : Tally (NativeFlowKey × NativeFlowKey) NativeTargetLoadKey := {}

def loadKey (v : NativeFlowValue) : NativeTargetLoadKey := ⟨v.listenerId, v.targetId⟩

def sweepEntry (refreshLoads : Bool) (now : UInt64) (s : Swept) (e : (_ : NativeFlowKey) × NativeFlowValue) : Swept :=
  if e.2.expired now then { s with expired := s.expired ++ [e.1] }
  else if refreshLoads then { s with loads := s.loads.add (canonicalFlowPair e.1 e.2) (loadKey e.2) }
  else s

def replaceActiveFlows (active loads : BpfMap NativeTargetLoadKey UInt32) : BpfMap NativeTargetLoadKey UInt32 :=
  insertAll (eraseAll active (active.keys.filter fun key => !loads.keys.contains key))
    (loads.entries.map fun e => (e.1, e.2))

/-- `sweep_flows_inner`: the maps it leaves and how many entries it removed. -/
def sweepFlowsInner (m : Maps) (refreshLoads : Bool) (now : UInt64) : Maps × Nat :=
  let s := m.flows.entries.foldl (sweepEntry refreshLoads now) {}
  let m := { m with flows := eraseAll m.flows s.expired }
  let m := if refreshLoads then { m with activeFlows := replaceActiveFlows m.activeFlows s.loads.counts } else m
  (m, s.expired.length)

def sweepFlowsAndRefreshLoads (m : Maps) (now : UInt64) : Maps × Nat := sweepFlowsInner m true now

/-! ## What is counted -/

/-- A client entry whose value names the listener and the target. -/
def namedClient (l t : UInt32) (k : NativeFlowKey) (v : NativeFlowValue) : Bool :=
  IsForward k v ∧ v.listenerId = l ∧ v.targetId = t

/-- `NATIVE_ACTIVE_FLOWS(l, t)`; a missing entry is zero. -/
def loadOf (m : Maps) (l t : UInt32) : Nat := ((m.activeFlows.lookup ⟨l, t⟩).getD 0).toNat

/-- Every counter is the number of its client entries. -/
def Counted (m : Maps) : Prop := ∀ l t, loadOf m l t = countEntries (namedClient l t) m.flows

/-- A sweep at any time leaves the numbers of unexpired client entries. -/
def SweepExact (m : Maps) : Prop :=
  ∀ now l t, loadOf (sweepFlowsAndRefreshLoads m now).1 l t =
    countEntries (fun k v => !v.expired now && namedClient l t k v) m.flows

/-! ## Directed packets -/

/-- The key holds no client entry. -/
def NoClientAt (m : Maps) (k : NativeFlowKey) : Prop := ∀ u ∈ m.flows.lookup k, ¬ IsForward k u

instance (m : Maps) (k : NativeFlowKey) : Decidable (NoClientAt m k) := inferInstanceAs (Decidable (∀ u ∈ _, _))

/-- A flow to `target` may be opened for `p`: the client addresses neither itself nor, from the
    target's own socket, the target, and the reply tuple is no client's. -/
def MayOpen (m : Maps) (p : Skb) (target : NativeTargetValue) : Prop :=
  ¬ SelfAddressed (flowKey p) ∧ ¬ (p.src = target.address ∧ p.sport = target.port) ∧ NoClientAt m (replyKey p target)

instance (m : Maps) (p : Skb) (target : NativeTargetValue) : Decidable (MayOpen m p target) :=
  inferInstanceAs (Decidable (_ ∧ _ ∧ _))

/-- The packets that keep the two directions apart. -/
def Directed (m : Maps) : Ev → Prop
  | .ingress p now => p.parses = true →
    (∀ w ∈ m.flows.lookup (flowKey p), IsForward (flowKey p) w ∧ NoClientAt m ((flowKey p).reverseFor w)) ∧
      (HitsNoLive m p now → ∀ t ∈ usableTargets m p, MayOpen m p t)
  | .ret p _ => p.parses = true → NoClientAt m (flowKey p)

instance (m : Maps) : ∀ e, Decidable (Directed m e)
  | .ingress _ _ => inferInstanceAs (Decidable (_ → _ ∧ _))
  | .ret _ _ => inferInstanceAs (Decidable (_ → _))

/-- The flow map has room for the entries of one more flow, so that nothing is evicted. -/
def Roomy (m : Maps) : Prop := m.flows.entries.length + 2 ≤ NATIVE_FLOW_MAP_CAPACITY

instance (m : Maps) : Decidable (Roomy m) := inferInstanceAs (Decidable (_ ≤ _))

inductive Traffic
  | packet (e : Ev)
  | sweep (now : UInt64)

def stepTraffic (K : Kernel) (m : Maps) : Traffic → Maps
  | .packet e => stepEv K m e
  | .sweep now => (sweepFlowsAndRefreshLoads m now).1

def Admissible (m : Maps) : Traffic → Prop
  | .packet e => Directed m e ∧ Roomy m
  | .sweep _ => True

instance (m : Maps) : ∀ e, Decidable (Admissible m e)
  | .packet _ => inferInstanceAs (Decidable (_ ∧ _))
  | .sweep _ => inferInstanceAs (Decidable True)

/-! ## The two directions of the flow map -/

/-- Client entries address neither themselves nor their target from the target's socket, no two of
    them are each other's reply tuple, and a reply entry is the copy of a client's. -/
structure Directional (f : BpfMap NativeFlowKey NativeFlowValue) : Prop where
  client : ∀ k v, f.lookup k = some v → IsForward k v → ¬ SelfAddressed k ∧ ¬ IsReply k v
  apart : ∀ k v u, f.lookup k = some v → IsForward k v → f.lookup (k.reverseFor v) = some u →
    IsForward (k.reverseFor v) u → (k.reverseFor v).reverseFor u ≠ k
  reply : ∀ k v, f.lookup k = some v → ¬ IsForward k v → IsReply k v ∧ f.lookup (k.forwardFor v) = some v

theorem directional_empty : Directional ∅ := by
  refine ⟨?_, ?_, ?_⟩
  · intro k v h
    simp at h
  · intro k v u h
    simp at h
  · intro k v h
    simp at h

section Directions

variable {f f' : BpfMap NativeFlowKey NativeFlowValue} {F : NativeFlowKey} {v : NativeFlowValue}

theorem reverseFor_ne {k : NativeFlowKey} {v : NativeFlowValue} (h : IsForward k v) (hself : ¬ SelfAddressed k) :
    k.reverseFor v ≠ k := by
  intro heq
  have := not_isForward_reverseFor h hself
  rw [heq] at this
  exact this h

/-- A reply entry stands for the client entry it maps back to and for no other. -/
theorem Directional.reply_of {x : NativeFlowKey} {u : NativeFlowValue} (hf : Directional f) (hx : f.lookup x = some u)
    (hnot : ¬ IsForward x u) (hF : f.lookup F = some v) (hback : x.forwardFor u = F) : u = v ∧ x = F.reverseFor v := by
  obtain ⟨hreply, hmate⟩ := hf.reply x u hx hnot
  rw [hback, hF] at hmate
  obtain rfl := Option.some.inj hmate
  exact ⟨rfl, by rw [← hback, reverseFor_forwardFor hreply]⟩

/-- A reply entry does not map back to a key without a client entry. -/
theorem Directional.back_ne {x k : NativeFlowKey} {u : NativeFlowValue} (hf : Directional f) (hx : f.lookup x = some u)
    (hnot : ¬ IsForward x u) (hk : ∀ w ∈ f.lookup k, ¬ IsForward k w) : x.forwardFor u ≠ k := by
  intro hback
  have hmate := (hf.reply x u hx hnot).2
  rw [hback] at hmate
  exact hk u hmate (hback ▸ isForward_forwardFor x u)

/-- Dropping entries, and with a client entry the reply entries that stand for it. -/
theorem Directional.restrict (hf : Directional f) (hkept : ∀ {x u}, f'.lookup x = some u → f.lookup x = some u)
    (hmate : ∀ {k w}, f'.lookup k = some w → ¬ IsForward k w → f'.lookup (k.forwardFor w) = f.lookup (k.forwardFor w)) :
    Directional f' := by
  refine ⟨?_, ?_, ?_⟩
  · intro k w hk hfwd
    exact hf.client k w (hkept hk) hfwd
  · intro k w u hk hfwd hu hufwd
    exact hf.apart k w u (hkept hk) hfwd (hkept hu) hufwd
  · intro k w hk hnot
    rw [hmate hk hnot]
    exact hf.reply k w (hkept hk) hnot

/-- Dropping a client entry with its reply tuple. -/
theorem Directional.drop (hf : Directional f) (hF : f.lookup F = some v)
    (hslot : ∀ u ∈ f.lookup (F.reverseFor v), ¬ IsForward (F.reverseFor v) u)
    (hlook : ∀ x, f'.lookup x = if x = F ∨ x = F.reverseFor v then none else f.lookup x) : Directional f' := by
  have hkept : ∀ {x u}, f'.lookup x = some u → f.lookup x = some u ∧ ¬ (x = F ∨ x = F.reverseFor v) := by
    intro x u hx
    rw [hlook] at hx
    split at hx
    · cases hx
    · rename_i hne
      exact ⟨hx, hne⟩
  refine hf.restrict (fun hx => (hkept hx).1) fun hk hnot => ?_
  obtain ⟨hold, hne⟩ := hkept hk
  rw [hlook, if_neg]
  intro h
  rcases h with h | h
  · exact hne (.inr (hf.reply_of hold hnot hF h).2)
  · exact hf.back_ne hold hnot hslot h

/-- Writing a client entry and its reply tuple: over the same flow, or at a free key. -/
theorem Directional.write (hf : Directional f) (hfwd : IsForward F v) (hself : ¬ SelfAddressed F) (hhair : ¬ IsReply F v)
    (hold : ∀ w, f.lookup F = some w → v = w.refreshed v.lastSeenNs)
    (hslot : ∀ u ∈ f.lookup (F.reverseFor v), ¬ IsForward (F.reverseFor v) u)
    (hlook : ∀ x, f'.lookup x = if x = F ∨ x = F.reverseFor v then some v else f.lookup x) : Directional f' := by
  have hnotR := not_isForward_reverseFor hfwd hself
  have hcases : ∀ {x u}, f'.lookup x = some u →
      (x = F ∧ u = v) ∨ (x = F.reverseFor v ∧ u = v) ∨ (f.lookup x = some u ∧ x ≠ F ∧ x ≠ F.reverseFor v) := by
    intro x u hx
    rw [hlook] at hx
    by_cases hxF : x = F
    · rw [if_pos (.inl hxF)] at hx
      exact .inl ⟨hxF, (Option.some.inj hx).symm⟩
    by_cases hxR : x = F.reverseFor v
    · rw [if_pos (.inr hxR)] at hx
      exact .inr (.inl ⟨hxR, (Option.some.inj hx).symm⟩)
    · rw [if_neg (not_or.mpr ⟨hxF, hxR⟩)] at hx
      exact .inr (.inr ⟨hx, hxF, hxR⟩)
  refine ⟨?_, ?_, ?_⟩
  · intro k w hk hkfwd
    rcases hcases hk with ⟨rfl, rfl⟩ | ⟨rfl, rfl⟩ | ⟨hk, -, -⟩
    · exact ⟨hself, hhair⟩
    · exact absurd hkfwd hnotR
    · exact hf.client k w hk hkfwd
  · intro k w u hk hkfwd hu hufwd
    rcases hcases hk with ⟨rfl, rfl⟩ | ⟨rfl, rfl⟩ | ⟨hk, hkF, hkR⟩
    · rw [hlook, if_pos (.inr rfl)] at hu
      obtain rfl := Option.some.inj hu
      exact absurd hufwd hnotR
    · exact absurd hkfwd hnotR
    · rcases hcases hu with ⟨hxF, rfl⟩ | ⟨hxR, rfl⟩ | ⟨hu, -, -⟩
      · rw [hxF]
        exact hkR.symm
      · rw [hxR] at hufwd
        exact absurd hufwd hnotR
      · exact hf.apart k w u hk hkfwd hu hufwd
  · intro k w hk hnot
    rcases hcases hk with ⟨rfl, rfl⟩ | ⟨rfl, rfl⟩ | ⟨hk, hkF, hkR⟩
    · exact absurd hfwd hnot
    · refine ⟨isReply_reverseFor F w, ?_⟩
      rw [forwardFor_reverseFor hfwd, hlook, if_pos (.inl rfl)]
    · obtain ⟨hreply, hmate⟩ := hf.reply k w hk hnot
      refine ⟨hreply, ?_⟩
      rw [hlook, if_neg, hmate]
      intro h
      rcases h with h | h
      · -- it would be the reply entry of the very flow that is written
        rw [h] at hmate
        have hsame := hold w hmate
        have hkey := (hf.reply_of hk hnot hmate h).2
        rw [hsame] at hkR
        exact hkR hkey
      · exact hf.back_ne hk hnot hslot h

end Directions

/-! ## The counters -/

/-- What a flow adds to a counter. -/
def share (v : NativeFlowValue) (l t : UInt32) : Nat := if v.listenerId = l ∧ v.targetId = t then 1 else 0

variable {k : NativeFlowKey} {v : NativeFlowValue}

theorem namedClient_forward (h : IsForward k v) (l t : UInt32) : (namedClient l t k v).toNat = share v l t := by
  unfold namedClient share
  by_cases hlt : v.listenerId = l ∧ v.targetId = t
  · simp [h, hlt]
  · simp [h, hlt]

theorem namedClient_not_forward (h : ¬ IsForward k v) (l t : UInt32) : (namedClient l t k v).toNat = 0 := by
  simp [namedClient, h]

theorem heldAt_noClient {m : Maps} (h : NoClientAt m k) (l t : UInt32) : heldAt (namedClient l t) m.flows k = 0 := by
  cases hu : m.flows.lookup k with
  | none => exact heldAt_none hu
  | some u => rw [heldAt_some hu, namedClient_not_forward (h u hu)]

theorem heldAt_client {m : Maps} (hk : m.flows.lookup k = some v)
    (h : IsForward k v) (l t : UInt32) : heldAt (namedClient l t) m.flows k = share v l t := by
  rw [heldAt_some hk, namedClient_forward h]

theorem adjusted_add {n : UInt32} (h : n.toNat + 1 < 2 ^ 32) : (adjusted n 1).toNat = n.toNat + 1 := by
  have hcast : ((n.toNat : Int) + 1).toNat = n.toNat + 1 := by omega
  rw [adjusted, hcast, UInt32.toNat_ofNat_of_lt' (by simp [UInt32.size])]
  omega

theorem adjusted_sub (n : UInt32) : (adjusted n (-1)).toNat = n.toNat - 1 := by
  have hn := n.toNat_lt
  have hcast : ((n.toNat : Int) + -1).toNat = n.toNat - 1 := by omega
  rw [adjusted, hcast, UInt32.toNat_ofNat_of_lt' (by simp [UInt32.size])]
  omega

theorem loadOf_adjustActiveFlows (m : Maps) (l t : UInt32) (d : Int) (l' t' : UInt32) :
    loadOf (adjustActiveFlows m l t d) l' t' =
      if l = l' ∧ t = t' then (adjusted ((m.activeFlows.lookup ⟨l, t⟩).getD 0) d).toNat else loadOf m l' t' := by
  unfold adjustActiveFlows loadOf
  dsimp only
  by_cases hkey : l = l' ∧ t = t'
  · obtain ⟨rfl, rfl⟩ := hkey
    simp only [and_self, if_true]
    by_cases hzero : adjusted ((m.activeFlows.lookup ⟨l, t⟩).getD 0) d = 0
    · rw [if_pos hzero, hzero]
      simp
    · rw [if_neg hzero]
      simp
  · have hne : (⟨l', t'⟩ : NativeTargetLoadKey) ≠ ⟨l, t⟩ := by
      intro h
      cases h
      exact hkey ⟨rfl, rfl⟩
    rw [if_neg hkey]
    split
    · rw [AList.lookup_erase_ne hne]
    · rw [AList.lookup_insert_ne hne]

theorem loadOf_dropFlow (m : Maps) (k o : NativeFlowKey) (v : NativeFlowValue) (l t : UInt32) :
    loadOf (dropFlow m k o v) l t = loadOf m l t - share v l t := by
  have hload : loadOf (dropFlow m k o v) l t =
      loadOf (adjustActiveFlows m v.listenerId v.targetId (-1)) l t := by
    unfold dropFlow emitFlowEvent adjustActiveFlows loadOf
    dsimp only
    split <;> rfl
  rw [hload, loadOf_adjustActiveFlows, share]
  by_cases h : v.listenerId = l ∧ v.targetId = t
  · obtain ⟨rfl, rfl⟩ := h
    rw [if_pos ⟨rfl, rfl⟩, if_pos ⟨rfl, rfl⟩, adjusted_sub]
    rfl
  · rw [if_neg h, if_neg h, Nat.sub_zero]

theorem loadOf_insertFlow {m : Maps} (k o : NativeFlowKey) (l t : UInt32)
    (hroom : loadOf m v.listenerId v.targetId + 1 < 2 ^ 32) :
    loadOf (insertFlow m k o v) l t = loadOf m l t + share v l t := by
  have hload : loadOf (insertFlow m k o v) l t =
      loadOf (adjustActiveFlows m v.listenerId v.targetId 1) l t := by
    unfold insertFlow emitFlowEvent adjustActiveFlows loadOf
    dsimp only
    split <;> rfl
  rw [hload, loadOf_adjustActiveFlows, share]
  by_cases h : v.listenerId = l ∧ v.targetId = t
  · obtain ⟨rfl, rfl⟩ := h
    rw [if_pos ⟨rfl, rfl⟩, if_pos ⟨rfl, rfl⟩, adjusted_add hroom]
    rfl
  · rw [if_neg h, if_neg h, Nat.add_zero]

/-! ## The invariant -/

structure Accounted (m : Maps) : Prop where
  counted : Counted m
  directions : Directional m.flows
  fits : m.flows.entries.length ≤ NATIVE_FLOW_MAP_CAPACITY

/-- The client entry and the reply tuple of a flow, in the order a program has them. -/
def Ends (F : NativeFlowKey) (v : NativeFlowValue) (k o : NativeFlowKey) : Prop :=
  (k = F ∧ o = F.reverseFor v) ∨ (k = F.reverseFor v ∧ o = F)

section Flow

variable {m m' : Maps} {F k o : NativeFlowKey} {v : NativeFlowValue}

theorem Ends.ne (h : Ends F v k o) (hne : F.reverseFor v ≠ F) : k ≠ o := by
  rcases h with ⟨rfl, rfl⟩ | ⟨rfl, rfl⟩
  · exact hne.symm
  · exact hne

theorem Ends.iff (h : Ends F v k o) (x : NativeFlowKey) : (x = k ∨ x = o) ↔ (x = F ∨ x = F.reverseFor v) := by
  rcases h with ⟨rfl, rfl⟩ | ⟨rfl, rfl⟩
  · exact Iff.rfl
  · exact or_comm

/-- What both keys hold together before, of what is counted. -/
theorem Ends.held (h : Ends F v k o) (p : NativeFlowKey → NativeFlowValue → Bool) :
    heldAt p m.flows k + heldAt p m.flows o = heldAt p m.flows F + heldAt p m.flows (F.reverseFor v) := by
  rcases h with ⟨rfl, rfl⟩ | ⟨rfl, rfl⟩
  · rfl
  · exact Nat.add_comm ..

/-- A client entry and its reply tuple are written, and the counter moves by what was not
    counted before. -/
theorem Accounted.write (hm : Accounted m) (hroom : Roomy m) (hfwd : IsForward F v) (hself : ¬ SelfAddressed F)
    (hhair : ¬ IsReply F v) (hold : ∀ w, m.flows.lookup F = some w → v = w.refreshed v.lastSeenNs)
    (hslot : NoClientAt m (F.reverseFor v)) (hends : Ends F v k o) (hflows : m'.flows = insertPair m.flows k o v)
    (hload : ∀ l t, loadOf m' l t + heldAt (namedClient l t) m.flows F = loadOf m l t + share v l t) :
    Accounted m' := by
  refine ⟨?_, ?_, ?_⟩
  · intro l t
    have hcount := countEntries_insertPair (namedClient l t) m.flows v (hends.ne (reverseFor_ne hfwd hself))
    have hheld := hends.held (m := m) (namedClient l t)
    have hwritten : (namedClient l t k v).toNat + (namedClient l t o v).toNat = share v l t := by
      have hclient := namedClient_forward hfwd l t
      have hreply := namedClient_not_forward (not_isForward_reverseFor hfwd hself) l t
      rcases hends with ⟨rfl, rfl⟩ | ⟨rfl, rfl⟩ <;> omega
    have hload := hload l t
    rw [heldAt_noClient hslot] at hheld
    rw [hm.counted l t] at hload
    rw [hflows]
    omega
  · refine hm.directions.write hfwd hself hhair hold hslot ?_
    intro x
    rw [hflows, lookup_insertPair, if_congr (hends.iff x) rfl rfl]
  · have := length_insertPair_le m.flows k o v
    rw [hflows]
    unfold Roomy at hroom
    omega

/-- A live flow is seen again. -/
theorem Accounted.refresh (hm : Accounted m) (hroom : Roomy m) (hF : m.flows.lookup F = some v) (hfwd : IsForward F v)
    (hslot : NoClientAt m (F.reverseFor v)) (hends : Ends F v k o) (now : UInt64) :
    Accounted (refreshFlow m k o v now) := by
  obtain ⟨hself, hhair⟩ := hm.directions.client F v hF hfwd
  refine hm.write (v := v.refreshed now) hroom hfwd hself hhair ?_ hslot hends rfl ?_
  · intro w hw
    rw [hF] at hw
    obtain rfl := Option.some.inj hw
    rfl
  · intro l t
    rw [heldAt_client hF hfwd]
    rfl

/-- An expired flow is dropped. -/
theorem Accounted.drop (hm : Accounted m) (hF : m.flows.lookup F = some v) (hfwd : IsForward F v)
    (hslot : NoClientAt m (F.reverseFor v)) (hends : Ends F v k o) : Accounted (dropFlow m k o v) := by
  obtain ⟨hself, -⟩ := hm.directions.client F v hF hfwd
  have hne := hends.ne (reverseFor_ne hfwd hself)
  refine ⟨?_, ?_, ?_⟩
  · intro l t
    have hcount := countEntries_erasePair (namedClient l t) m.flows hne
    have hheld := hends.held (m := m) (namedClient l t)
    rw [heldAt_client hF hfwd, heldAt_noClient hslot] at hheld
    rw [loadOf_dropFlow, hm.counted l t, dropFlow_flows]
    omega
  · refine hm.directions.drop hF hslot ?_
    intro x
    rw [dropFlow_flows, lookup_erasePair, if_congr (hends.iff x) rfl rfl]
  · have := length_erasePair_le m.flows k o
    have := hm.fits
    rw [dropFlow_flows]
    omega

/-- A flow is opened at a free tuple. -/
theorem Accounted.insert (hm : Accounted m) (hroom : Roomy m) (hfree : m.flows.lookup F = none) (hfwd : IsForward F v)
    (hself : ¬ SelfAddressed F) (hhair : ¬ IsReply F v) (hslot : NoClientAt m (F.reverseFor v)) :
    Accounted (insertFlow m F (F.reverseFor v) v) := by
  have hsmall : loadOf m v.listenerId v.targetId + 1 < 2 ^ 32 := by
    have hle : loadOf m v.listenerId v.targetId ≤ m.flows.entries.length := by
      rw [hm.counted]
      exact countEntries_le
    have hfits := hm.fits
    unfold NATIVE_FLOW_MAP_CAPACITY at hfits
    omega
  refine hm.write hroom hfwd hself hhair ?_ hslot (.inl ⟨rfl, rfl⟩) (insertFlow_flows ..) ?_
  · intro w hw
    rw [hfree] at hw
    cases hw
  · intro l t
    rw [heldAt_none hfree, loadOf_insertFlow F (F.reverseFor v) l t hsmall]
    rfl

end Flow

/-! ## Packets -/

section Packets

variable {K : Kernel} {m : Maps} {p : Skb} {now : UInt64}

section

variable {v : NativeFlowValue} (hp : p.parses = true) (hv : m.flows.lookup (flowKey p) = some v)
  (hlive : v.expired now = false)
include hp hv hlive

/-- Whether the rewrite of a packet succeeds makes no difference to the maps. -/
theorem ingress_live_maps :
    (nativeDnatIngress K m p now).1 = refreshFlow m (flowKey p) ((flowKey p).reverseFor v) v now := by
  simp [nativeDnatIngress, hp, hv, hlive]

theorem return_live_maps :
    (nativeDnatReturn K m p now).1 = refreshFlow m (flowKey p) ((flowKey p).forwardFor v) v now := by
  simp only [nativeDnatReturn, hp, hv, hlive, Bool.not_true, Bool.false_eq_true, if_false]
  split <;> rfl

end

theorem openFlow_maps {o : Opening} (h : (pick m p).1 = some o) :
    (openFlow K m p now).1 = insertFlow { m with rrCounters := (pick m p).2 } (flowKey p)
      ((flowKey p).reverseFor (o.value p now)) (o.value p now) := by
  simp only [openFlow, h]
  rfl

theorem not_isReply_of_mayOpen {o : Opening} (h : MayOpen m p o.target) : ¬ IsReply (flowKey p) (o.value p now) := by
  intro ⟨hsrc, hsport⟩
  exact h.2.1 ⟨hsrc, toBe_inj.mp hsport⟩

theorem openFlow_accounted (hm : Accounted m) (hroom : Roomy m) (hfree : m.flows.lookup (flowKey p) = none)
    (hopen : ∀ t ∈ usableTargets m p, MayOpen m p t) : Accounted (openFlow K m p now).1 := by
  cases h : (pick m p).1 with
  | none =>
    rw [openFlow_none h]
    exact ⟨hm.counted, hm.directions, hm.fits⟩
  | some o =>
    have hmay := hopen o.target (pick_mem_usableTargets h)
    have hcursors : Accounted { m with rrCounters := (pick m p).2 } := ⟨hm.counted, hm.directions, hm.fits⟩
    rw [openFlow_maps h]
    exact hcursors.insert hroom hfree ⟨rfl, rfl⟩ hmay.1 (not_isReply_of_mayOpen hmay) hmay.2.2

theorem noClientAt_dropFlow {k o x : NativeFlowKey} {v : NativeFlowValue} (h : NoClientAt m x) :
    NoClientAt (dropFlow m k o v) x := by
  intro u hu
  rw [dropFlow_flows, Option.mem_def, lookup_erasePair] at hu
  split at hu
  · cases hu
  · exact h u hu

theorem Roomy.dropFlow (h : Roomy m) (k o : NativeFlowKey) (v : NativeFlowValue) : Roomy (dropFlow m k o v) := by
  have := length_erasePair_le m.flows k o
  unfold Roomy at h ⊢
  rw [dropFlow_flows]
  omega

theorem ingress_accounted (hm : Accounted m) (hdirected : Directed m (.ingress p now)) (hroom : Roomy m) :
    Accounted (nativeDnatIngress K m p now).1 := by
  cases hp : p.parses with
  | false => simpa [nativeDnatIngress, hp] using hm
  | true =>
    obtain ⟨hhit, hopen⟩ := hdirected hp
    cases hv : m.flows.lookup (flowKey p) with
    | none =>
      rw [ingress_miss hp hv]
      exact openFlow_accounted hm hroom hv (hopen (by simp [HitsNoLive, hv]))
    | some v =>
      obtain ⟨hfwd, hslot⟩ := hhit v hv
      cases hexp : v.expired now with
      | false =>
        rw [ingress_live_maps hp hv hexp]
        exact hm.refresh hroom hv hfwd hslot (.inl ⟨rfl, rfl⟩) now
      | true =>
        rw [ingress_expired hp hv hexp]
        have hdropped : Accounted (dropFlow m (flowKey p) ((flowKey p).reverseFor v) v) :=
          hm.drop hv hfwd hslot (.inl ⟨rfl, rfl⟩)
        refine openFlow_accounted hdropped (hroom.dropFlow _ _ v) (by simp) ?_
        intro t ht
        have hsame : usableTargets (dropFlow m (flowKey p) ((flowKey p).reverseFor v) v) p = usableTargets m p := by
          simp [usableTargets]
        rw [hsame] at ht
        obtain ⟨hself, hhair, hfree⟩ := hopen (by simp [HitsNoLive, hv, hexp]) t ht
        exact ⟨hself, hhair, noClientAt_dropFlow hfree⟩

theorem return_accounted (hm : Accounted m) (hdirected : Directed m (.ret p now)) (hroom : Roomy m) :
    Accounted (nativeDnatReturn K m p now).1 := by
  cases hp : p.parses with
  | false => simpa [nativeDnatReturn, hp] using hm
  | true =>
    have hnot := hdirected hp
    cases hv : m.flows.lookup (flowKey p) with
    | none =>
      rw [return_miss hv]
      exact hm
    | some v =>
      -- the packet is a reply: its flow's client entry is the key it maps back to
      obtain ⟨hreply, hclient⟩ := hm.directions.reply _ v hv (hnot v hv)
      have hback := reverseFor_forwardFor hreply
      have hfwd := isForward_forwardFor (flowKey p) v
      have hslot : NoClientAt m (((flowKey p).forwardFor v).reverseFor v) := by rwa [hback]
      have hends : Ends ((flowKey p).forwardFor v) v (flowKey p) ((flowKey p).forwardFor v) :=
        .inr ⟨hback.symm, rfl⟩
      cases hexp : v.expired now with
      | true =>
        rw [return_expired hp hv hexp]
        exact hm.drop hclient hfwd hslot hends
      | false =>
        rw [return_live_maps hp hv hexp]
        exact hm.refresh hroom hclient hfwd hslot hends now

end Packets

/-! ## Sweeps -/

section Sweeps

variable {m : Maps} {now : UInt64}

def unexpired (m : Maps) (now : UInt64) : List ((_ : NativeFlowKey) × NativeFlowValue) :=
  m.flows.entries.filter fun e => !e.2.expired now

/-- The class a sweep puts an entry in. -/
def pairOf (e : (_ : NativeFlowKey) × NativeFlowValue) : NativeFlowKey × NativeFlowKey := canonicalFlowPair e.1 e.2

def labelOf (e : (_ : NativeFlowKey) × NativeFlowValue) : NativeTargetLoadKey := loadKey e.2

theorem foldl_sweepEntry (now : UInt64) (es : List ((_ : NativeFlowKey) × NativeFlowValue)) :
    es.foldl (sweepEntry true now) {} =
      ⟨(es.filter fun e => e.2.expired now).map Sigma.fst, tally pairOf labelOf (es.filter fun e => !e.2.expired now)⟩ := by
  induction es using List.reverseRecOn with
  | nil => rfl
  | append_singleton es e ih =>
    rw [List.foldl_append, ih, List.filter_append, List.filter_append]
    cases h : e.2.expired now with
    | true => simp [sweepEntry, h]
    | false =>
      simp [sweepEntry, h, tally_snoc]
      rfl

theorem lookup_replaceActiveFlows (active loads : BpfMap NativeTargetLoadKey UInt32) (k : NativeTargetLoadKey) :
    (replaceActiveFlows active loads).lookup k = loads.lookup k := by
  unfold replaceActiveFlows
  cases h : loads.lookup k with
  | some n =>
    have hmem : (k, n) ∈ loads.entries.map fun e => (e.1, e.2) :=
      List.mem_map.mpr ⟨⟨k, n⟩, AList.mem_lookup_iff.mp h, rfl⟩
    refine lookup_insertAll_of_mem hmem fun n' hn' => ?_
    obtain ⟨⟨k', n''⟩, he, heq⟩ := List.mem_map.mp hn'
    obtain ⟨rfl, rfl⟩ := Prod.mk.inj heq
    have : loads.lookup k' = some n'' := AList.mem_lookup_iff.mpr he
    exact Option.some.inj (this.symm.trans h)
  | none =>
    have hkey : k ∉ loads.keys := AList.lookup_eq_none.mp h
    have hnot : k ∉ (loads.entries.map fun e => (e.1, e.2)).map (·.1) := by
      rw [List.map_map]
      exact hkey
    rw [lookup_insertAll_of_not_mem hnot, lookup_eraseAll_eq]
    by_cases hin : k ∈ active.keys
    · rw [if_pos]
      simp [hin, hkey]
    · rw [if_neg (by simp [hin])]
      exact AList.lookup_eq_none.mpr hin

theorem mem_unexpired {e : (_ : NativeFlowKey) × NativeFlowValue} :
    e ∈ unexpired m now ↔ m.flows.lookup e.1 = some e.2 ∧ e.2.expired now = false := by
  have hentry : m.flows.lookup e.1 = some e.2 ↔ e ∈ m.flows.entries := AList.mem_lookup_iff
  simp [unexpired, hentry]

/-- A sweep keeps the unexpired entries. -/
theorem sweep_lookup (k : NativeFlowKey) : (sweepFlowsAndRefreshLoads m now).1.flows.lookup k =
    (m.flows.lookup k).filter fun v => !v.expired now := by
  have hflows : (sweepFlowsAndRefreshLoads m now).1.flows =
      eraseAll m.flows ((m.flows.entries.filter fun e => e.2.expired now).map Sigma.fst) := by
    simp [sweepFlowsAndRefreshLoads, sweepFlowsInner, foldl_sweepEntry]
  have hgone : k ∈ (m.flows.entries.filter fun e => e.2.expired now).map Sigma.fst ↔
      ∃ v, m.flows.lookup k = some v ∧ v.expired now = true := by
    constructor
    · intro h
      obtain ⟨⟨k', v⟩, he, rfl⟩ := List.mem_map.mp h
      obtain ⟨hmem, hexp⟩ := List.mem_filter.mp he
      exact ⟨v, AList.mem_lookup_iff.mpr hmem, hexp⟩
    · intro ⟨v, hv, hexp⟩
      exact List.mem_map.mpr ⟨⟨k, v⟩, List.mem_filter.mpr ⟨AList.mem_lookup_iff.mp hv, hexp⟩, rfl⟩
  rw [hflows, lookup_eraseAll_eq]
  cases hv : m.flows.lookup k with
  | none => simp
  | some v =>
    cases hexp : v.expired now with
    | true =>
      rw [if_pos (hgone.mpr ⟨v, hv, hexp⟩)]
      simp [Option.filter, hexp]
    | false =>
      rw [if_neg]
      · simp [Option.filter, hexp]
      · intro h
        obtain ⟨w, hw, hwexp⟩ := hgone.mp h
        rw [hv] at hw
        obtain rfl := Option.some.inj hw
        rw [hexp] at hwexp
        cases hwexp

theorem sweep_load (l t : UInt32) : loadOf (sweepFlowsAndRefreshLoads m now).1 l t =
    (tally pairOf labelOf (unexpired m now)).count ⟨l, t⟩ := by
  have hactive : (sweepFlowsAndRefreshLoads m now).1.activeFlows =
      replaceActiveFlows m.activeFlows (tally pairOf labelOf (unexpired m now)).counts := by
    simp [sweepFlowsAndRefreshLoads, sweepFlowsInner, foldl_sweepEntry, unexpired]
  rw [loadOf, hactive, lookup_replaceActiveFlows]
  rfl

section

variable (hm : Accounted m)
include hm

theorem pairOf_forward {k : NativeFlowKey} {v : NativeFlowValue} (hk : m.flows.lookup k = some v)
    (hfwd : IsForward k v) : pairOf ⟨k, v⟩ = ordered k (k.reverseFor v) := by
  have hhair := (hm.directions.client k v hk hfwd).2
  rw [pairOf, canonicalFlowPair_eq, partner_of_not_reply hhair]

/-- Every entry is in the class of a client entry with its value. -/
theorem exists_client {e : (_ : NativeFlowKey) × NativeFlowValue} (he : e ∈ unexpired m now) :
    ∃ F, ⟨F, e.2⟩ ∈ unexpired m now ∧ IsForward F e.2 ∧ pairOf ⟨F, e.2⟩ = pairOf e := by
  obtain ⟨k, v⟩ := e
  obtain ⟨hk, hlive⟩ := mem_unexpired.mp he
  by_cases hfwd : IsForward k v
  · exact ⟨k, he, hfwd, rfl⟩
  · obtain ⟨hreply, hclient⟩ := hm.directions.reply k v hk hfwd
    have hF := isForward_forwardFor k v
    refine ⟨k.forwardFor v, mem_unexpired.mpr ⟨hclient, hlive⟩, hF, ?_⟩
    rw [pairOf_forward hm hclient hF, reverseFor_forwardFor hreply, pairOf, canonicalFlowPair_eq, partner_of_reply hreply,
      ordered_comm]

/-- Two client entries are in different classes. -/
theorem client_of_pair {k k' : NativeFlowKey} {v v' : NativeFlowValue}
    (hk : m.flows.lookup k = some v) (hfwd : IsForward k v) (hk' : m.flows.lookup k' = some v') (hfwd' : IsForward k' v')
    (hpair : pairOf ⟨k, v⟩ = pairOf ⟨k', v'⟩) : k = k' := by
  rw [pairOf_forward hm hk hfwd, pairOf_forward hm hk' hfwd', ordered_eq_iff, Sym2.eq_iff] at hpair
  rcases hpair with ⟨h, -⟩ | ⟨h, h'⟩
  · exact h
  · -- each would be the other's reply tuple
    exfalso
    refine hm.directions.apart k v v' hk hfwd (by rwa [h']) (by rwa [h']) ?_
    rw [h', ← h]

theorem label_of_pair {e e' : (_ : NativeFlowKey) × NativeFlowValue} (he : e ∈ unexpired m now)
    (he' : e' ∈ unexpired m now) (hpair : pairOf e = pairOf e') : labelOf e = labelOf e' := by
  obtain ⟨F, hF, hfwd, hclass⟩ := exists_client hm he
  obtain ⟨F', hF', hfwd', hclass'⟩ := exists_client hm he'
  obtain ⟨hlook, -⟩ := mem_unexpired.mp hF
  obtain ⟨hlook', -⟩ := mem_unexpired.mp hF'
  obtain rfl := client_of_pair hm hlook hfwd hlook' hfwd' (hclass.trans (hpair.trans hclass'.symm))
  have hvalue : e.2 = e'.2 := Option.some.inj (hlook.symm.trans hlook')
  rw [labelOf, labelOf, hvalue]

/-- The classes of a label are as many as its unexpired client entries. -/
theorem card_classes (now : UInt64) (l t : UInt32) :
    (classesOf pairOf labelOf (unexpired m now) ⟨l, t⟩).card =
      countEntries (fun k v => !v.expired now && namedClient l t k v) m.flows := by
  have hclients : ∀ e ∈ (unexpired m now).filter (fun e => namedClient l t e.1 e.2),
      m.flows.lookup e.1 = some e.2 ∧ IsForward e.1 e.2 := by
    intro e he
    obtain ⟨hmem, hnamed⟩ := List.mem_filter.mp he
    exact ⟨(mem_unexpired.mp hmem).1, (of_decide_eq_true hnamed).1⟩
  have hclasses : classesOf pairOf labelOf (unexpired m now) ⟨l, t⟩ =
      (((unexpired m now).filter fun e => namedClient l t e.1 e.2).map pairOf).toFinset := by
    ext c
    rw [mem_classesOf, List.mem_toFinset, List.mem_map]
    constructor
    · intro ⟨e, he, hlabel, hpair⟩
      obtain ⟨F, hF, hfwd, hclass⟩ := exists_client hm he
      obtain ⟨hl, ht⟩ := NativeTargetLoadKey.mk.inj hlabel
      exact ⟨⟨F, e.2⟩, List.mem_filter.mpr ⟨hF, decide_eq_true ⟨hfwd, hl, ht⟩⟩, hclass.trans hpair⟩
    · intro ⟨e, he, hpair⟩
      obtain ⟨hmem, hnamed⟩ := List.mem_filter.mp he
      obtain ⟨-, hl, ht⟩ := of_decide_eq_true hnamed
      exact ⟨e, hmem, by rw [labelOf, loadKey, hl, ht], hpair⟩
  have hnodup : (((unexpired m now).filter fun e => namedClient l t e.1 e.2).map pairOf).Nodup := by
    refine List.Nodup.map_on ?_ ((m.flows.nodupKeys.nodup.filter _).filter _)
    intro e he e' he' hpair
    obtain ⟨hk, hfwd⟩ := hclients e he
    obtain ⟨hk', hfwd'⟩ := hclients e' he'
    have hkey := client_of_pair hm hk hfwd hk' hfwd' hpair
    have hvalue : e.2 = e'.2 := by
      rw [hkey] at hk
      exact Option.some.inj (hk.symm.trans hk')
    exact Sigma.ext hkey (heq_of_eq hvalue)
  rw [hclasses, List.toFinset_card_of_nodup hnodup, List.length_map, countEntries, List.countP_eq_length_filter, unexpired,
    List.filter_filter]
  simp only [Bool.and_comm]

/-- A sweep recomputes the counters from the entries alone. -/
theorem Accounted.sweepExact : SweepExact m := by
  intro now l t
  have hlen : (unexpired m now).length < 2 ^ 32 := by
    have hle : (unexpired m now).length ≤ m.flows.entries.length := List.length_filter_le ..
    have hfits := hm.fits
    unfold NATIVE_FLOW_MAP_CAPACITY at hfits
    omega
  rw [sweep_load, tally_count (fun e he e' he' => label_of_pair hm he he') hlen, card_classes hm]

/-- A sweep keeps the counters right and the directions apart. -/
theorem sweep_accounted (now : UInt64) : Accounted (sweepFlowsAndRefreshLoads m now).1 := by
  have hkept : ∀ {k v}, (sweepFlowsAndRefreshLoads m now).1.flows.lookup k = some v ↔
      m.flows.lookup k = some v ∧ v.expired now = false := by
    intro k v
    rw [sweep_lookup, Option.filter_eq_some_iff]
    simp
  have hcut : ∀ p, countEntries p (sweepFlowsAndRefreshLoads m now).1.flows =
      countEntries (fun k v => !v.expired now && p k v) m.flows := fun p => countEntries_filter sweep_lookup
  refine ⟨?_, hm.directions.restrict (fun hk => (hkept.mp hk).1) ?_, ?_⟩
  · intro l t
    rw [hm.sweepExact now l t, hcut]
  · intro k v hk hnot
    obtain ⟨hold, hlive⟩ := hkept.mp hk
    have hclient := (hm.directions.reply k v hold hnot).2
    rw [hclient, hkept]
    exact ⟨hclient, hlive⟩
  · have hall : ∀ f : BpfMap NativeFlowKey NativeFlowValue, f.entries.length = countEntries (fun _ _ => true) f := by
      intro f
      simp [countEntries]
    have hle : countEntries (fun _ v => !v.expired now && true) m.flows ≤ m.flows.entries.length := countEntries_le
    have hfits := hm.fits
    rw [hall, hcut]
    omega

end

end Sweeps

/-! ## Runs -/

theorem step_accounted {K : Kernel} (m : Maps) (e : Traffic) (hm : Accounted m) (he : Admissible m e) :
    Accounted (stepTraffic K m e) := by
  cases e with
  | packet e =>
    cases e with
    | ingress p now => exact ingress_accounted hm he.1 he.2
    | ret p now => exact return_accounted hm he.1 he.2
  | sweep now => exact sweep_accounted hm now

/-- Every run of directed packets and of sweeps, at any clock readings, over any listener and target
    maps: the counters are the numbers of client entries, and a sweep at any time recomputes the
    numbers of unexpired ones. -/
theorem active_flows_counted {K : Kernel} {m₀ : Maps} (hflows : m₀.flows = ∅) (hactive : m₀.activeFlows = ∅)
    {es : List Traffic} (hmeet : StepsMeet (stepTraffic K) Admissible m₀ es) :
    Counted (run (stepTraffic K) m₀ es) ∧ SweepExact (run (stepTraffic K) m₀ es) := by
  have hstart : Accounted m₀ := by
    refine ⟨?_, ?_, ?_⟩
    · intro l t
      rw [hflows, loadOf, hactive]
      rfl
    · rw [hflows]
      exact directional_empty
    · rw [hflows]
      exact Nat.zero_le _
  have hend : Accounted (run (stepTraffic K) m₀ es) := inv_run (stepTraffic K) step_accounted hstart hmeet
  exact ⟨hend.counted, hend.sweepExact⟩

/-- Directed packets and sweeps keep the two directions of the flow map apart and never overfill it. -/
theorem directions_kept {K : Kernel} {m₀ : Maps} (hstart : Accounted m₀) {es : List Traffic}
    (hmeet : StepsMeet (stepTraffic K) Admissible m₀ es) :
    Directional (run (stepTraffic K) m₀ es).flows ∧
      (run (stepTraffic K) m₀ es).flows.entries.length ≤ NATIVE_FLOW_MAP_CAPACITY := by
  have hend : Accounted (run (stepTraffic K) m₀ es) := inv_run (stepTraffic K) step_accounted hstart hmeet
  exact ⟨hend.directions, hend.fits⟩

/-- A reply that enters on the underlay device meets the ingress program. After the idle timeout
    it drops the reply entry and the count, and the client entry stays. Before, it adds an
    entry, and a sweep counts two flows where there is one. -/
theorem reply_on_ingress_miscounts :
    (let s := run (stepTraffic quietKernel) twoVipMaps
      [.packet (.ingress (toVip 0xc000020a) 1000), .packet (.ingress replyToClient 300000000000)]
    loadOf s 2277 0 = 0 ∧ countEntries (namedClient 2277 0) s.flows = 1) ∧
    (let s := run (stepTraffic quietKernel) twoVipMaps
      [.packet (.ingress (toVip 0xc000020a) 1000), .packet (.ingress replyToClient 2000)]
    loadOf (sweepFlowsAndRefreshLoads s 3000).1 2277 0 = 2 ∧
      countEntries (fun k v => !v.expired 3000 && namedClient 2277 0 k v) s.flows = 1) := by
  decide

/-- One client socket through both VIPs to one target, a reply, and a sweep: the two flows share a
    reply slot and are counted right. -/
theorem shared_reply_slot_counted :
    let s := run (stepTraffic quietKernel) twoVipMaps
      [.packet (.ingress (toVip 0xc000020a) 1000), .packet (.ingress (toVip 0xc000021e) 2000),
        .packet (.ret replyToClient 3000), .sweep 4000]
    Counted s ∧ SweepExact s :=
  active_flows_counted rfl rfl (by decide)

theorem shared_reply_slot_directed :
    Directional (run (stepTraffic quietKernel) twoVipMaps
      [.packet (.ingress (toVip 0xc000020a) 1000), .packet (.ingress (toVip 0xc000021e) 2000), .sweep 4000]).flows := by
  have hstart : Accounted twoVipMaps := ⟨fun _ _ => rfl, directional_empty, Nat.zero_le _⟩
  exact (directions_kept hstart (by decide)).1

end EdgeLb.Datapath
