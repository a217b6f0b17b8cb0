/-
  EdgeLb.Datapath.Interleave — packets that open flows while the agent rewrites the
  pinned maps one entry at a time.

  `DrawnFrom ids m`: every listener entry carries the id one of the assignments gives its
  socket, every target entry is a target of a listener that has its id in one of them. A
  full sync leaves its own assignment and nothing else (`drawnFrom_publish`). From there,
  while the writes of the next update run, entries of both assignments stand side by
  side; a packet reads its listener in one of these states and its target in a later one.

  So a packet can only be led astray by an id that stands for one socket in the old
  assignment and for another in the new one. Ids are hashes modulo 4096, moved on at a
  collision, so that does happen: adding a listener can take the id of one that stays
  (`opened_to_foreign_target`). Without such an id every opening is the listener's own
  (`opened_target_is_own`).
-/

import EdgeLb.Datapath.Publish
import EdgeLb.Lib.Check
import EdgeLb.Lib.MapSync

namespace EdgeLb.Datapath

open EdgeLb.Common EdgeLb.Lib EdgeLb.Provider EdgeLb.Config

/-! ## Ids are unique within an assignment -/

theorem probeId_not_mem {used : List UInt32} {fuel : Nat} {start id : UInt32}
    (h : probeId used fuel start = some id) : id ∉ used := by
  induction fuel generalizing start with
  | zero => cases h
  | succ fuel ih =>
    unfold probeId at h
    split at h
    · exact ih h
    · rename_i hnot
      obtain rfl := Option.some.inj h
      exact hnot

theorem assignIds_nodup (ls : List NativeListener) (used : List UInt32) :
    ((assignIds ls used).map (·.1)).Nodup ∧ ∀ a ∈ assignIds ls used, a.1 ∉ used := by
  induction ls generalizing used with
  | nil => simp [assignIds]
  | cons l ls ih =>
    unfold assignIds
    cases h : probeId used NATIVE_LISTENER_ID_CAPACITY.toNat (stableListenerId l.key) with
    | none => exact ih used
    | some id =>
      obtain ⟨hnodup, hfresh⟩ := ih (id :: used)
      have hhead : id ∉ (assignIds ls (id :: used)).map (·.1) := by
        intro hmem
        obtain ⟨a, ha, heq⟩ := List.mem_map.mp hmem
        exact hfresh a ha (heq ▸ List.mem_cons_self ..)
      refine ⟨List.nodup_cons.mpr ⟨hhead, hnodup⟩, ?_⟩
      intro a ha
      rcases List.mem_cons.mp ha with rfl | ha
      · exact probeId_not_mem h
      · exact fun hu => hfresh a ha (List.mem_cons_of_mem _ hu)

theorem assignIds_subset (ls : List NativeListener) (used : List UInt32) : ∀ a ∈ assignIds ls used, a.2 ∈ ls := by
  induction ls generalizing used with
  | nil => simp [assignIds]
  | cons l ls ih =>
    intro a ha
    unfold assignIds at ha
    split at ha
    · rcases List.mem_cons.mp ha with rfl | ha
      · exact List.mem_cons_self ..
      · exact List.mem_cons_of_mem _ (ih _ a ha)
    · exact List.mem_cons_of_mem _ (ih _ a ha)

section assignments

variable {listeners : List NativeListener} {ids : Assignments} (h : stableListenerAssignments listeners = .ok ids)
include h

theorem assignments_eq : ids = assignIds (sortListeners listeners) [] := by
  unfold stableListenerAssignments at h
  split at h
  · cases h
  dsimp only at h
  split at h
  · cases h
  · exact (Except.ok.inj h).symm

/-- One id, one listener. -/
theorem assignments_inj {a b : UInt32 × NativeListener} (ha : a ∈ ids) (hb : b ∈ ids) (hid : a.1 = b.1) : a = b := by
  rw [assignments_eq h] at ha hb
  exact List.inj_on_of_nodup_map (assignIds_nodup _ _).1 ha hb hid

theorem assignments_mem {a : UInt32 × NativeListener} (ha : a ∈ ids) : a.2 ∈ listeners := by
  rw [assignments_eq h] at ha
  exact (List.perm_insertionSort _ _).mem_iff.mp (assignIds_subset _ _ a ha)

end assignments

/-! ## Entries drawn from assignments -/

structure DrawnFrom (ids : Assignments) (m : Maps) : Prop where
  listeners : ∀ k v, m.listeners.lookup k = some v → ∃ a ∈ ids, lookupKey a.2.key = k ∧ v.listenerId = a.1
  targets : ∀ k t, m.targets.lookup k = some t →
    ∃ a ∈ ids, a.1 = k.listenerId ∧ ∃ target ∈ a.2.targets, t = targetValue target

theorem DrawnFrom.mono {ids ids' : Assignments} {m : Maps} (h : DrawnFrom ids m) (hsub : ∀ a ∈ ids, a ∈ ids') :
    DrawnFrom ids' m where
  listeners k v hk := by
    obtain ⟨a, ha, h⟩ := h.listeners k v hk
    exact ⟨a, hsub a ha, h⟩
  targets k t hk := by
    obtain ⟨a, ha, h⟩ := h.targets k t hk
    exact ⟨a, hsub a ha, h⟩

/-- A write of an entry that the assignment gives; removals and buckets are free. -/
def WriteFrom (ids : Assignments) : MapWrite → Prop
  | .putListener k v => ∃ a ∈ ids, lookupKey a.2.key = k ∧ v.listenerId = a.1
  | .putTarget k t => ∃ a ∈ ids, a.1 = k.listenerId ∧ ∃ target ∈ a.2.targets, t = targetValue target
  | _ => True

theorem WriteFrom.mono {ids ids' : Assignments} {w : MapWrite} (h : WriteFrom ids w) (hsub : ∀ a ∈ ids, a ∈ ids') :
    WriteFrom ids' w := by
  cases w with
  | putListener k v =>
    obtain ⟨a, ha, h⟩ := h
    exact ⟨a, hsub a ha, h⟩
  | putTarget k t =>
    obtain ⟨a, ha, h⟩ := h
    exact ⟨a, hsub a ha, h⟩
  | _ => trivial

variable {ids : Assignments}

theorem applyWrite_drawnFrom {m : Maps} {w : MapWrite} (hm : DrawnFrom ids m)
    (hw : WriteFrom ids w) : DrawnFrom ids (applyWrite m w) := by
  refine ⟨?_, ?_⟩
  · intro k v hk
    cases w with
    | putListener k' v' =>
      by_cases heq : k = k'
      · subst heq
        rw [show (applyWrite m (.putListener k v')).listeners = m.listeners.insert k v' from rfl,
          AList.lookup_insert] at hk
        obtain rfl := Option.some.inj hk
        exact hw
      · exact hm.listeners k v (by rwa [← AList.lookup_insert_ne heq])
    | delListener k' =>
      by_cases heq : k = k'
      · subst heq
        rw [show (applyWrite m (.delListener k)).listeners = m.listeners.erase k from rfl,
          AList.lookup_erase] at hk
        cases hk
      · exact hm.listeners k v (by rwa [← AList.lookup_erase_ne heq])
    | _ => exact hm.listeners k v hk
  · intro k t hk
    cases w with
    | putTarget k' t' =>
      by_cases heq : k = k'
      · subst heq
        rw [show (applyWrite m (.putTarget k t')).targets = m.targets.insert k t' from rfl,
          AList.lookup_insert] at hk
        obtain rfl := Option.some.inj hk
        exact hw
      · exact hm.targets k t (by rwa [← AList.lookup_insert_ne heq])
    | delTarget k' =>
      by_cases heq : k = k'
      · subst heq
        rw [show (applyWrite m (.delTarget k)).targets = m.targets.erase k from rfl,
          AList.lookup_erase] at hk
        cases hk
      · exact hm.targets k t (by rwa [← AList.lookup_erase_ne heq])
    | _ => exact hm.targets k t hk

/-! ## The writes of an update are drawn from its assignment -/

theorem mem_andThen {a b : Pass} {w : MapWrite} (h : w ∈ (a.andThen b).1) : w ∈ a.1 ∨ w ∈ b.1 := by
  obtain ⟨ws, r⟩ := a
  cases r with
  | ok => exact List.mem_append.mp h
  | error => exact .inl h

theorem mem_targetEntries {obs : Option (List TargetHealthEntry)} {id : UInt32} {l : NativeListener}
    {e : NativeTargetKey × NativeTargetValue} (h : e ∈ targetEntries obs id l) :
    id = e.1.listenerId ∧ ∃ target ∈ l.targets, e.2 = targetValue target := by
  obtain ⟨⟨t, i⟩, hmem, rfl⟩ := List.mem_map.mp h
  exact ⟨rfl, t, List.fst_mem_of_mem_zipIdx (List.mem_filter.mp hmem).1, rfl⟩

section writes

variable {obs : Option (List TargetHealthEntry)} {ids : Assignments} {m : Maps} {w : MapWrite}

theorem syncListenerMap_from (h : w ∈ (syncListenerMap obs ids m).1) : WriteFrom ids w := by
  rcases List.mem_append.mp h with h | h
  · obtain ⟨a, ha, rfl⟩ := List.mem_map.mp h
    exact ⟨a, ha, rfl, rfl⟩
  · obtain ⟨k, -, rfl⟩ := List.mem_map.mp h
    trivial

theorem putTargets_from {sub : Assignments} (hsub : ∀ a ∈ sub, a ∈ ids) (h : w ∈ (putTargets obs sub).1) :
    WriteFrom ids w := by
  induction sub with
  | nil => cases h
  | cons a sub ih =>
    obtain ⟨id, l⟩ := a
    rcases mem_andThen h with h | h
    · cases h
    rcases mem_andThen h with h | h
    · obtain ⟨e, he, rfl⟩ := List.mem_map.mp h
      exact ⟨(id, l), hsub _ (List.mem_cons_self ..), mem_targetEntries he⟩
    · exact ih (fun a ha => hsub a (List.mem_cons_of_mem _ ha)) h

theorem syncTargetMap_from (h : w ∈ (syncTargetMap obs ids m).1) : WriteFrom ids w := by
  rcases mem_andThen h with h | h
  · exact putTargets_from (fun _ h => h) h
  · obtain ⟨k, -, rfl⟩ := List.mem_map.mp h
    trivial

theorem syncConsistentHashBucketMap_from (h : w ∈ (syncConsistentHashBucketMap obs ids m).1) : WriteFrom ids w := by
  unfold syncConsistentHashBucketMap at h
  split at h
  · cases h
  · rcases List.mem_append.mp h with h | h
    · obtain ⟨e, -, rfl⟩ := List.mem_map.mp h
      trivial
    · obtain ⟨k, -, rfl⟩ := List.mem_map.mp h
      trivial

theorem refreshListenerWeights_from (h : w ∈ (refreshListenerWeights obs ids m).1) : WriteFrom ids w := by
  obtain ⟨a, ha, hw⟩ := List.mem_filterMap.mp h
  obtain ⟨v, -, rfl⟩ := Option.map_eq_some_iff.mp hw
  exact ⟨a, ha, rfl, rfl⟩

end writes

/-- The writes of either update: a sync, or a health refresh. -/
def updateWrites (obs : Observations) (listeners : List NativeListener) (m : Maps) : Bool → List MapWrite
  | true => (syncPinnedDatapath obs listeners m).1
  | false => (refreshTargetHealth obs listeners m).1

theorem updateWrites_from {obs : Observations} {listeners : List NativeListener} {m : Maps}
    {sync : Bool} (hids : stableListenerAssignments listeners = .ok ids) :
    ∀ w ∈ updateWrites obs listeners m sync, WriteFrom ids w := by
  intro w h
  cases sync with
  | true =>
    unfold updateWrites syncPinnedDatapath at h
    rw [hids] at h
    rcases mem_andThen h with h | h
    · rcases mem_andThen h with h | h
      · exact syncListenerMap_from h
      · exact syncTargetMap_from h
    · exact syncConsistentHashBucketMap_from h
  | false =>
    unfold updateWrites refreshTargetHealth at h
    rw [hids] at h
    rcases mem_andThen h with h | h
    · rcases mem_andThen h with h | h
      · exact syncTargetMap_from h
      · exact syncConsistentHashBucketMap_from h
    · exact refreshListenerWeights_from h

/-! ## What a finished sync leaves -/

section publish

variable (m : Maps)

theorem run_putListeners (es : List (NativeListenerLookupKey × NativeListenerLookupValue)) :
    run applyWrite m (es.map fun e => .putListener e.1 e.2) = { m with listeners := insertAll m.listeners es } := by
  induction es generalizing m with
  | nil => rfl
  | cons e es ih => exact ih _

theorem run_delListeners (ks : List NativeListenerLookupKey) :
    run applyWrite m (ks.map .delListener) = { m with listeners := eraseAll m.listeners ks } := by
  induction ks generalizing m with
  | nil => rfl
  | cons k ks ih => exact ih _

theorem run_putTargets (es : List (NativeTargetKey × NativeTargetValue)) :
    run applyWrite m (es.map fun e => .putTarget e.1 e.2) = { m with targets := insertAll m.targets es } := by
  induction es generalizing m with
  | nil => rfl
  | cons e es ih => exact ih _

theorem run_delTargets (ks : List NativeTargetKey) :
    run applyWrite m (ks.map .delTarget) = { m with targets := eraseAll m.targets ks } := by
  induction ks generalizing m with
  | nil => rfl
  | cons k ks ih => exact ih _

theorem run_putBuckets (es : List (NativeConsistentHashBucketKey × NativeConsistentHashBucketValue)) :
    run applyWrite m (es.map fun e => .putBucket e.1 e.2) = { m with chashBuckets := insertAll m.chashBuckets es } := by
  induction es generalizing m with
  | nil => rfl
  | cons e es ih => exact ih _

theorem run_delBuckets (ks : List NativeConsistentHashBucketKey) :
    run applyWrite m (ks.map .delBucket) = { m with chashBuckets := eraseAll m.chashBuckets ks } := by
  induction ks generalizing m with
  | nil => rfl
  | cons k ks ih => exact ih _

/-- The listener map a listener pass leaves. -/
def syncedListeners (obs : Option (List TargetHealthEntry)) (ids : Assignments) :
    BpfMap NativeListenerLookupKey NativeListenerLookupValue :=
  eraseAll (insertAll m.listeners (ids.map fun a => (lookupKey a.2.key, lookupValue obs a.1 a.2)))
    (m.listeners.keys.filter fun k => k ∉ ids.map fun a => lookupKey a.2.key)

/-- The target map a finished target pass leaves. -/
def syncedTargets (obs : Option (List TargetHealthEntry)) (ids : Assignments) :
    BpfMap NativeTargetKey NativeTargetValue :=
  eraseAll (insertAll m.targets (ids.flatMap fun a => targetEntries obs a.1 a.2))
    (m.targets.keys.filter fun k => k ∉ ids.flatMap fun a => (targetEntries obs a.1 a.2).map (·.1))

/-- The bucket map a finished bucket pass leaves. -/
def syncedBuckets (obs : Option (List TargetHealthEntry)) (ids : Assignments) :
    BpfMap NativeConsistentHashBucketKey NativeConsistentHashBucketValue :=
  eraseAll (insertAll m.chashBuckets (ids.flatMap fun a => bucketEntries obs a.1 a.2))
    (m.chashBuckets.keys.filter fun k => k ∉ (ids.flatMap fun a => bucketEntries obs a.1 a.2).map (·.1))

variable {obs : Option (List TargetHealthEntry)}

theorem mem_syncedListeners {ids : Assignments}
    {k : NativeListenerLookupKey} {v : NativeListenerLookupValue} (h : (syncedListeners m obs ids).lookup k = some v) :
    ∃ a ∈ ids, lookupKey a.2.key = k ∧ v = lookupValue obs a.1 a.2 := by
  have hmem := lookup_synced (by intro k hk hnot; simp at hnot ⊢; exact ⟨hk, hnot⟩) h
  obtain ⟨a, ha, heq⟩ := List.mem_map.mp hmem
  cases heq
  exact ⟨a, ha, rfl, rfl⟩

theorem mem_syncedTargets {ids : Assignments} {k : NativeTargetKey}
    {t : NativeTargetValue} (h : (syncedTargets m obs ids).lookup k = some t) :
    ∃ a ∈ ids, a.1 = k.listenerId ∧ ∃ target ∈ a.2.targets, t = targetValue target := by
  have hmem := lookup_synced (by intro k hk hnot; simp [List.map_flatMap] at hnot ⊢; exact ⟨hk, hnot⟩) h
  obtain ⟨a, ha, he⟩ := List.mem_flatMap.mp hmem
  exact ⟨a, ha, mem_targetEntries he⟩

theorem run_syncListenerMap (obs : Option (List TargetHealthEntry)) (ids : Assignments) :
    run applyWrite m (syncListenerMap obs ids m).1 = { m with listeners := syncedListeners m obs ids } := by
  have hputs : ids.map (fun a => MapWrite.putListener (lookupKey a.2.key) (lookupValue obs a.1 a.2)) =
      (ids.map fun a => (lookupKey a.2.key, lookupValue obs a.1 a.2)).map fun e => .putListener e.1 e.2 := by
    rw [List.map_map]; rfl
  simp only [syncListenerMap, run_append]
  rw [hputs, run_putListeners, run_delListeners]
  rfl

/-- A finished insert pass wrote the entries of every listener. -/
theorem putTargets_ok {ids : Assignments} (h : (putTargets obs ids).2 = .ok ()) :
    (putTargets obs ids).1 = (ids.flatMap fun a => targetEntries obs a.1 a.2).map fun e => .putTarget e.1 e.2 := by
  induction ids with
  | nil => rfl
  | cons a ids ih =>
    obtain ⟨id, l⟩ := a
    unfold putTargets at h ⊢
    cases hv : validateListenerTargetCount l with
    | error e => rw [hv] at h; cases h
    | ok =>
      rw [hv] at h
      simp only [Pass.andThen, List.nil_append] at h ⊢
      rw [ih h]
      simp

theorem run_syncTargetMap {ids : Assignments} {m₀ : Maps}
    (hsame : m.targets = m₀.targets) (h : (syncTargetMap obs ids m₀).2 = .ok ()) :
    run applyWrite m (syncTargetMap obs ids m₀).1 = { m with targets := syncedTargets m₀ obs ids } := by
  unfold syncTargetMap at h ⊢
  cases hput : putTargets obs ids with
  | mk ws r =>
    cases r with
    | error e => rw [hput] at h; cases h
    | ok =>
      have hws := putTargets_ok (by rw [hput])
      rw [hput] at hws
      dsimp only at hws
      simp only [Pass.andThen, run_append]
      rw [hws, run_putTargets, run_delTargets, hsame]
      rfl

theorem run_syncConsistentHashBucketMap {ids : Assignments} {m₀ : Maps}
    (hsame : m.chashBuckets = m₀.chashBuckets) (h : (syncConsistentHashBucketMap obs ids m₀).2 = .ok ()) :
    run applyWrite m (syncConsistentHashBucketMap obs ids m₀).1 = { m with chashBuckets := syncedBuckets m₀ obs ids } := by
  unfold syncConsistentHashBucketMap at h ⊢
  split at h
  · cases h
  · dsimp only
    rw [run_append, run_putBuckets, run_delBuckets, hsame]
    rfl

end publish

theorem andThen_ok {a b : Pass} (h : (a.andThen b).2 = .ok ()) :
    a.2 = .ok () ∧ b.2 = .ok () ∧ (a.andThen b).1 = a.1 ++ b.1 := by
  obtain ⟨ws, r⟩ := a
  cases r with
  | ok => exact ⟨rfl, h, rfl⟩
  | error => cases h

theorem andThen_finishes {a b : Pass} (ha : a.2 = .ok ()) (hb : b.2 = .ok ()) : (a.andThen b).2 = .ok () := by
  obtain ⟨ws, r⟩ := a
  obtain rfl : r = .ok () := ha
  exact hb

theorem putTargets_finishes {observed : Option (List TargetHealthEntry)}
    (h : ∀ a ∈ ids, validateListenerTargetCount a.2 = .ok ()) : (putTargets observed ids).2 = .ok () := by
  induction ids with
  | nil => rfl
  | cons a ids ih =>
    have hrest := ih fun b hb => h b (List.mem_cons_of_mem a hb)
    exact andThen_finishes (h a List.mem_cons_self) (andThen_finishes rfl hrest)

/-- A sync finishes when every listener has an id and no more targets than slots. -/
theorem sync_finishes {obs : Observations} {listeners : List NativeListener}
    (hids : stableListenerAssignments listeners = .ok ids)
    (hcounts : ∀ a ∈ ids, a.2.targets.length ≤ MAX_TARGETS_PER_LISTENER.toNat) (m : Maps) :
    (syncPinnedDatapath obs listeners m).2 = .ok () := by
  have hvalid : ∀ a ∈ ids, validateListenerTargetCount a.2 = .ok () := by
    intro a ha
    exact if_neg (Nat.not_lt.mpr (hcounts a ha))
  have htargets : (syncTargetMap obs.second ids m).2 = .ok () := andThen_finishes (putTargets_finishes hvalid) rfl
  have hbuckets : (syncConsistentHashBucketMap obs.third ids m).2 = .ok () := by
    obtain ⟨out, hout⟩ := exists_mapM_eq_ok fun a ha => ⟨(), hvalid a ha⟩
    unfold syncConsistentHashBucketMap
    rw [hout]
  unfold syncPinnedDatapath
  rw [hids]
  exact andThen_finishes (andThen_finishes rfl htargets) hbuckets

section finished

variable {obs : Observations} {listeners : List NativeListener} {ids : Assignments} {m : Maps}
  (hids : stableListenerAssignments listeners = .ok ids) (hok : (syncPinnedDatapath obs listeners m).2 = .ok ())
include hids hok

theorem publish_eq : (syncTargetMap obs.second ids m).2 = .ok () ∧
    publish obs listeners m = { m with
      listeners := syncedListeners m obs.first ids
      targets := syncedTargets m obs.second ids
      chashBuckets := syncedBuckets m obs.third ids } := by
  unfold publish syncPinnedDatapath at *
  rw [hids] at *
  dsimp only at *
  obtain ⟨hlt, hb, hws⟩ := andThen_ok hok
  obtain ⟨-, ht, hws'⟩ := andThen_ok hlt
  refine ⟨ht, ?_⟩
  rw [hws, hws', run_append, run_append, run_syncListenerMap, run_syncTargetMap _ (by rfl) ht,
    run_syncConsistentHashBucketMap _ (by rfl) hb]

theorem published_listener {k : NativeListenerLookupKey} {v : NativeListenerLookupValue}
    (h : (publish obs listeners m).listeners.lookup k = some v) :
    ∃ a ∈ ids, lookupKey a.2.key = k ∧ v = lookupValue obs.first a.1 a.2 := by
  rw [(publish_eq hids hok).2] at h
  exact mem_syncedListeners m h

/-- Whatever the maps held before, a finished sync leaves entries of its own assignment only. -/
theorem drawnFrom_publish : DrawnFrom ids (publish obs listeners m) := by
  refine ⟨?_, ?_⟩
  · intro k v hv
    obtain ⟨a, ha, hkey, rfl⟩ := published_listener hids hok hv
    exact ⟨a, ha, hkey, rfl⟩
  · intro k t ht
    rw [(publish_eq hids hok).2] at ht
    exact mem_syncedTargets m ht

end finished

/-! ## Packets between the writes -/

/-- One step of the interleaving: a single map write, or a program run on a packet. -/
inductive SyncEv
  | write (w : MapWrite)
  | packet (e : Ev)

def stepSync (K : Kernel) (m : Maps) : SyncEv → Maps
  | .write w => applyWrite m w
  | .packet e => stepEv K m e

/-- The writes among the steps, in order. -/
def writesOf (es : List SyncEv) : List MapWrite :=
  es.filterMap fun
    | .write w => some w
    | .packet _ => none

/-- Between the writes of an update, every entry is the old assignment's or the new one's. -/
theorem run_drawnFrom {K : Kernel} {m : Maps} {es : List SyncEv} (hm : DrawnFrom ids m)
    (hes : ∀ w ∈ writesOf es, WriteFrom ids w) : DrawnFrom ids (run (stepSync K) m es) := by
  induction es generalizing m with
  | nil => exact hm
  | cons e es ih =>
    cases e with
    | write w =>
      refine ih (applyWrite_drawnFrom hm (hes w (by simp [writesOf]))) ?_
      exact fun w' hw' => hes w' (by simp only [writesOf, List.filterMap_cons]; exact List.mem_cons_of_mem _ hw')
    | packet e =>
      refine ih ⟨?_, ?_⟩ (fun w hw => hes w hw)
      · rw [show (stepSync K m (.packet e)).listeners = m.listeners from (stepEv_config K m e).1]
        exact hm.listeners
      · rw [show (stepSync K m (.packet e)).targets = m.targets from (stepEv_config K m e).2]
        exact hm.targets

/-- `t` is a target of the listener that has the socket `key` in this configuration. -/
def Owns (listeners : List NativeListener) (key : NativeListenerLookupKey) (t : NativeTargetValue) : Prop :=
  ∃ l ∈ listeners, lookupKey l.key = key ∧ ∃ target ∈ l.targets, target.address = t.address ∧ target.port = t.port

instance (ls : List NativeListener) (k : NativeListenerLookupKey) (t : NativeTargetValue) : Decidable (Owns ls k t) :=
  inferInstanceAs (Decidable (∃ l ∈ ls, _))

/-- The target an opening ends up with, when the listener entry is read in `s₁` and the
    target entry in `s₂`. -/
def Reads (s₁ s₂ : Maps) (p : Skb) (t : NativeTargetValue) : Prop :=
  ∃ listener targetId, s₁.listeners.lookup (listenerKey p) = some listener ∧
    s₂.targets.lookup ⟨listener.listenerId, targetId⟩ = some t

/-- With ids that mean one socket in all the assignments the entries are drawn from, what a
    packet reads is a target of the listener it addresses. -/
theorem reads_owned {s₁ s₂ : Maps} {p : Skb} {t : NativeTargetValue}
    (hids : ∀ a ∈ ids, ∀ b ∈ ids, a.1 = b.1 → a.2.key = b.2.key) (h₁ : DrawnFrom ids s₁) (h₂ : DrawnFrom ids s₂)
    (h : Reads s₁ s₂ p t) : ∃ a ∈ ids, lookupKey a.2.key = listenerKey p ∧
      ∃ target ∈ a.2.targets, target.address = t.address ∧ target.port = t.port := by
  obtain ⟨listener, targetId, hl, ht⟩ := h
  obtain ⟨a, ha, hkey, hid⟩ := h₁.listeners _ _ hl
  obtain ⟨b, hb, hid', target, htarget, rfl⟩ := h₂.targets _ _ ht
  have hsame : a.2.key = b.2.key := hids a ha b hb (hid.symm.trans hid'.symm)
  exact ⟨b, hb, by rw [← hsame, hkey], target, htarget, rfl, rfl⟩

/-- While the writes of a sync or of a health refresh run, interleaved with packets in any
    way, from maps that hold the old assignment: if no id means one socket in the old
    assignment and another in the new one, the target a packet is sent to is one that the
    listener it addresses has in the old or in the new configuration. -/
theorem opened_target_is_own {K : Kernel} {old new : List NativeListener} {oldIds newIds : Assignments}
    (hold : stableListenerAssignments old = .ok oldIds) (hnew : stableListenerAssignments new = .ok newIds)
    (hshare : ∀ a ∈ oldIds, ∀ b ∈ newIds, a.1 = b.1 → a.2.key = b.2.key) {m : Maps} (hm : DrawnFrom oldIds m)
    {obs : Observations} {sync : Bool} {es₁ es₂ : List SyncEv}
    (hes : writesOf (es₁ ++ es₂) <+: updateWrites obs new m sync) {p : Skb} {t : NativeTargetValue}
    (h : Reads (run (stepSync K) m es₁) (run (stepSync K) m (es₁ ++ es₂)) p t) :
    Owns old (listenerKey p) t ∨ Owns new (listenerKey p) t := by
  have hids : ∀ a ∈ oldIds ++ newIds, ∀ b ∈ oldIds ++ newIds, a.1 = b.1 → a.2.key = b.2.key := by
    intro a ha b hb hid
    rcases List.mem_append.mp ha with ha | ha <;> rcases List.mem_append.mp hb with hb | hb
    · rw [assignments_inj hold ha hb hid]
    · exact hshare a ha b hb hid
    · exact (hshare b hb a ha hid.symm).symm
    · rw [assignments_inj hnew ha hb hid]
  have hfrom : ∀ w ∈ writesOf (es₁ ++ es₂), WriteFrom (oldIds ++ newIds) w := fun w hw =>
    (updateWrites_from hnew w (hes.subset hw)).mono fun a ha => List.mem_append_right _ ha
  have hmix : DrawnFrom (oldIds ++ newIds) m := hm.mono fun a ha => List.mem_append_left _ ha
  have h₁ : DrawnFrom (oldIds ++ newIds) (run (stepSync K) m es₁) :=
    run_drawnFrom hmix fun w hw => hfrom w (by rw [writesOf, List.filterMap_append]; exact List.mem_append_left _ hw)
  obtain ⟨a, ha, hkey, htarget⟩ := reads_owned hids h₁ (run_drawnFrom hmix hfrom) h
  rcases List.mem_append.mp ha with ha | ha
  · exact .inl ⟨a.2, assignments_mem hold ha, hkey, htarget⟩
  · exact .inr ⟨a.2, assignments_mem hnew ha, hkey, htarget⟩

/-! ## A taken id

The gateway 192.0.2.10. The sockets of ports 1614 and 2048 hash to one id; the one with
the lower port is assigned first. -/

def onPort (port : UInt16) (backend : UInt32) : NativeListener :=
  { name := "service", targetGroup := "service", key := ⟨0xc000020a, port, .tcp⟩, select := NATIVE_SELECT_RR
    inactiveTimeoutSecs := 240, dscp := 46, targets := [⟨backend, 9090, 1⟩] }

def unobserved : Observations := ⟨none, none, none⟩

/-- Port 2048 served by 192.0.2.20. -/
def portBefore : Maps := publish unobserved [onPort 2048 0xc0000214] {}

/-- Adding port 1614, served by 192.0.2.21, takes the id of port 2048: after the first write
    of the sync a client of port 1614 is sent to port 2048's backend. -/
theorem opened_to_foreign_target :
    let old := [onPort 2048 0xc0000214]
    let new := [onPort 2048 0xc0000214, onPort 1614 0xc0000215]
    let ws := (syncPinnedDatapath unobserved new portBefore).1
    let s := run (stepSync quietKernel) portBefore ((ws.take 1).map .write)
    let p := tcpPacket 0xc6336407 40000 0xc000020a 1614
    (syncPinnedDatapath unobserved old {}).2 = .ok () ∧ (syncPinnedDatapath unobserved new portBefore).2 = .ok () ∧
      ∃ o, (pick s p).1 = some o ∧ o.target.address = 0xc0000214 ∧
        ¬ Owns old (listenerKey p) o.target ∧ ¬ Owns new (listenerKey p) o.target := by
  refine ⟨by decide, by decide, ⟨⟨3130, 0, 1, 1, 0, 1, 240, 46⟩, 0, ⟨0xc0000214, 9090, 1, 1⟩⟩, ?_⟩
  decide

/-- Adding port 1615 instead, no id changes its meaning: a client of port 2048 that reads its
    listener after the first write and its target after the third keeps its backend. -/
theorem opened_to_own_target :
    let old := [onPort 2048 0xc0000214]
    let new := [onPort 2048 0xc0000214, onPort 1615 0xc0000215]
    let key := listenerKey (tcpPacket 0xc6336407 40000 0xc000020a 2048)
    Owns old key ⟨0xc0000214, 9090, 1, 1⟩ ∨ Owns new key ⟨0xc0000214, 9090, 1, 1⟩ := by
  let p := tcpPacket 0xc6336407 40000 0xc000020a 2048
  let ws := (syncPinnedDatapath unobserved [onPort 2048 0xc0000214, onPort 1615 0xc0000215] portBefore).1
  refine @opened_target_is_own quietKernel _ _ [(3130, onPort 2048 0xc0000214)]
    [(2077, onPort 1615 0xc0000215), (3130, onPort 2048 0xc0000214)] (by decide) (by decide) (by decide)
    portBefore ?_ unobserved true ((ws.take 1).map .write ++ [.packet (.ingress p 1000)])
    (((ws.drop 1).take 2).map .write) (by decide) p _ ?_
  · exact drawnFrom_publish (by decide) (by decide)
  · exact ⟨⟨3130, 0, 1, 1, 0, 1, 240, 46⟩, 0, by decide, by decide⟩

end EdgeLb.Datapath
