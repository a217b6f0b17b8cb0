/-
  EdgeLb.Datapath.ListenerIds — how stable listener ids are (`stable_listener_assignments` of
  `edge-lb/src/linux/native_dnat.rs`).

  A listener starts from the slot its socket hashes to and moves on to the next free id, in the
  order of the sorted sockets. Flows, round-robin cursors and load counters are kept under the
  id, so that it should belong to the socket in every configuration.

  Proved: a configuration of at most 4096 listeners always gets its ids (`assignments_ok`), in
  whatever order it lists them (`listener_ids_assigned`), and over a history of configurations
  the ids are those of the sockets exactly when no two sockets of the history, and no two
  listeners of a configuration, have one slot (`ids_stable_iff`).
-/

import EdgeLb.Datapath.Interleave

namespace EdgeLb.Datapath

open EdgeLb.Common EdgeLb.Provider

/-! ## The probe goes round all ids -/

/-- The ids `1..=4096`, round and round. -/
def slot (n : Nat) : UInt32 := UInt32.ofNat (n % 4096 + 1)

theorem slot_toNat (n : Nat) : (slot n).toNat = n % 4096 + 1 := by
  have hlt : n % 4096 < 4096 := Nat.mod_lt _ (by decide)
  rw [slot, UInt32.toNat_ofNat']
  omega

theorem slot_next (n : Nat) : (if NATIVE_LISTENER_ID_CAPACITY < slot n + 1 then 1 else slot n + 1) = slot (n + 1) := by
  have hlt : n % 4096 < 4096 := Nat.mod_lt _ (by decide)
  have hsucc : (slot n + 1).toNat = n % 4096 + 2 := by
    rw [UInt32.toNat_add, slot_toNat]
    change (n % 4096 + 1 + 1) % 4294967296 = _
    omega
  have hcap : NATIVE_LISTENER_ID_CAPACITY < slot n + 1 ↔ 4096 < n % 4096 + 2 := by
    rw [UInt32.lt_iff_toNat_lt, hsucc]
    rfl
  apply UInt32.toNat.inj
  rw [slot_toNat]
  split
  next h =>
    have hmax := hcap.mp h
    change 1 = _
    omega
  next h =>
    have hmax : ¬ 4096 < n % 4096 + 2 := fun hmax => h (hcap.mpr hmax)
    rw [hsucc]
    omega

theorem stableListenerId_slot (key : NativeListenerKey) : ∃ n, stableListenerId key = slot n := by
  refine ⟨(stableListenerId key).toNat - 1, ?_⟩
  apply UInt32.toNat.inj
  rw [slot_toNat]
  unfold stableListenerId
  generalize (keyBytes key).foldl _ _ = hash
  have hlt : hash.toNat % 4096 < 4096 := Nat.mod_lt _ (by decide)
  have hid : (hash % NATIVE_LISTENER_ID_CAPACITY + 1).toNat = hash.toNat % 4096 + 1 := by
    rw [UInt32.toNat_add, UInt32.toNat_mod]
    change (hash.toNat % 4096 + 1) % 4294967296 = _
    omega
  rw [hid]
  omega

variable {used : List UInt32} {listeners : List NativeListener} {history : List (List NativeListener)}

theorem probeId_eq_none {fuel n : Nat} (h : probeId used fuel (slot n) = none) : ∀ i < fuel, slot (n + i) ∈ used := by
  induction fuel generalizing n with
  | zero => simp
  | succ fuel ih =>
    unfold probeId at h
    split at h
    next hused =>
      rw [slot_next] at h
      intro i hi
      cases i with
      | zero => exact hused
      | succ i =>
        have := ih h i (by omega)
        rwa [Nat.add_assoc, Nat.add_comm 1 i] at this
    next => cases h

/-- The probe fails only when all ids are in use. -/
theorem probeId_finds (hroom : used.length < 4096) (key : NativeListenerKey) :
    ∃ id, probeId used NATIVE_LISTENER_ID_CAPACITY.toNat (stableListenerId key) = some id := by
  obtain ⟨n, hn⟩ := stableListenerId_slot key
  rw [hn, ← Option.isSome_iff_exists, ← Option.ne_none_iff_isSome]
  intro hnone
  have hall := probeId_eq_none hnone
  have hnodup : ((List.range 4096).map fun i => slot (n + i)).Nodup := by
    apply List.Nodup.map_on ?_ List.nodup_range
    intro i hi j hj hij
    have hnat : (n + i) % 4096 + 1 = (n + j) % 4096 + 1 := by
      rw [← slot_toNat, ← slot_toNat, hij]
    rw [List.mem_range] at hi hj
    omega
  have hsubset : ((List.range 4096).map fun i => slot (n + i)) ⊆ used := by
    intro id hid
    obtain ⟨i, hi, rfl⟩ := List.mem_map.mp hid
    exact hall i (List.mem_range.mp hi)
  have hle := (List.subperm_of_subset hnodup hsubset).length_le
  rw [List.length_map, List.length_range] at hle
  omega

/-! ## Every listener gets an id -/

theorem assignIds_listeners {ls : List NativeListener} (hroom : used.length + ls.length ≤ 4096) :
    (assignIds ls used).map (·.2) = ls := by
  induction ls generalizing used with
  | nil => rfl
  | cons l ls ih =>
    rw [List.length_cons] at hroom
    have hfree : used.length < 4096 := by omega
    obtain ⟨id, hid⟩ := probeId_finds hfree l.key
    have htail : (assignIds ls (id :: used)).map (·.2) = ls := ih (by rw [List.length_cons]; omega)
    simp only [assignIds, hid, List.map_cons, htail]

theorem sortListeners_perm (listeners : List NativeListener) : (sortListeners listeners).Perm listeners :=
  List.perm_insertionSort _ _

theorem assignIds_sorted (h : listeners.length ≤ 4096) :
    (assignIds (sortListeners listeners) []).map (·.2) = sortListeners listeners := by
  apply assignIds_listeners
  rw [(sortListeners_perm listeners).length_eq, List.length_nil]
  omega

/-- At most 4096 listeners always get their ids. -/
theorem assignments_ok (h : listeners.length ≤ 4096) :
    stableListenerAssignments listeners = .ok (assignIds (sortListeners listeners) []) := by
  have hlen : (assignIds (sortListeners listeners) []).length = listeners.length := by
    rw [← List.length_map (·.2), assignIds_sorted h, (sortListeners_perm listeners).length_eq]
  have hcap : ¬ NATIVE_LISTENER_ID_CAPACITY.toNat < listeners.length := by
    change ¬ 4096 < listeners.length
    omega
  simp [stableListenerAssignments, hcap, hlen]

theorem assignments_length {ids : Assignments}
    (h : stableListenerAssignments listeners = .ok ids) : listeners.length ≤ 4096 := by
  unfold stableListenerAssignments at h
  split at h
  · cases h
  next hcap => exact Nat.not_lt.mp hcap

/-! ## The order of the configuration does not matter -/

theorem probeId_slot {fuel n : Nat} {id : UInt32} (h : probeId used fuel (slot n) = some id) : ∃ i, id = slot i := by
  induction fuel generalizing n with
  | zero => cases h
  | succ fuel ih =>
    unfold probeId at h
    split at h
    next =>
      rw [slot_next] at h
      exact ih h
    next => exact ⟨n, (Option.some.inj h).symm⟩

theorem assignIds_slot (ls : List NativeListener) (used : List UInt32) : ∀ a ∈ assignIds ls used, ∃ i, a.1 = slot i := by
  induction ls generalizing used with
  | nil => simp [assignIds]
  | cons l ls ih =>
    intro a ha
    unfold assignIds at ha
    split at ha
    next id hid =>
      rcases List.mem_cons.mp ha with rfl | ha
      · obtain ⟨n, hn⟩ := stableListenerId_slot l.key
        rw [hn] at hid
        exact probeId_slot hid
      · exact ih _ a ha
    next => exact ih _ a ha

theorem assignIds_range (ls : List NativeListener) (used : List UInt32) :
    ∀ a ∈ assignIds ls used, 1 ≤ a.1.toNat ∧ a.1.toNat ≤ 4096 := by
  intro a ha
  obtain ⟨n, hn⟩ := assignIds_slot ls used a ha
  have hlt : n % 4096 < 4096 := Nat.mod_lt _ (by decide)
  rw [hn, slot_toNat]
  omega

theorem listenerSortKey_inj {key key' : NativeListenerKey} (h : listenerSortKey key = listenerSortKey key') :
    key = key' := by
  obtain ⟨vip, port, protocol⟩ := key
  obtain ⟨vip', port', protocol'⟩ := key'
  have hport := port.toNat_lt
  have hport' := port'.toNat_lt
  have hproto := protocol.ipProto.toNat_lt
  have hproto' := protocol'.ipProto.toNat_lt
  simp only [listenerSortKey] at h
  have hvips : vip = vip' := UInt32.toNat_inj.mp (by omega)
  have hports : port = port' := UInt16.toNat_inj.mp (by omega)
  have hprotos : protocol.ipProto.toNat = protocol'.ipProto.toNat := by omega
  have hprotocols : protocol = protocol' := by
    cases protocol <;> cases protocol' <;> first | rfl | exact absurd hprotos (by decide)
  rw [hvips, hports, hprotocols]

/-- Sockets that differ have one order. -/
theorem sortListeners_eq_of_perm {listeners other : List NativeListener} (hkeys : (listeners.map (·.key)).Nodup)
    (hperm : other.Perm listeners) : sortListeners other = sortListeners listeners := by
  have hsorted (ls : List NativeListener) :
      (sortListeners ls).Pairwise fun a b => listenerSortKey a.key ≤ listenerSortKey b.key := by
    have : IsTrans NativeListener fun a b => listenerSortKey a.key ≤ listenerSortKey b.key := ⟨fun _ _ _ => Nat.le_trans⟩
    have : Std.Total fun a b : NativeListener => listenerSortKey a.key ≤ listenerSortKey b.key :=
      ⟨fun _ _ => Nat.le_total _ _⟩
    exact List.pairwise_insertionSort _ ls
  refine List.Perm.eq_of_pairwise ?_ (hsorted other) (hsorted listeners)
    ((sortListeners_perm other).trans (hperm.trans (sortListeners_perm listeners).symm))
  intro a b ha hb hab hba
  have hmem : a ∈ listeners := hperm.mem_iff.mp ((sortListeners_perm other).mem_iff.mp ha)
  have hmem' : b ∈ listeners := (sortListeners_perm listeners).mem_iff.mp hb
  exact List.inj_on_of_nodup_map hkeys hmem hmem' (listenerSortKey_inj (Nat.le_antisymm hab hba))

/-- At most 4096 listeners on different sockets each get an id of their own in `1..=4096`, and
    the same one in whatever order they are listed. -/
theorem listener_ids_assigned (listeners : List NativeListener) (hlen : listeners.length ≤ 4096)
    (hkeys : (listeners.map (·.key)).Nodup) :
    ∃ ids, stableListenerAssignments listeners = .ok ids ∧ (ids.map (·.2)).Perm listeners ∧ (ids.map (·.1)).Nodup ∧
      (∀ a ∈ ids, 1 ≤ a.1.toNat ∧ a.1.toNat ≤ 4096) ∧
      ∀ other, other.Perm listeners → stableListenerAssignments other = .ok ids := by
  refine ⟨_, assignments_ok hlen, ?_, (assignIds_nodup _ _).1, assignIds_range _ _, ?_⟩
  · rw [assignIds_sorted hlen]
    exact sortListeners_perm listeners
  · intro other hperm
    rw [assignments_ok (hperm.length_eq ▸ hlen), sortListeners_eq_of_perm hkeys hperm]

/-- Ports 1614 and 2048 hash to one slot; whichever is listed first, the lower one has it. -/
theorem colliding_ports_assigned :
    let web := onPort 1614 0xc0000215
    let alt := onPort 2048 0xc0000214
    stableListenerId web.key = stableListenerId alt.key ∧
      stableListenerAssignments [web, alt] = .ok [(3130, web), (3131, alt)] ∧
      stableListenerAssignments [alt, web] = .ok [(3130, web), (3131, alt)] := by
  obtain ⟨ids, hids, -, -, -, hother⟩ :=
    listener_ids_assigned [onPort 1614 0xc0000215, onPort 2048 0xc0000214] (by decide) (by decide)
  have hok : stableListenerAssignments [onPort 1614 0xc0000215, onPort 2048 0xc0000214] =
      .ok [(3130, onPort 1614 0xc0000215), (3131, onPort 2048 0xc0000214)] := by decide
  obtain rfl := Except.ok.inj (hids.symm.trans hok)
  exact ⟨by decide, hok, hother _ (List.Perm.swap ..)⟩

/-! ## Free slots -/

/-- Listeners of different slots that are all free get their slots. -/
theorem assignIds_free {ls : List NativeListener}
    (hnodup : (ls.map fun l => stableListenerId l.key).Nodup) (hfree : ∀ l ∈ ls, stableListenerId l.key ∉ used) :
    assignIds ls used = ls.map fun l => (stableListenerId l.key, l) := by
  induction ls generalizing used with
  | nil => rfl
  | cons l ls ih =>
    rw [List.map_cons, List.nodup_cons] at hnodup
    have hprobe : probeId used NATIVE_LISTENER_ID_CAPACITY.toNat (stableListenerId l.key) =
        some (stableListenerId l.key) := by
      change probeId used (4095 + 1) _ = _
      rw [probeId, if_neg (hfree l List.mem_cons_self)]
    have hrest : ∀ l' ∈ ls, stableListenerId l'.key ∉ stableListenerId l.key :: used := by
      intro l' hl' hmem
      rcases List.mem_cons.mp hmem with hsame | hmem
      · exact hnodup.1 (hsame ▸ List.mem_map_of_mem hl')
      · exact hfree l' (List.mem_cons_of_mem _ hl') hmem
    rw [assignIds, hprobe, List.map_cons, ← ih hnodup.2 hrest]

theorem assignments_of_nodup {ids : Assignments} (hids : stableListenerAssignments listeners = .ok ids)
    (hnodup : (listeners.map fun l => stableListenerId l.key).Nodup) {a : UInt32 × NativeListener} (ha : a ∈ ids) :
    a.1 = stableListenerId a.2.key := by
  have hsorted : ((sortListeners listeners).map fun l => stableListenerId l.key).Nodup :=
    ((sortListeners_perm listeners).map _).nodup_iff.mpr hnodup
  rw [assignments_eq hids, assignIds_free hsorted (by simp)] at ha
  obtain ⟨l, _, rfl⟩ := List.mem_map.mp ha
  rfl

theorem assignments_alone (l : NativeListener) : stableListenerAssignments [l] = .ok [(stableListenerId l.key, l)] := by
  have hsort : sortListeners [l] = [l] := rfl
  rw [assignments_ok (by simp), hsort, assignIds_free (by simp) (by simp)]
  rfl

/-- Where every listener has its slot, the slots differ: the ids do. -/
theorem nodup_of_assignments (hlen : listeners.length ≤ 4096)
    (hown : ∀ a ∈ assignIds (sortListeners listeners) [], a.1 = stableListenerId a.2.key) :
    (listeners.map fun l => stableListenerId l.key).Nodup := by
  have hslots : (sortListeners listeners).map (fun l => stableListenerId l.key) =
      (assignIds (sortListeners listeners) []).map (·.1) := by
    calc (sortListeners listeners).map (fun l => stableListenerId l.key)
        = ((assignIds (sortListeners listeners) []).map (·.2)).map (fun l => stableListenerId l.key) := by
          rw [assignIds_sorted hlen]
      _ = (assignIds (sortListeners listeners) []).map (fun a => stableListenerId a.2.key) := List.map_map
      _ = (assignIds (sortListeners listeners) []).map (·.1) :=
          List.map_congr_left fun a ha => (hown a ha).symm
  rw [← ((sortListeners_perm listeners).map fun l => stableListenerId l.key).nodup_iff, hslots]
  exact (assignIds_nodup _ _).1

/-! ## Histories -/

/-- Over the configurations of a history, an id is a matter of the socket alone: a listener has
    in every configuration the id it has as the only one, and two listeners of any two
    configurations have one id exactly when they are one socket. -/
structure IdsStable (history : List (List NativeListener)) : Prop where
  alone : ∀ listeners ∈ history, ∀ ids, stableListenerAssignments listeners = .ok ids →
    ∀ a ∈ ids, stableListenerAssignments [a.2] = .ok [a]
  owner : ∀ old ∈ history, ∀ new ∈ history, ∀ oldIds newIds, stableListenerAssignments old = .ok oldIds →
    stableListenerAssignments new = .ok newIds → ∀ a ∈ oldIds, ∀ b ∈ newIds, a.1 = b.1 ↔ a.2.key = b.2.key

/-- The configurations that can be applied at all. -/
def Fits (listeners : List NativeListener) : Prop := listeners.length ≤ NATIVE_LISTENER_ID_CAPACITY.toNat

structure SlotsApart (history : List (List NativeListener)) : Prop where
  within : ∀ listeners ∈ history, Fits listeners → (listeners.map fun l => stableListenerId l.key).Nodup
  across : ∀ old ∈ history, ∀ new ∈ history, Fits old → Fits new → ∀ l ∈ old, ∀ l' ∈ new,
    stableListenerId l.key = stableListenerId l'.key → l.key = l'.key

theorem SlotsApart.stable (h : SlotsApart history) : IdsStable history where
  alone := by
    intro listeners hmem ids hids a ha
    have hown := assignments_of_nodup hids (h.within listeners hmem (assignments_length hids)) ha
    rw [assignments_alone, ← hown]
  owner := by
    intro old hold new hnew oldIds newIds holdIds hnewIds a ha b hb
    rw [assignments_of_nodup holdIds (h.within old hold (assignments_length holdIds)) ha,
      assignments_of_nodup hnewIds (h.within new hnew (assignments_length hnewIds)) hb]
    refine ⟨?_, fun hkey => by rw [hkey]⟩
    exact h.across old hold new hnew (assignments_length holdIds) (assignments_length hnewIds) a.2
      (assignments_mem holdIds ha) b.2 (assignments_mem hnewIds hb)

theorem IdsStable.own (h : IdsStable history)
    (hmem : listeners ∈ history) (hfits : Fits listeners) {a : UInt32 × NativeListener}
    (ha : a ∈ assignIds (sortListeners listeners) []) : a.1 = stableListenerId a.2.key := by
  have hone := h.alone listeners hmem _ (assignments_ok hfits) a ha
  rw [assignments_alone] at hone
  have hpair := List.singleton_inj.mp (Except.ok.inj hone)
  rw [← hpair]

theorem assigned_of_mem (hfits : Fits listeners) {l : NativeListener}
    (hl : l ∈ listeners) : ∃ a ∈ assignIds (sortListeners listeners) [], a.2 = l := by
  have hmem : l ∈ (assignIds (sortListeners listeners) []).map (·.2) := by
    rw [assignIds_sorted hfits]
    exact (sortListeners_perm listeners).mem_iff.mpr hl
  exact List.mem_map.mp hmem

theorem IdsStable.apart (h : IdsStable history) : SlotsApart history where
  within := fun _ hmem hfits => nodup_of_assignments hfits fun _ ha => h.own hmem hfits ha
  across := by
    intro old hold new hnew hfitsOld hfitsNew l hl l' hl' hslot
    obtain ⟨a, ha, rfl⟩ := assigned_of_mem hfitsOld hl
    obtain ⟨b, hb, rfl⟩ := assigned_of_mem hfitsNew hl'
    refine (h.owner old hold new hnew _ _ (assignments_ok hfitsOld) (assignments_ok hfitsNew) a ha b hb).mp ?_
    rw [h.own hold hfitsOld ha, h.own hnew hfitsNew hb, hslot]

theorem ids_stable_iff (history : List (List NativeListener)) : IdsStable history ↔ SlotsApart history :=
  ⟨IdsStable.apart, SlotsApart.stable⟩

/-- Port 2048 of 192.0.2.10 is retained when port 1614 is added, and its id goes to port 1614. -/
theorem retained_listener_loses_id :
    let old := [onPort 2048 0xc0000214]
    let new := [onPort 2048 0xc0000214, onPort 1614 0xc0000215]
    stableListenerAssignments old = .ok [(3130, onPort 2048 0xc0000214)] ∧
      stableListenerAssignments new = .ok [(3130, onPort 1614 0xc0000215), (3131, onPort 2048 0xc0000214)] ∧
      ¬ IdsStable [old, new] := by
  refine ⟨by decide, by decide, fun h => ?_⟩
  have hsame := h.owner _ (by simp) _ (by simp) _ _
    (show stableListenerAssignments [onPort 2048 0xc0000214] = .ok [(3130, onPort 2048 0xc0000214)] by decide)
    (show stableListenerAssignments [onPort 2048 0xc0000214, onPort 1614 0xc0000215] =
      .ok [(3130, onPort 1614 0xc0000215), (3131, onPort 2048 0xc0000214)] by decide)
    (3130, onPort 2048 0xc0000214) (by simp) (3131, onPort 2048 0xc0000214) (by simp)
  exact absurd (hsame.mpr rfl) (by decide)

end EdgeLb.Datapath
