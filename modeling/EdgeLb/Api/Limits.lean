/-
  EdgeLb.Api.Limits — the limits of the datapath against what the API lets through.

  The datapath refuses a configuration that is too large for its tables: too many targets
  behind one listener (`validate_listener_target_count`), too many ports for the DSCP marker
  (`validate` of `edge-lb/src/linux/dscp.rs`), too many listeners for the ids, too many target
  or bucket entries for the maps. All are counted over the expanded listeners, one for each
  effective VIP and protocol. The writes of the API count one of the five, the consistent-hash
  buckets.

  Proved: from an empty configuration the bucket limit holds after every run of writes
  (`commit_counted`). The others hold exactly as long as no accepted write asks for more than
  they allow (`writes_within_limits_iff`); removals never do.
-/

import EdgeLb.Api.Commits
import EdgeLb.Datapath.Publish
import Mathlib.Data.List.Dedup
import Mathlib.Data.List.Flatten

namespace EdgeLb.Api

open EdgeLb.Common EdgeLb.Config EdgeLb.Lib EdgeLb.Storage EdgeLb.Provider EdgeLb.Datapath

/-! ## The DSCP marker's ports -/

def MAX_PORTS : Nat := 16

/-- `dscp_ports` of `edge-lb/src/role/gateway.rs`: every listener's port, with or without targets. -/
def dscpPorts (listeners : List Listener) : List UInt32 :=
  ((listeners.map (·.port.toUInt32)).insertionSort (· ≤ ·)).dedup

theorem mem_dscpPorts {listeners : List Listener} {port : UInt32} :
    port ∈ dscpPorts listeners ↔ ∃ listener ∈ listeners, listener.port.toUInt32 = port := by
  rw [dscpPorts, List.mem_dedup, List.mem_insertionSort, List.mem_map]

theorem dscpPorts_length_le {listeners listeners' : List Listener} (h : ∀ l ∈ listeners', l ∈ listeners) :
    (dscpPorts listeners').length ≤ (dscpPorts listeners).length := by
  have hsub : dscpPorts listeners' ⊆ dscpPorts listeners := by
    intro port hport
    obtain ⟨l, hl, hp⟩ := mem_dscpPorts.mp hport
    exact mem_dscpPorts.mpr ⟨l, h l hl, hp⟩
  exact (List.subperm_of_subset (List.nodup_dedup _) hsub).length_le

/-! ## The expanded listeners -/

section

variable (cfg : FileConfig) (ha : Option GatewayHaRuntimeConfig)

/-- What one listener becomes in the datapath; nothing when it cannot be expanded. -/
def expand (groups : List TargetGroup) (listener : Listener) : List NativeListener :=
  match groups.find? fun group => group.name = listener.targetGroup with
  | none => []
  | some group => (listenerFromTargetGroup cfg ha listener group).toOption.getD []

def expanded (state : ProxyConfig) : List NativeListener := state.listeners.flatMap (expand cfg ha state.targetGroups)

/-! ## The limits -/

/-- `NATIVE_TARGETS` of `edge-lb-ebpf/src/main.rs`. -/
def TARGET_MAP_CAPACITY : Nat := 16384

/-- The limits no write looks at. -/
structure Fits (state : ProxyConfig) : Prop where
  targets : ∀ listener ∈ expanded cfg ha state, listener.targets.length ≤ MAX_TARGETS_PER_LISTENER.toNat
  ports : (dscpPorts state.listeners).length ≤ MAX_PORTS
  listeners : (expanded cfg ha state).length ≤ NATIVE_LISTENER_ID_CAPACITY.toNat
  entries : ((expanded cfg ha state).map (·.targets.length)).sum ≤ TARGET_MAP_CAPACITY

def usesBuckets (listener : NativeListener) : Bool := listener.select = LbSelect.consistentHash.code

structure WithinLimits (state : ProxyConfig) : Prop extends Fits cfg ha state where
  buckets : ((expanded cfg ha state).filter usesBuckets).length * NATIVE_CONSISTENT_HASH_BUCKETS.toNat ≤
    NATIVE_CONSISTENT_HASH_BUCKET_MAP_CAPACITY

end

section

variable {B : Type} {J : Json B} {cfg : FileConfig} {ha : Option GatewayHaRuntimeConfig} {state state' : ProxyConfig}

/-! ### The buckets are counted -/

/-- What the writes keep: no listener names a protocol twice, and the buckets were counted. -/
structure Counted (cfg : FileConfig) (ha : Option GatewayHaRuntimeConfig) (state : ProxyConfig) : Prop where
  protocols : ∀ listener ∈ state.listeners, listener.protocols.Nodup
  capacity : validateListenerCapacity cfg ha state.listeners = .ok ()

theorem change_counted {written : List Listener} (hwritten : ∀ listener ∈ written, listener.protocols.Nodup)
    (h : Counted cfg ha state) (hchange : Change cfg ha written state state') : Counted cfg ha state' := by
  cases hchange with
  | put hmem hputs =>
    refine ⟨fun item hitem => ?_, hputs.fits⟩
    rw [hputs.result] at hitem
    rcases mem_of_mem_upsert hitem with rfl | hitem
    · exact hwritten item hmem
    · exact h.protocols item hitem
  | dropListener name =>
    refine ⟨fun item hitem => h.protocols item (List.mem_of_mem_filter hitem), ?_⟩
    have hsub : (removeListener name state).listeners.Sublist state.listeners := List.filter_sublist
    have hcapacity : validateConsistentHashListenerCapacity { cfg with listeners := state.listeners } _ = .ok () :=
      h.capacity
    exact validateCapacity_sublist hsub hcapacity rfl
  | setGroups groups valid => exact ⟨h.protocols, h.capacity⟩
  | dropGroup name unused => exact ⟨h.protocols, h.capacity⟩

theorem commit_counted (h : Counted cfg ha state) (op : ProxyConfigOperation B) :
    Counted cfg ha (commit J cfg ha state op) :=
  commit_keep (fun _ _ hs hchange => change_counted (fun _ hmem => listenersOf_protocols_nodup hmem) hs hchange) h

/-- The datapath listeners a listener takes, as the capacity check counts them. -/
def listenerCount (cfg : FileConfig) (ha : Option GatewayHaRuntimeConfig) (listener : Listener) : Except String Nat := do
  let vips ← effectiveVipIps cfg ha listener.vipIps
  return vips.length * uniqueProtocolCount listener.protocols

theorem length_flatMap_map {α β γ : Type} (f : α → β → γ) (as : List α) (bs : List β) :
    (as.flatMap fun a => bs.map (f a)).length = as.length * bs.length := by
  simp [List.length_flatMap]

/-- An expansion has the listener's algorithm and, when it has a count, no more listeners than that. -/
theorem listenerFromTargetGroup_spec {listener : Listener} {group : TargetGroup} {native : List NativeListener}
    (h : listenerFromTargetGroup cfg ha listener group = .ok native) :
    (∀ l ∈ native, l.select = listener.select.code) ∧
      (listener.protocols.Nodup → native.length ≤ counted (listenerCount cfg ha listener)) := by
  obtain ⟨targets, -, h⟩ := bind_eq_ok.mp h
  split at h
  · obtain rfl := Except.ok.inj h
    exact ⟨by simp, fun _ => Nat.zero_le _⟩
  · obtain ⟨vips, hvips, h⟩ := bind_eq_ok.mp h
    obtain rfl := Except.ok.inj h
    refine ⟨fun l hl => ?_, fun hnodup => ?_⟩
    · obtain ⟨vip, -, hl⟩ := List.mem_flatMap.mp hl
      obtain ⟨protocol, -, rfl⟩ := List.mem_map.mp hl
      rfl
    · have hcount : listenerCount cfg ha listener = .ok (vips.length * listener.protocols.length) := by
        rw [listenerCount, uniqueProtocolCount, hnodup.dedup]
        exact bind_eq_ok.mpr ⟨vips, hvips, rfl⟩
      rw [hcount, length_flatMap_map]
      exact le_refl _

theorem expand_spec (cfg : FileConfig) (ha : Option GatewayHaRuntimeConfig) (groups : List TargetGroup)
    (listener : Listener) :
    (∀ l ∈ expand cfg ha groups listener, l.select = listener.select.code) ∧
      (listener.protocols.Nodup → (expand cfg ha groups listener).length ≤ counted (listenerCount cfg ha listener)) := by
  unfold expand
  split
  · exact ⟨by simp, fun _ => Nat.zero_le _⟩
  · next group _ =>
    cases h : listenerFromTargetGroup cfg ha listener group with
    | error e => exact ⟨by simp [Except.toOption], fun _ => Nat.zero_le _⟩
    | ok native => exact listenerFromTargetGroup_spec h

theorem code_eq_consistentHash {select : LbSelect} : select.code = LbSelect.consistentHash.code ↔ select = .consistentHash := by
  cases select <;> decide

theorem expanded_buckets_le {groups : List TargetGroup} {listeners : List Listener}
    (hnodup : ∀ listener ∈ listeners, listener.protocols.Nodup) :
    ((listeners.flatMap (expand cfg ha groups)).filter usesBuckets).length ≤
      ((listeners.filter Listener.isConsistentHash).map fun l => counted (listenerCount cfg ha l)).sum := by
  induction listeners with
  | nil => exact le_refl 0
  | cons listener rest ih =>
    obtain ⟨hfirst, hrest⟩ := List.forall_mem_cons.mp hnodup
    obtain ⟨hselect, hcount⟩ := expand_spec cfg ha groups listener
    have ih := ih hrest
    rw [List.flatMap_cons, List.filter_append, List.length_append]
    by_cases hhash : listener.isConsistentHash = true
    · have hle := (List.length_filter_le usesBuckets (expand cfg ha groups listener)).trans (hcount hfirst)
      rw [List.filter_cons_of_pos hhash, List.map_cons, List.sum_cons]
      omega
    · have hnone : (expand cfg ha groups listener).filter usesBuckets = [] := by
        refine List.filter_eq_nil_iff.mpr fun l hl => ?_
        have hother : ¬ listener.select.code = LbSelect.consistentHash.code := fun heq =>
          hhash (decide_eq_true (code_eq_consistentHash.mp heq))
        simpa [usesBuckets, hselect l hl] using hother
      rw [List.filter_cons_of_neg hhash, hnone, List.length_nil]
      omega

theorem Counted.buckets (h : Counted cfg ha state) :
    ((expanded cfg ha state).filter usesBuckets).length * NATIVE_CONSISTENT_HASH_BUCKETS.toNat ≤
      NATIVE_CONSISTENT_HASH_BUCKET_MAP_CAPACITY := by
  obtain ⟨-, hsum⟩ := validateCapacity_eq_ok.mp h.capacity
  have hle : ((expanded cfg ha state).filter usesBuckets).length ≤ maxConsistentHashDatapathListeners :=
    (expanded_buckets_le h.protocols).trans hsum
  have hmax : maxConsistentHashDatapathListeners * NATIVE_CONSISTENT_HASH_BUCKETS.toNat =
      NATIVE_CONSISTENT_HASH_BUCKET_MAP_CAPACITY := by decide
  calc ((expanded cfg ha state).filter usesBuckets).length * NATIVE_CONSISTENT_HASH_BUCKETS.toNat
      ≤ maxConsistentHashDatapathListeners * NATIVE_CONSISTENT_HASH_BUCKETS.toNat := Nat.mul_le_mul_right _ hle
    _ = NATIVE_CONSISTENT_HASH_BUCKET_MAP_CAPACITY := hmax

/-! ### Removals take nothing -/

theorem Fits.of_sublist (h : Fits cfg ha state) (hlisteners : state'.listeners.Sublist state.listeners)
    (hexpanded : (expanded cfg ha state').Sublist (expanded cfg ha state)) : Fits cfg ha state' where
  targets := fun l hl => h.targets l (hexpanded.subset hl)
  ports := (dscpPorts_length_le fun _ hl => hlisteners.subset hl).trans h.ports
  listeners := hexpanded.length_le.trans h.listeners
  entries := ((hexpanded.map _).sum_le_sum fun _ _ => Nat.zero_le _).trans h.entries

theorem removeListener_fits (h : Fits cfg ha state) (name : String) : Fits cfg ha (removeListener name state) :=
  h.of_sublist List.filter_sublist (List.filter_sublist.flatMap _)

theorem expand_removeGroup {groups : List TargetGroup} {listener : Listener} {name : String}
    (h : listener.targetGroup ≠ name) :
    expand cfg ha (groups.filter (·.name ≠ name)) listener = expand cfg ha groups listener := by
  have hfind : ((groups.filter (·.name ≠ name)).find? fun group => group.name = listener.targetGroup) =
      groups.find? fun group => group.name = listener.targetGroup := by
    rw [List.find?_filter]
    congr 1
    funext group
    by_cases hname : group.name = listener.targetGroup
    · simp [hname, h]
    · simp [hname]
  unfold expand
  rw [hfind]

theorem removeGroup_fits (h : Fits cfg ha state) {name : String}
    (hunused : ∀ listener ∈ state.listeners, listener.targetGroup ≠ name) : Fits cfg ha (removeGroup name state) := by
  have hsame : expanded cfg ha (removeGroup name state) = expanded cfg ha state :=
    List.flatMap_congr fun listener hl => expand_removeGroup (hunused listener hl)
  exact h.of_sublist (List.Sublist.refl _) (hsame ▸ List.Sublist.refl _)

end

def ProxyConfigOperation.isRemoval {B : Type} : ProxyConfigOperation B → Bool
  | .listenerDelete _ | .targetGroupDelete _ => true
  | _ => false

section

variable {B : Type} {J : Json B} {cfg : FileConfig} {ha : Option GatewayHaRuntimeConfig} {state state' : ProxyConfig}

theorem removal_fits {op : ProxyConfigOperation B} (hop : op.isRemoval = true)
    (hcommitted : committed J cfg ha op state = some state') (h : Fits cfg ha state) : Fits cfg ha state' := by
  cases op with
  | listenerDelete name =>
    rw [(commits_of_committed hcommitted).asked]
    exact removeListener_fits h name
  | targetGroupDelete name =>
    obtain ⟨edit, hedit, hupdate⟩ := committed_eq_some.mp hcommitted
    obtain rfl := Except.ok.inj hedit
    obtain ⟨hunused, rfl⟩ := deleteTargetGroup_eq_ok hupdate
    exact removeGroup_fits h hunused
  | _ => cases hop

/-! ## Runs of writes -/

/-- An accepted write asks for no more than the limits allow. -/
def AsksWithin (J : Json B) (cfg : FileConfig) (ha : Option GatewayHaRuntimeConfig) (state : ProxyConfig)
    (op : ProxyConfigOperation B) : Prop :=
  (committed J cfg ha op state).isSome = true → op.isRemoval = false → Fits cfg ha (asked J state op)

theorem commit_within_iff (hcounted : Counted cfg ha state) (hwithin : WithinLimits cfg ha state)
    (op : ProxyConfigOperation B) :
    WithinLimits cfg ha (commit J cfg ha state op) ↔ AsksWithin J cfg ha state op := by
  have hbuckets := (commit_counted (J := J) hcounted op).buckets
  unfold AsksWithin
  cases hc : committed J cfg ha op state with
  | none =>
    rw [commit_of_rejected hc]
    exact ⟨fun _ h => (nomatch h), fun _ => hwithin⟩
  | some next =>
    rw [commit_of_committed hc] at hbuckets ⊢
    rw [← (commits_of_committed hc).asked]
    constructor
    · intro h _ _
      exact h.toFits
    · intro h
      cases hop : op.isRemoval with
      | true => exact ⟨removal_fits hop hc hwithin.toFits, hbuckets⟩
      | false => exact ⟨h rfl hop, hbuckets⟩

theorem counted_empty (cfg : FileConfig) (ha : Option GatewayHaRuntimeConfig) : Counted cfg ha {} :=
  ⟨by simp, rfl⟩

theorem withinLimits_empty (cfg : FileConfig) (ha : Option GatewayHaRuntimeConfig) : WithinLimits cfg ha {} :=
  ⟨⟨by simp [expanded], by decide, by simp [expanded], by simp [expanded]⟩, (counted_empty cfg ha).buckets⟩

end

/-- From an empty configuration every configuration committed stays within the limits exactly
    when no accepted write asks for more than the limits that are not checked. -/
theorem writes_within_limits_iff {B : Type} (J : Json B) (cfg : FileConfig) (ha : Option GatewayHaRuntimeConfig)
    (ops : List (ProxyConfigOperation B)) :
    StepsMeet (commit J cfg ha) (fun state op => WithinLimits cfg ha (commit J cfg ha state op)) {} ops ↔
      StepsMeet (commit J cfg ha) (AsksWithin J cfg ha) {} ops :=
  stepsMeet_congr (commit J cfg ha) (I := fun state => Counted cfg ha state ∧ WithinLimits cfg ha state)
    (fun _ op h hwithin => ⟨commit_counted h.1 op, hwithin⟩) (fun _ op h => commit_within_iff h.1 h.2 op)
    ⟨counted_empty cfg ha, withinLimits_empty cfg ha⟩ ops

/-! ## A group with one target too many -/

def crowd : TargetGroup :=
  { name := "web", targets := (List.range 65).map fun i => { address := .v4 (0xc6336401 + UInt32.ofNat i) } }

def webListener : ListenerConfigResource :=
  { vipIps := [], port := 80, targetPort := 8080, protocols := [.tcp], targetGroup := "web", select := .rr
    inactiveTimeout := none }

/-- A group of 65 targets and a listener on it: both are accepted, and the datapath refuses them. -/
theorem crowded_group_committed :
    let ops := [.targetGroupCreate (.targetGroup crowd), .listenerCreate (.listener webListener)]
    StepsMeet (commit valueJson soloGateway none)
      (fun state op => (committed valueJson soloGateway none op state).isSome = true) {} ops ∧
    ¬ WithinLimits soloGateway none (run (commit valueJson soloGateway none) {} ops) ∧
    ∃ listener ∈ expanded soloGateway none (run (commit valueJson soloGateway none) {} ops),
      validateListenerTargetCount listener = .error "listener 80 has 65 targets; max 64" := by
  have hrefused : ∃ listener ∈ expanded soloGateway none (run (commit valueJson soloGateway none) {}
      [.targetGroupCreate (.targetGroup crowd), .listenerCreate (.listener webListener)]),
      validateListenerTargetCount listener = .error "listener 80 has 65 targets; max 64" := by decide
  refine ⟨by decide, fun hwithin => ?_, hrefused⟩
  obtain ⟨listener, hl, herror⟩ := hrefused
  have hle := hwithin.targets listener hl
  rw [validateListenerTargetCount, if_neg (not_lt.mpr hle)] at herror
  cases herror

end EdgeLb.Api
