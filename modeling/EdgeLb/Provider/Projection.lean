/-
  EdgeLb.Provider.Projection — the stored state that a reconciliation rebuilds from the
  configuration (`rebuild_listener_state` of `edge-lb/src/provider/native/store.rs`), as a whole.

  The listener entries are written anew. A health record is written anew too, under the name of
  its target, and only its observed state is carried over; what the record holds besides, and the
  counter of a target, is not (`rebuild_clears_counters`). Addresses and protocols are kept here as
  values, where the source keeps their texts.

  Main result: `rebuild_projection`. The names that are left are those of the configuration, a
  name that only monitored groups want keeps its state, and rebuilding again changes nothing.
-/

import EdgeLb.Lib.Refresh
import EdgeLb.Provider.Health
import Mathlib.Data.List.Destutter

namespace EdgeLb.Provider

open EdgeLb.Common EdgeLb.Lib EdgeLb.Config EdgeLb.Datapath

/-- A `TargetHealthEntry` with all its fields. -/
structure HealthRecord extends TargetHealthEntry where
  hostName : IpAddr
  description : Option String := none
  inactiveRetries : Option UInt32 := none
  probeType : Option String := none
  probeReq : Option String := none
  probeResp : Option String := none
  probeDuration : Option UInt32 := none
  probePort : Option UInt16 := none
  minDelay : Option String := none
  avgDelay : Option String := none
  maxDelay : Option String := none
  sync : Option UInt32 := none
  deriving DecidableEq, Repr

structure NativeListenerTarget where
  address : IpAddr
  targetPort : UInt16
  weight : UInt32
  state : Option String := none
  counter : Option String := none
  deriving DecidableEq, Repr

structure NativeListenerSpec where
  vipIps : List UInt32 := []
  port : UInt16
  protocol : Protocol
  sel : UInt32
  monitor : Bool
  probetype : Option String := none
  probeport : Option UInt16 := none
  probereq : Option String := none
  proberesp : Option String := none
  probeTimeout : Option UInt32 := none
  probeRetries : Option UInt32 := none
  inactiveTimeout : UInt32
  name : Option String
  deriving DecidableEq, Repr

structure NativeListenerStateEntry where
  targetGroup : String
  spec : NativeListenerSpec
  targets : List NativeListenerTarget
  protocols : List Protocol
  deriving DecidableEq, Repr

structure NativeProxyState where
  listeners : List NativeListenerStateEntry := []
  targetHealth : List HealthRecord := []
  deriving DecidableEq, Repr

/-! ## The entries -/

def listenerEntry (cfg : FileConfig) (listener : Listener) (group : TargetGroup) :
    Except String NativeListenerStateEntry := do
  bailIf (listener.targetPort = 0) s!"listener {listener.name} target_port must be in range 1..=65535"
  let protocol ← orBail listener.protocols.head? "listener must select at least one protocol"
  return {
    targetGroup := group.name
    spec := {
      port := listener.port, protocol, sel := listener.select.code, monitor := group.monitor
      inactiveTimeout := listener.inactiveTimeout.getD 240, name := some listener.name
      probetype := group.probeType, probeport := group.probePort, probereq := group.probeReq
      proberesp := group.probeResp, probeTimeout := group.periodSecs, probeRetries := group.retries }
    protocols := listener.protocols
    targets := group.targets.map fun target =>
      { address := cfg.resolveBackendTargetAddress target, targetPort := listener.targetPort
        weight := target.weight, state := some "active", counter := some "0:0" } }

/-- Protocols repeated in a row are dropped; the texts of the protocols and addresses are
    already in the form that the source brings them to. -/
def normalizeEntry (entry : NativeListenerStateEntry) : NativeListenerStateEntry :=
  let protocols := entry.protocols.destutter (· ≠ ·)
  { entry with
    protocols := if protocols.isEmpty then [entry.spec.protocol] else protocols
    spec := { entry.spec with
      protocol := protocols.headD entry.spec.protocol
      inactiveTimeout := if entry.spec.inactiveTimeout = 0 then 240 else entry.spec.inactiveTimeout }
    targets := entry.targets.map fun target =>
      { target with weight := max target.weight 1, state := some (target.state.getD "active")
                    counter := some (target.counter.getD "0:0") } }

/-- The entry of one listener, with its group. -/
def rebuildEntry (cfg : FileConfig) (ha : Option GatewayHaRuntimeConfig) (listener : Listener) :
    Except String (NativeListenerStateEntry × TargetGroup) := do
  let group ← orBail (cfg.targetGroups.find? fun group => group.name = listener.targetGroup)
    s!"target group {listener.targetGroup} not found"
  let entry ← listenerEntry cfg listener group
  let vipIps ← effectiveVipIps cfg ha listener.vipIps
  return (normalizeEntry { entry with spec := { entry.spec with vipIps } }, group)

/-! ## The health records -/

structure WantedHealth where
  record : HealthRecord
  probed : Bool
  deriving DecidableEq, Repr

/-- `ensure_probe_health_records` for one target. -/
def probeHealthRecord (group : TargetGroup) (name : String) (target : NativeListenerTarget) (protocol : Protocol) :
    HealthRecord :=
  { targetGroup := group.name, name, currentState := none, hostName := target.address
    inactiveRetries := group.retries, probeReq := group.probeReq, probeResp := group.probeResp
    probeType := some (toAsciiLowercase (group.probeType.getD protocol.asStr)), probeDuration := group.periodSecs
    probePort := some (group.probePort.getD target.targetPort) }

/-- `ensure_default_health_records` for one target. -/
def defaultHealthRecord (group : TargetGroup) (name : String) (target : NativeListenerTarget) : HealthRecord :=
  { targetGroup := group.name, name, currentState := none, hostName := target.address
    inactiveRetries := some 0, probeType := some "none", probeDuration := some 0, probePort := some target.targetPort }

def targetName (entry : NativeListenerStateEntry) (protocol : Protocol) (target : NativeListenerTarget) : String :=
  targetHealthIdentity entry.targetGroup target.address protocol target.targetPort

def wantedHealth (entry : NativeListenerStateEntry) (group : TargetGroup) : List WantedHealth :=
  entry.protocols.flatMap fun protocol => entry.targets.map fun target =>
    let name := targetName entry protocol target
    if probeEnabled group then ⟨probeHealthRecord group name target protocol, true⟩
    else ⟨defaultHealthRecord group name target, false⟩

def desiredNames (entries : List NativeListenerStateEntry) : List String :=
  entries.flatMap fun entry => entry.protocols.flatMap fun protocol => entry.targets.map (targetName entry protocol)

/-- `upsert_health_entry` of the record, with the state that it is to have. -/
def healthRefresh : Refresh HealthRecord WantedHealth String where
  key := (·.name)
  wantKey := (·.record.name)
  step := fun wanted found => { wanted.record with
    currentState := some (if wanted.probed then (found.bind (·.currentState)).getD "unknown" else "ok") }
  key_step := fun _ _ => rfl

/-- The source writes the records as it goes through the listeners, into a state that is
    given up if a listener is refused. -/
def rebuildListenerState (cfg : FileConfig) (ha : Option GatewayHaRuntimeConfig) (state : NativeProxyState) :
    Except String NativeProxyState := do
  let entries ← cfg.listeners.mapM (rebuildEntry cfg ha)
  return {
    listeners := entries.map (·.1)
    targetHealth := healthRefresh.project state.targetHealth (entries.flatMap fun (entry, group) => wantedHealth entry group) }

/-! ## What a rebuild leaves -/

/-- The state observed of a name. -/
def observedState (records : List HealthRecord) (name : String) : Option String :=
  (healthRefresh.find records name).bind (·.currentState)

/-- The entry's group is one that is probed. -/
def entryMonitored (cfg : FileConfig) (entry : NativeListenerStateEntry) : Bool :=
  (cfg.targetGroups.find? fun group => group.name = entry.targetGroup).any probeEnabled

theorem healthRefresh_state (w : WantedHealth) (found : Option HealthRecord) :
    (healthRefresh.step w found).currentState =
      some (if w.probed then (found.bind (·.currentState)).getD "unknown" else "ok") := rfl

theorem healthRefresh_congr (w : WantedHealth) (found found' : Option HealthRecord)
    (h : w.probed = true →
      (found.bind (·.currentState)).getD "unknown" = (found'.bind (·.currentState)).getD "unknown") :
    healthRefresh.step w found = healthRefresh.step w found' := by
  cases hw : w.probed with
  | false => simp [healthRefresh, hw]
  | true => simp [healthRefresh, hw, h hw]

theorem wantedHealth_names (entry : NativeListenerStateEntry) (group : TargetGroup) :
    (wantedHealth entry group).map (·.record.name) = desiredNames [entry] := by
  simp only [wantedHealth, desiredNames, List.flatMap_singleton, List.map_flatMap, List.map_map]
  refine List.flatMap_congr fun protocol _ => List.map_congr_left fun target _ => ?_
  simp only [Function.comp_apply]
  split
  · rfl
  · rfl

theorem wantedHealth_probed {entry : NativeListenerStateEntry} {group : TargetGroup} (hgroup : probeEnabled group = true)
    {w : WantedHealth} (hw : w ∈ wantedHealth entry group) : w.probed = true := by
  obtain ⟨protocol, -, hw⟩ := List.mem_flatMap.mp hw
  obtain ⟨target, -, rfl⟩ := List.mem_map.mp hw
  simp [hgroup]

theorem rebuildEntry_group {cfg : FileConfig} {ha : Option GatewayHaRuntimeConfig} {listener : Listener}
    {entry : NativeListenerStateEntry} {group : TargetGroup} (h : rebuildEntry cfg ha listener = .ok (entry, group)) :
    (cfg.targetGroups.find? fun group => group.name = entry.targetGroup) = some group := by
  obtain ⟨group', hgroup, h⟩ := bind_eq_ok.mp h
  obtain ⟨entry', hentry, h⟩ := bind_eq_ok.mp h
  obtain ⟨vips, -, h⟩ := bind_eq_ok.mp h
  cases h
  obtain ⟨-, hentry⟩ := seq_eq_ok.mp hentry
  obtain ⟨protocol, -, hentry⟩ := bind_eq_ok.mp hentry
  cases hentry
  have hfind := orBail_eq_ok.mp hgroup
  have hsome := List.find?_some hfind
  have hname : group.name = listener.targetGroup := of_decide_eq_true hsome
  rw [← hfind, ← hname]
  rfl

theorem rebuild_projection {cfg : FileConfig} {ha : Option GatewayHaRuntimeConfig} {state next : NativeProxyState}
    (h : rebuildListenerState cfg ha state = .ok next) :
    (∀ name, (∃ record ∈ next.targetHealth, record.name = name) ↔ name ∈ desiredNames next.listeners) ∧
      (∀ name ∈ desiredNames next.listeners,
        (∀ entry ∈ next.listeners, name ∈ desiredNames [entry] → entryMonitored cfg entry = true) →
        observedState next.targetHealth name = some ((observedState state.targetHealth name).getD "unknown")) ∧
      rebuildListenerState cfg ha next = .ok next := by
  obtain ⟨entries, hentries, hnext⟩ := bind_eq_ok.mp h
  obtain rfl := Except.ok.inj hnext
  generalize hwanted : (entries.flatMap fun (entry, group) => wantedHealth entry group) = wanted
  have hnames : wanted.map healthRefresh.wantKey = desiredNames (entries.map (·.1)) := by
    rw [← hwanted, List.map_flatMap, desiredNames, List.flatMap_map]
    refine List.flatMap_congr fun p _ => (wantedHealth_names p.1 p.2).trans ?_
    exact List.flatMap_singleton ..
  refine ⟨fun name => ?_, fun name hname hmonitored => ?_, ?_⟩
  · rw [← hnames]
    exact Refresh.mem_project
  · rw [← hnames] at hname
    have hprobed : (wanted.filter fun w => healthRefresh.wantKey w = name).all (·.probed) = true := by
      refine List.all_eq_true.mpr fun w hw => ?_
      obtain ⟨hw, hwname⟩ := List.mem_filter.mp hw
      rw [← hwanted] at hw
      obtain ⟨⟨entry, group⟩, hmem, hw⟩ := List.mem_flatMap.mp hw
      obtain ⟨listener, -, hlistener⟩ := mem_of_mapM_eq_ok hentries hmem
      have hdesired : name ∈ desiredNames [entry] := by
        rw [← wantedHealth_names entry group, ← of_decide_eq_true hwname]
        exact List.mem_map_of_mem hw
      have hgroup := hmonitored entry (List.mem_map_of_mem (f := Prod.fst) hmem) hdesired
      rw [entryMonitored, rebuildEntry_group hlistener] at hgroup
      exact wantedHealth_probed hgroup hw
    have hpart := @Refresh.part_project _ _ _ _ healthRefresh state.targetHealth wanted name _ (·.currentState)
      (·.probed) "unknown" "ok" healthRefresh_state
    rw [if_pos hname, if_pos hprobed] at hpart
    obtain ⟨record, hrecord, hstate⟩ := Option.map_eq_some_iff.mp hpart
    rw [observedState, hrecord]
    exact hstate
  · refine bind_eq_ok.mpr ⟨entries, hentries, ?_⟩
    simp only [hwanted]
    rw [Refresh.project_again (Refresh.value_again healthRefresh_state healthRefresh_congr)]
    rfl

def probedGroup : TargetGroup :=
  { name := "web", monitor := true, probeType := some "tcp", targets := [{ address := .v4 0x0a000001 }] }

def probedConfig : FileConfig :=
  { network := { gatewayIp := .v4 0xc000020b }, targetGroups := [probedGroup]
    listeners := [{ name := "web", port := 80, targetPort := 8080, targetGroup := "web" }] }

/-- The record of the target after a probe that failed, with a delay in it. -/
def measuredState : NativeProxyState :=
  { targetHealth := [{ probeHealthRecord probedGroup "web:10.0.0.1_tcp_8080" ⟨.v4 0x0a000001, 8080, 1, none, none⟩ .tcp with
      currentState := some "nok", minDelay := some "3 ms" }] }

theorem measured_state_kept :
    ∃ next, rebuildListenerState probedConfig none measuredState = .ok next ∧
      observedState next.targetHealth "web:10.0.0.1_tcp_8080" = some "nok" ∧
      rebuildListenerState probedConfig none next = .ok next := by
  have hnext : rebuildListenerState probedConfig none measuredState =
      .ok ((rebuildListenerState probedConfig none measuredState).toOption.getD {}) := by decide
  obtain ⟨-, hstate, hagain⟩ := rebuild_projection hnext
  exact ⟨_, hnext, hstate _ (by decide) (by decide), hagain⟩

/-- The definition of the target is unchanged and its state is kept, but the measured delay is
    gone, and the counter of the listener's target stands at zero whatever was stored. -/
theorem rebuild_clears_counters :
    (rebuildListenerState probedConfig none measuredState).toOption.map (fun next =>
      (next.targetHealth.map fun record => (record.currentState, record.minDelay),
        next.listeners.map fun entry => entry.targets.map (·.counter))) =
      some ([(some "nok", none)], [[some "0:0"]]) := by
  decide

end EdgeLb.Provider
