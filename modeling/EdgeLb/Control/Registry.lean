/-
  EdgeLb.Control.Registry — the backends subscribed to this gateway
  (`edge-lb/src/control/registry.rs`).

  A backend that opens a control stream is entered twice: as a subscription, which carries
  its stream and the time it was last heard of, and as a node of the inventory, which
  carries its overlay address. Both go when the stream ends or falls silent. Whoever needs
  the configuration merges the inventory into it first.

  Proved: over every run of the registry, a subscription whose address is no gateway's has
  its node (`subscriptions_have_nodes`); so every backend counted as active is in the configuration the
  registry was merged into (`active_in_merged`).
-/

import EdgeLb.Config.OverlayFill
import EdgeLb.Lib.SortedMap
import EdgeLb.Lib.Run
import Mathlib.Data.String.Basic

namespace EdgeLb.Control

open EdgeLb.Config EdgeLb.Lib

structure NodeConflictStatus where
  severity : String
  kind : String
  subject : String
  detail : String
  deriving DecidableEq, Repr

/-- What a backend sends on its control stream, with the fields the registry reads. -/
structure DiscoveryRequest where
  nodeName : String
  underlayIp : String
  version : String := ""
  responseNonce : String := ""
  ack : Bool := false
  publicIp : String := ""
  publicIpMode : String := ""
  publicIpSource : String := ""
  underlayIpMode : String := ""
  underlayIpSource : String := ""
  conflicts : List NodeConflictStatus := []
  deriving DecidableEq, Repr

structure ActiveBackendSubscription where
  publicIp : IpAddr
  publicIpMode : String
  publicIpSource : String
  underlayIp : IpAddr
  underlayIpMode : String
  underlayIpSource : String
  peer : Option (IpAddr × UInt16)
  streamId : String
  connectedAt : Nat
  lastSeen : Nat
  lastVersion : String
  conflicts : List NodeConflictStatus
  deriving DecidableEq, Repr

structure BackendRegistry where
  subscriptions : SortedMap String ActiveBackendSubscription := .empty
  nodes : SortedMap String BackendNode := .empty
  deriving DecidableEq

def DEFAULT_ACTIVE_SUBSCRIPTION_TTL_SECS : Nat := 30

def nonEmptyOr (value fallback : String) : String := if isBlank value then fallback else trim value

def conflictStatuses (req : DiscoveryRequest) : List NodeConflictStatus :=
  req.conflicts.map fun conflict =>
    { conflict with severity := nonEmptyOr conflict.severity "warning", kind := nonEmptyOr conflict.kind "unknown" }

/-! ## The stream's side -/

def subscription (req : DiscoveryRequest) (underlayIp : IpAddr) (peer : Option (IpAddr × UInt16)) (streamId : String)
    (now : Nat) : ActiveBackendSubscription where
  publicIp := (parseIp req.publicIp).getD (.v4 0)
  publicIpMode := nonEmptyOr req.publicIpMode "unknown"
  publicIpSource := nonEmptyOr req.publicIpSource "unknown"
  underlayIp := underlayIp
  underlayIpMode := nonEmptyOr req.underlayIpMode "unknown"
  underlayIpSource := nonEmptyOr req.underlayIpSource "unknown"
  peer := peer
  streamId := streamId
  connectedAt := now
  lastSeen := now
  lastVersion := req.version
  conflicts := conflictStatuses req

/-- A node that is known keeps its overlay address. -/
def upsert (req : DiscoveryRequest) (peer : Option (IpAddr × UInt16)) (streamId : String) (now : Nat)
    (reg : BackendRegistry) : BackendRegistry :=
  match parseIp req.underlayIp with
  | none => reg
  | some underlayIp =>
    let overlayIp := ((reg.nodes.get? req.nodeName).map (·.overlayIp)).getD "auto"
    { subscriptions := reg.subscriptions.insert req.nodeName (subscription req underlayIp peer streamId now)
      nodes := reg.nodes.insert req.nodeName
        { name := req.nodeName, publicIp := (parseIp req.publicIp).getD (.v4 0), underlayIp, overlayIp } }

def touched (sub : ActiveBackendSubscription) (req : DiscoveryRequest) (now : Nat) : ActiveBackendSubscription :=
  -- a heartbeat without version and nonce observes no conflicts
  let fullAck := req.ack && req.version ≠ "" && req.responseNonce ≠ ""
  { sub with
    lastSeen := now
    lastVersion := if req.version ≠ "" then req.version else sub.lastVersion
    conflicts := if fullAck || !req.conflicts.isEmpty then conflictStatuses req else sub.conflicts }

def touch (nodeName streamId : String) (req : DiscoveryRequest) (now : Nat) (reg : BackendRegistry) : BackendRegistry :=
  match reg.subscriptions.get? nodeName with
  | none => reg
  | some sub =>
    if sub.streamId = streamId then
      { reg with subscriptions := reg.subscriptions.insert nodeName (touched sub req now) }
    else reg

def remove (nodeName streamId : String) (reg : BackendRegistry) : BackendRegistry :=
  if (reg.subscriptions.get? nodeName).any (·.streamId = streamId) then
    { subscriptions := reg.subscriptions.erase nodeName, nodes := reg.nodes.erase nodeName }
  else reg

def alive (now ttlSecs : Nat) (sub : ActiveBackendSubscription) : Bool := now - sub.lastSeen ≤ ttlSecs

def BackendRegistry.pruneExpired (reg : BackendRegistry) (now ttlSecs : Nat) : BackendRegistry :=
  { subscriptions := reg.subscriptions.retain fun _ sub => alive now ttlSecs sub
    nodes := reg.nodes.retain fun name _ => (reg.subscriptions.get? name).all (alive now ttlSecs) }

def pruneActiveSubscriptions (now : Nat) (reg : BackendRegistry) : BackendRegistry :=
  reg.pruneExpired now DEFAULT_ACTIVE_SUBSCRIPTION_TTL_SECS

/-! ## The configuration's side -/

def gatewayUnderlays (file : FileConfig) : List IpAddr :=
  (file.gatewayNodes.map (·.underlayIp)).filter fun ip => !ip.isUnspecified

/-- A backend the configuration has already keeps its overlay address there. -/
def inventoryEntry (current : SortedMap String BackendNode) (node : BackendNode) : String × BackendNode :=
  (node.name, { node with overlayIp := ((current.get? node.name).map (·.overlayIp)).getD node.overlayIp })

def mergeBackendInventory (current known : List BackendNode) (gateways : List IpAddr) : List BackendNode :=
  let current := SortedMap.ofList (current.map fun node => (node.name, node))
  (SortedMap.ofList ((known.filter fun node => node.underlayIp ∉ gateways).map (inventoryEntry current))).values

/-- The nodes that stand in no gateway's place. -/
def BackendRegistry.withoutGateways (reg : BackendRegistry) (gateways : List IpAddr) : BackendRegistry :=
  { reg with nodes := reg.nodes.retain fun _ node => node.underlayIp.isUnspecified || node.underlayIp ∉ gateways }

def BackendRegistry.publish (reg : BackendRegistry) (nodes : List BackendNode) : BackendRegistry :=
  { reg with nodes := (nodes.map fun node => (node.name, node)).foldl (fun m e => m.insert e.1 e.2) reg.nodes }

/-- The configuration with the known backends. -/
def desiredConfig (file : FileConfig) (known : List BackendNode) : FileConfig :=
  { file with backendNodes := mergeBackendInventory file.backendNodes known (gatewayUnderlays file) }.normalize

/-- `merge_into`: whether the configuration changed, the configuration, and the registry,
    whose nodes take over the assigned overlay addresses. -/
def mergeInto (now : Nat) (file : FileConfig) (reg : BackendRegistry) : Bool × FileConfig × BackendRegistry :=
  let reg := pruneActiveSubscriptions now reg
  let kept := reg.withoutGateways (gatewayUnderlays file)
  let pruned := kept.nodes.entries.length ≠ reg.nodes.entries.length
  let known := kept.nodes.values
  if known.isEmpty then
    if !file.backendNodes.isEmpty || pruned then (true, { file with backendNodes := [] }.normalize, kept)
    else (false, file, kept)
  else
    let desired := desiredConfig file known
    if file.backendNodes ≠ desired.backendNodes then
      (true, { file with backendNodes := desired.backendNodes }.normalize, kept.publish desired.backendNodes)
    else (false, file, kept.publish desired.backendNodes)

/-- The registry that a merge publishes from. -/
def keptAt (now : Nat) (file : FileConfig) (reg : BackendRegistry) : BackendRegistry :=
  (pruneActiveSubscriptions now reg).withoutGateways (gatewayUnderlays file)

/-- The backends of the desired configuration. -/
def desiredBackends (file : FileConfig) (kept : BackendRegistry) : List BackendNode :=
  (desiredConfig file kept.nodes.values).backendNodes

def knownBackendNodes (file : FileConfig) (memory : SortedMap String BackendNode) : SortedMap String BackendNode :=
  let known := SortedMap.ofList (file.backendNodesEffective.map fun node => (node.name, node))
  memory.entries.foldl (fun known e => if (known.get? e.1).isSome then known else known.insert e.1 e.2) known

/-- The subscribed backends; the registry comes back pruned. -/
def activeBackendNodes (now : Nat) (file : FileConfig) (reg : BackendRegistry) : List BackendNode × BackendRegistry :=
  let reg := pruneActiveSubscriptions now reg
  let known := knownBackendNodes file reg.nodes
  let gateways := gatewayUnderlays file
  let subs := reg.subscriptions.entries.filter fun e => !e.2.underlayIp.isUnspecified && e.2.underlayIp ∉ gateways
  (subs.map fun (name, sub) =>
    { name, publicIp := sub.publicIp, underlayIp := sub.underlayIp,
      overlayIp := ((known.get? name).map (·.overlayIp)).getD "auto" }, reg)

/-! ## Every subscription has its node -/

structure BackendRegistry.Inv (gateways : List IpAddr) (reg : BackendRegistry) : Prop where
  keyed : ∀ name node, (name, node) ∈ reg.nodes.entries → node.name = name
  paired : ∀ name sub, (name, sub) ∈ reg.subscriptions.entries → sub.underlayIp.isUnspecified = false →
    sub.underlayIp ∉ gateways → ∃ node, (name, node) ∈ reg.nodes.entries ∧ node.underlayIp = sub.underlayIp

variable {gateways : List IpAddr} {reg : BackendRegistry}

theorem empty_inv (gateways : List IpAddr) : ({} : BackendRegistry).Inv gateways where
  keyed _ _ h := by cases h
  paired _ _ h := by cases h

theorem upsert_inv (h : reg.Inv gateways) (req : DiscoveryRequest) (peer : Option (IpAddr × UInt16)) (streamId : String)
    (now : Nat) : (upsert req peer streamId now reg).Inv gateways := by
  unfold upsert
  split
  · exact h
  next underlayIp _ =>
    constructor
    · intro name node hmem
      rcases SortedMap.mem_insert.mp hmem with heq | ⟨hmem', -⟩
      · cases heq
        rfl
      · exact h.keyed name node hmem'
    · intro name sub hmem hspec hgw
      rcases SortedMap.mem_insert.mp hmem with heq | ⟨hmem', hne⟩
      · cases heq
        exact ⟨_, SortedMap.mem_insert.mpr (.inl rfl), rfl⟩
      · obtain ⟨node, hnode, hip⟩ := h.paired name sub hmem' hspec hgw
        exact ⟨node, SortedMap.mem_insert.mpr (.inr ⟨hnode, hne⟩), hip⟩

theorem touch_nodes (nodeName streamId : String) (req : DiscoveryRequest) (now : Nat) (reg : BackendRegistry) :
    (touch nodeName streamId req now reg).nodes = reg.nodes := by
  unfold touch
  split
  · rfl
  · split
    · rfl
    · rfl

section

variable (h : reg.Inv gateways)
include h

theorem touch_inv (nodeName streamId : String) (req : DiscoveryRequest) (now : Nat) :
    (touch nodeName streamId req now reg).Inv gateways := by
  unfold touch
  split
  · exact h
  next sub hsub =>
    split
    · refine ⟨h.keyed, fun name sub' hmem hspec hgw => ?_⟩
      rcases SortedMap.mem_insert.mp hmem with heq | ⟨hmem', -⟩
      · cases heq
        exact h.paired nodeName sub (SortedMap.get?_eq_some.mp hsub) hspec hgw
      · exact h.paired name sub' hmem' hspec hgw
    · exact h

theorem remove_inv (nodeName streamId : String) : (remove nodeName streamId reg).Inv gateways := by
  unfold remove
  split
  · refine ⟨fun name node hmem => h.keyed name node (SortedMap.mem_erase.mp hmem).1, fun name sub hmem hspec hgw => ?_⟩
    obtain ⟨hmem', hne⟩ := SortedMap.mem_erase.mp hmem
    obtain ⟨node, hnode, hip⟩ := h.paired name sub hmem' hspec hgw
    exact ⟨node, SortedMap.mem_erase.mpr ⟨hnode, hne⟩, hip⟩
  · exact h

theorem prune_inv (now : Nat) : (pruneActiveSubscriptions now reg).Inv gateways := by
  refine ⟨fun name node hmem => h.keyed name node (SortedMap.mem_retain.mp hmem).1, fun name sub hmem hspec hgw => ?_⟩
  obtain ⟨hmem', halive⟩ := SortedMap.mem_retain.mp hmem
  obtain ⟨node, hnode, hip⟩ := h.paired name sub hmem' hspec hgw
  refine ⟨node, SortedMap.mem_retain.mpr ⟨hnode, ?_⟩, hip⟩
  -- the subscription found under the name is this one
  show (reg.subscriptions.get? name).all _ = true
  rw [SortedMap.get?_eq_some.mpr hmem']
  exact halive

theorem withoutGateways_inv : (reg.withoutGateways gateways).Inv gateways := by
  refine ⟨fun name node hmem => h.keyed name node (SortedMap.mem_retain.mp hmem).1, fun name sub hmem hspec hgw => ?_⟩
  obtain ⟨node, hnode, hip⟩ := h.paired name sub hmem hspec hgw
  refine ⟨node, SortedMap.mem_retain.mpr ⟨hnode, ?_⟩, hip⟩
  simp [hip, hgw]

omit h in
/-- A published node stands for one of its name, or is as it was. -/
theorem mem_publish {nodes : List BackendNode} {name : String} {node : BackendNode}
    (hmem : (name, node) ∈ (reg.publish nodes).nodes.entries) :
    (node ∈ nodes ∧ node.name = name) ∨ ((name, node) ∈ reg.nodes.entries ∧ name ∉ nodes.map (·.name)) := by
  rcases SortedMap.mem_foldl_insert_or hmem with hnew | ⟨hold, hnot⟩
  · obtain ⟨n, hn, heq⟩ := List.mem_map.mp hnew
    cases heq
    exact .inl ⟨hn, rfl⟩
  · rw [List.map_map] at hnot
    exact .inr ⟨hold, hnot⟩

/-- Publishing nodes that are the known ones, overlay addresses aside. -/
theorem publish_inv {nodes : List BackendNode}
    (hsame : ∀ node ∈ nodes, ∃ old, (node.name, old) ∈ reg.nodes.entries ∧ old.underlayIp = node.underlayIp) :
    (reg.publish nodes).Inv gateways := by
  constructor
  · intro name node hmem
    rcases mem_publish hmem with ⟨-, hname⟩ | ⟨hold, -⟩
    · exact hname
    · exact h.keyed name node hold
  · intro name sub hmem hspec hgw
    obtain ⟨old, hold, hip⟩ := h.paired name sub hmem hspec hgw
    have hkey : name ∈ (reg.publish nodes).nodes.keys :=
      SortedMap.mem_keys_foldl_insert.mpr (.inr (SortedMap.mem_keys.mpr ⟨old, hold⟩))
    obtain ⟨node, hnode⟩ := SortedMap.mem_keys.mp hkey
    refine ⟨node, hnode, ?_⟩
    rcases mem_publish hnode with ⟨hn, rfl⟩ | ⟨hmem', -⟩
    · obtain ⟨old', hold', hip'⟩ := hsame node hn
      rw [← hip', SortedMap.value_unique hold' hold, hip]
    · rw [SortedMap.value_unique hmem' hold, hip]

end

/-! ## Merging -/

variable {file : FileConfig} {node : BackendNode} {kept : BackendRegistry}

theorem keptAt_sub {now : Nat} {reg : BackendRegistry} :
    ∀ e ∈ (keptAt now file reg).nodes.entries, e ∈ reg.nodes.entries := by
  intro e he
  exact (SortedMap.mem_retain.mp (SortedMap.mem_retain.mp he).1).1

/-- The ways a merge ends. -/
theorem mergeInto_cases (now : Nat) (file : FileConfig) (reg : BackendRegistry) :
    ((keptAt now file reg).nodes.entries = [] ∧ (mergeInto now file reg).2.2 = keptAt now file reg) ∨
    ((keptAt now file reg).nodes.entries ≠ [] ∧
      (mergeInto now file reg).2.2 = (keptAt now file reg).publish (desiredBackends file (keptAt now file reg)) ∧
      ((mergeInto now file reg).2.1 = { file with backendNodes := desiredBackends file (keptAt now file reg) }.normalize ∨
        ((mergeInto now file reg).2.1 = file ∧ file.backendNodes = desiredBackends file (keptAt now file reg)))) := by
  unfold mergeInto
  dsimp only
  show ((keptAt now file reg).nodes.entries = [] ∧ _) ∨ ((keptAt now file reg).nodes.entries ≠ [] ∧ _)
  split
  · next hempty =>
    have hnil : (keptAt now file reg).nodes.entries = [] := by simpa [keptAt, SortedMap.values] using hempty
    refine .inl ⟨hnil, ?_⟩
    split
    · rfl
    · rfl
  · next hempty =>
    have hne : (keptAt now file reg).nodes.entries ≠ [] := by simpa [keptAt, SortedMap.values] using hempty
    refine .inr ⟨hne, ?_⟩
    split
    · exact ⟨rfl, .inl rfl⟩
    · next hsame => exact ⟨rfl, .inr ⟨rfl, not_not.mp hsame⟩⟩

/-- Of a merged inventory, each node is a known one under another overlay address. -/
theorem mem_mergeBackendInventory {current known : List BackendNode}
    (h : node ∈ mergeBackendInventory current known gateways) :
    ∃ old ∈ known, old.name = node.name ∧ old.underlayIp = node.underlayIp := by
  obtain ⟨e, he, rfl⟩ := List.mem_map.mp h
  obtain ⟨old, hold, rfl⟩ := List.mem_map.mp (SortedMap.mem_of_mem_ofList he)
  exact ⟨old, (List.mem_filter.mp hold).1, rfl, rfl⟩

/-- And each known node that is no gateway's is in it. -/
theorem mergeBackendInventory_complete (current : List BackendNode) {known : List BackendNode}
    (h : node ∈ known) (hgw : node.underlayIp ∉ gateways) :
    ∃ merged ∈ mergeBackendInventory current known gateways, merged.name = node.name := by
  have hmem : node ∈ known.filter fun node => node.underlayIp ∉ gateways :=
    List.mem_filter.mpr ⟨h, by simpa using hgw⟩
  let entries := (known.filter fun node => node.underlayIp ∉ gateways).map
    (inventoryEntry (SortedMap.ofList (current.map fun node => (node.name, node))))
  have hkey : node.name ∈ (SortedMap.ofList entries).keys :=
    SortedMap.mem_keys_ofList.mpr (List.mem_map.mpr ⟨_, List.mem_map_of_mem hmem, rfl⟩)
  obtain ⟨merged, hmerged⟩ := SortedMap.mem_keys.mp hkey
  refine ⟨merged, List.mem_map.mpr ⟨_, hmerged, rfl⟩, ?_⟩
  obtain ⟨old, -, heq⟩ := List.mem_map.mp (SortedMap.mem_of_mem_ofList hmerged)
  obtain rfl : { old with overlayIp := _ } = merged := congrArg Prod.snd heq
  exact congrArg Prod.fst heq

/-- What of a backend survives normalisation. -/
def identity (node : BackendNode) : String × IpAddr := (node.name, node.underlayIp)

/-- A list whose image under `f` is another's has an element for each of the other's. -/
theorem exists_of_map_eq {α β : Type} {f : α → β} {xs ys : List α} (h : xs.map f = ys.map f) {y : α} (hy : y ∈ ys) :
    ∃ x ∈ xs, f x = f y := by
  have hmem : f y ∈ xs.map f := by
    rw [h]
    exact List.mem_map_of_mem hy
  exact List.mem_map.mp hmem

/-- No kept node stands in a gateway's place: an unspecified address is no gateway's. -/
theorem kept_not_gateway {name : String}
    (h : (name, node) ∈ (reg.withoutGateways (gatewayUnderlays file)).nodes.entries) :
    node.underlayIp ∉ gatewayUnderlays file := by
  intro hgw
  have hspec : node.underlayIp.isUnspecified = false := by
    simpa using (List.mem_filter.mp hgw).2
  have hkeep := (SortedMap.mem_retain.mp h).2
  simp [hspec, hgw] at hkeep

/-- What a merge leaves: the rest of the configuration, every kept node by name, and the
    registry's invariant. -/
structure Merged (file : FileConfig) (kept : BackendRegistry) (merged : FileConfig × BackendRegistry) : Prop where
  shell : merged.1.shell = file.shell
  complete : ∀ name node, (name, node) ∈ kept.nodes.entries → ∃ b ∈ merged.1.backendNodes, b.name = node.name
  subscriptions : merged.2.subscriptions = kept.subscriptions
  inv : merged.2.Inv (gatewayUnderlays file)

/-- The registry of a gateway before an inventory is published. -/
structure Ready (file : FileConfig) (kept : BackendRegistry) : Prop where
  role : file.nodeRole = .gateway
  keyed : ∀ name node, (name, node) ∈ kept.nodes.entries → node.name = name
  outside : ∀ name node, (name, node) ∈ kept.nodes.entries → node.underlayIp ∉ gatewayUnderlays file
  nonempty : kept.nodes.entries ≠ []

section ready

variable {file : FileConfig} {kept : BackendRegistry} (h : Ready file kept)
include h

theorem Ready.inventory_ne_nil :
    mergeBackendInventory file.backendNodes kept.nodes.values (gatewayUnderlays file) ≠ [] := by
  obtain ⟨⟨name, node⟩, hmem⟩ := List.exists_mem_of_ne_nil _ h.nonempty
  obtain ⟨merged, hmerged, -⟩ := mergeBackendInventory_complete file.backendNodes (SortedMap.mem_values hmem)
    (h.outside name node hmem)
  exact List.ne_nil_of_mem hmerged

theorem Ready.desired_identity : (desiredBackends file kept).map identity =
    (mergeBackendInventory file.backendNodes kept.nodes.values (gatewayUnderlays file)).map identity :=
  normalize_backends (fun _ _ => rfl) h.role h.inventory_ne_nil

/-- Each backend of the desired configuration is a kept node under another overlay address. -/
theorem Ready.desired_known {node : BackendNode} (hmem : node ∈ desiredBackends file kept) :
    ∃ old, (node.name, old) ∈ kept.nodes.entries ∧ old.underlayIp = node.underlayIp := by
  obtain ⟨m, hm, hid⟩ := exists_of_map_eq h.desired_identity.symm hmem
  obtain ⟨old, hold, hname, hip⟩ := mem_mergeBackendInventory hm
  obtain ⟨⟨key, n⟩, hentry, rfl⟩ := List.mem_map.mp hold
  obtain rfl : n.name = key := h.keyed key n hentry
  refine ⟨n, ?_, hip.trans (congrArg Prod.snd hid)⟩
  have hkey : node.name = n.name := ((congrArg Prod.fst hid).symm.trans hname.symm)
  rwa [hkey]

theorem Ready.desired_complete {name : String} {node : BackendNode} (hmem : (name, node) ∈ kept.nodes.entries) :
    ∃ b ∈ desiredBackends file kept, b.name = node.name := by
  obtain ⟨m, hm, hname⟩ := mergeBackendInventory_complete file.backendNodes (SortedMap.mem_values hmem)
    (h.outside name node hmem)
  obtain ⟨b, hb, hid⟩ := exists_of_map_eq h.desired_identity hm
  exact ⟨b, hb, (congrArg Prod.fst hid).trans hname⟩

/-- What is published is the desired configuration's: every registered backend is in it. -/
theorem Ready.published {name : String} {node : BackendNode}
    (hnode : (name, node) ∈ (kept.publish (desiredBackends file kept)).nodes.entries) :
    node ∈ desiredBackends file kept ∧ node.name = name := by
  rcases mem_publish hnode with hnew | ⟨hold, hnot⟩
  · exact hnew
  · obtain ⟨b, hb, hname⟩ := h.desired_complete hold
    exact absurd (List.mem_map.mpr ⟨b, hb, hname.trans (h.keyed name node hold)⟩) hnot

theorem Ready.desired_eq (hsettled : file.Settled) :
    desiredBackends file kept = assignOverlays file.network.overlayCidr file.gatewayNodes.length file.takenOverlays
      (mergeBackendInventory file.backendNodes kept.nodes.values (gatewayUnderlays file)) :=
  hsettled.normalize_backendNodes h.inventory_ne_nil

/-- Normalising once more leaves the addresses alone. -/
theorem Ready.desired_again (hsettled : file.Settled) :
    ({ file with backendNodes := desiredBackends file kept } : FileConfig).normalize.backendNodes = desiredBackends file kept := by
  have hne : desiredBackends file kept ≠ [] := by
    intro hnil
    have hidentity := h.desired_identity
    rw [hnil] at hidentity
    exact h.inventory_ne_nil (List.map_eq_nil_iff.mp hidentity.symm)
  rw [hsettled.normalize_backendNodes hne, h.desired_eq hsettled]
  exact assignOverlays_again (fun _ _ _ _ hmem => hmem) fun _ hmem => hmem

end ready

theorem merge_subscriptions (now : Nat) (file : FileConfig) (reg : BackendRegistry) :
    (mergeInto now file reg).2.2.subscriptions = (pruneActiveSubscriptions now reg).subscriptions := by
  rcases mergeInto_cases now file reg with ⟨-, hreg⟩ | ⟨-, hreg, -⟩
  · rw [hreg]
    rfl
  · rw [hreg]
    rfl

section nodes

variable {file : FileConfig} (hrole : file.nodeRole = .gateway)
  (hkeyed : ∀ name node, (name, node) ∈ reg.nodes.entries → node.name = name)
include hrole hkeyed

theorem keptAt_ready {now : Nat} (hne : (keptAt now file reg).nodes.entries ≠ []) : Ready file (keptAt now file reg) :=
  ⟨hrole, fun name node hmem => hkeyed name node (keptAt_sub _ hmem), fun _ _ => kept_not_gateway, hne⟩

/-- The nodes after a merge are the kept ones under other overlay addresses. -/
theorem mem_merge_nodes {now : Nat} {name : String} {node : BackendNode}
    (h : (name, node) ∈ (mergeInto now file reg).2.2.nodes.entries) :
    node.name = name ∧ ∃ old, (name, old) ∈ (keptAt now file reg).nodes.entries ∧ old.underlayIp = node.underlayIp := by
  rcases mergeInto_cases now file reg with ⟨-, hreg⟩ | ⟨hne, hreg, -⟩
  · rw [hreg] at h
    exact ⟨hkeyed name node (keptAt_sub _ h), node, h, rfl⟩
  · rw [hreg] at h
    have hready := keptAt_ready hrole hkeyed hne
    obtain ⟨hmem, rfl⟩ := hready.published h
    exact ⟨rfl, hready.desired_known hmem⟩

theorem mem_merge_keys {now : Nat} {name : String} :
    name ∈ (mergeInto now file reg).2.2.nodes.keys ↔ name ∈ (keptAt now file reg).nodes.keys := by
  constructor
  · intro h
    obtain ⟨node, hnode⟩ := SortedMap.mem_keys.mp h
    obtain ⟨-, old, hold, -⟩ := mem_merge_nodes hrole hkeyed hnode
    exact SortedMap.mem_keys.mpr ⟨old, hold⟩
  · intro h
    rcases mergeInto_cases now file reg with ⟨-, hreg⟩ | ⟨-, hreg, -⟩
    · rwa [hreg]
    · rw [hreg]
      exact SortedMap.mem_keys_foldl_insert.mpr (.inr h)

end nodes

/-- Whatever the registry holds, a merge changes the backends alone. -/
theorem merge_shell (hsettled : file.Settled) (reg : BackendRegistry) (now : Nat) :
    (mergeInto now file reg).2.1.shell = file.shell := by
  unfold mergeInto
  dsimp only
  split
  · split
    · exact hsettled.normalize_shell []
    · rfl
  · split
    · exact hsettled.normalize_shell _
    · rfl

/-- The backends that a merge leaves are the desired ones. -/
theorem merge_backendNodes (hsettled : file.Settled)
    (hkeyed : ∀ name node, (name, node) ∈ reg.nodes.entries → node.name = name) {now : Nat}
    (hne : (keptAt now file reg).nodes.entries ≠ []) :
    (mergeInto now file reg).2.1.backendNodes = desiredBackends file (keptAt now file reg) := by
  rcases mergeInto_cases now file reg with ⟨hnil, -⟩ | ⟨-, -, hfile | ⟨hfile, hsame⟩⟩
  · exact absurd hnil hne
  · rw [hfile]
    exact (keptAt_ready hsettled.role hkeyed hne).desired_again hsettled
  · rw [hfile, hsame]

theorem merge_merged (hsettled : file.Settled) (h : reg.Inv (gatewayUnderlays file)) (now : Nat) :
    Merged file ((pruneActiveSubscriptions now reg).withoutGateways (gatewayUnderlays file)) (mergeInto now file reg).2 := by
  have hkept : (keptAt now file reg).Inv (gatewayUnderlays file) := withoutGateways_inv (prune_inv h now)
  show Merged file (keptAt now file reg) ((mergeInto now file reg).2.1, (mergeInto now file reg).2.2)
  rcases mergeInto_cases now file reg with ⟨hnil, hreg⟩ | ⟨hne, hreg, -⟩
  · rw [hreg]
    refine ⟨merge_shell hsettled reg now, fun name node hmem => ?_, rfl, hkept⟩
    rw [hnil] at hmem
    cases hmem
  · rw [hreg]
    have hready := keptAt_ready hsettled.role h.keyed hne
    refine ⟨merge_shell hsettled reg now, fun name node hmem => ?_, rfl, publish_inv hkept fun _ => hready.desired_known⟩
    rw [merge_backendNodes hsettled h.keyed hne]
    exact hready.desired_complete hmem

/-! ## Active backends -/

/-- Right after a merge, every active backend is in the configuration. -/
theorem active_in_merged (hsettled : file.Settled) (h : reg.Inv (gatewayUnderlays file)) (now : Nat)
    (hnode : node ∈ (activeBackendNodes now (mergeInto now file reg).2.1 (mergeInto now file reg).2.2).1) :
    node.underlayIp.isUnspecified = false ∧ ∃ b ∈ (mergeInto now file reg).2.1.backendNodes, b.name = node.name := by
  have hm := merge_merged hsettled h now
  have hgateways : gatewayUnderlays (mergeInto now file reg).2.1 = gatewayUnderlays file := by
    show gatewayUnderlays (mergeInto now file reg).2.1.shell = gatewayUnderlays file.shell
    rw [hm.shell]
  obtain ⟨⟨name, sub⟩, hsub, rfl⟩ := List.mem_map.mp hnode
  obtain ⟨hmem, hfilter⟩ := List.mem_filter.mp hsub
  obtain ⟨hspec, hgw⟩ : sub.underlayIp.isUnspecified = false ∧ sub.underlayIp ∉ gatewayUnderlays file := by
    rw [hgateways] at hfilter
    simpa using hfilter
  refine ⟨hspec, ?_⟩
  -- the subscription was there when the registry was merged
  have hsub' : (name, sub) ∈ ((pruneActiveSubscriptions now reg).withoutGateways (gatewayUnderlays file)).subscriptions.entries := by
    rw [← hm.subscriptions]
    exact (SortedMap.mem_retain.mp hmem).1
  obtain ⟨known, hknown, -⟩ := (withoutGateways_inv (prune_inv h now)).paired name sub hsub' hspec hgw
  obtain ⟨b, hb, hname⟩ := hm.complete name known hknown
  exact ⟨b, hb, hname.trans ((withoutGateways_inv (prune_inv h now)).keyed name known hknown)⟩

/-! ## Runs -/

inductive RegistryEv
  | upsert (req : DiscoveryRequest) (peer : Option (IpAddr × UInt16)) (streamId : String) (now : Nat)
  | touch (nodeName streamId : String) (req : DiscoveryRequest) (now : Nat)
  | remove (nodeName streamId : String)
  | prune (now : Nat)
  | merge (now : Nat) (file : FileConfig)

def stepRegistry (reg : BackendRegistry) : RegistryEv → BackendRegistry
  | .upsert req peer streamId now => upsert req peer streamId now reg
  | .touch nodeName streamId req now => touch nodeName streamId req now reg
  | .remove nodeName streamId => remove nodeName streamId reg
  | .prune now => pruneActiveSubscriptions now reg
  | .merge now file => (mergeInto now file reg).2.2

/-- Merges are into a loaded configuration with these gateways. -/
def RegistryEv.With (gateways : List IpAddr) : RegistryEv → Prop
  | .merge _ file => file.Settled ∧ gatewayUnderlays file = gateways
  | _ => True

theorem stepRegistry_inv (reg : BackendRegistry) (e : RegistryEv) (h : reg.Inv gateways) (he : e.With gateways) :
    (stepRegistry reg e).Inv gateways := by
  cases e with
  | upsert req peer streamId now => exact upsert_inv h req peer streamId now
  | touch nodeName streamId req now => exact touch_inv h nodeName streamId req now
  | remove nodeName streamId => exact remove_inv h nodeName streamId
  | prune now => exact prune_inv h now
  | merge now file =>
    obtain ⟨hsettled, rfl⟩ := he
    exact (merge_merged hsettled h now).inv

theorem subscriptions_have_nodes {es : List RegistryEv} (hes : ∀ e ∈ es, e.With gateways) :
    (run stepRegistry {} es).Inv gateways := by
  exact inv_run stepRegistry stepRegistry_inv (empty_inv gateways) (stepsMeet_of_forall stepRegistry hes {})

theorem merged_subscription_has_node : let file := FileConfig.normalize { nodeRole := .gateway }
    (run stepRegistry {} [.upsert { nodeName := "b", underlayIp := "192.0.2.22" } none "s" 100, .merge 101 file]).Inv
      (gatewayUnderlays file) := by
  intro file
  refine subscriptions_have_nodes ?_
  simp only [List.forall_mem_cons]
  exact ⟨trivial, ⟨settled_normalize rfl, rfl⟩, fun _ h => nomatch h⟩

end EdgeLb.Control
