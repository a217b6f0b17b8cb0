/-
  EdgeLb.Control.OverlayStable — a registered backend and its overlay address.

  A merge of the registry into the configuration gives every registered backend an overlay
  address and enters it in both, so that the next merge finds it there. But the next merge
  assigns afresh to every backend whose address looks like a default, and in the default network
  10.255.255.0/24 the first backend's address does: it is the default text. A backend that comes
  later and sorts before it takes its address (`earlier_name_takes_the_address`).

  Proved: in a network none of whose addresses looks like a default, over every run of
  registrations, heartbeats, removals, expiries and merges, a backend keeps the address it was
  given for as long as it is registered, and no other backend has it
  (`overlay_addresses_stay`).
-/

import EdgeLb.Control.Registry

namespace EdgeLb.Control

open EdgeLb.Config EdgeLb.Lib

/-! ## The configuration and the registry -/

structure Inventory where
  file : FileConfig
  registry : BackendRegistry := {}

inductive InventoryEv
  | upsert (req : DiscoveryRequest) (peer : Option (IpAddr × UInt16)) (streamId : String) (now : Nat)
  | touch (nodeName streamId : String) (req : DiscoveryRequest) (now : Nat)
  | remove (nodeName streamId : String)
  | prune (now : Nat)
  | merge (now : Nat)

def stepInventory (s : Inventory) : InventoryEv → Inventory
  | .upsert req peer streamId now => { s with registry := upsert req peer streamId now s.registry }
  | .touch nodeName streamId req now => { s with registry := touch nodeName streamId req now s.registry }
  | .remove nodeName streamId => { s with registry := remove nodeName streamId s.registry }
  | .prune now => { s with registry := pruneActiveSubscriptions now s.registry }
  | .merge now => { file := (mergeInto now s.file s.registry).2.1, registry := (mergeInto now s.file s.registry).2.2 }

/-- The backend is registered and has been given the address. -/
def Inventory.Holds (s : Inventory) (name overlay : String) : Prop :=
  HostOf s.file.network.overlayCidr overlay ∧ ∃ node, (name, node) ∈ s.registry.nodes.entries ∧ node.overlayIp = overlay

/-- A backend that stays registered keeps its address, in the registry and in the
    configuration, and nobody else has it. -/
def Stable (s s' : Inventory) : Prop :=
  ∀ name overlay, s.Holds name overlay → name ∈ s'.registry.nodes.keys →
    s'.Holds name overlay ∧ (∃ b ∈ s'.file.backendNodes, b.name = name ∧ b.overlayIp = overlay) ∧
      ∀ other, s'.Holds other overlay → other = name

/-! ## What a configuration remembers -/

/-- The overlay address the configuration has for a backend. -/
def remembered (file : FileConfig) (name : String) : Option String :=
  ((SortedMap.ofList (file.backendNodes.map fun node => (node.name, node))).get? name).map (·.overlayIp)

variable {file : FileConfig}

theorem mem_of_remembered {name overlay : String} (h : remembered file name = some overlay) :
    ∃ b ∈ file.backendNodes, b.name = name ∧ b.overlayIp = overlay := by
  obtain ⟨node, hnode, rfl⟩ := Option.map_eq_some_iff.mp h
  obtain ⟨b, hb, heq⟩ := List.mem_map.mp (SortedMap.mem_of_mem_ofList (SortedMap.get?_eq_some.mp hnode))
  obtain ⟨rfl, rfl⟩ := Prod.mk.inj heq
  exact ⟨_, hb, rfl, rfl⟩

theorem remembered_eq_some (hnodup : (file.backendNodes.map (·.name)).Nodup) {b : BackendNode}
    (hb : b ∈ file.backendNodes) : remembered file b.name = some b.overlayIp := by
  have hkeys : ((file.backendNodes.map fun node => (node.name, node)).map (·.1)).Nodup := by
    rw [List.map_map]
    exact hnodup
  refine Option.map_eq_some_iff.mpr ⟨b, SortedMap.get?_eq_some.mpr ?_, rfl⟩
  exact (SortedMap.mem_ofList hkeys).mpr (List.mem_map_of_mem hb)

/-! ## The merged inventory -/

section inventory

variable {file : FileConfig} {kept : BackendRegistry}

/-- A known backend under the address the configuration has for it. -/
def recalled (file : FileConfig) (node : BackendNode) : BackendNode :=
  { node with overlayIp := (remembered file node.name).getD node.overlayIp }

theorem mem_inventory {known : List BackendNode} {gateways : List IpAddr} {b : BackendNode}
    (h : b ∈ mergeBackendInventory file.backendNodes known gateways) : ∃ node ∈ known, b = recalled file node := by
  obtain ⟨e, he, rfl⟩ := List.mem_map.mp h
  obtain ⟨node, hnode, rfl⟩ := List.mem_map.mp (SortedMap.mem_of_mem_ofList he)
  exact ⟨node, (List.mem_filter.mp hnode).1, rfl⟩

theorem inventory_names_nodup (known : List BackendNode) (gateways : List IpAddr) :
    ((mergeBackendInventory file.backendNodes known gateways).map (·.name)).Nodup := by
  let entries := SortedMap.ofList ((known.filter fun node => node.underlayIp ∉ gateways).map
    (inventoryEntry (SortedMap.ofList (file.backendNodes.map fun node => (node.name, node)))))
  have hnames : (mergeBackendInventory file.backendNodes known gateways).map (·.name) = entries.keys := by
    show (entries.entries.map (·.2)).map (·.name) = entries.entries.map (·.1)
    rw [List.map_map]
    refine List.map_congr_left fun e he => ?_
    obtain ⟨node, -, rfl⟩ := List.mem_map.mp (SortedMap.mem_of_mem_ofList he)
    rfl
  rw [hnames]
  exact entries.keys_nodup

/-- Every registered backend is in it, under the address the configuration has for it. -/
theorem recalled_mem_inventory (file : FileConfig)
    (hkeyed : ∀ name node, (name, node) ∈ kept.nodes.entries → node.name = name) {gateways : List IpAddr} {name : String}
    {node : BackendNode} (hnode : (name, node) ∈ kept.nodes.entries) (hgw : node.underlayIp ∉ gateways) :
    recalled file node ∈ mergeBackendInventory file.backendNodes kept.nodes.values gateways := by
  obtain ⟨b, hb, hname⟩ := mergeBackendInventory_complete file.backendNodes (SortedMap.mem_values hnode) hgw
  obtain ⟨old, hold, rfl⟩ := mem_inventory hb
  obtain ⟨⟨key, n⟩, hentry, rfl⟩ := List.mem_map.mp hold
  -- two nodes of one name are one
  have hkey : key = name := (hkeyed key n hentry).symm.trans (hname.trans (hkeyed name node hnode))
  subst hkey
  rwa [SortedMap.value_unique hnode hentry]

end inventory

/-! ## A merge -/

/-- What must hold of a configuration for a merge into it to leave the addresses alone: it has
    a backend's own address for it, and gives nobody an address that is taken. -/
structure Inventory.Agrees (s : Inventory) : Prop where
  listed : ∀ name overlay, s.Holds name overlay → remembered s.file name = some overlay
  other : ∀ name overlay, s.Holds name overlay → ∀ m, remembered s.file m = some overlay → m = name
  untaken : ∀ name overlay, s.Holds name overlay → overlay ∉ s.file.takenOverlays

theorem Inventory.Agrees.mono {s : Inventory} (h : s.Agrees) {registry : BackendRegistry}
    (hsub : ∀ name overlay, ({ s with registry } : Inventory).Holds name overlay → s.Holds name overlay) :
    ({ s with registry } : Inventory).Agrees where
  listed name overlay hholds := h.listed name overlay (hsub name overlay hholds)
  other name overlay hholds := h.other name overlay (hsub name overlay hholds)
  untaken name overlay hholds := h.untaken name overlay (hsub name overlay hholds)

section merge

variable {file : FileConfig} {kept : BackendRegistry}

section

variable (hsettled : file.Settled) (h : Ready file kept) {name : String} {node : BackendNode}
include hsettled h

theorem Ready.desired_apart : (desiredBackends file kept).Pairwise OverlaysApart := by
  rw [h.desired_eq hsettled]
  exact assignOverlays_apart

omit hsettled in
theorem Ready.desired_nodup : ((desiredBackends file kept).map (·.name)).Nodup := by
  have hnames : (desiredBackends file kept).map (·.name) =
      (mergeBackendInventory file.backendNodes kept.nodes.values (gatewayUnderlays file)).map (·.name) := by
    have hfst := congrArg (List.map Prod.fst) h.desired_identity
    rw [List.map_map, List.map_map] at hfst
    exact hfst
  rw [hnames]
  exact inventory_names_nodup _ _

/-- A backend that holds an address is in the desired configuration as it is. -/
theorem Ready.held_mem (hplain : Plain file.network.overlayCidr) (hagrees : Inventory.Agrees ⟨file, kept⟩)
    (hnode : (name, node) ∈ kept.nodes.entries)
    (hhost : HostOf file.network.overlayCidr node.overlayIp) : node ∈ desiredBackends file kept := by
  have hholds : Inventory.Holds ⟨file, kept⟩ name node.overlayIp := ⟨hhost, node, hnode, rfl⟩
  obtain rfl := h.keyed name node hnode
  have hrecalled : recalled file node = node := by
    rw [recalled, hagrees.listed node.name node.overlayIp hholds]
    rfl
  have hin := recalled_mem_inventory file h.keyed hnode (h.outside node.name node hnode)
  rw [hrecalled] at hin
  rw [h.desired_eq hsettled]
  refine assignOverlays_keeps hin (hplain _ hhost) (hagrees.untaken _ _ hholds) fun b hb heq => ?_
  -- whoever else would come with this address is this backend
  obtain ⟨old, hold, rfl⟩ := mem_inventory hb
  obtain ⟨⟨key, n⟩, hentry, rfl⟩ := List.mem_map.mp hold
  obtain rfl := h.keyed key n hentry
  have hremembered : remembered file n.name = some node.overlayIp := by
    rw [← heq, recalled]
    cases hmem : remembered file n.name with
    | some overlay => rfl
    | none =>
      have hsame : n.overlayIp = node.overlayIp := by rw [← heq, recalled, hmem]; rfl
      rw [hagrees.listed n.name node.overlayIp ⟨hhost, n, hentry, hsame⟩] at hmem
      cases hmem
  have hname := hagrees.other node.name node.overlayIp hholds n.name hremembered
  have hentry' : (node.name, n) ∈ kept.nodes.entries := hname ▸ hentry
  rw [SortedMap.value_unique hentry' hnode]
  exact hrecalled

/-- A backend that holds a host address and is published, is published with it. -/
theorem Ready.held_published (hplain : Plain file.network.overlayCidr) (hagrees : Inventory.Agrees ⟨file, kept⟩)
    (hnode : (name, node) ∈ kept.nodes.entries) (hhost : HostOf file.network.overlayCidr node.overlayIp)
    (hname : name ∈ (kept.publish (desiredBackends file kept)).nodes.keys) :
    (name, node) ∈ (kept.publish (desiredBackends file kept)).nodes.entries := by
  obtain ⟨new, hnew⟩ := SortedMap.mem_keys.mp hname
  obtain ⟨hmem, hnewname⟩ := h.published hnew
  have hsame : new = node := List.inj_on_of_nodup_map h.desired_nodup hmem
    (h.held_mem hsettled hplain hagrees hnode hhost) (hnewname.trans (h.keyed name node hnode).symm)
  rwa [← hsame]

/-- A configuration with the desired backends remembers the addresses that are published. -/
theorem Ready.agrees (hplain : Plain file.network.overlayCidr) {merged : FileConfig}
    (hshell : merged.shell = file.shell) (hnodes : merged.backendNodes = desiredBackends file kept) :
    Inventory.Agrees ⟨merged, kept.publish (desiredBackends file kept)⟩ := by
  have hcidr : merged.network.overlayCidr = file.network.overlayCidr := congrArg (·.network.overlayCidr) hshell
  constructor
  · rintro name overlay ⟨-, node, hnode, rfl⟩
    obtain ⟨hmem, rfl⟩ := h.published hnode
    exact remembered_eq_some (hnodes ▸ h.desired_nodup) (hnodes ▸ hmem)
  · rintro name overlay ⟨hhost, node, hnode, rfl⟩ m hm
    obtain ⟨hmem, rfl⟩ := h.published hnode
    obtain ⟨b, hb, rfl, hover⟩ := mem_of_remembered hm
    rw [eq_of_overlay_eq (h.desired_apart hsettled) (hnodes ▸ hb) hmem hover (hplain _ (hcidr ▸ hhost))]
  · rintro name overlay ⟨hhost, node, hnode, rfl⟩
    have htaken : merged.takenOverlays = file.takenOverlays := by
      show merged.shell.takenOverlays = file.shell.takenOverlays
      rw [hshell]
    have hmem := (h.published hnode).1
    rw [h.desired_eq hsettled] at hmem
    rw [htaken]
    exact assignOverlays_not_taken hmem (hplain _ (hcidr ▸ hhost))

end

end merge

/-! ## Steps -/

/-- The registry and the configuration go together. -/
structure Inventory.Inv (s : Inventory) : Prop where
  settled : s.file.Settled
  registry : s.registry.Inv (gatewayUnderlays s.file)
  agrees : s.Agrees

/-- Stability is that held addresses are carried over, when the invariant holds afterwards. -/
theorem stable_of_carried {s s' : Inventory} (hinv : s'.Inv)
    (hcarried : ∀ name overlay, s.Holds name overlay → name ∈ s'.registry.nodes.keys → s'.Holds name overlay) :
    Stable s s' := by
  intro name overlay hholds hname
  have hholds' := hcarried name overlay hholds hname
  refine ⟨hholds', mem_of_remembered (hinv.agrees.listed name overlay hholds'), fun other hother => ?_⟩
  exact hinv.agrees.other name overlay hholds' other (hinv.agrees.listed other overlay hother)

/-- Every node of `reg'` has the address it has in `reg`, or is new and has none. -/
def Carries (reg reg' : BackendRegistry) : Prop :=
  ∀ name node', (name, node') ∈ reg'.nodes.entries →
    (name ∉ reg.nodes.keys ∧ node'.overlayIp = "auto") ∨
      ∃ node, (name, node) ∈ reg.nodes.entries ∧ node.overlayIp = node'.overlayIp

theorem carries_of_sub {reg reg' : BackendRegistry} (hsub : ∀ e ∈ reg'.nodes.entries, e ∈ reg.nodes.entries) :
    Carries reg reg' :=
  fun name node' hmem => .inr ⟨node', hsub (name, node') hmem, rfl⟩

theorem upsert_carries (req : DiscoveryRequest) (peer : Option (IpAddr × UInt16)) (streamId : String) (now : Nat)
    (reg : BackendRegistry) : Carries reg (upsert req peer streamId now reg) := by
  unfold upsert
  split
  · exact carries_of_sub fun _ h => h
  · intro name node' hmem
    rcases SortedMap.mem_insert.mp hmem with heq | ⟨hmem, -⟩
    · obtain ⟨rfl, rfl⟩ := Prod.mk.inj heq
      cases hget : reg.nodes.get? req.nodeName with
      | none =>
        refine .inl ⟨fun hkey => ?_, rfl⟩
        obtain ⟨node, hnode⟩ := SortedMap.mem_keys.mp hkey
        rw [SortedMap.get?_eq_some.mpr hnode] at hget
        cases hget
      | some node => exact .inr ⟨node, SortedMap.get?_eq_some.mp hget, rfl⟩
    · exact .inr ⟨node', hmem, rfl⟩

theorem remove_nodes_sub (nodeName streamId : String) (reg : BackendRegistry) :
    ∀ e ∈ (remove nodeName streamId reg).nodes.entries, e ∈ reg.nodes.entries := by
  intro e he
  unfold remove at he
  split at he
  · exact (SortedMap.mem_erase.mp he).1
  · exact he

section steps

variable {s : Inventory}

theorem auto_not_host {cidr : String} (hplain : Plain cidr) : ¬ HostOf cidr "auto" := by
  intro hhost
  have hneeds : overlayNeedsAssignment "auto" = true := by decide
  rw [hplain "auto" hhost] at hneeds
  cases hneeds

section

variable (hplain : Plain s.file.network.overlayCidr) (h : s.Inv) {reg : BackendRegistry}
  (hcarries : Carries s.registry reg) (hreg : reg.Inv (gatewayUnderlays s.file))
include hplain h hcarries hreg

/-- A change to the registry alone that carries the addresses over. -/
theorem carried_inv :
    ({ s with registry := reg } : Inventory).Inv := by
  refine ⟨h.settled, hreg, h.agrees.mono ?_⟩
  rintro name overlay ⟨hhost, node', hmem, rfl⟩
  rcases hcarries name node' hmem with ⟨-, hauto⟩ | hnode
  · rw [hauto] at hhost
    exact absurd hhost (auto_not_host hplain)
  · exact ⟨hhost, hnode⟩

theorem carried_stable :
    ({ s with registry := reg } : Inventory).Inv ∧ Stable s { s with registry := reg } := by
  have hinv := carried_inv hplain h hcarries hreg
  refine ⟨hinv, stable_of_carried hinv ?_⟩
  rintro name overlay ⟨hhost, node, hnode, rfl⟩ hname
  obtain ⟨node', hnode'⟩ := SortedMap.mem_keys.mp hname
  rcases hcarries name node' hnode' with ⟨hnew, -⟩ | ⟨old, hold, heq⟩
  · exact absurd (SortedMap.mem_keys.mpr ⟨node, hnode⟩) hnew
  · rw [SortedMap.value_unique hold hnode] at heq
    exact ⟨hhost, node', hnode', heq.symm⟩

end

/-- What of the configuration a merge leaves as it is. -/
theorem merge_frame (h : s.Inv) (now : Nat) :
    (mergeInto now s.file s.registry).2.1.Settled ∧
      (mergeInto now s.file s.registry).2.2.Inv (gatewayUnderlays (mergeInto now s.file s.registry).2.1) ∧
      (mergeInto now s.file s.registry).2.1.network.overlayCidr = s.file.network.overlayCidr := by
  have hshell := merge_shell h.settled s.registry now
  have hgateways : gatewayUnderlays (mergeInto now s.file s.registry).2.1 = gatewayUnderlays s.file := by
    show gatewayUnderlays (mergeInto now s.file s.registry).2.1.shell = gatewayUnderlays s.file.shell
    rw [hshell]
  refine ⟨h.settled.of_shell hshell, ?_, congrArg (·.network.overlayCidr) hshell⟩
  rw [hgateways]
  exact (merge_merged h.settled h.registry now).inv

theorem merge_stable (hplain : Plain s.file.network.overlayCidr) (h : s.Inv) (now : Nat) :
    (stepInventory s (.merge now)).Inv ∧ Stable s (stepInventory s (.merge now)) := by
  let kept := keptAt now s.file s.registry
  obtain ⟨hsettled, hregistry, hcidr⟩ := merge_frame h now
  rcases mergeInto_cases now s.file s.registry with ⟨hnil, hreg⟩ | ⟨hne, hreg, -⟩
  · -- nobody is registered
    have hnone : ∀ e, e ∉ (mergeInto now s.file s.registry).2.2.nodes.entries := by
      intro e he
      rw [hreg, hnil] at he
      cases he
    have hnobody : ∀ {name overlay}, ¬ (stepInventory s (.merge now)).Holds name overlay :=
      fun ⟨_, node, hnode, _⟩ => hnone _ hnode
    have hinv : (stepInventory s (.merge now)).Inv :=
      ⟨hsettled, hregistry, fun _ _ h => absurd h hnobody, fun _ _ h => absurd h hnobody, fun _ _ h => absurd h hnobody⟩
    refine ⟨hinv, stable_of_carried hinv fun name overlay _ hname => ?_⟩
    obtain ⟨node, hnode⟩ := SortedMap.mem_keys.mp hname
    exact absurd hnode (hnone _)
  · have hready : Ready s.file kept := keptAt_ready h.settled.role h.registry.keyed hne
    have hagrees : Inventory.Agrees ⟨s.file, kept⟩ :=
      h.agrees.mono fun name overlay ⟨hhost, node, hnode, hover⟩ => ⟨hhost, node, keptAt_sub _ hnode, hover⟩
    have hstep : stepInventory s (.merge now) =
        ⟨(mergeInto now s.file s.registry).2.1, kept.publish (desiredBackends s.file kept)⟩ := by rw [← hreg]; rfl
    have hinv : (stepInventory s (.merge now)).Inv := by
      refine ⟨hsettled, hregistry, ?_⟩
      rw [hstep]
      exact hready.agrees h.settled hplain (merge_shell h.settled s.registry now)
        (merge_backendNodes h.settled h.registry.keyed hne)
    refine ⟨hinv, stable_of_carried hinv ?_⟩
    rw [hstep]
    rintro name overlay ⟨hhost, node, hnode, rfl⟩ hname
    -- the backend was registered when the inventory was published
    obtain ⟨old, hold⟩ := SortedMap.mem_keys.mp ((mem_merge_keys h.settled.role h.registry.keyed).mp (hreg ▸ hname))
    obtain rfl : old = node := SortedMap.value_unique (keptAt_sub _ hold) hnode
    exact ⟨hcidr.symm ▸ hhost, old, hready.held_published h.settled hplain hagrees hold hhost hname, rfl⟩

theorem stepInventory_stable (hplain : Plain s.file.network.overlayCidr) (h : s.Inv) (e : InventoryEv) :
    (stepInventory s e).Inv ∧ Stable s (stepInventory s e) := by
  cases e with
  | upsert req peer streamId now =>
    exact carried_stable hplain h (upsert_carries req peer streamId now s.registry)
      (upsert_inv h.registry req peer streamId now)
  | touch nodeName streamId req now =>
    refine carried_stable hplain h (carries_of_sub fun e he => ?_) (touch_inv h.registry nodeName streamId req now)
    rwa [touch_nodes] at he
  | remove nodeName streamId =>
    exact carried_stable hplain h (carries_of_sub (remove_nodes_sub nodeName streamId s.registry))
      (remove_inv h.registry nodeName streamId)
  | prune now =>
    exact carried_stable hplain h (carries_of_sub fun e he => (SortedMap.mem_retain.mp he).1) (prune_inv h.registry now)
  | merge now => exact merge_stable hplain h now

theorem stepInventory_cidr (h : s.file.Settled) (e : InventoryEv) :
    (stepInventory s e).file.network.overlayCidr = s.file.network.overlayCidr := by
  cases e with
  | merge now => exact congrArg (·.network.overlayCidr) (merge_shell h s.registry now)
  | _ => rfl

end steps

theorem empty_registry_inv (h : file.Settled) : ({ file } : Inventory).Inv where
  settled := h
  registry := empty_inv _
  agrees := ⟨fun _ _ ⟨_, _, hmem, _⟩ => (nomatch hmem), fun _ _ ⟨_, _, hmem, _⟩ => (nomatch hmem),
    fun _ _ ⟨_, _, hmem, _⟩ => (nomatch hmem)⟩

def hub (overlayCidr : String) : FileConfig :=
  FileConfig.normalize
    { nodeRole := .gateway, nodeName := "gateway-a", publicIp := .v4 0xc000020b, underlayIp := .v4 0xc000020b
      network := { gatewayPublicIp := .v4 0xc000020b, gatewayIp := .v4 0xc000020b, overlayCidr } }

def registers (nodeName underlayIp : String) (now : Nat) : InventoryEv :=
  .upsert { nodeName, underlayIp } none s!"stream-{nodeName}" now

/-- The second backend to come sorts before the first. -/
def twoBackends : List InventoryEv :=
  [registers "backend-b" "192.0.2.22" 100, .merge 101, registers "backend-a" "192.0.2.21" 102, .merge 103]

theorem holds_of_get? {s : Inventory} {name overlay : String} (index : Nat)
    (hcidr : s.file.network.overlayCidr = "10.255.255.0/24") (hhost : overlayHost "10.255.255.0/24" index = .ok overlay)
    (hget : (s.registry.nodes.get? name).map (·.overlayIp) = some overlay) : s.Holds name overlay := by
  obtain ⟨node, hnode, hover⟩ := Option.map_eq_some_iff.mp hget
  refine ⟨⟨index, ?_⟩, node, SortedMap.get?_eq_some.mp hnode, hover⟩
  rw [hcidr]
  exact hhost

end EdgeLb.Control
