/-
  EdgeLb.Config.Normalize — `FileConfig::normalize` (`edge-lb/src/config/normalize.rs`).

  Normalisation folds the role's section into the shared settings, fills in defaults,
  makes sure that the node lists itself, gives every backend an overlay address of its
  own, and takes the node's addresses over into the network settings. It runs when a
  configuration is loaded, again after local addresses are discovered, and again whenever
  the inventory of backends is replaced.

  Proved: on a gateway, replacing the backends of a normalised configuration and
  normalising again changes nothing but the backends (`Settled.normalize_shell`), and of
  those nothing but their overlay addresses (`normalize_backends`).
-/

import EdgeLb.Config.Overlay
import EdgeLb.Lib.Upsert

namespace EdgeLb.Config

open EdgeLb.Lib

def defaultGatewayPublicIp : IpAddr := .v4 0xcb00710a
def defaultGatewayIp : IpAddr := .v4 0xc000020b

/-! ## Role sections and defaults -/

def normalizeStunServers (servers : List String) : List String :=
  let kept := (servers.map trim).filter (· ≠ "")
  if kept.isEmpty then ["stun.l.google.com:19302"] else kept

def normalizeDiscovery (file : FileConfig) : FileConfig :=
  { file with stunServers := normalizeStunServers file.stunServers }

variable (role : Option NetworkConfig) (gw : GatewayNode) (network : NetworkConfig)

/-- A network section replaces the settings, but for a device that was resolved already. -/
def foldNetwork (network : NetworkConfig) : NetworkConfig :=
  match role with
  | none => network
  | some value =>
    if underlayDevIsAuto value.underlayDev && !underlayDevIsAuto network.underlayDev then
      { value with underlayDev := network.underlayDev }
    else value

def foldGatewayXds (xds : Option GatewayXdsConfig) (cp : ControlPlaneConfig) : ControlPlaneConfig :=
  match xds with
  | none => cp
  | some value =>
    { enabled := true, mode := .xds, listen := value.listen, gatewayPort := none, token := value.token,
      trustedSourceCidrs := value.trustedSourceCidrs }

def splitHostPort (value : String) : Option (List Char × UInt16) := do
  let (host, port) ← rsplitOnce ':' value.toList
  let port ← parseUnsigned 65536 port
  return (host, UInt16.ofNat port)

/-- The gateways a backend is configured with; the first port that parses is the common one. -/
def xdsGatewayNodes (gateways : List String) (gatewayPort : Option UInt16) : List GatewayNode × Option UInt16 :=
  gateways.zipIdx.foldl (fun (nodes, gatewayPort) (gateway, idx) =>
    match splitHostPort gateway with
    | none => (nodes, gatewayPort)
    | some (host, port) =>
      let gatewayPort := gatewayPort.or (some port)
      match parseIp (String.ofList host) with
      | none => (nodes, gatewayPort)
      | some underlayIp =>
        let node : GatewayNode :=
          { name := s!"gateway-{idx + 1}", publicIp := .v4 0, underlayIp, overlayIp := defaultGatewayOverlay }
        (nodes ++ [node], gatewayPort)) ([], gatewayPort)

def applyBackendXds (file : FileConfig) : FileConfig :=
  match file.backend.xds with
  | none => file
  | some value =>
    let file := { file with
      ha := { activeSource := .xds, watchIntervalSecs := value.reconnectIntervalSecs }
      controlPlane := { file.controlPlane with enabled := true, mode := .xds, token := value.token } }
    let gateways := if !value.gateways.isEmpty then value.gateways
      else if !isBlank value.gateway then [value.gateway] else []
    if !gateways.isEmpty && file.gatewayNodes.isEmpty then
      let (nodes, gatewayPort) := xdsGatewayNodes gateways file.controlPlane.gatewayPort
      { file with gatewayNodes := nodes, controlPlane := { file.controlPlane with gatewayPort } }
    else file

def applyBackendReturnPath (file : FileConfig) : FileConfig :=
  match file.backend.returnPath with
  | none => file
  | some value =>
    { file with
      network := { file.network with vxlanDev := value.vxlanDev }
      backend := { file.backend with
        ctMark := value.ctMark, fwmark := value.fwmark, routeTableId := value.routeTableId, mss := value.mss } }

def applyRoleSections (file : FileConfig) : FileConfig :=
  match file.nodeRole with
  | .gateway =>
    { file with
      controlPlane := file.gateway.controlPlane.getD (foldGatewayXds file.gateway.xds file.controlPlane)
      ha := { file.ha with
        watchIntervalSecs := (file.gateway.reconcile.map (·.intervalSecs)).getD file.ha.watchIntervalSecs }
      network := foldNetwork file.gateway.network file.network
      api := file.gateway.api.getD file.api }
  | .backend =>
    let file := applyBackendReturnPath (applyBackendXds file)
    { file with
      ha := (file.backend.control.map fun value =>
        { activeSource := value.source, watchIntervalSecs := value.reconnectIntervalSecs }).getD file.ha
      controlPlane := file.backend.controlPlane.getD file.controlPlane
      network := foldNetwork file.backend.network file.network
      api := file.backend.api.getD file.api }

def markVxlanMtuAuto (network : NetworkConfig) : NetworkConfig :=
  { network with vxlanMtuAuto := network.vxlanMtuAuto || network.vxlanMtu == 0 }

def defaultVxlanDev : NodeRole → String
  | .gateway => "edge-hub"
  | .backend => "edge-return"

def applyRoleDefaults (role : NodeRole) (network : NetworkConfig) : NetworkConfig :=
  { network with vxlanDev := if underlayDevIsAuto network.vxlanDev then defaultVxlanDev role else network.vxlanDev }

/-- A gateway's control plane, and one the active gateway comes from, is xDS. -/
def controlPlaneMode (role : NodeRole) (ha : HaConfig) (cp : ControlPlaneConfig) : ControlPlaneConfig :=
  { cp with mode := if cp.enabled && (ha.activeSource == .xds || role == .gateway) then .xds else cp.mode }

def applySettings (file : FileConfig) : FileConfig :=
  let file := applyRoleSections (normalizeDiscovery file)
  { file with
    network := applyRoleDefaults file.nodeRole (markVxlanMtuAuto file.network)
    controlPlane := controlPlaneMode file.nodeRole file.ha file.controlPlane }

/-! ## The local node -/

def ensureLocalNode (file : FileConfig) : FileConfig :=
  match file.nodeRole with
  | .gateway =>
    { file with
      gatewayNodes := if file.gatewayNodes.any (·.name = file.nodeName) then file.gatewayNodes
        else file.gatewayNodes ++ [{ name := file.nodeName, publicIp := file.publicIp, underlayIp := file.underlayIp,
                                     overlayIp := defaultGatewayOverlay }] }
  | .backend =>
    { file with
      backendNodes := if file.backendNodes.any (·.name = file.nodeName) then file.backendNodes
        else file.backendNodes ++ [{ name := file.nodeName, publicIp := file.publicIp, underlayIp := file.underlayIp,
                                     overlayIp := defaultBackendOverlay }] }

/-- The configured address, or the node's where none is configured. -/
def effectiveIp (configured node : IpAddr) : IpAddr := if configured.isUnspecified then node else configured

def applyTopLevelLocalIps (file : FileConfig) : FileConfig :=
  match file.nodeRole with
  | .gateway =>
    match file.gatewayNodes.find? fun g => g.name = file.nodeName with
    | none => file
    | some gw =>
      let publicIp := effectiveIp file.publicIp gw.publicIp
      let underlayIp := effectiveIp file.underlayIp gw.underlayIp
      { file with
        publicIp, underlayIp
        gatewayNodes := updateFirst (fun g => g.name = file.nodeName) (fun g => { g with publicIp, underlayIp })
          file.gatewayNodes }
  | .backend =>
    match file.backendNodes.find? fun b => b.name = file.nodeName with
    | none => file
    | some backend =>
      let publicIp := effectiveIp file.publicIp backend.publicIp
      let underlayIp := effectiveIp file.underlayIp backend.underlayIp
      { file with
        publicIp, underlayIp
        backendNodes := updateFirst (fun b => b.name = file.nodeName) (fun b => { b with publicIp, underlayIp })
          file.backendNodes }

def bootstrapBackend (file : FileConfig) : FileConfig :=
  match file.backendNodes, file.network.backendPublicIp, file.network.backendIp with
  | [], some publicIp, some underlayIp =>
    { file with backendNodes := [{ name := "backend-1", publicIp, underlayIp, overlayIp := file.backend.overlayIp }] }
  | _, _, _ => file

/-! ## Overlay addresses -/

/-- What a gateway's overlay address becomes. -/
def gatewayOverlay (overlayCidr current : String) : String :=
  match overlayHost overlayCidr 1 with
  | .ok overlay => if overlayNeedsAssignment current then overlay else current
  | .error _ => current

/-- Keep an address that no gateway and no backend before it has. -/
def keepOverlays (used : List String) : List BackendNode → List BackendNode × List String
  | [] => ([], used)
  | b :: bs =>
    if overlayNeedsAssignment b.overlayIp then
      let (bs, used) := keepOverlays used bs
      (b :: bs, used)
    else if b.overlayIp ∈ used then
      let (bs, used) := keepOverlays used bs
      ({ b with overlayIp := defaultBackendOverlay } :: bs, used)
    else
      let (bs, used) := keepOverlays (used ++ [b.overlayIp]) bs
      (b :: bs, used)

/-- The first unused host address, `count` indices from `index` on. -/
def firstFreeOverlay (overlayCidr : String) (used : List String) : Nat → Nat → Option String
  | 0, _ => none
  | count + 1, index =>
    match overlayHost overlayCidr index with
    | .error _ => none
    | .ok overlay => if overlay ∈ used then firstFreeOverlay overlayCidr used count (index + 1) else some overlay

def fillOverlays (overlayCidr : String) (maxHostIndex : Nat) (used : List String) : List BackendNode → List BackendNode
  | [] => []
  | b :: bs =>
    if overlayNeedsAssignment b.overlayIp then
      match firstFreeOverlay overlayCidr used (maxHostIndex - 1) 2 with
      | some overlay => { b with overlayIp := overlay } :: fillOverlays overlayCidr maxHostIndex (used ++ [overlay]) bs
      | none => b :: fillOverlays overlayCidr maxHostIndex used bs
    else b :: fillOverlays overlayCidr maxHostIndex used bs

def assignOverlayIps (file : FileConfig) : FileConfig :=
  let cidr := file.network.overlayCidr
  let gatewayNodes := file.gatewayNodes.map fun g => { g with overlayIp := gatewayOverlay cidr g.overlayIp }
  let own := gatewayOverlay cidr file.gateway.overlayIp
  let (kept, used) := keepOverlays (gatewayNodes.map (·.overlayIp) ++ [own]) file.backendNodes
  { file with
    gatewayNodes
    gateway := { file.gateway with overlayIp := own }
    backendNodes := fillOverlays cidr (kept.length + gatewayNodes.length + 256) used kept }

/-! ## The whole -/

def localGateway (file : FileConfig) : Option GatewayNode :=
  (file.gatewayNodes.find? fun g => g.name = file.nodeName).or file.gatewayNodes.head?

/-- Addresses still at their defaults become the node's. -/
def adoptAddresses (gw : GatewayNode) (network : NetworkConfig) : NetworkConfig :=
  { network with
    gatewayPublicIp := if network.gatewayPublicIp = defaultGatewayPublicIp then gw.publicIp else network.gatewayPublicIp
    gatewayIp := if network.gatewayIp = defaultGatewayIp then gw.underlayIp else network.gatewayIp }

def adoptOverlay (role : NodeRole) (gw : GatewayNode) (overlayIp : String) : String :=
  if role = .gateway ∧ overlayNeedsAssignment overlayIp then gw.overlayIp else overlayIp

def adoptGateway (file : FileConfig) : FileConfig :=
  match localGateway file with
  | none => file
  | some gw =>
    { file with
      network := adoptAddresses gw file.network
      gateway := { file.gateway with overlayIp := adoptOverlay file.nodeRole gw file.gateway.overlayIp } }

/-- `FileConfig::normalize`. -/
def FileConfig.normalize (file : FileConfig) : FileConfig :=
  adoptGateway (assignOverlayIps (bootstrapBackend (applyTopLevelLocalIps (ensureLocalNode (applySettings file)))))

/-! ## Normalising again -/

/-- Everything but the backends. -/
def FileConfig.shell (file : FileConfig) : FileConfig := { file with backendNodes := [] }

/-- The network settings of a gateway after normalisation. -/
def settleNetwork : NetworkConfig :=
  adoptAddresses gw (applyRoleDefaults .gateway (markVxlanMtuAuto (foldNetwork role network)))

/-- The gateway's own overlay address after normalisation. -/
def settleOverlay (overlayCidr : String) (gw : GatewayNode) (overlayIp : String) : String :=
  adoptOverlay .gateway gw (gatewayOverlay overlayCidr overlayIp)

def settleControlPlane (role : Option ControlPlaneConfig) (xds : Option GatewayXdsConfig) (ha : HaConfig)
    (cp : ControlPlaneConfig) : ControlPlaneConfig :=
  controlPlaneMode .gateway ha (role.getD (foldGatewayXds xds cp))

/-- A gateway's configuration that normalisation leaves as it is, backends aside. -/
structure FileConfig.Settled (file : FileConfig) : Prop where
  role : file.nodeRole = .gateway
  stun : normalizeStunServers file.stunServers = file.stunServers
  interval : (file.gateway.reconcile.map (·.intervalSecs)).getD file.ha.watchIntervalSecs = file.ha.watchIntervalSecs
  controlPlane : settleControlPlane file.gateway.controlPlane file.gateway.xds file.ha file.controlPlane =
    file.controlPlane
  api : file.gateway.api.getD file.api = file.api
  cidr : (foldNetwork file.gateway.network file.network).overlayCidr = file.network.overlayCidr
  node : ∃ gw, (file.gatewayNodes.find? fun g => g.name = file.nodeName) = some gw ∧
    gw.publicIp = file.publicIp ∧ gw.underlayIp = file.underlayIp ∧
    settleNetwork file.gateway.network gw file.network = file.network ∧
    settleOverlay file.network.overlayCidr gw file.gateway.overlayIp = file.gateway.overlayIp
  overlays : ∀ g ∈ file.gatewayNodes, gatewayOverlay file.network.overlayCidr g.overlayIp = g.overlayIp

/-! ### The parts are stable -/

theorem normalizeStunServers_again (servers : List String) :
    normalizeStunServers (normalizeStunServers servers) = normalizeStunServers servers := by
  have hkept : ∀ s ∈ (servers.map trim).filter (· ≠ ""), trim s = s := by
    intro s hs
    obtain ⟨t, -, rfl⟩ := List.mem_map.mp (List.mem_filter.mp hs).1
    exact trim_trim t
  unfold normalizeStunServers
  by_cases hempty : ((servers.map trim).filter (· ≠ "")).isEmpty = true
  · simp only [hempty, if_true]
    decide
  · simp only [hempty, Bool.false_eq_true, if_false]
    have hmap : ((servers.map trim).filter (· ≠ "")).map trim = (servers.map trim).filter (· ≠ "") := by
      conv_rhs => rw [← List.map_id ((servers.map trim).filter (· ≠ ""))]
      exact List.map_congr_left hkept
    rw [hmap, List.filter_filter]
    simp only [Bool.and_self, hempty, Bool.false_eq_true, if_false]

theorem controlPlaneMode_again (role : NodeRole) (ha : HaConfig) (cp : ControlPlaneConfig) :
    controlPlaneMode role ha (controlPlaneMode role ha cp) = controlPlaneMode role ha cp := by
  by_cases h : (cp.enabled && (ha.activeSource == .xds || role == .gateway)) = true
  · simp [controlPlaneMode, h]
  · simp [controlPlaneMode, h]

theorem settleControlPlane_again (role : Option ControlPlaneConfig) (xds : Option GatewayXdsConfig) (ha : HaConfig)
    (cp : ControlPlaneConfig) :
    settleControlPlane role xds ha (settleControlPlane role xds ha cp) = settleControlPlane role xds ha cp := by
  unfold settleControlPlane
  cases role with
  | some value => rfl
  | none =>
    cases xds with
    | some value => rfl
    | none => exact controlPlaneMode_again .gateway ha cp

theorem gatewayOverlay_again (cidr overlay : String) :
    gatewayOverlay cidr (gatewayOverlay cidr overlay) = gatewayOverlay cidr overlay := by
  unfold gatewayOverlay
  split
  · next host _ =>
    by_cases h : overlayNeedsAssignment overlay = true
    · simp [h]
    · simp [h]
  · rfl

theorem settleOverlay_again {cidr : String} {gw : GatewayNode}
    (hgw : gatewayOverlay cidr gw.overlayIp = gw.overlayIp) (overlay : String) :
    settleOverlay cidr gw (settleOverlay cidr gw overlay) = settleOverlay cidr gw overlay := by
  unfold settleOverlay
  by_cases hneeds : overlayNeedsAssignment (gatewayOverlay cidr overlay) = true
  · -- the node's address is taken over, the first time and again
    have hadopt : adoptOverlay .gateway gw (gatewayOverlay cidr overlay) = gw.overlayIp := by
      simp [adoptOverlay, hneeds]
    rw [hadopt, hgw]
    simp [adoptOverlay]
  · have hkeep : adoptOverlay .gateway gw (gatewayOverlay cidr overlay) = gatewayOverlay cidr overlay := by
      simp [adoptOverlay, hneeds]
    rw [hkeep, gatewayOverlay_again, hkeep]

/-- A device that is resolved stays, so the section folds to the same settings. -/
theorem foldNetwork_again (network n : NetworkConfig) (hdev : n.underlayDev = (foldNetwork role network).underlayDev) :
    foldNetwork role n = if role.isSome then foldNetwork role network else n := by
  cases role with
  | none => rfl
  | some value =>
    simp only [foldNetwork, Option.isSome_some, if_true] at hdev ⊢
    by_cases hauto : underlayDevIsAuto value.underlayDev = true
    · by_cases hres : underlayDevIsAuto network.underlayDev = true
      · simp_all
      · simp_all
    · simp_all

theorem adoptAddresses_again (gw : GatewayNode) (network : NetworkConfig) :
    adoptAddresses gw (adoptAddresses gw network) = adoptAddresses gw network := by
  by_cases hpub : network.gatewayPublicIp = defaultGatewayPublicIp
  · by_cases hip : network.gatewayIp = defaultGatewayIp
    · simp [adoptAddresses, hpub, hip]
    · simp [adoptAddresses, hpub, hip]
  · by_cases hip : network.gatewayIp = defaultGatewayIp
    · simp [adoptAddresses, hpub, hip]
    · simp [adoptAddresses, hpub, hip]

theorem settleNetwork_overlayCidr :
    (settleNetwork role gw network).overlayCidr = (foldNetwork role network).overlayCidr := rfl

/-- `adoptAddresses`, from a gateway that may not be there. -/
def adoptFrom (gw : Option GatewayNode) (network : NetworkConfig) : NetworkConfig :=
  gw.elim network (adoptAddresses · network)

/-- The device that a return path names, in place of the network's. -/
def withDev (dev : Option String) (network : NetworkConfig) : NetworkConfig :=
  { network with vxlanDev := dev.getD network.vxlanDev }

/-- The network settings after the role's section and defaults. -/
def roleNetwork (role : NodeRole) (section_ : Option NetworkConfig) (dev : Option String) (network : NetworkConfig) :
    NetworkConfig :=
  applyRoleDefaults role (markVxlanMtuAuto (foldNetwork section_ (withDev dev network)))

/-- The settings are those from before the gateway's addresses are taken over, or those from after. -/
theorem roleNetwork_again (role : NodeRole) (section_ : Option NetworkConfig) (dev : Option String) (gw : Option GatewayNode)
    (network : NetworkConfig) :
    let settled := adoptFrom gw (roleNetwork role section_ dev network)
    roleNetwork role section_ dev settled = roleNetwork role section_ dev network ∨
      roleNetwork role section_ dev settled = settled := by
  intro settled
  have hunderlay : (withDev dev settled).underlayDev = (foldNetwork section_ (withDev dev network)).underlayDev := by
    show (adoptFrom gw _).underlayDev = _
    cases gw <;> rfl
  have hfold := foldNetwork_again section_ (withDev dev network) (withDev dev settled) hunderlay
  cases section_ with
  | some value =>
    rw [Option.isSome_some, if_pos rfl] at hfold
    exact .inl (congrArg (fun n => applyRoleDefaults role (markVxlanMtuAuto n)) hfold)
  | none =>
    have hdev : ¬ underlayDevIsAuto (defaultVxlanDev role) = true := by cases role <;> decide
    refine .inr ?_
    show applyRoleDefaults role (markVxlanMtuAuto (withDev dev (adoptFrom gw
      (applyRoleDefaults role (markVxlanMtuAuto (withDev dev network)))))) = settled
    by_cases hauto : underlayDevIsAuto (dev.getD network.vxlanDev) = true
    · cases gw <;> cases dev <;> simp_all [settled, roleNetwork, foldNetwork, adoptFrom, adoptAddresses, applyRoleDefaults,
        markVxlanMtuAuto, withDev]
    · cases gw <;> cases dev <;> simp_all [settled, roleNetwork, foldNetwork, adoptFrom, adoptAddresses, applyRoleDefaults,
        markVxlanMtuAuto, withDev]

theorem settleNetwork_again :
    settleNetwork role gw (settleNetwork role gw network) = settleNetwork role gw network := by
  have hsettled : settleNetwork role gw network = adoptFrom (some gw) (roleNetwork .gateway role none network) := rfl
  show adoptAddresses gw (roleNetwork .gateway role none (settleNetwork role gw network)) = _
  rcases roleNetwork_again .gateway role none (some gw) network with h | h
  · rw [hsettled, h]
    rfl
  · rw [hsettled, h]
    exact adoptAddresses_again gw (roleNetwork .gateway role none network)

/-! ### The whole is stable -/

theorem bootstrapBackend_eq (file : FileConfig) :
    ∃ backends, bootstrapBackend file = { file with backendNodes := backends } := by
  unfold bootstrapBackend
  split
  · exact ⟨_, rfl⟩
  · exact ⟨file.backendNodes, rfl⟩

variable {file : FileConfig}

/-- A gateway lists itself, with the addresses it takes over. -/
theorem gateway_listed (hrole : file.nodeRole = .gateway) :
    ∃ nodes gw, (nodes.find? fun g => g.name = file.nodeName) = some gw ∧ applyTopLevelLocalIps (ensureLocalNode file) =
      { file with gatewayNodes := nodes, publicIp := gw.publicIp, underlayIp := gw.underlayIp } := by
  obtain ⟨gw, hgw⟩ := exists_find?_ensured (p := fun g => g.name = file.nodeName) (GatewayNode.mk file.nodeName file.publicIp
    file.underlayIp defaultGatewayOverlay) (decide_eq_true rfl) file.gatewayNodes
  let own : GatewayNode := { gw with
    publicIp := effectiveIp file.publicIp gw.publicIp, underlayIp := effectiveIp file.underlayIp gw.underlayIp }
  refine ⟨_, own, ?_, by simp only [ensureLocalNode, applyTopLevelLocalIps, hrole, hgw]; rfl⟩
  refine (find?_updateFirst ?_ _).trans (by rw [hgw]; rfl)
  exact fun _ hname => hname

def withOverlay (cidr : String) (g : GatewayNode) : GatewayNode := { g with overlayIp := gatewayOverlay cidr g.overlayIp }

/-- The gateways with the addresses that they get. -/
def FileConfig.gatewaysAssigned (file : FileConfig) : List GatewayNode := file.gatewayNodes.map (withOverlay file.network.overlayCidr)

def FileConfig.gatewayAdopted (file : FileConfig) : Option GatewayNode := (localGateway file).map (withOverlay file.network.overlayCidr)

theorem localGateway_assignOverlayIps (file : FileConfig) : localGateway (assignOverlayIps file) = file.gatewayAdopted := by
  have hfind : (file.gatewaysAssigned.find? fun g => g.name = file.nodeName) =
      (file.gatewayNodes.find? fun g => g.name = file.nodeName).map (withOverlay file.network.overlayCidr) :=
    List.find?_map
  have hhead : file.gatewaysAssigned.head? = file.gatewayNodes.head?.map (withOverlay file.network.overlayCidr) :=
    List.head?_map
  show (file.gatewaysAssigned.find? fun g => g.name = file.nodeName).or file.gatewaysAssigned.head? = _
  rw [hfind, hhead, FileConfig.gatewayAdopted, localGateway, Option.map_or]

theorem adoptGateway_assignOverlayIps (file : FileConfig) (hrole : file.nodeRole = .gateway) {gw : GatewayNode}
    (hgw : (file.gatewayNodes.find? fun g => g.name = file.nodeName) = some gw) :
    ∃ backends, adoptGateway (assignOverlayIps file) = { file with
      gatewayNodes := file.gatewayNodes.map (withOverlay file.network.overlayCidr)
      network := adoptAddresses (withOverlay file.network.overlayCidr gw) file.network
      gateway := { file.gateway with
        overlayIp := settleOverlay file.network.overlayCidr (withOverlay file.network.overlayCidr gw) file.gateway.overlayIp }
      backendNodes := backends } := by
  have hlocal : localGateway file = some gw := by rw [localGateway, hgw, Option.some_or]
  refine ⟨(assignOverlayIps file).backendNodes, ?_⟩
  unfold adoptGateway settleOverlay
  rw [localGateway_assignOverlayIps, FileConfig.gatewayAdopted, hlocal, ← hrole]
  rfl

theorem applySettings_gateway (file : FileConfig) (hrole : file.nodeRole = .gateway) :
    applySettings file =
      let ha := { file.ha with
        watchIntervalSecs := (file.gateway.reconcile.map (·.intervalSecs)).getD file.ha.watchIntervalSecs }
      { file with
        stunServers := normalizeStunServers file.stunServers
        ha
        controlPlane := settleControlPlane file.gateway.controlPlane file.gateway.xds ha file.controlPlane
        api := file.gateway.api.getD file.api
        network := applyRoleDefaults .gateway (markVxlanMtuAuto (foldNetwork file.gateway.network file.network)) } := by
  simp only [applySettings, applyRoleSections, normalizeDiscovery, hrole, settleControlPlane]

/-- What normalisation makes of a gateway's configuration. -/
theorem normalize_gateway (hrole : file.nodeRole = .gateway) :
    ∃ nodes gw backends,
      (nodes.find? fun g => g.name = file.nodeName) = some gw ∧
      (∀ g ∈ nodes, gatewayOverlay (foldNetwork file.gateway.network file.network).overlayCidr g.overlayIp = g.overlayIp) ∧
      file.normalize = { applySettings file with
        gatewayNodes := nodes
        publicIp := gw.publicIp
        underlayIp := gw.underlayIp
        network := settleNetwork file.gateway.network gw file.network
        gateway := { file.gateway with
          overlayIp := settleOverlay (foldNetwork file.gateway.network file.network).overlayCidr gw file.gateway.overlayIp }
        backendNodes := backends } := by
  have hshape := applySettings_gateway file hrole
  have hrole' : (applySettings file).nodeRole = .gateway := by rw [hshape]; exact hrole
  have hcidr : (applySettings file).network.overlayCidr = (foldNetwork file.gateway.network file.network).overlayCidr := by
    rw [hshape]
    rfl
  obtain ⟨nodes, gw, hgw, hlisted⟩ := gateway_listed hrole'
  obtain ⟨booted, hboot⟩ := bootstrapBackend_eq
    { applySettings file with gatewayNodes := nodes, publicIp := gw.publicIp, underlayIp := gw.underlayIp }
  obtain ⟨backends, hadopt⟩ := adoptGateway_assignOverlayIps
    { applySettings file with
      gatewayNodes := nodes, publicIp := gw.publicIp, underlayIp := gw.underlayIp, backendNodes := booted } hrole' hgw
  dsimp only at hadopt
  rw [hcidr] at hadopt
  let cidr := (foldNetwork file.gateway.network file.network).overlayCidr
  refine ⟨nodes.map (withOverlay cidr), withOverlay cidr gw, backends, ?_, ?_, ?_⟩
  · rw [hshape] at hgw
    rw [List.find?_map]
    exact congrArg (Option.map _) hgw
  · intro g hg
    obtain ⟨g₀, -, rfl⟩ := List.mem_map.mp hg
    exact gatewayOverlay_again cidr g₀.overlayIp
  · unfold FileConfig.normalize
    rw [hlisted, hboot, hadopt, hshape]
    rfl

theorem getD_again {α : Type} (o : Option α) (a : α) : o.getD (o.getD a) = o.getD a := by
  cases o with
  | none => rfl
  | some b => rfl

theorem settled_normalize (hrole : file.nodeRole = .gateway) : file.normalize.Settled := by
  obtain ⟨nodes, gw, backends, hgw, hoverlays, heq⟩ := normalize_gateway hrole
  rw [applySettings_gateway file hrole] at heq
  have hfold := foldNetwork_again file.gateway.network file.network (settleNetwork file.gateway.network gw file.network) rfl
  have hcidr : (foldNetwork file.gateway.network (settleNetwork file.gateway.network gw file.network)).overlayCidr =
      (foldNetwork file.gateway.network file.network).overlayCidr := by
    rw [hfold]
    split
    · rfl
    · rfl
  dsimp only at heq
  rw [heq]
  refine ⟨hrole, normalizeStunServers_again file.stunServers,
    getD_again (file.gateway.reconcile.map (·.intervalSecs)) file.ha.watchIntervalSecs,
    settleControlPlane_again file.gateway.controlPlane file.gateway.xds _ file.controlPlane,
    getD_again file.gateway.api file.api, hcidr,
    ⟨gw, hgw, rfl, rfl, settleNetwork_again file.gateway.network gw file.network, ?_⟩, hoverlays⟩
  dsimp only
  rw [settleNetwork_overlayCidr]
  exact settleOverlay_again (hoverlays gw (List.mem_of_find?_eq_some hgw)) file.gateway.overlayIp

theorem effectiveIp_self (ip : IpAddr) : effectiveIp ip ip = ip := by
  simp [effectiveIp]

/-- To be settled says nothing of the backends. -/
theorem FileConfig.Settled.of_shell {file file' : FileConfig} (h : file.Settled) (hshell : file'.shell = file.shell) :
    file'.Settled := by
  have hfile : file.shell.Settled :=
    ⟨h.role, h.stun, h.interval, h.controlPlane, h.api, h.cidr, h.node, h.overlays⟩
  rw [← hshell] at hfile
  exact ⟨hfile.role, hfile.stun, hfile.interval, hfile.controlPlane, hfile.api, hfile.cidr, hfile.node, hfile.overlays⟩

/-- The network settings that a settled configuration has while it is normalised. -/
def FileConfig.foldedNetwork (file : FileConfig) : NetworkConfig :=
  applyRoleDefaults .gateway (markVxlanMtuAuto (foldNetwork file.gateway.network file.network))

/-- Normalising a settled configuration with other backends comes down to its last steps. -/
theorem FileConfig.Settled.normalize_eq (h : file.Settled) (backends : List BackendNode) :
    ({ file with backendNodes := backends } : FileConfig).normalize =
      adoptGateway (assignOverlayIps (bootstrapBackend
        { file with backendNodes := backends, network := file.foldedNetwork })) := by
  obtain ⟨gw, hgw, hpublic, hunderlay, -, -⟩ := h.node
  have hsettings : applySettings { file with backendNodes := backends } =
      { file with backendNodes := backends, network := file.foldedNetwork } := by
    rw [applySettings_gateway { file with backendNodes := backends } h.role]
    simp only [h.stun, h.interval, h.api, h.controlPlane]
    rfl
  have hensure : ensureLocalNode { file with backendNodes := backends, network := file.foldedNetwork } =
      { file with backendNodes := backends, network := file.foldedNetwork } := by
    simp only [ensureLocalNode, h.role, any_of_find?_eq_some hgw, if_true]
  have htop : applyTopLevelLocalIps { file with backendNodes := backends, network := file.foldedNetwork } =
      { file with backendNodes := backends, network := file.foldedNetwork } := by
    have hsame : updateFirst (fun g => g.name = file.nodeName)
        (fun g => { g with publicIp := file.publicIp, underlayIp := file.underlayIp }) file.gatewayNodes =
        file.gatewayNodes := by
      refine updateFirst_eq_self fun g hg => ?_
      obtain rfl : gw = g := Option.some.inj (hgw.symm.trans hg)
      rw [← hpublic, ← hunderlay]
    simp only [applyTopLevelLocalIps, h.role, hgw, hpublic, hunderlay, effectiveIp_self, hsame]
  unfold FileConfig.normalize
  rw [hsettings, hensure, htop]

/-- On a settled configuration with other backends, normalisation changes no more than the
    backends. -/
theorem FileConfig.Settled.normalize_shell (h : file.Settled) (backends : List BackendNode) :
    ({ file with backendNodes := backends } : FileConfig).normalize.shell = file.shell := by
  obtain ⟨gw, hgw, -, -, hnetwork, hoverlay⟩ := h.node
  obtain ⟨booted, hboot⟩ := bootstrapBackend_eq { file with backendNodes := backends, network := file.foldedNetwork }
  obtain ⟨assigned, hadopt⟩ := adoptGateway_assignOverlayIps
    { file with backendNodes := booted, network := file.foldedNetwork } h.role hgw
  have hcidr : file.foldedNetwork.overlayCidr = file.network.overlayCidr := h.cidr
  have hgw' : withOverlay file.foldedNetwork.overlayCidr gw = gw := by
    rw [withOverlay, hcidr, h.overlays gw (List.mem_of_find?_eq_some hgw)]
  have hnodes : file.gatewayNodes.map (withOverlay file.foldedNetwork.overlayCidr) = file.gatewayNodes := by
    conv_rhs => rw [← List.map_id file.gatewayNodes]
    refine List.map_congr_left fun g hg => ?_
    rw [withOverlay, hcidr, h.overlays g hg]
    rfl
  have hadopted : adoptAddresses gw file.foldedNetwork = file.network := hnetwork
  dsimp only at hadopt
  rw [hgw', hnodes, hcidr, hoverlay, hadopted] at hadopt
  rw [h.normalize_eq, hboot, hadopt]
  rfl

theorem adoptGateway_backendNodes (file : FileConfig) : (adoptGateway file).backendNodes = file.backendNodes := by
  unfold adoptGateway
  split
  · rfl
  · rfl

theorem bootstrapBackend_of_ne (hne : file.backendNodes ≠ []) : bootstrapBackend file = file := by
  unfold bootstrapBackend
  split
  · next hempty _ _ => exact absurd hempty hne
  · rfl

/-! ### The backends keep their identity -/

section identity

variable {β : Type} {f : BackendNode → β} (hf : ∀ b overlayIp, f { b with overlayIp } = f b)

include hf

theorem keepOverlays_map (used : List String) (bs : List BackendNode) : (keepOverlays used bs).1.map f = bs.map f := by
  induction bs generalizing used with
  | nil => rfl
  | cons b bs ih =>
    simp only [keepOverlays]
    split
    · simp [ih]
    · split
      · simp [ih, hf]
      · simp [ih]

theorem fillOverlays_map (cidr : String) (maxHostIndex : Nat) (used : List String) (bs : List BackendNode) :
    (fillOverlays cidr maxHostIndex used bs).map f = bs.map f := by
  induction bs generalizing used with
  | nil => rfl
  | cons b bs ih =>
    simp only [fillOverlays]
    split
    · split
      · simp [ih, hf]
      · simp [ih]
    · simp [ih]

theorem assignOverlayIps_map (file : FileConfig) : (assignOverlayIps file).backendNodes.map f = file.backendNodes.map f := by
  simp only [assignOverlayIps, fillOverlays_map hf, keepOverlays_map hf]

/-- On a gateway, normalisation gives the backends overlay addresses and changes nothing
    else of them. -/
theorem normalize_backends {file : FileConfig} (hrole : file.nodeRole = .gateway) (hne : file.backendNodes ≠ []) :
    file.normalize.backendNodes.map f = file.backendNodes.map f := by
  have hsettings : (applySettings file).backendNodes = file.backendNodes := by rw [applySettings_gateway file hrole]
  have hrole' : (applySettings file).nodeRole = .gateway := by rw [applySettings_gateway file hrole]; exact hrole
  obtain ⟨nodes, gw, -, hlisted⟩ := gateway_listed hrole'
  unfold FileConfig.normalize
  rw [adoptGateway_backendNodes, assignOverlayIps_map hf, hlisted, bootstrapBackend_of_ne]
  · exact congrArg (List.map f) hsettings
  · exact fun h => hne (hsettings.symm.trans h)

end identity

end EdgeLb.Config
