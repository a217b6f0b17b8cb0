/-
  EdgeLb.Config.Validate — `FileConfig::validate` (`edge-lb/src/config/validate.rs`,
  `config/return_contract.rs`).

  The checks run in the source's order and the first failure is the answer. They fall
  into three parts: the node's own settings with its inventory of gateways and backends,
  the proxy configuration of a gateway (target groups, then listeners, then the bucket
  map's capacity), and the endpoints the node listens on.
-/

import EdgeLb.Config.Overlay
import Mathlib.Data.List.Sort

namespace EdgeLb.Config

open EdgeLb.Common EdgeLb.Lib

/-- `{:?}` of a string, for the escapes that occur in configuration text. -/
def debugStr (s : String) : String :=
  let escape (c : Char) : List Char :=
    if c = '"' then ['\\', '"'] else if c = '\\' then ['\\', '\\'] else if c = '\n' then ['\\', 'n']
    else if c = '\t' then ['\\', 't'] else if c = '\r' then ['\\', 'r'] else [c]
  String.ofList (['"'] ++ s.toList.flatMap escape ++ ['"'])

/-! ## The node -/

def validateStunServer (index : Nat) (server : String) : Except String Unit := do
  let server := (trim server).toList
  bailIf server.isEmpty s!"discovery.stun_servers[{index}] must not be empty"
  let port ← match server with
    | '[' :: rest =>
      -- split_once("]:"): the first bracket that a colon follows
      let rec afterBracket : List Char → Option (List Char)
        | ']' :: ':' :: port => some port
        | _ :: cs => afterBracket cs
        | [] => none
      orBail (afterBracket rest) s!"discovery.stun_servers[{index}] must use [ipv6]:port"
    | _ => orBail ((rsplitOnce ':' server).map (·.2)) s!"discovery.stun_servers[{index}] must use host:port"
  let value ← orBail (parseUnsigned 65536 port)
    s!"discovery.stun_servers[{index}] has invalid port {debugStr (String.ofList port)}"
  bailIf (value == 0) s!"discovery.stun_servers[{index}] port must be in 1..=65535"

/-- The order of addresses: IPv4 before IPv6, then by value. -/
def ipOrder : IpAddr → Nat
  | .v4 bits => bits.toNat
  | .v6 groups => 2 ^ 32 + groups.toList.foldl (fun acc g => acc * 2 ^ 16 + g.toNat) 0

def returnPathOrder (p : GatewayReturnPath) : List Nat :=
  [ipOrder p.gatewayUnderlayIp, ipOrder p.gatewayOverlayIp, p.dscp.toNat, p.mark.toNat, p.routeTableId.toNat]

def dedupConsecutive : List GatewayReturnPath → List GatewayReturnPath
  | [] => []
  | p :: ps =>
    match dedupConsecutive ps with
    | [] => [p]
    | q :: qs => if returnPathOrder p = returnPathOrder q then p :: qs else p :: q :: qs

def dedupGatewayReturnPaths (paths : List GatewayReturnPath) : List GatewayReturnPath :=
  dedupConsecutive (paths.insertionSort fun a b => returnPathOrder a < returnPathOrder b ∨
    (returnPathOrder a = returnPathOrder b ∧ a.gateway.getD "" ≤ b.gateway.getD ""))

/-- `return_contract::validate`. -/
def validateReturnContract (paths : List GatewayReturnPath) : Except String Unit :=
  eachAfter (fun before path => do
    bailIf (path.dscp.toNat < 1 || 63 < path.dscp.toNat) s!"return-path DSCP must be in 1..=63, got {path.dscp}"
    bailIf (path.mark == 0) "return-path mark must not be zero"
    bailIf (path.routeTableId == 0) "return-path table must not be zero"
    bailIf (before.any (·.dscp == path.dscp)) s!"ambiguous return-path DSCP {path.dscp}"
    bailIf (before.any (·.mark == path.mark)) s!"ambiguous return-path mark {path.mark}"
    bailIf (before.any (·.routeTableId == path.routeTableId))
      s!"ambiguous return-path table {path.routeTableId}") [] paths

variable (file : FileConfig)

def effectiveBackendXdsGateways : List String :=
  match file.backend.xds with
  | none => []
  | some xds => if xds.gateways.isEmpty && !isBlank xds.gateway then [xds.gateway] else xds.gateways

def validateBackendRole : Except String Unit :=
  if file.nodeRole = .backend then do
    if !file.backendReturnPaths.isEmpty then
      validateReturnContract (dedupGatewayReturnPaths file.backendReturnPaths)
    let gateways := effectiveBackendXdsGateways file
    bailIf (2 < gateways.length)
      s!"backend.xds.gateways supports at most 2 entries for active-backup HA, got {gateways.length}"
  else .ok ()

/-- Everything up to the inventory. -/
def validateSettings : Except String Unit := do
  let n := file.network
  let b := file.backend
  bailIf (isBlank file.logLevel) "log_level must not be empty"
  eachIdx validateStunServer file.stunServers
  bailIf (n.dscp.toNat < 1 || 63 < n.dscp.toNat) s!"network.dscp must be in 1..63, got {n.dscp}"
  bailIf (n.vni == 0 || 0xffffff < n.vni) s!"network.vni must be in 1..16777215, got {n.vni}"
  bailIf (n.vxlanPort == 0) "network.vxlan_port must not be 0"
  bailIf (n.vxlanMtu < 576) s!"network.vxlan_mtu {n.vxlanMtu} is implausibly small"
  bailIf (b.mss == 0 || n.vxlanMtu - 40 < b.mss) s!"backend.mss {b.mss} does not fit vxlan_mtu {n.vxlanMtu}"
  bailIf (b.ctMark == 0 || 0xff < b.ctMark) "backend.ct_mark must be in 1..255 (fwmark mask is /0xff)"
  bailIf (!startsWith b.fwmark "0x" || !containsChar b.fwmark '/')
    s!"backend.fwmark must look like 0x1/0xff, got {b.fwmark}"
  bailIf (b.routeTableId == 0) "backend.route_table_id must not be 0"
  bailIf (n.underlayDev == n.vxlanDev) "underlay_dev and vxlan_dev must differ"
  bailIf (file.ha.watchIntervalSecs == 0)
    "gateway.reconcile.interval_secs or backend.xds.reconnect_interval_secs must be at least 1"
  validateBackendRole file
  bailIf (file.ha.activeSource == .xds && (!file.controlPlane.enabled || file.controlPlane.mode != .xds))
    "active source xds requires control_plane.enabled = true and mode = xds"

def validateGatewayNode (backends : List BackendNode) (idx : Nat) (gw : GatewayNode) : Except String Unit := do
  let _ ← withContext s!"bad overlay_ip on gateway_nodes[{idx}]" (parsePrefix gw.overlayIp)
  bailIf (!gw.underlayIp.isUnspecified && backends.any (·.underlayIp == gw.underlayIp))
    s!"gateway_nodes[{idx}] underlay_ip equals a backend underlay_ip"

def validateBackendNode (overlayCidr : IpAddr × Nat) (before : List BackendNode)
    (backend : BackendNode) : Except String Unit := do
  let idx := before.length
  let crossOverlay := file.nodeRole == .backend && file.ha.activeSource == .xds
  bailIf (isBlank backend.name) s!"backend_nodes[{idx}] has an empty name"
  bailIf (before.any (·.name == backend.name)) s!"duplicate backend node name {backend.name}"
  bailIf (!backend.underlayIp.isUnspecified && before.any (·.underlayIp == backend.underlayIp))
    s!"duplicate backend underlay_ip {showIp backend.underlayIp}"
  bailIf (before.any (·.overlayIp == backend.overlayIp)) s!"duplicate backend overlay_ip {backend.overlayIp}"
  let overlay ← withContext s!"bad overlay_ip on backend_nodes[{idx}]" (parsePrefix backend.overlayIp)
  bailIf (!crossOverlay && !sameSubnet overlayCidr overlay)
    s!"backend_nodes[{idx}] overlay {backend.overlayIp} is not in network.overlay_cidr {file.network.overlayCidr}"

def validateInventory : Except String Unit := do
  let n := file.network
  let backends := file.backendNodesEffective
  let overlayCidr ← withContext s!"bad network.overlay_cidr {n.overlayCidr}" (parsePrefix n.overlayCidr)
  validateOverlayCapacity overlayCidr (backends.length + 1)
  let own ← withContext s!"bad gateway.overlay_ip {file.gateway.overlayIp}" (parsePrefix file.gateway.overlayIp)
  bailIf (!sameSubnet overlayCidr own)
    s!"gateway.overlay_ip {file.gateway.overlayIp} is not in network.overlay_cidr {n.overlayCidr}"
  eachIdx (validateGatewayNode backends) file.gatewayNodes
  eachAfter (validateBackendNode file overlayCidr) [] backends
  bailIf (n.standbyGatewayIp == some n.gatewayIp) "network.standby_gateway_ip equals gateway_ip"

/-! ## The proxy configuration -/

def validateProbeConfig (label : String) (group : TargetGroup) : Except String Unit := do
  let kind := toAsciiLowercase (trim (group.probeType.getD ""))
  bailIf (kind ≠ "" ∧ kind ∉ ["none", "ping", "tcp", "udp", "http", "https"])
    s!"{label} probe_type {debugStr kind} is not supported"
  match group.probePort with
  | none => pure ()
  | some port =>
    bailIf (port == 0) s!"{label} probe_port must be in range 1..=65535"
    bailIf (kind ∈ ["none", "ping"]) s!"{label} probe_port is not valid for probe_type {debugStr kind}"
  bailIf (group.periodSecs == some 0) s!"{label} period_secs must not be 0"
  let hasPayload := (group.probeReq.any fun v => !isBlank v) || (group.probeResp.any fun v => !isBlank v)
  bailIf (hasPayload && kind ∉ ["tcp", "udp", "http", "https"])
    s!"{label} probe_req/probe_resp are only valid for tcp/udp/http/https probes"
  bailIf (group.probeSkipTlsVerify && kind ≠ "https") s!"{label} probe_skip_tls_verify is only valid for https probes"

/-- The target names no backend, or one of the inventory. -/
def BackendTarget.known (backends : List BackendNode) (target : BackendTarget) : Bool :=
  target.backend.all fun backend => backends.any (·.name == backend)

def validateTarget (backends : List BackendNode) (group : TargetGroup) (idx : Nat) (target : BackendTarget) :
    Except String Unit := do
  let backend := target.backend.getD ""
  bailIf (target.weight == 0) s!"target group {group.name} target {idx} weight must be at least 1"
  bailIf target.address.isUnspecified s!"target group {group.name} target {idx} address must not be unspecified"
  bailIf (!target.known backends)
    s!"target group {group.name} target {idx} references unknown backend {backend}"

def validateTargetGroup (backends : List BackendNode) (before : List TargetGroup) (group : TargetGroup) :
    Except String Unit := do
  bailIf (isBlank group.name) s!"target_groups[{before.length}] has an empty name"
  bailIf (before.any (·.name == group.name)) s!"duplicate target group name {group.name}"
  if group.monitor then validateProbeConfig s!"target group {group.name}" group
  eachIdx (validateTarget backends group) group.targets

def validateNativeListener (listener : Listener) : Except String Unit :=
  bailIf (listener.inactiveTimeout == some 0)
    s!"listener {listener.name} inactive_timeout must be omitted or greater than 0"

def Listener.sockets (listener : Listener) : List (UInt16 × Protocol) :=
  listener.protocols.map fun protocol => (listener.port, protocol)

def validateListener (groups : List TargetGroup) (before : List Listener) (listener : Listener) :
    Except String Unit := do
  let name := listener.name
  bailIf (isBlank name) s!"listeners[{before.length}] has an empty name"
  bailIf (before.any (·.name == name)) s!"duplicate listener name {name}"
  bailIf (listener.port == 0) s!"listener {name} port must not be 0"
  bailIf (listener.targetPort == 0) s!"listener {name} target_port must not be 0"
  validateNativeListener listener
  bailIf (listener.vipIps.any (·.isUnspecified)) s!"listener {name} vip_ips cannot contain an unspecified address"
  bailIf (!decide listener.vipIps.Nodup) s!"listener {name} vip_ips contains duplicates"
  bailIf (!groups.any (·.name == listener.targetGroup))
    s!"listener {name} target_group {debugStr listener.targetGroup} is not listed in [[target_groups]]"
  bailIf listener.protocols.isEmpty s!"listener {name} needs at least one protocol"
  eachAfter (fun seen protocol =>
    bailIf (decide ((listener.port, protocol) ∈ before.flatMap Listener.sockets ++ seen.map fun p => (listener.port, p)))
      s!"duplicate listener port/protocol {protocol.asStr}:{listener.port}") [] listener.protocols

def NATIVE_CONSISTENT_HASH_BUCKET_MAP_CAPACITY : Nat := 262144

def maxConsistentHashDatapathListeners : Nat :=
  NATIVE_CONSISTENT_HASH_BUCKET_MAP_CAPACITY / NATIVE_CONSISTENT_HASH_BUCKETS.toNat

def uniqueProtocolCount (protocols : List Protocol) : Nat := protocols.dedup.length

def configuredListenerExpansionCount (listener : Listener) : Except String Nat :=
  .ok ((1 + (listener.vipIps.filter (· ≠ file.network.gatewayIp)).dedup.length) *
    uniqueProtocolCount listener.protocols)

def validateConsistentHashListenerCapacity
    (expansionCount : FileConfig → Listener → Except String Nat) : Except String Unit := do
  let expanded ← (file.listeners.filter (·.select = .consistentHash)).foldlM
    (fun acc listener => do return acc + (← expansionCount file listener)) 0
  let max := maxConsistentHashDatapathListeners
  bailIf (max < expanded)
    (s!"consistent_hash listener expansion uses {expanded} datapath listeners but native bucket map supports at most " ++
      s!"{max} ({NATIVE_CONSISTENT_HASH_BUCKETS} buckets each, {NATIVE_CONSISTENT_HASH_BUCKET_MAP_CAPACITY} map entries)")

def validateProxy : Except String Unit :=
  if file.nodeRole = .gateway then do
    eachAfter (validateTargetGroup file.backendNodesEffective) [] file.targetGroups
    eachAfter (validateListener file.targetGroups) [] file.listeners
    validateConsistentHashListenerCapacity file configuredListenerExpansionCount
  else .ok ()

/-! ## The endpoints -/

/-- A listen address that other hosts reach needs a token. -/
def validateListen (listen : String) (token : Option String) (badListen needsToken : String) : Except String Unit := do
  let (ip, _) ← orBail (parseSocketAddr listen) badListen
  bailIf (!ip.isLoopback && token.isNone) needsToken

def validateCidrs (name : String) (cidrs : List String) : Except String Unit :=
  eachIdx (fun _ cidr => do
    let _ ← withContext s!"bad {name} entry {debugStr cidr}" (parsePrefix cidr)) cidrs

def validateMetrics (metrics : GatewayMetricsConfig) : Except String Unit := do
  if metrics.enabled then
    let _ ← orBail (parseSocketAddr metrics.listen) s!"bad gateway.metrics.listen {metrics.listen}"
  validateCidrs "gateway.metrics.trusted_source_cidrs" metrics.trustedSourceCidrs

def shortToken (token : Option String) : Bool := token.any fun t => t.utf8ByteSize < 16

def validateControlPlane : Except String Unit :=
  let cp := file.controlPlane
  if cp.enabled then do
    validateListen cp.listen cp.token s!"bad control_plane.listen {cp.listen}"
      "control_plane.token is required when listening on non-loopback address"
    bailIf (shortToken cp.token) "control_plane.token must be at least 16 characters"
    bailIf (file.nodeRole == .backend && file.ha.activeSource == .xds && cp.gatewayPort == some 0)
      "control_plane.gateway_port must not be 0"
    validateCidrs "control_plane.trusted_source_cidrs" cp.trustedSourceCidrs
  else .ok ()

def validateEndpoints : Except String Unit := do
  let api := file.api
  bailIf (shortToken api.authToken) "gateway.api.auth_token must be at least 16 characters"
  validateCidrs "gateway.api.trusted_source_cidrs" api.trustedSourceCidrs
  if file.nodeRole = .gateway then
    validateListen api.listen api.authToken s!"bad gateway.api.listen {api.listen}"
      "gateway.api.auth_token is required when listening on non-loopback address"
    match file.gateway.metrics with
    | none => pure ()
    | some metrics => validateMetrics metrics
  validateControlPlane file

/-- `FileConfig::validate`. -/
def FileConfig.validate : Except String Unit := do
  validateSettings file
  validateInventory file
  validateProxy file
  validateEndpoints file

end EdgeLb.Config
