/-
  EdgeLb.Config.Model — the agent's configuration (`edge-lb/src/config/model.rs`,
  `config/mod.rs`, `config/defaults.rs`): the records, with the fields that validation,
  normalisation and the datapath read.

  Left out are fields no modelled function reads: state paths, discovery settings other
  than the STUN servers, and names of kernel objects on the backend.
-/

import EdgeLb.Common.Flow
import EdgeLb.Lib.Net

namespace EdgeLb.Config

open EdgeLb.Common EdgeLb.Lib

inductive NodeRole
  | backend | gateway
  deriving DecidableEq, Repr

inductive Protocol
  | tcp | udp
  deriving DecidableEq, Repr

def Protocol.asStr : Protocol → String
  | .tcp => "tcp"
  | .udp => "udp"

inductive LbSelect
  | rr | hash | consistentHash | priority | persist | lc
  deriving DecidableEq, Repr

def LbSelect.code : LbSelect → UInt32
  | .rr => NATIVE_SELECT_RR
  | .hash => NATIVE_SELECT_HASH
  | .consistentHash => NATIVE_SELECT_CONSISTENT_HASH
  | .priority => NATIVE_SELECT_PRIORITY
  | .persist => NATIVE_SELECT_PERSIST
  | .lc => NATIVE_SELECT_LC

inductive ActiveSource
  | file | manual | xds | http
  deriving DecidableEq, Repr

inductive ControlPlaneMode
  | file | xds
  deriving DecidableEq, Repr

structure GatewayNode where
  name : String
  publicIp : IpAddr
  underlayIp : IpAddr
  overlayIp : String
  deriving DecidableEq, Repr

structure BackendNode where
  name : String
  publicIp : IpAddr
  underlayIp : IpAddr
  overlayIp : String
  deriving DecidableEq, Repr

structure GatewayReturnPath where
  gateway : Option String := none
  gatewayUnderlayIp : IpAddr
  gatewayOverlayIp : IpAddr
  backendOverlayIp : Option String := none
  dscp : UInt32
  mark : UInt32
  routeTableId : UInt32
  deriving DecidableEq, Repr

structure BackendTarget where
  backend : Option String := none
  address : IpAddr := .v4 0
  weight : UInt32 := 1
  deriving DecidableEq, Repr

structure TargetGroup where
  name : String := ""
  monitor : Bool := false
  probeType : Option String := none
  probePort : Option UInt16 := none
  probeReq : Option String := none
  probeResp : Option String := none
  probeSkipTlsVerify : Bool := false
  periodSecs : Option UInt32 := none
  retries : Option UInt32 := none
  targets : List BackendTarget := []
  deriving DecidableEq, Repr

/-- `mode` is left out: `LbMode` has one value. -/
structure Listener where
  name : String := ""
  port : UInt16 := 0
  targetPort : UInt16 := 0
  targetGroup : String := ""
  vipIps : List IpAddr := []
  protocols : List Protocol := [.tcp]
  select : LbSelect := .rr
  inactiveTimeout : Option UInt32 := none
  deriving DecidableEq, Repr

structure ControlPlaneConfig where
  enabled : Bool := false
  mode : ControlPlaneMode := .file
  listen : String := "127.0.0.1:22222"
  gatewayPort : Option UInt16 := none
  token : Option String := none
  trustedSourceCidrs : List String := []
  deriving DecidableEq, Repr

structure HaConfig where
  activeSource : ActiveSource := .file
  watchIntervalSecs : Nat := 3
  deriving DecidableEq, Repr

structure NetworkConfig where
  gatewayPublicIp : IpAddr := .v4 0xcb00710a
  gatewayIp : IpAddr := .v4 0xc000020b
  standbyGatewayIp : Option IpAddr := none
  backendPublicIp : Option IpAddr := none
  backendIp : Option IpAddr := none
  overlayCidr : String := "10.255.255.0/24"
  underlayDev : String := "auto"
  vxlanDev : String := "auto"
  vni : Nat := 100
  vxlanPort : UInt16 := 4789
  vxlanMtu : Nat := 1450
  vxlanMtuAuto : Bool := false
  dscp : UInt32 := 46
  deriving DecidableEq, Repr

structure GatewayMetricsConfig where
  enabled : Bool := false
  listen : String := "127.0.0.1:19090"
  trustedSourceCidrs : List String := []
  deriving DecidableEq, Repr

structure ApiConfig where
  listen : String := "127.0.0.1:18080"
  authToken : Option String := none
  trustedSourceCidrs : List String := []
  deriving DecidableEq, Repr

structure GatewayXdsConfig where
  listen : String := "0.0.0.0:22222"
  token : Option String := none
  trustedSourceCidrs : List String := []
  deriving DecidableEq, Repr

structure GatewayReconcileConfig where
  intervalSecs : Nat := 3
  deriving DecidableEq, Repr

/-- The role sections (`xds` to `api`) are folded into the shared settings by normalisation. -/
structure GatewayConfig where
  xds : Option GatewayXdsConfig := none
  reconcile : Option GatewayReconcileConfig := none
  controlPlane : Option ControlPlaneConfig := none
  network : Option NetworkConfig := none
  api : Option ApiConfig := none
  metrics : Option GatewayMetricsConfig := none
  overlayIp : String := "10.255.255.1/24"
  deriving DecidableEq, Repr

structure BackendXdsConfig where
  gateway : String := ""
  gateways : List String := []
  token : Option String := none
  reconnectIntervalSecs : Nat := 3
  deriving DecidableEq, Repr

structure BackendReturnPathConfig where
  vxlanDev : String := "auto"
  ctMark : Nat := 1
  fwmark : String := "0x1/0xff"
  routeTableId : Nat := 100
  mss : Nat := 1410
  deriving DecidableEq, Repr

structure BackendControlConfig where
  source : ActiveSource := .xds
  reconnectIntervalSecs : Nat := 3
  deriving DecidableEq, Repr

structure BackendConfig where
  xds : Option BackendXdsConfig := none
  returnPath : Option BackendReturnPathConfig := none
  control : Option BackendControlConfig := none
  controlPlane : Option ControlPlaneConfig := none
  network : Option NetworkConfig := none
  api : Option ApiConfig := none
  overlayIp : String := "10.255.255.2/24"
  ctMark : Nat := 1
  fwmark : String := "0x1/0xff"
  routeTableId : Nat := 100
  mss : Nat := 1410
  deriving DecidableEq, Repr

structure FileConfig where
  nodeRole : NodeRole := .backend
  nodeName : String := "edge-lb-node"
  publicIp : IpAddr := .v4 0
  underlayIp : IpAddr := .v4 0
  logLevel : String := "info"
  ha : HaConfig := {}
  network : NetworkConfig := {}
  stunServers : List String := ["stun.l.google.com:19302"]
  gatewayNodes : List GatewayNode := []
  backendNodes : List BackendNode := []
  backendReturnPaths : List GatewayReturnPath := []
  targetGroups : List TargetGroup := []
  listeners : List Listener := []
  gateway : GatewayConfig := {}
  backend : BackendConfig := {}
  api : ApiConfig := {}
  controlPlane : ControlPlaneConfig := {}
  deriving DecidableEq, Repr

/-! ## Lookups -/

/-- Effective backend inventory from xDS or local single-node settings. -/
def FileConfig.backendNodesEffective (file : FileConfig) : List BackendNode :=
  if !file.backendNodes.isEmpty then file.backendNodes
  else match file.network.backendPublicIp, file.network.backendIp with
    | some publicIp, some underlayIp =>
      [{ name := file.nodeName, publicIp, underlayIp, overlayIp := file.backend.overlayIp }]
    | _, _ => []

def FileConfig.resolveBackendTargetAddress (file : FileConfig) (target : BackendTarget) : IpAddr :=
  if !target.address.isUnspecified then target.address
  else ((target.backend.bind fun name =>
    file.backendNodesEffective.find? fun b => b.name = name).map (·.underlayIp)).getD target.address

end EdgeLb.Config
