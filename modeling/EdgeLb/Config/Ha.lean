/-
  EdgeLb.Config.Ha — the gateway HA documents (`edge-lb/src/runtime/ha.rs`): the stored HA
  configuration and the pairing secret, with the fields that replication, the VIP and the
  role switch read.
-/

import EdgeLb.Lib.Net

namespace EdgeLb.Config

inductive VipProvider
  | l2 | bgp | hook
  deriving DecidableEq, Repr

structure GatewayHaPeer where
  name : String := ""
  underlayIp : String := ""
  publicIp : Option String := none
  apiAddr : Option String := none
  overlayIp : Option String := none
  deriving DecidableEq, Repr

structure VipConfig where
  provider : VipProvider := .hook
  privateVip : Option String := none
  deriving DecidableEq, Repr

structure GatewayHaRuntimeConfig where
  enabled : Bool := false
  peers : List GatewayHaPeer := []
  vip : VipConfig := {}
  deriving DecidableEq, Repr

/-- `normalize_runtime_config`: BGP announcement is done by the hooks. -/
def normalizeRuntimeConfig (value : GatewayHaRuntimeConfig) : GatewayHaRuntimeConfig :=
  { value with vip := { value.vip with provider := if value.vip.provider = .bgp then .hook else value.vip.provider } }

/-- `session_token_id` names the pairing. -/
structure GatewayHaPeerSecrets where
  peerName : String := ""
  peerUnderlayIp : String := ""
  sessionToken : String := ""
  sessionTokenId : String := ""
  deriving DecidableEq, Repr

end EdgeLb.Config
