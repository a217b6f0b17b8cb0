/-
  EdgeLb.Config.Active — which gateway is the active one (`active_gateway` and
  `gateway_by_key` of `edge-lb/src/config/mod.rs`).

  The gateways are the configured ones and, on a gateway, the HA peers. The stored selection
  is a text that names one of them.
-/

import EdgeLb.Config.Model
import EdgeLb.Config.Ha
import EdgeLb.Lib.Check

namespace EdgeLb.Config

open EdgeLb.Lib

/-- A peer as a gateway node, when its underlay address is one. -/
def peerNode (cfg : FileConfig) (peer : GatewayHaPeer) : Option GatewayNode :=
  (parseIp peer.underlayIp).map fun underlayIp =>
    { name := peer.name, publicIp := (peer.publicIp.bind parseIp).getD underlayIp, underlayIp,
      overlayIp := peer.overlayIp.getD cfg.gateway.overlayIp }

def addPeer (cfg : FileConfig) (gateways : List GatewayNode) (peer : GatewayHaPeer) : List GatewayNode :=
  match peerNode cfg peer with
  | none => gateways
  | some node =>
    if gateways.any fun gw => gw.name = peer.name || gw.underlayIp = node.underlayIp then gateways
    else gateways ++ [node]

def allGateways (cfg : FileConfig) (ha : Option GatewayHaRuntimeConfig) : List GatewayNode :=
  if cfg.nodeRole = .gateway then ((ha.map (·.peers)).getD []).foldl (addPeer cfg) cfg.gatewayNodes
  else cfg.gatewayNodes

def GatewayNode.answersTo (key : String) (gw : GatewayNode) : Bool := gw.name = key || showIp gw.underlayIp = key

def gatewayByKey (cfg : FileConfig) (key : String) : Option GatewayNode := cfg.gatewayNodes.find? (·.answersTo key)

/-- The stored selection when it names a gateway; otherwise, and under xDS, the gateway the
    network points to, or the first. -/
def selectActive (cfg : FileConfig) (ha : Option GatewayHaRuntimeConfig) (stored : Option String) :
    Except String GatewayNode :=
  let gateways := allGateways cfg ha
  let configured := (gateways.find? fun gw => gw.underlayIp = cfg.network.gatewayIp).or gateways.head?
  let selected :=
    if cfg.ha.activeSource = .xds then none
    else ((stored.map trim).filter (· ≠ "")).bind fun key => gateways.find? (·.answersTo key)
  orBail (selected.or configured) "no gateway nodes configured"

variable {cfg : FileConfig} {ha : Option GatewayHaRuntimeConfig}

theorem addPeer_of_node {peer : GatewayHaPeer} {node : GatewayNode} (h : peerNode cfg peer = some node)
    (gateways : List GatewayNode) : addPeer cfg gateways peer =
      if gateways.any fun gw => gw.name = peer.name || gw.underlayIp = node.underlayIp then gateways
      else gateways ++ [node] := by
  delta addPeer
  rw [h]

theorem mem_allGateways {gw : GatewayNode} (h : gw ∈ cfg.gatewayNodes) : gw ∈ allGateways cfg ha := by
  have hadd (peers : List GatewayHaPeer) : ∀ gateways, gw ∈ gateways → gw ∈ peers.foldl (addPeer cfg) gateways := by
    induction peers with
    | nil => exact fun _ hmem => hmem
    | cons peer rest ih =>
      intro gateways hmem
      apply ih
      unfold addPeer
      cases peerNode cfg peer with
      | none => exact hmem
      | some node =>
        dsimp only
        split
        · exact hmem
        · exact List.mem_append_left _ hmem
  unfold allGateways
  split
  · exact hadd _ _ h
  · exact h

/-- The active gateway is one of the gateways. -/
theorem selectActive_mem {stored : Option String}
    {gw : GatewayNode} (h : selectActive cfg ha stored = .ok gw) : gw ∈ allGateways cfg ha := by
  unfold selectActive orBail at h
  simp only at h
  split at h
  · rename_i found heq
    obtain rfl : found = gw := Except.ok.inj h
    rcases Option.or_eq_some_iff.mp heq with hselected | ⟨-, hconfigured⟩
    · split at hselected
      · cases hselected
      · obtain ⟨key, -, hfind⟩ := Option.bind_eq_some_iff.mp hselected
        exact List.mem_of_find?_eq_some hfind
    · rcases Option.or_eq_some_iff.mp hconfigured with hfind | ⟨-, hhead⟩
      · exact List.mem_of_find?_eq_some hfind
      · exact List.mem_of_mem_head? hhead
  · cases h

/-- A stored selection that a gateway answers to selects the first one that does. -/
theorem selectActive_stored {text : String} {gw : GatewayNode} (hsource : cfg.ha.activeSource ≠ .xds)
    (hne : trim text ≠ "") (hfind : (allGateways cfg ha).find? (·.answersTo (trim text)) = some gw) :
    selectActive cfg ha (some text) = .ok gw := by
  have hkey : (some (trim text)).filter (· ≠ "") = some (trim text) := by simp [Option.filter_some, hne]
  simp only [selectActive, if_neg hsource, Option.map_some, hkey, Option.bind_some, hfind, Option.some_or, orBail]

def isLocalGateway (cfg : FileConfig) (gw : GatewayNode) : Bool :=
  gw.name = cfg.nodeName || gw.underlayIp = cfg.underlayIp

end EdgeLb.Config
