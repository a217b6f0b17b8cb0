/-
  EdgeLb.Api.Authority — a gateway's configuration as a request finds it, and who applies a
  write (`load_config` of `edge-lb/src/api/router.rs`, `merge_gateway_peers` of
  `runtime/ha.rs`, `active_gateway` of `config/mod.rs`, `runtime/ha_write.rs`,
  `apply_authoritative` and `peer_apply_active` of `api/handlers/proxy_config.rs`).

  A gateway is its configuration file, normalised, the registry of its backends and its
  stored documents. Loading adds the HA peers to the gateways, and what the options ask
  for: the registered backends, the stored listeners and groups.
-/

import EdgeLb.Api.Router
import EdgeLb.Config.Active

namespace EdgeLb.Api

open EdgeLb.Config EdgeLb.Lib EdgeLb.Storage EdgeLb.Control

structure Gateway (P : Type) where
  file : FileConfig
  registry : BackendRegistry := {}
  docs : Docs Key P

/-! ## The HA peers among the gateways -/

structure PeerMerge where
  gatewayNodes : List GatewayNode
  underlays : List IpAddr := []
  changed : Bool := false
  deriving DecidableEq, Repr

/-- A text of the HA configuration that is there and not blank. -/
def given (value : Option String) : Option String := (value.map trim).filter (· ≠ "")

/-- A peer as a gateway node; without a public address, the unspecified one. -/
def readPeer (localOverlay name : String) (peer : GatewayHaPeer) : Except String GatewayNode := do
  let underlayIp ← orBail (parseIp (trim peer.underlayIp)) s!"bad HA peer {name} underlay_ip"
  let publicIp ← ((given peer.publicIp).map fun value =>
    orBail (parseIp value) s!"bad HA peer {name} public_ip").getD (.ok (.v4 0))
  return { name, publicIp, underlayIp, overlayIp := (given peer.overlayIp).getD localOverlay }

def sameGateway (peer gw : GatewayNode) : Bool := gw.name = peer.name || gw.underlayIp = peer.underlayIp

def updatedBy (peer gw : GatewayNode) : GatewayNode :=
  { peer with
    publicIp := if peer.publicIp.isUnspecified then gw.publicIp else peer.publicIp
    overlayIp := if isBlank peer.overlayIp then gw.overlayIp else peer.overlayIp }

def PeerMerge.put (m : PeerMerge) (peer : GatewayNode) : PeerMerge :=
  match m.gatewayNodes.find? (sameGateway peer) with
  | some gw =>
    { gatewayNodes := updateFirst (sameGateway peer) (updatedBy peer) m.gatewayNodes
      underlays := m.underlays ++ [peer.underlayIp]
      changed := m.changed || updatedBy peer gw ≠ gw }
  | none =>
    { gatewayNodes := m.gatewayNodes ++ [peer], underlays := m.underlays ++ [peer.underlayIp], changed := true }

/-- A peer without a name is passed over. -/
def mergePeer (localOverlay : String) (m : PeerMerge) (peer : GatewayHaPeer) : Except String PeerMerge :=
  let name := trim peer.name
  if name = "" then .ok m else (readPeer localOverlay name peer).map m.put

/-- The peers in turn, up to one that does not read; and whether all of them did. -/
def mergePeers (localOverlay : String) (m : PeerMerge) : List GatewayHaPeer → PeerMerge × Bool
  | [] => (m, true)
  | peer :: peers =>
    match mergePeer localOverlay m peer with
    | .ok m => mergePeers localOverlay m peers
    | .error _ => (m, false)

section

variable {P H : Type}

/-- `merge_gateway_peers_best_effort`. When a peer does not read, the ones before it stay
    and nothing is normalised. -/
def mergeGatewayPeers (F : Format P H) (docs : Docs Key P) (file : FileConfig) : FileConfig :=
  if file.nodeRole ≠ .gateway then file
  else
    match loadHa F docs with
    | .error _ => file
    | .ok ha =>
      match mergePeers file.gateway.overlayIp { gatewayNodes := file.gatewayNodes } ha.peers with
      | (m, false) => { file with gatewayNodes := m.gatewayNodes }
      | (m, true) =>
        let backendNodes := file.backendNodes.filter fun backend => backend.underlayIp ∉ m.underlays
        let merged := { file with gatewayNodes := m.gatewayNodes, backendNodes }
        if m.changed || backendNodes.length ≠ file.backendNodes.length then merged.normalize else merged

/-- `merge_gateway_peers` went through: no HA configuration, or one whose peers all read. -/
def PeersRead (F : Format P H) (docs : Docs Key P) (file : FileConfig) : Prop :=
  ∀ ha, loadHa F docs = .ok ha →
    (mergePeers file.gateway.overlayIp { gatewayNodes := file.gatewayNodes } ha.peers).2 = true

instance [DecidableEq P] (F : Format P H) (docs : Docs Key P) (file : FileConfig) : Decidable (PeersRead F docs file) :=
  match h : loadHa F docs with
  | .error _ => .isTrue fun _ hok => by rw [h] at hok; cases hok
  | .ok ha =>
    decidable_of_iff ((mergePeers file.gateway.overlayIp { gatewayNodes := file.gatewayNodes } ha.peers).2 = true)
      ⟨fun hall _ hok => by rw [h] at hok; cases hok; exact hall, fun hall => hall ha h⟩

theorem PeerMerge.put_unchanged {m : PeerMerge} {peer : GatewayNode} (hsame : (m.put peer).changed = false) :
    (m.put peer).gatewayNodes = m.gatewayNodes ∧ m.changed = false := by
  unfold PeerMerge.put at hsame ⊢
  cases hfind : m.gatewayNodes.find? (sameGateway peer) with
  | none => simp [hfind] at hsame
  | some gw =>
    simp only [hfind, Bool.or_eq_false_iff, decide_eq_false_iff_not, not_not] at hsame ⊢
    refine ⟨updateFirst_eq_self fun gw' hgw' => ?_, hsame.1⟩
    -- the gateway found is the one that was compared
    obtain rfl := Option.some.inj (hfind.symm.trans hgw')
    exact hsame.2

theorem mergePeer_unchanged {localOverlay : String} {m m' : PeerMerge} {peer : GatewayHaPeer}
    (h : mergePeer localOverlay m peer = .ok m') (hsame : m'.changed = false) :
    m'.gatewayNodes = m.gatewayNodes ∧ m.changed = false := by
  unfold mergePeer at h
  dsimp only at h
  split at h
  · cases h
    exact ⟨rfl, hsame⟩
  · cases hread : readPeer localOverlay (trim peer.name) peer with
    | error e =>
      rw [hread] at h
      cases h
    | ok node =>
      rw [hread] at h
      cases h
      exact PeerMerge.put_unchanged hsame

theorem mergePeers_unchanged {localOverlay : String} {m : PeerMerge} {peers : List GatewayHaPeer}
    (hsame : (mergePeers localOverlay m peers).1.changed = false) :
    (mergePeers localOverlay m peers).1.gatewayNodes = m.gatewayNodes ∧ m.changed = false := by
  induction peers generalizing m with
  | nil => exact ⟨rfl, hsame⟩
  | cons peer peers ih =>
    unfold mergePeers at hsame ⊢
    cases hpeer : mergePeer localOverlay m peer with
    | error e =>
      rw [hpeer] at hsame
      exact ⟨rfl, hsame⟩
    | ok m' =>
      rw [hpeer] at hsame
      obtain ⟨hrest, hm⟩ := ih hsame
      obtain ⟨hfirst, hchanged⟩ := mergePeer_unchanged hpeer hm
      exact ⟨hrest.trans hfirst, hchanged⟩

/-- The peers are added and the result normalised, or there was nothing to add. -/
theorem mergeGatewayPeers_settled {F : Format P H} {docs : Docs Key P} {file : FileConfig} (h : file.Settled)
    (hpeers : PeersRead F docs file) : (mergeGatewayPeers F docs file).Settled := by
  unfold mergeGatewayPeers
  rw [if_neg (not_not.mpr h.role)]
  split
  · exact h
  next ha hha =>
    have hall := hpeers ha hha
    split
    · next m hm => simp [hm] at hall
    · next m hm =>
      dsimp only
      split
      · exact settled_normalize h.role
      · next hsame =>
        have hchanged : m.changed = false := by simp_all
        obtain ⟨hnodes, -⟩ := @mergePeers_unchanged file.gateway.overlayIp { gatewayNodes := file.gatewayNodes } ha.peers
          (by rw [hm]; exact hchanged)
        rw [hm] at hnodes
        replace hnodes : m.gatewayNodes = file.gatewayNodes := hnodes
        rw [hnodes]
        exact ⟨h.role, h.stun, h.interval, h.controlPlane, h.api, h.cidr, h.node, h.overlays⟩

/-! ## Loading -/

/-- A stored document, or the file's part when there is none. -/
def storedOr {α : Type} (context : String) (c : Codec P α) (fallback : α) (d : Option (StoredDocument P)) :
    Except String α :=
  match d with
  | none => .ok fallback
  | some d => withContext context (c.decode d.payload)

/-- `proxy_config::load`. -/
def loadProxyConfig (F : Format P H) (cfg : FileConfig) (docs : Docs Key P) : Except String ProxyConfig := do
  let listeners ← storedOr "parsing stored listeners" F.listeners cfg.listeners (docs .listeners)
  let targetGroups ← storedOr "parsing stored target groups" F.targetGroups cfg.targetGroups (docs .targetGroups)
  return { listeners, targetGroups }

theorem storedOr_of_decodeDoc {α : Type} {c : Codec P α} {d : Option (StoredDocument P)} {v : Option α}
    (h : decodeDoc c d = .ok v) (context : String) (fallback : α) :
    storedOr context c fallback d = .ok (v.getD fallback) := by
  cases d with
  | none =>
    cases h
    rfl
  | some d =>
    simp only [decodeDoc, storedOr] at h ⊢
    cases hd : c.decode d.payload with
    | error e =>
      rw [hd] at h
      cases h
    | ok a =>
      rw [hd] at h
      cases h
      rfl

theorem loadProxyConfig_of_readConfig {F : Format P H} {base file : FileConfig} {docs : Docs Key P}
    {config : ProxyConfig} (h : readConfig F base docs = .ok config)
    (hlisteners : file.listeners = base.listeners) (hgroups : file.targetGroups = base.targetGroups) :
    loadProxyConfig F file docs = .ok config := by
  obtain ⟨listeners, hl, h⟩ := bind_eq_ok.mp h
  obtain ⟨targetGroups, hg, h⟩ := bind_eq_ok.mp h
  cases h
  simp only [loadProxyConfig, hlisteners, hgroups, storedOr_of_decodeDoc hl, storedOr_of_decodeDoc hg]
  rfl

def Gateway.base (F : Format P H) (gw : Gateway P) : FileConfig := mergeGatewayPeers F gw.docs gw.file

/-- The registry is given back: merging prunes it and hands out overlay addresses. -/
def loadConfig (F : Format P H) (opts : LoadOptions) (now : Nat) (gw : Gateway P) :
    BackendRegistry × Except String FileConfig :=
  let base := gw.base F
  if base.nodeRole = .gateway then
    let (file, registry) := if opts.mergeBackendSubscriptions then (mergeInto now base gw.registry).2
      else (base, gw.registry)
    let loaded := if opts.hydrateProxy then
        (withContext "loading native proxy state" (loadProxyConfig F file gw.docs)).map (withProxy file)
      else .ok file
    (registry, loaded)
  else (gw.registry, .ok base)

/-! ## The active gateway and the write role -/

/-- `active_gateway`: the selection as it is stored. -/
def activeGateway (F : Format P H) (cfg : FileConfig) (docs : Docs Key P) : Except String GatewayNode :=
  selectActive cfg (loadHa F docs).toOption ((docs .haActiveGateway).map fun d => F.text d.payload)

def activeGatewayIsLocal (F : Format P H) (cfg : FileConfig) (docs : Docs Key P) : Bool :=
  match activeGateway F cfg docs with
  | .ok gw => isLocalGateway cfg gw
  | .error _ => false

inductive WriteRole
  | localMaster (peer : Option GatewayHaPeer)
  | backup (peer : GatewayHaPeer)
  deriving DecidableEq, Repr

/-- `local_ha_state` knows MASTER or nothing, so its other two answers have no branch here. -/
def writeRole (F : Format P H) (cfg : FileConfig) (docs : Docs Key P) : Except String WriteRole := do
  let ha ← loadHa F docs
  if !ha.enabled then return .localMaster none
  else if activeGatewayIsLocal F cfg docs then return .localMaster ha.peers.head?
  else return .backup (← orBail ha.peers.head? "local gateway is not active and no HA peer is configured")

/-! ## Applying a write -/

/-- What a request comes to: a reply, a connection closed because the configuration did not
    load, a request to the peer whose answer is relayed, or a handler not modelled here. -/
inductive Outcome (B H : Type)
  | reply (r : Reply H)
  | closed
  | forward (peer : GatewayHaPeer) (req : Request B)
  | elsewhere

variable {B : Type} [DecidableEq P]

def acceptedReply (reply : Reply H) (authority : String) (cursor : Option (SyncState H)) : Reply H :=
  let shown := cursor.filter fun c => c.source = authority && 0 < c.sequence && c.pairingId ≠ ""
  { status := 202, body := reply.body
    sync := some { authority, barrier := shown.map fun c => (c.sequence, c.source, c.pairingId, c.contentHash) } }

def applyAsMaster (F : Format P H) (J : Json B) (cfg : FileConfig) (at_ : Stamp) (op : ProxyConfigOperation B)
    (peer : Option GatewayHaPeer) (docs : Docs Key P) : Docs Key P × Reply H :=
  match invokeLocal F J cfg at_ op docs with
  | (docs, reply) =>
    if reply.accepted && peer.isSome then
      (docs, acceptedReply reply cfg.nodeName ((read F cfg docs).toOption.map (·.sync)))
    else (docs, reply)

/-- The request a write is handed to the peer with. -/
def peerRequest (J : Json B) (op : ProxyConfigOperation B) : Request B :=
  { method := .post, path := "/api/v1/ha/peer/proxy-config/active", body := J.operation.encode op }

def applyAuthoritative (F : Format P H) (J : Json B) (cfg : FileConfig) (at_ : Stamp) (op : ProxyConfigOperation B)
    (docs : Docs Key P) : Docs Key P × Outcome B H :=
  match writeRole F cfg docs with
  | .ok (.localMaster peer) => (applyAsMaster F J cfg at_ op peer docs).map id .reply
  | .ok (.backup peer) => (docs, .forward peer (peerRequest J op))
  | .error e => (docs, .reply (.error 500 e))

/-- The public handlers of listeners and target groups. -/
def applyPublic (F : Format P H) (J : Json B) (cfg : FileConfig) (at_ : Stamp) (op : ProxyConfigOperation B)
    (docs : Docs Key P) : Docs Key P × Outcome B H :=
  if cfg.nodeRole ≠ .gateway then
    (docs, .reply (.error 400 "target groups and listeners are managed by gateway nodes only"))
  else applyAuthoritative F J cfg at_ op docs

def peerApplyActive (F : Format P H) (J : Json B) (cfg : FileConfig) (at_ : Stamp) (body : B) (docs : Docs Key P) :
    Docs Key P × Reply H :=
  match J.operation.decode body with
  | .error e => (docs, .error 400 s!"bad proxy config operation JSON: {e}")
  | .ok op =>
    match writeRole F cfg docs with
    | .ok (.localMaster peer) => applyAsMaster F J cfg at_ op peer docs
    | .ok (.backup _) => (docs, .error 409 "local gateway is not MASTER")
    | .error e => (docs, .error 500 e)

def handle (F : Format P H) (J : Json B) (now : Nat) (at_ : Stamp) (req : Request B) (gw : Gateway P) :
    Gateway P × Outcome B H :=
  let (registry, loaded) := loadConfig F (loadOptions req.method req.path) now gw
  let gw := { gw with registry }
  match loaded with
  | .error _ => (gw, .closed)
  | .ok cfg =>
    match route req with
    | .write op =>
      let (docs, outcome) := applyPublic F J cfg at_ op gw.docs
      ({ gw with docs }, outcome)
    | .peerActive =>
      let (docs, reply) := peerApplyActive F J cfg at_ req.body gw.docs
      ({ gw with docs }, .reply reply)
    | .other => (gw, .elsewhere)

def Outcome.accepted : Outcome B H → Bool
  | .reply r => r.accepted
  | _ => false

/-- `forward_to_master` when the peer was reached: its answer, or that there was none. -/
def relay (peer : GatewayHaPeer) : Outcome B H → Reply H
  | .reply r => r
  | _ => .error 502 s!"forwarding proxy write to MASTER {peer.name} failed; commit outcome is unknown: no response"

/-! ## The authority's own reply -/

variable {F : Format P H} {J : Json B} {docs : Docs Key P}

theorem applyAsMaster_docs (cfg : FileConfig) (at_ : Stamp) (op : ProxyConfigOperation B) (peer : Option GatewayHaPeer) :
    (applyAsMaster F J cfg at_ op peer docs).1 = (invokeLocal F J cfg at_ op docs).1 := by
  unfold applyAsMaster
  split
  next h =>
    rw [h]
    split <;> rfl

theorem applyAsMaster_accepted (cfg : FileConfig) (at_ : Stamp) (op : ProxyConfigOperation B)
    (peer : Option GatewayHaPeer) :
    (applyAsMaster F J cfg at_ op peer docs).2.accepted = (invokeLocal F J cfg at_ op docs).2.accepted := by
  unfold applyAsMaster
  split
  next reply h =>
    rw [h]
    split
    · next haccepted =>
      have hreply : reply.accepted = true := (Bool.and_eq_true_iff.mp haccepted).1
      rw [hreply]
      rfl
    · rfl

end

end EdgeLb.Api
