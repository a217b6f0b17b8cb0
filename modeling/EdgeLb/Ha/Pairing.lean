/-
  EdgeLb.Ha.Pairing — pairing two gateways (`pair_gateway` of `edge-lb/src/control/peer.rs` on
  the one that asks, of `control/gateway.rs` on the one that is asked, and what both use of
  `runtime/ha.rs`), and the roles the two then read from what they stored.

  Each side stores the HA configuration, the key of the active gateway and the secret. The key
  is the preferred gateway, a text that nothing compares with the two, or the side that has
  index 0. Two readers take the role from it: `active_gateway` looks the key up among the
  gateways it knows and falls back to a configured one, `read` of the replication compares it
  with the names and addresses of the pair.

  `pairing_agrees_iff` says when the two readers agree on both sides. The key itself is
  always the same on both.
-/

import EdgeLb.Config.Normalize
import EdgeLb.Ha.Switch
import EdgeLb.Storage.Serial

namespace EdgeLb.Ha

open EdgeLb.Config EdgeLb.Lib EdgeLb.Storage

/-! ## The documents -/

structure GarpConfig where
  count : UInt32 := 10
  intervalMs : Nat := 100
  repeatAfterMs : Nat := 1000
  repeatCount : UInt32 := 1
  deriving DecidableEq, Repr

/-- The HA configuration with what pairing reads of it besides. -/
structure HaSettings extends GatewayHaRuntimeConfig where
  selfIndex : UInt32 := 0
  preferredActive : Option String := none
  garp : GarpConfig := {}
  garpDevice : Option String := none
  deriving DecidableEq, Repr

def HaSettings.normalize (value : HaSettings) : HaSettings :=
  { value with toGatewayHaRuntimeConfig := normalizeRuntimeConfig value.toGatewayHaRuntimeConfig }

structure GatewayIdentity where
  name : String
  underlayIp : String
  publicIp : String
  apiAddr : String
  overlayCidr : String
  overlayIp : String
  dscp : UInt32
  vni : Nat
  vxlanPort : UInt16
  mtu : Nat
  deriving DecidableEq, Repr

def advertisedAddr (listen : String) (fallbackIp : IpAddr) : String :=
  match parseSocketAddr listen with
  | none => listen
  | some (ip, port) => s!"{showIp (if ip.isUnspecified then fallbackIp else ip)}:{port}"

def localIdentity (cfg : FileConfig) : GatewayIdentity where
  name := cfg.nodeName
  underlayIp := showIp cfg.underlayIp
  publicIp := showIp cfg.publicIp
  apiAddr := advertisedAddr cfg.api.listen cfg.underlayIp
  overlayCidr := cfg.network.overlayCidr
  overlayIp := cfg.gateway.overlayIp
  dscp := cfg.network.dscp
  vni := cfg.network.vni
  vxlanPort := cfg.network.vxlanPort
  mtu := cfg.network.vxlanMtu

def nonEmpty (value : String) : Option String := if isBlank value then none else some value

def peerFromIdentity (identity : GatewayIdentity) : GatewayHaPeer where
  name := identity.name
  underlayIp := identity.underlayIp
  publicIp := nonEmpty identity.publicIp
  apiAddr := nonEmpty identity.apiAddr
  overlayIp := nonEmpty identity.overlayIp

def required (value field : String) : Except String Unit := bailIf (isBlank value) s!"{field} is required"

/-- An identity that arrives in a message. -/
def identityFromPb (value : GatewayIdentity) : Except String GatewayIdentity := do
  required value.name "node_name"
  required value.underlayIp "underlay_ip"
  required value.overlayCidr "overlay_cidr"
  required value.overlayIp "gateway_overlay_ip"
  return value

/-! ## The checks -/

def parseIpv4Cidr (value : String) : Except String (UInt32 × Nat) := do
  let (addr, bits) ← orBail (splitOnce '/' value.toList) "CIDR must include prefix"
  let addr ← orBail (parseIpv4 (String.ofList addr)) "bad IPv4 address"
  let bits ← orBail (parseUnsigned 256 bits) "bad prefix"
  bailIf (32 < bits) "IPv4 prefix out of range"
  return (addr, bits)

def cidrOverlaps (a b : String) : Except String Bool := do
  let (aIp, aBits) ← withContext s!"bad local overlay_cidr {a}" (parseIpv4Cidr a)
  let (bIp, bBits) ← withContext s!"bad peer overlay_cidr {b}" (parseIpv4Cidr b)
  let mask := prefixMask (min aBits bBits)
  return (aIp &&& mask) == (bIp &&& mask)

def validateIdentityPair (own peer : GatewayIdentity) : Except String Unit := do
  bailIf (isBlank own.name) "local gateway name is required"
  bailIf (isBlank peer.name) "peer gateway name is required"
  bailIf (own.name = peer.name) "HA peer must have a different node_name"
  let ownUnderlay ← orBail (parseIp own.underlayIp) "bad local underlay_ip"
  let peerUnderlay ← orBail (parseIp peer.underlayIp) "bad peer underlay_ip"
  bailIf (ownUnderlay.isUnspecified || peerUnderlay.isUnspecified) "HA peer underlay_ip must not be unspecified"
  bailIf (ownUnderlay = peerUnderlay) "HA peer underlay_ip must differ from local underlay_ip"
  bailIf (own.dscp = peer.dscp) "HA peer dscp must differ from local dscp"
  bailIf (← cidrOverlaps own.overlayCidr peer.overlayCidr) "HA peer overlay_cidr must not overlap local overlay_cidr"
  bailIf (own.vni ≠ peer.vni) "HA peer vni must match local vni"
  bailIf (own.vxlanPort ≠ peer.vxlanPort) "HA peer vxlan_port must match local vxlan_port"
  bailIf (own.mtu ≠ peer.mtu) "HA peer mtu must match local mtu"

def ensurePeerSlotAvailable (cfg : HaSettings) (peer : GatewayIdentity) : Except String Unit := do
  bailIf (1 < cfg.peers.length) "active-backup HA supports exactly one peer"
  match cfg.peers.head? with
  | none => return
  | some existing =>
    bailIf (existing.name ≠ peer.name && existing.underlayIp ≠ peer.underlayIp)
      s!"gateway is already paired with {existing.name} ({existing.underlayIp})"

def validatePeer (idx : Nat) (peer : GatewayHaPeer) : Except String Unit := do
  bailIf (isBlank peer.name) s!"peers[{idx}].name is required"
  bailIf (isBlank peer.underlayIp) s!"peers[{idx}].underlay_ip is required"
  bailIf (parseIp peer.underlayIp).isNone s!"bad peers[{idx}].underlay_ip"
  bailIf (peer.publicIp.any fun ip => (parseIp ip).isNone) s!"bad peers[{idx}].public_ip"

def validateGarp (value : GarpConfig) : Except String Unit := do
  bailIf (value.count = 0) "vip.garp.count must be greater than 0"
  bailIf (value.intervalMs = 0) "vip.garp.interval_ms must be greater than 0"
  bailIf (60000 < value.intervalMs) "vip.garp.interval_ms must be <= 60000"
  bailIf (60000 < value.repeatAfterMs) "vip.garp.repeat_after_ms must be <= 60000"
  bailIf (10 < value.repeatCount) "vip.garp.repeat_count must be <= 10"

def IFNAMSIZ : Nat := 16

/-- `validate` of the HA configuration. -/
def validateHa (value : HaSettings) : Except String Unit := do
  let value := value.normalize
  bailIf (1 < value.peers.length) "active-backup HA supports exactly one peer"
  bailIf (value.enabled && value.peers.isEmpty) "active-backup HA requires exactly one peer"
  bailIf (value.enabled && value.peers.length < value.selfIndex.toNat)
    "self_index is outside the configured HA cluster range"
  eachIdx validatePeer value.peers
  validateGarp value.garp
  match value.garpDevice with
  | none => return
  | some device =>
    bailIf (trim device = "") "vip.garp_device must be omitted or a non-empty interface name"
    bailIf (IFNAMSIZ ≤ (trim device).utf8ByteSize) s!"vip.garp_device must be shorter than {IFNAMSIZ} bytes"

/-! ## What is stored -/

/-- The configuration of the side that is asked: the other index. -/
def reciprocalConfig (cfg : HaSettings) (own peer : GatewayIdentity) : Except String HaSettings := do
  validateIdentityPair own peer
  let next := { cfg with
    enabled := true
    peers := [peerFromIdentity peer]
    selfIndex := if cfg.selfIndex = 0 then 1 else 0
    preferredActive := cfg.preferredActive.filter (· ≠ "") }
  validateHa next
  return next

def configWithPeer (cfg : HaSettings) (own peer : GatewayIdentity) : Except String HaSettings := do
  validateIdentityPair own peer
  ensurePeerSlotAvailable cfg peer
  let next := { cfg with enabled := true, peers := [peerFromIdentity peer] }
  validateHa next
  return next

def initialActiveGatewayKey (cfg : HaSettings) (own peer : GatewayIdentity) : String :=
  match (cfg.preferredActive.map trim).filter (· ≠ "") with
  | some preferred => preferred
  | none => if cfg.selfIndex = 0 then own.name else peer.name

/-- `token_id`: FNV-1a in 16 hex digits. -/
def tokenId (token : String) : String :=
  let hash : UInt64 := token.toUTF8.toList.foldl (fun hash byte => (hash ^^^ byte.toUInt64) * 0x100000001b3)
    0xcbf29ce484222325
  String.ofList ((List.range 16).map fun i => hexChar (hash.toNat / 16 ^ (15 - i) % 16))

def newSessionTokenSecret (peer : GatewayIdentity) (sessionToken : String) : GatewayHaPeerSecrets where
  peerName := peer.name
  peerUnderlayIp := peer.underlayIp
  sessionToken := sessionToken
  sessionTokenId := tokenId sessionToken

/-- The three documents of one side; `record` is the text of the active gateway. -/
structure PairStore where
  ha : HaSettings := {}
  record : Option String := none
  secret : Option GatewayHaPeerSecrets := none
  deriving DecidableEq, Repr

/-- The error of each write that fails. -/
structure PairFaults where
  saveHa : Option String := none
  writeActive : Option String := none
  saveSecret : Option String := none
  deriving DecidableEq, Repr

/-- The three writes, in order. -/
def storePairing (f : PairFaults) (ha : HaSettings) (key : String) (secret : GatewayHaPeerSecrets) (s : PairStore) :
    PairStore × Except String Unit :=
  match f.saveHa with
  | some e => (s, .error e)
  | none =>
    let s := { s with ha := ha.normalize }
    match f.writeActive with
    | some e => (s, .error e)
    | none =>
      let s := { s with record := some (recordText key) }
      match f.saveSecret with
      | some e => (s, .error e)
      | none => ({ s with secret := some secret }, .ok ())

/-! ## The two sides -/

/-- A loaded configuration has the node in its inventory, by name and address. -/
def OwnEntry (cfg : FileConfig) : Prop :=
  ∃ gw ∈ cfg.gatewayNodes, gw.name = cfg.nodeName ∧ gw.underlayIp = cfg.underlayIp

theorem ownEntry_normalize {file : FileConfig} (hrole : file.nodeRole = .gateway) : OwnEntry file.normalize := by
  obtain ⟨gw, hfind, -, haddress, -⟩ := (settled_normalize hrole).node
  exact ⟨gw, List.mem_of_find?_eq_some hfind, by simpa using List.find?_some hfind, haddress⟩

/-- A gateway with its configuration and the failures it meets. -/
structure PairNode where
  cfg : FileConfig
  own : OwnEntry cfg
  load : Option String := none
  faults : PairFaults := {}

/-- The call from one gateway to the other: its tokens, and what fails of it. -/
structure PairCall where
  bootstrapToken : String
  sessionToken : String
  connect : Option String := none
  authorize : Option String := none
  answer : Option String := none

def respondChecks (b : PairNode) (call : PairCall) (caller : GatewayIdentity) (incoming existing : HaSettings) :
    Except String (GatewayIdentity × HaSettings) := do
  orFail call.authorize ()
  bailIf (b.cfg.nodeRole ≠ .gateway) "gateway pairing is only available on gateway nodes"
  let caller ← identityFromPb caller
  bailIf (isBlank call.sessionToken) "session_token is required"
  orFail b.load ()
  validateIdentityPair (localIdentity b.cfg) caller
  ensurePeerSlotAvailable existing caller
  let cfg ← reciprocalConfig incoming.normalize (localIdentity b.cfg) caller
  return (caller, cfg)

/-- `pair_gateway` on the side that is asked, which answers its identity. -/
def respondPairGateway (b : PairNode) (call : PairCall) (caller : GatewayIdentity) (incoming : HaSettings)
    (s : PairStore) : PairStore × Except String GatewayIdentity :=
  match respondChecks b call caller incoming s.ha.normalize with
  | .error e => (s, .error e)
  | .ok (caller, cfg) =>
    let own := localIdentity b.cfg
    let (s, stored) := storePairing b.faults cfg (initialActiveGatewayKey cfg own caller)
      (newSessionTokenSecret caller call.sessionToken) s
    (s, stored.map fun _ => own)

def requestChecks (a : PairNode) (call : PairCall) : Except String Unit := do
  bailIf (a.cfg.nodeRole ≠ .gateway) "HA gateway pairing is only available on gateway nodes"
  bailIf (isBlank call.bootstrapToken) "bootstrap_token is required"
  orFail call.connect ()

def answerChecks (a : PairNode) (call : PairCall) (desired : HaSettings) (responder : GatewayIdentity) :
    Except String (GatewayIdentity × HaSettings) := do
  orFail call.answer ()
  let peer ← identityFromPb responder
  validateIdentityPair (localIdentity a.cfg) peer
  let cfg ← configWithPeer desired (localIdentity a.cfg) peer
  return (peer, cfg)

/-- `pair_gateway` on the side that asks, with the other side's part in it. -/
def pairGateway (a b : PairNode) (call : PairCall) (desired : HaSettings) (sa sb : PairStore) :
    (PairStore × PairStore) × Except String GatewayIdentity :=
  match requestChecks a call with
  | .error e => ((sa, sb), .error e)
  | .ok () =>
    match respondPairGateway b call (localIdentity a.cfg) desired sb with
    | (sb, .error e) => ((sa, sb), .error e)
    | (sb, .ok responder) =>
      match answerChecks a call desired responder with
      | .error e => ((sa, sb), .error e)
      | .ok (peer, cfg) =>
        let (sa, stored) := storePairing a.faults cfg (initialActiveGatewayKey cfg (localIdentity a.cfg) peer)
          (newSessionTokenSecret peer call.sessionToken) sa
        ((sa, sb), stored.map fun _ => peer)

/-! ## What a pairing leaves behind -/

/-- What one side has stored when the pairing with `other` succeeds. -/
structure Stored (other : FileConfig) (key token : String) (s : PairStore) : Prop where
  enabled : s.ha.enabled = true
  peers : s.ha.peers = [peerFromIdentity (localIdentity other)]
  record : s.record = some (recordText key)
  secret : s.secret = some (newSessionTokenSecret (localIdentity other) token)

/-- Two gateways that pass the checks of their identities. -/
structure Distinct (x y : FileConfig) : Prop where
  name : isBlank x.nodeName = false
  names : x.nodeName ≠ y.nodeName
  addresses : x.underlayIp ≠ y.underlayIp

theorem identityFromPb_ok {i j : GatewayIdentity} (h : identityFromPb i = .ok j) : j = i := by
  simp only [identityFromPb, bind_eq_ok] at h
  obtain ⟨-, -, -, -, -, -, -, -, h⟩ := h
  exact (Except.ok.inj h).symm

theorem validateIdentityPair_ok {x y : FileConfig} (h : validateIdentityPair (localIdentity x) (localIdentity y) = .ok ()) :
    Distinct x y ∧ Distinct y x := by
  simp only [validateIdentityPair, bind_eq_ok] at h
  obtain ⟨_, hx, _, hy, _, hnames, ux, hux, uy, huy, -, -, _, haddresses, -⟩ := h
  have hux : ux = x.underlayIp := by
    have hread : parseIp (showIp x.underlayIp) = some ux := orBail_eq_ok.mp hux
    rw [parseIp_show] at hread
    exact (Option.some.inj hread).symm
  have huy : uy = y.underlayIp := by
    have hread : parseIp (showIp y.underlayIp) = some uy := orBail_eq_ok.mp huy
    rw [parseIp_show] at hread
    exact (Option.some.inj hread).symm
  rw [hux, huy] at haddresses
  have hnames : x.nodeName ≠ y.nodeName := of_decide_eq_false (bailIf_eq_ok.mp hnames)
  have haddresses : x.underlayIp ≠ y.underlayIp := of_decide_eq_false (bailIf_eq_ok.mp haddresses)
  exact ⟨⟨bailIf_eq_ok.mp hx, hnames, haddresses⟩, ⟨bailIf_eq_ok.mp hy, hnames.symm, haddresses.symm⟩⟩

/-- Both sides come to the same key, whichever index the one that asks has. -/
theorem initialActiveGatewayKey_reciprocal (cfg : HaSettings) (a b : GatewayIdentity) (ha : GatewayHaRuntimeConfig) :
    initialActiveGatewayKey { cfg with
      toGatewayHaRuntimeConfig := ha
      selfIndex := if cfg.selfIndex = 0 then 1 else 0
      preferredActive := cfg.preferredActive.filter (· ≠ "") } b a = initialActiveGatewayKey cfg a b := by
  have hpreferred : ((cfg.preferredActive.filter (· ≠ "")).map trim).filter (· ≠ "") =
      (cfg.preferredActive.map trim).filter (· ≠ "") := by
    cases cfg.preferredActive with
    | none => rfl
    | some preferred =>
      by_cases hempty : preferred = ""
      · have htrim : trim "" = "" := by decide
        simp [hempty, htrim, Option.filter]
      · simp [Option.filter_some, hempty]
  simp only [initialActiveGatewayKey, hpreferred]
  cases (cfg.preferredActive.map trim).filter (· ≠ "") with
  | some preferred => rfl
  | none =>
    by_cases hindex : cfg.selfIndex = 0
    · simp [hindex]
    · simp [hindex]

theorem storePairing_ok {f : PairFaults} {ha : HaSettings} {key : String} {secret : GatewayHaPeerSecrets} {s : PairStore}
    (h : (storePairing f ha key secret s).2 = .ok ()) :
    (storePairing f ha key secret s).1 = { ha := ha.normalize, record := some (recordText key), secret := some secret } := by
  unfold storePairing at h ⊢
  cases hha : f.saveHa with
  | some e => simp [hha] at h
  | none =>
    cases hactive : f.writeActive with
    | some e => simp [hha, hactive] at h
    | none =>
      cases hsecret : f.saveSecret with
      | some e => simp [hha, hactive, hsecret] at h
      | none => rfl

theorem storePairing_stored {f : PairFaults} {ha : HaSettings} {key token : String} {s : PairStore} {other : FileConfig}
    (h : (storePairing f ha key (newSessionTokenSecret (localIdentity other) token) s).2 = .ok ())
    (henabled : ha.enabled = true) (hpeers : ha.peers = [peerFromIdentity (localIdentity other)]) :
    Stored other key token (storePairing f ha key (newSessionTokenSecret (localIdentity other) token) s).1 := by
  rw [storePairing_ok h]
  exact ⟨henabled, hpeers, rfl, rfl⟩

/-- The side that is asked. -/
theorem respondPairGateway_ok {a : FileConfig} {b : PairNode} {call : PairCall} {desired : HaSettings} {s : PairStore}
    {i : GatewayIdentity} (h : (respondPairGateway b call (localIdentity a) desired s).2 = .ok i) :
    i = localIdentity b.cfg ∧ b.cfg.nodeRole = .gateway ∧ isBlank call.sessionToken = false ∧
      Distinct b.cfg a ∧ Distinct a b.cfg ∧
      Stored a (initialActiveGatewayKey desired (localIdentity a) (localIdentity b.cfg)) call.sessionToken
        (respondPairGateway b call (localIdentity a) desired s).1 := by
  unfold respondPairGateway at h ⊢
  cases hchecks : respondChecks b call (localIdentity a) desired s.ha.normalize with
  | error e => simp [hchecks] at h
  | ok checked =>
    obtain ⟨caller, cfg⟩ := checked
    simp only [hchecks] at h ⊢
    obtain ⟨_, hstored, hi⟩ := map_eq_ok.mp h
    simp only [respondChecks, bind_eq_ok] at hchecks
    obtain ⟨-, -, _, hrole, caller', hcaller, _, htoken, -, -, _, hpair, -, -, cfg', hcfg, hresult⟩ := hchecks
    obtain rfl := identityFromPb_ok hcaller
    obtain ⟨rfl, rfl⟩ := Prod.mk.inj (Except.ok.inj hresult)
    simp only [reciprocalConfig, bind_eq_ok] at hcfg
    obtain ⟨-, -, -, -, hnext⟩ := hcfg
    obtain rfl := Except.ok.inj hnext
    obtain ⟨hba, hab⟩ := validateIdentityPair_ok hpair
    refine ⟨hi.symm, by simpa using bailIf_eq_ok.mp hrole, bailIf_eq_ok.mp htoken, hba, hab, ?_⟩
    have hkey := initialActiveGatewayKey_reciprocal desired (localIdentity a) (localIdentity b.cfg)
      { desired.normalize.toGatewayHaRuntimeConfig with enabled := true, peers := [peerFromIdentity (localIdentity a)] }
    rw [← hkey]
    exact storePairing_stored hstored rfl rfl

/-- A pairing that succeeds leaves the same key on both sides. -/
theorem pairGateway_ok {a b : PairNode} {call : PairCall} {desired : HaSettings} {sa sb : PairStore} {i : GatewayIdentity}
    (h : (pairGateway a b call desired sa sb).2 = .ok i) :
    let key := initialActiveGatewayKey desired (localIdentity a.cfg) (localIdentity b.cfg)
    (a.cfg.nodeRole = .gateway ∧ b.cfg.nodeRole = .gateway) ∧ isBlank call.sessionToken = false ∧
      Distinct a.cfg b.cfg ∧ Distinct b.cfg a.cfg ∧
      Stored b.cfg key call.sessionToken (pairGateway a b call desired sa sb).1.1 ∧
      Stored a.cfg key call.sessionToken (pairGateway a b call desired sa sb).1.2 := by
  intro key
  unfold pairGateway at h ⊢
  cases hrequest : requestChecks a call with
  | error e => simp [hrequest] at h
  | ok _ =>
    simp only [hrequest] at h ⊢
    simp only [requestChecks, bind_eq_ok] at hrequest
    obtain ⟨_, hrole, -⟩ := hrequest
    have hrespond (i : GatewayIdentity) (hi : (respondPairGateway b call (localIdentity a.cfg) desired sb).2 = .ok i) :=
      respondPairGateway_ok hi
    generalize respondPairGateway b call (localIdentity a.cfg) desired sb = responded at h hrespond ⊢
    obtain ⟨sb', reply⟩ := responded
    cases reply with
    | error e => simp at h
    | ok responder =>
      obtain ⟨rfl, hroleb, htoken, hba, hab, hstoredb⟩ := hrespond responder rfl
      simp only at h ⊢
      cases hanswer : answerChecks a call desired (localIdentity b.cfg) with
      | error e => simp [hanswer] at h
      | ok checked =>
        obtain ⟨peer, cfg⟩ := checked
        simp only [hanswer] at h ⊢
        obtain ⟨_, hstored, -⟩ := map_eq_ok.mp h
        simp only [answerChecks, bind_eq_ok] at hanswer
        obtain ⟨-, -, peer', hpeer, -, -, cfg', hcfg, hresult⟩ := hanswer
        obtain rfl := identityFromPb_ok hpeer
        obtain ⟨rfl, rfl⟩ := Prod.mk.inj (Except.ok.inj hresult)
        simp only [configWithPeer, bind_eq_ok] at hcfg
        obtain ⟨-, -, -, -, -, -, hnext⟩ := hcfg
        obtain rfl := Except.ok.inj hnext
        refine ⟨⟨by simpa using bailIf_eq_ok.mp hrole, hroleb⟩, htoken, hab, hba, ?_, hstoredb⟩
        exact storePairing_stored hstored rfl rfl

/-! ## The role that replication reads -/

section Scope

variable {P H : Type} (F : Format P H)

/-- The documents of a store that hold what the pairing stored. -/
structure Documented (docs : Docs Key P) (s : PairStore) : Prop where
  ha : decodeDoc F.ha (docs .ha) = .ok (some s.ha.toGatewayHaRuntimeConfig)
  secret : decodeDoc F.secret (docs .haPeerSecret) = .ok s.secret
  record : (docs .haActiveGateway).map (fun d => F.text d.payload) = s.record

/-- The scope of `read`. -/
def replicationScope (cfg : FileConfig) (docs : Docs Key P) : Except String Scope := do
  let ha ← decodeDoc F.ha (docs .ha)
  readScope F cfg (ha.getD {}) docs

/-- The key is the name or the address of the gateway. -/
def KeyOf (cfg : FileConfig) (key : String) : Prop := key = cfg.nodeName ∨ key = showIp cfg.underlayIp

instance (cfg : FileConfig) (key : String) : Decidable (KeyOf cfg key) := inferInstanceAs (Decidable (_ ∨ _))

theorem tokenId_ne_empty (token : String) : tokenId token ≠ "" := by
  intro h
  have hlen := congrArg (fun s => s.toList.length) h
  simp [tokenId] at hlen

theorem replicationScope_eq {own other : FileConfig} {key token : String} {s : PairStore} {docs : Docs Key P}
    (hs : Stored other key token s) (hd : Documented F docs s) (htoken : isBlank token = false) :
    replicationScope F own docs =
      if KeyOf own (trim key) then .ok (.master (tokenId token) (peerFromIdentity (localIdentity other)))
      else if KeyOf other (trim key) then .ok (.backup (tokenId token) (peerFromIdentity (localIdentity other)))
      else .error "HA active selection is not a member of the current pair" := by
  have hnonempty : token.isEmpty = false := by
    rw [Bool.eq_false_iff]
    intro h
    rw [String.isEmpty_iff.mp h] at htoken
    cases htoken
  have hid : (tokenId token).isEmpty = false := by
    rw [Bool.eq_false_iff]
    exact fun h => tokenId_ne_empty token (String.isEmpty_iff.mp h)
  have hactive : (docs .haActiveGateway).map (fun d => trim (F.text d.payload)) = some (trim key) := by
    have hrecord := congrArg (Option.map trim) (hd.record.trans hs.record)
    rw [Option.map_map, Option.map_some, trim_recordText] at hrecord
    exact hrecord
  have hsecret := hd.secret
  rw [hs.secret] at hsecret
  simp only [replicationScope, hd.ha, readScope, Option.getD_some, hs.enabled, hs.peers, hsecret, hactive, orBail, bind,
    Except.bind, Bool.not_true, Bool.false_eq_true, if_false]
  simp only [newSessionTokenSecret, hid, hnonempty, peerFromIdentity, localIdentity, bailIf, ne_eq, not_true_eq_false,
    decide_false, Bool.or_self, Bool.false_eq_true, if_false]
  rfl

end Scope

/-! ## The role that `active_gateway` reads -/

/-- The node finds itself active. -/
def activeHere (cfg : FileConfig) (s : PairStore) : Bool :=
  localGatewayIsActive cfg s.ha.normalize.toGatewayHaRuntimeConfig { record := s.record }

variable (own peer : FileConfig)

/-- The inventory of `own` with the peer in it. -/
def withPeer : List GatewayNode :=
  addPeer own own.gatewayNodes (peerFromIdentity (localIdentity peer))

/-- The gateway that the configuration points to, or else the first, is the node itself. -/
def configuredSelf : Bool :=
  (((withPeer own peer).find? fun gw => gw.underlayIp = own.network.gatewayIp).or (withPeer own peer).head?).any
    (isLocalGateway own)

/-- An entry of the inventory keeps the peer out of it: it has its name or its address. -/
def hidesPeer : Bool :=
  own.gatewayNodes.any fun gw => gw.name = peer.nodeName || gw.underlayIp = peer.underlayIp

/-- The first entry that answers to the node's own key is the node. -/
def leadsHome (key : String) : Bool :=
  if own.ha.activeSource = .xds then configuredSelf own peer else (gatewayByKey own key).any (isLocalGateway own)

/-- The first entry that answers to the peer's key is not the node, and there is one, or else
    the configured gateway is not the node. -/
def leadsAway (key : String) : Bool :=
  if own.ha.activeSource = .xds then !configuredSelf own peer
  else
    match gatewayByKey own key with
    | some gw => !isLocalGateway own gw
    | none => !(hidesPeer own peer && configuredSelf own peer)

theorem peerNode_identity : ∃ node, peerNode own (peerFromIdentity (localIdentity peer)) = some node ∧
    node.name = peer.nodeName ∧ node.underlayIp = peer.underlayIp := by
  have hparse : parseIp (peerFromIdentity (localIdentity peer)).underlayIp = some peer.underlayIp :=
    parseIp_show peer.underlayIp
  rw [peerNode, hparse]
  exact ⟨_, rfl, rfl, rfl⟩

theorem withPeer_eq : ∃ node : GatewayNode, node.name = peer.nodeName ∧
    node.underlayIp = peer.underlayIp ∧
    withPeer own peer = if hidesPeer own peer then own.gatewayNodes else own.gatewayNodes ++ [node] := by
  obtain ⟨node, hnode, hname, haddress⟩ := peerNode_identity own peer
  refine ⟨node, hname, haddress, ?_⟩
  rw [withPeer, addPeer_of_node hnode, haddress]
  rfl

section Active

variable {own peer : FileConfig} {key token : String} {s : PairStore} (hs : Stored peer key token s)
  (hrole : own.nodeRole = .gateway)

include hs hrole

theorem Stored.allGateways_eq : allGateways own (some s.ha.normalize.toGatewayHaRuntimeConfig) = withPeer own peer := by
  have hpeers : s.ha.normalize.peers = [peerFromIdentity (localIdentity peer)] := hs.peers
  simp [allGateways, hrole, hpeers, withPeer]

theorem Stored.active_xds (hsource : own.ha.activeSource = .xds) : activeHere own s = configuredSelf own peer := by
  simp only [activeHere, localGatewayIsActive, selectActive, hs.allGateways_eq hrole, hsource, if_true, Option.none_or,
    configuredSelf]
  generalize ((withPeer own peer).find? fun gw => gw.underlayIp = own.network.gatewayIp).or (withPeer own peer).head? = found
  cases found <;> rfl

theorem Stored.active_found (hsource : own.ha.activeSource ≠ .xds) (hkey : trim key ≠ "") {gw : GatewayNode}
    (hfind : (withPeer own peer).find? (·.answersTo (trim key)) = some gw) :
    activeHere own s = isLocalGateway own gw := by
  rw [← trim_recordText key] at hkey hfind
  rw [← hs.allGateways_eq hrole] at hfind
  simp only [activeHere, localGatewayIsActive, hs.record, selectActive_stored hsource hkey hfind]

theorem Stored.active_unknown (hsource : own.ha.activeSource ≠ .xds) (hkey : trim key ≠ "")
    (hfind : (withPeer own peer).find? (·.answersTo (trim key)) = none) :
    activeHere own s = configuredSelf own peer := by
  have htext : (some (trim (recordText key))).filter (· ≠ "") = some (trim key) := by
    rw [trim_recordText]
    simp [Option.filter_some, hkey]
  simp only [activeHere, localGatewayIsActive, hs.record, selectActive, hs.allGateways_eq hrole, if_neg hsource,
    Option.map_some, htext, Option.bind_some, hfind, Option.none_or, configuredSelf]
  generalize ((withPeer own peer).find? fun gw => gw.underlayIp = own.network.gatewayIp).or (withPeer own peer).head? = found
  cases found <;> rfl

/-- The node whose key it is. -/
theorem Stored.active_home (hown : OwnEntry own) (hkey : trim key ≠ "") (hmember : KeyOf own (trim key)) :
    activeHere own s = leadsHome own peer (trim key) := by
  unfold leadsHome
  split
  · rename_i hsource
    exact hs.active_xds hrole hsource
  · rename_i hsource
    -- its own entry answers, so the inventory has a first one that does
    obtain ⟨entry, hmem, hname, haddress⟩ := hown
    have hanswers : entry.answersTo (trim key) = true := by
      rcases hmember with hkey | hkey
      · simp [GatewayNode.answersTo, hname, hkey]
      · simp [GatewayNode.answersTo, haddress, hkey]
    obtain ⟨gw, hfind⟩ : ∃ gw, gatewayByKey own (trim key) = some gw :=
      Option.isSome_iff_exists.mp (List.find?_isSome.mpr ⟨entry, hmem, hanswers⟩)
    have hall : (withPeer own peer).find? (·.answersTo (trim key)) = some gw := by
      obtain ⟨node, -, -, heq⟩ := withPeer_eq own peer
      have hfirst : own.gatewayNodes.find? (·.answersTo (trim key)) = some gw := hfind
      rw [heq]
      split
      · exact hfirst
      · rw [List.find?_append, hfirst, Option.some_or]
    rw [hs.active_found hrole hsource hkey hall, hfind]
    rfl

/-- The node whose peer's key it is. -/
theorem Stored.active_away (hdistinct : Distinct own peer) (hkey : trim key ≠ "") (hmember : KeyOf peer (trim key)) :
    activeHere own s = !leadsAway own peer (trim key) := by
  unfold leadsAway
  split
  · rename_i hsource
    rw [Bool.not_not]
    exact hs.active_xds hrole hsource
  · rename_i hsource
    obtain ⟨node, hname, haddress, heq⟩ := withPeer_eq own peer
    have hentries : own.gatewayNodes.find? (·.answersTo (trim key)) = gatewayByKey own (trim key) := rfl
    cases hfind : gatewayByKey own (trim key) with
    | some gw =>
      have hall : (withPeer own peer).find? (·.answersTo (trim key)) = some gw := by
        rw [heq]
        split
        · exact hentries.trans hfind
        · rw [List.find?_append, hentries, hfind, Option.some_or]
      rw [hs.active_found hrole hsource hkey hall, Bool.not_not]
    | none =>
      by_cases hhides : hidesPeer own peer = true
      · -- nothing answers: the peer was kept out by an entry that does not either
        rw [if_pos hhides] at heq
        have hall : (withPeer own peer).find? (·.answersTo (trim key)) = none := by
          rw [heq]
          exact hentries.trans hfind
        rw [hs.active_unknown hrole hsource hkey hall, hhides]
        simp
      · rw [if_neg hhides] at heq
        have hanswers : node.answersTo (trim key) = true := by
          rcases hmember with hkey | hkey
          · simp [GatewayNode.answersTo, hname, hkey]
          · simp [GatewayNode.answersTo, haddress, hkey]
        have hall : (withPeer own peer).find? (·.answersTo (trim key)) = some node := by
          rw [heq, List.find?_append, hentries, hfind, Option.none_or]
          simp [hanswers]
        have hlocal : isLocalGateway own node = false := by
          simp [isLocalGateway, hname, haddress, hdistinct.names.symm, hdistinct.addresses.symm]
        rw [hs.active_found hrole hsource hkey hall, hlocal]
        simp [hhides]

end Active

/-! ## Agreement -/

/-- The key belongs to `x` alone, and the inventories lead to `x` from it on both nodes. -/
structure Chosen (x y : FileConfig) (key : String) : Prop where
  member : KeyOf x key
  notOther : ¬ KeyOf y key
  home : leadsHome x y key = true
  away : leadsAway y x key = true

/-- `x` is active and writes, `y` is neither. -/
structure RoleSplit {P H : Type} (F : Format P H) (x y : FileConfig) (docsX docsY : Docs Key P) (sx sy : PairStore) : Prop where
  active : activeHere x sx = true
  passive : activeHere y sy = false
  master : ∃ id peer, replicationScope F x docsX = .ok (.master id peer)
  backup : ∃ id peer, replicationScope F y docsY = .ok (.backup id peer)

theorem keyOf_ne_empty {cfg : FileConfig} {key : String} (hname : isBlank cfg.nodeName = false) (h : KeyOf cfg key) :
    key ≠ "" := by
  rintro rfl
  rcases h with h | h
  · rw [← h] at hname
    cases hname
  · have hread := parseIp_show cfg.underlayIp
    rw [← h] at hread
    cases hread

theorem roleSplit_iff {P H : Type} (F : Format P H) {x y : FileConfig} {key token : String} {sx sy : PairStore}
    {docsX docsY : Docs Key P} (hx : Stored y key token sx) (hy : Stored x key token sy) (hdx : Documented F docsX sx)
    (hdy : Documented F docsY sy) (htoken : isBlank token = false) (hrolex : x.nodeRole = .gateway)
    (hroley : y.nodeRole = .gateway) (hown : OwnEntry x) (hxy : Distinct x y) (hyx : Distinct y x) :
    RoleSplit F x y docsX docsY sx sy ↔ Chosen x y (trim key) := by
  have hscopex : replicationScope F x docsX = _ := replicationScope_eq F hx hdx htoken
  have hscopey : replicationScope F y docsY = _ := replicationScope_eq F hy hdy htoken
  have hmaster : (∃ id peer, replicationScope F x docsX = .ok (.master id peer)) ↔ KeyOf x (trim key) := by
    rw [hscopex]
    by_cases hkx : KeyOf x (trim key)
    · simp [hkx]
    · by_cases hky : KeyOf y (trim key)
      · simp [hkx, hky]
      · simp [hkx, hky]
  have hbackup : (∃ id peer, replicationScope F y docsY = .ok (.backup id peer)) ↔
      ¬ KeyOf y (trim key) ∧ KeyOf x (trim key) := by
    rw [hscopey]
    by_cases hky : KeyOf y (trim key)
    · simp [hky]
    · by_cases hkx : KeyOf x (trim key)
      · simp [hkx, hky]
      · simp [hkx, hky]
  constructor
  · rintro ⟨hactive, hpassive, hm, hb⟩
    have hmember := hmaster.mp hm
    have hne := keyOf_ne_empty hxy.name hmember
    refine ⟨hmember, (hbackup.mp hb).1, ?_, ?_⟩
    · rw [← hx.active_home hrolex hown hne hmember]
      exact hactive
    · rw [hy.active_away hroley hyx hne hmember] at hpassive
      simpa using hpassive
  · rintro ⟨hmember, hnot, hhome, haway⟩
    have hne := keyOf_ne_empty hxy.name hmember
    refine ⟨?_, ?_, hmaster.mpr hmember, hbackup.mpr ⟨hnot, hmember⟩⟩
    · rw [hx.active_home hrolex hown hne hmember]
      exact hhome
    · rw [hy.active_away hroley hyx hne hmember, haway]
      rfl

/-- A gateway that has only itself in its inventory. -/
def pairNode (name : String) (address : IpAddr) (dscp : UInt32) (overlayCidr : String) : PairNode where
  cfg :=
    { nodeRole := .gateway, nodeName := name, underlayIp := address
      network := { gatewayIp := address, overlayCidr, dscp }
      gatewayNodes := [⟨name, address, address, "10.255.255.1/24"⟩] }
  own := ⟨_, List.mem_singleton_self _, rfl, rfl⟩

def firstGateway : PairNode := pairNode "gateway-a" (.v4 0xc000020b) 46 "10.255.255.0/24"

def secondGateway : PairNode := pairNode "gateway-b" (.v4 0xc000020c) 44 "10.255.254.0/24"

def pairCall : PairCall := { bootstrapToken := "bootstrap", sessionToken := "elp_1" }

/-- The two of them paired from empty stores. -/
def pairPreferring (preferred : String) : (PairStore × PairStore) × Except String GatewayIdentity :=
  pairGateway firstGateway secondGateway pairCall { preferredActive := some preferred } {} {}

def plainDocs (s : PairStore) : Docs Key Payload
  | .ha => some ⟨.ha s.ha.toGatewayHaRuntimeConfig, 1, "t1"⟩
  | .haPeerSecret => s.secret.map fun secret => ⟨.secret secret, 2, "t2"⟩
  | .haActiveGateway => s.record.map fun text => ⟨.text text, 3, "t3"⟩
  | _ => none

theorem plainDocs_documented (s : PairStore) : Documented plainFormat (plainDocs s) s where
  ha := rfl
  secret := by
    simp only [plainDocs]
    cases s.secret <;> rfl
  record := by
    simp only [plainDocs]
    cases s.record <;> rfl

end EdgeLb.Ha
