/-
  EdgeLb.Storage.ProxyReplication — the canonical proxy configuration and its replication
  cursor (`edge-lb/src/storage/proxy_config.rs`, `storage/proxy_replication.rs`).

  Six documents are read and committed together: listeners, target groups, the cursor, and
  the three HA documents that say whether this node may write. The four functions that work
  on them (`mutate_on`, `outgoing_on`, `receive_on`, `record_result_on`) are retry loops of
  sixteen rounds, and each is given here by what a round plans from the documents it read.

  The encodings and the digest are parameters: `P` is the payload text and `H` the digest,
  with a decoder that inverts the encoder (`Format`). What `update` computes may depend on
  the configurations its earlier rounds saw, since it is a closure with state.
-/

import EdgeLb.Config.Validate
import EdgeLb.Config.Ha
import EdgeLb.Lib.Optimistic

namespace EdgeLb.Storage

open EdgeLb.Config EdgeLb.Lib

structure ProxyConfig where
  listeners : List Listener := []
  targetGroups : List TargetGroup := []
  deriving DecidableEq, Repr

structure Rejection where
  status : Nat
  message : String
  deriving DecidableEq, Repr

inductive MutationError
  | rejected (r : Rejection)
  | storage (error : String)
  | contended
  deriving DecidableEq, Repr

structure SyncState (H : Type) where
  sequence : Nat
  source : String
  pairingId : String
  contentHash : H
  pending : Bool
  lastError : Option String
  deriving DecidableEq, Repr

structure Snapshot (H : Type) where
  sequence : Nat
  source : String
  pairingId : String
  contentHash : H
  config : ProxyConfig
  deriving DecidableEq, Repr

structure Receipt (H : Type) where
  sequence : Nat
  source : String
  pairingId : String
  contentHash : H
  deriving DecidableEq, Repr

inductive Key
  | listeners | targetGroups | proxyReplication | ha | haPeerSecret | haActiveGateway
  deriving DecidableEq, Repr

def KEYS : List Key := [.listeners, .targetGroups, .proxyReplication, .ha, .haPeerSecret, .haActiveGateway]

theorem mem_KEYS (k : Key) : k ∈ KEYS := by cases k <;> decide

/-! ## Encodings -/

structure Codec (P α : Type) where
  encode : α → P
  decode : P → Except String α
  decode_encode : ∀ a, decode (encode a) = .ok a

theorem Codec.encode_inj {P α : Type} (c : Codec P α) {a b : α} : c.encode a = c.encode b ↔ a = b := by
  refine ⟨fun h => ?_, fun h => h ▸ rfl⟩
  have := c.decode_encode a
  rw [h, c.decode_encode b] at this
  exact (Except.ok.inj this).symm

/-- How the documents are written, and the digest of a configuration. -/
structure Format (P H : Type) where
  listeners : Codec P (List Listener)
  targetGroups : Codec P (List TargetGroup)
  sync : Codec P (SyncState H)
  ha : Codec P GatewayHaRuntimeConfig
  secret : Codec P GatewayHaPeerSecrets
  text : P → String
  contentHash : ProxyConfig → H
  /-- The digest field of a cursor that was never written. -/
  noHash : H

/-! ## Reading -/

inductive Scope
  | standalone
  | master (pairingId : String) (peer : GatewayHaPeer)
  | backup (pairingId : String) (peer : GatewayHaPeer)
  deriving DecidableEq, Repr

structure Bundle (H : Type) where
  config : ProxyConfig
  sync : SyncState H
  scope : Scope
  deriving DecidableEq, Repr

section

variable {P H : Type}

def decodeDoc {α : Type} (c : Codec P α) (d : Option (StoredDocument P)) : Except String (Option α) :=
  match d with
  | none => .ok none
  | some d => (withContext "decoding replication transaction snapshot" (c.decode d.payload)).map some

def readScope (F : Format P H) (cfg : FileConfig) (ha : GatewayHaRuntimeConfig) (docs : Docs Key P) :
    Except String Scope :=
  if !ha.enabled then .ok .standalone
  else
    match ha.peers with
    | [peer] => do
      let secret ← orBail (← decodeDoc F.secret (docs .haPeerSecret)) "HA pairing secret missing"
      bailIf (secret.sessionTokenId.isEmpty || secret.sessionToken.isEmpty || secret.peerName ≠ peer.name ||
        secret.peerUnderlayIp ≠ peer.underlayIp) "HA pairing identity is inconsistent"
      let active ← orBail ((docs .haActiveGateway).map fun d => trim (F.text d.payload)) "HA active selection missing"
      if active = cfg.nodeName ∨ active = showIp cfg.underlayIp then return .master secret.sessionTokenId peer
      else if active = peer.name ∨ active = peer.underlayIp then return .backup secret.sessionTokenId peer
      else .error "HA active selection is not a member of the current pair"
    | _ => .error "HA replication requires exactly one peer"

def defaultSync (F : Format P H) : SyncState H :=
  { sequence := 0, source := "", pairingId := "", contentHash := F.noHash, pending := false, lastError := none }

def readConfig (F : Format P H) (cfg : FileConfig) (docs : Docs Key P) : Except String ProxyConfig := do
  let listeners ← decodeDoc F.listeners (docs .listeners)
  let targetGroups ← decodeDoc F.targetGroups (docs .targetGroups)
  return { listeners := listeners.getD cfg.listeners, targetGroups := targetGroups.getD cfg.targetGroups }

def readSync (F : Format P H) (docs : Docs Key P) : Except String (SyncState H) := do
  return (← decodeDoc F.sync (docs .proxyReplication)).getD (defaultSync F)

def read (F : Format P H) (cfg : FileConfig) (docs : Docs Key P) : Except String (Bundle H) := do
  let config ← readConfig F cfg docs
  let ha ← decodeDoc F.ha (docs .ha)
  let scope ← readScope F cfg (ha.getD {}) docs
  return { config, sync := ← readSync F docs, scope }

/-! ## Versions -/

/-- The configuration without the addresses that stay on their node. -/
def shared (config : ProxyConfig) : ProxyConfig :=
  { config with listeners := config.listeners.map fun l => { l with vipIps := [] } }

def Bundle.requireLocalWriter (b : Bundle H) : Except MutationError Unit :=
  match b.scope with
  | .backup _ _ => .error (.rejected ⟨409, "local gateway is not MASTER"⟩)
  | _ => .ok ()

def nextVersion (F : Format P H) (cfg : FileConfig) (sync : SyncState H) (config : ProxyConfig) (pairingId : String)
    (pending : Bool) : Except String (SyncState H) := do
  bailIf (2 ^ 64 ≤ sync.sequence + 1) "replication sequence exhausted"
  return {
    sequence := sync.sequence + 1
    source := cfg.nodeName
    pairingId
    contentHash := F.contentHash (shared config)
    pending
    lastError := none }

def Bundle.localVersion (F : Format P H) (b : Bundle H) (cfg : FileConfig) (config : ProxyConfig) :
    Except String (SyncState H) :=
  match b.scope with
  | .master pairingId _ => nextVersion F cfg b.sync config pairingId true
  | .standalone => nextVersion F cfg b.sync config "" false
  | .backup _ _ => .error "local gateway is not MASTER"

/-- The payloads `Bundle::commit` writes; every other document is a guard. -/
def commitWrites (F : Format P H) (config : ProxyConfig) (sync : SyncState H) (businessChanged : Bool) :
    Key → Option P
  | .listeners => if businessChanged then some (F.listeners.encode config.listeners) else none
  | .targetGroups => if businessChanged then some (F.targetGroups.encode config.targetGroups) else none
  | .proxyReplication => some (F.sync.encode sync)
  | _ => none

def Bundle.snapshot (b : Bundle H) : Snapshot H :=
  { sequence := b.sync.sequence
    source := b.sync.source
    pairingId := b.sync.pairingId
    contentHash := b.sync.contentHash
    config := shared b.config }

def Snapshot.receipt (s : Snapshot H) : Receipt H :=
  { sequence := s.sequence, source := s.source, pairingId := s.pairingId, contentHash := s.contentHash }

/-! ## The four loops -/

/-- What a call answers. -/
inductive Reply (H T : Type)
  | mutate (r : Except MutationError (T × Bool))
  | outgoing (r : Except String (Option (GatewayHaPeer × Snapshot H × Bool)))
  | receive (r : Except MutationError (Receipt H × Bool))
  | record (r : Except String Unit)

abbrev Update (T : Type) := List ProxyConfig → ProxyConfig → Except Rejection (ProxyConfig × T)

variable {T : Type} [DecidableEq P] [DecidableEq H]

/-- The configurations the closure has been run on in earlier rounds. -/
def earlierConfigs (F : Format P H) (cfg : FileConfig) (seen : List (Docs Key P)) : List ProxyConfig :=
  seen.filterMap fun docs => (read F cfg docs).toOption.map (·.config)

def sameText (F : Format P H) (a b : ProxyConfig) : Bool :=
  F.listeners.encode a.listeners = F.listeners.encode b.listeners ∧
    F.targetGroups.encode a.targetGroups = F.targetGroups.encode b.targetGroups

def mutatePlan (F : Format P H) (cfg : FileConfig) (update : Update T) (seen : List (Docs Key P))
    (docs : Docs Key P) : Plan Key P (Reply H T) :=
  match read F cfg docs with
  | .error e => .done (.mutate (.error (.storage e)))
  | .ok b =>
    match b.requireLocalWriter with
    | .error e => .done (.mutate (.error e))
    | .ok () =>
      match update (earlierConfigs F cfg seen) b.config with
      | .error r => .done (.mutate (.error (.rejected r)))
      | .ok (state, result) =>
        if sameText F b.config state then .done (.mutate (.ok (result, false)))
        else
          match b.localVersion F cfg state with
          | .error e => .done (.mutate (.error (.storage e)))
          | .ok sync => .commit (commitWrites F state sync true) (some (.mutate (.ok (result, true))))

/-- The cursor does not describe what this node would send now. -/
def Bundle.stale (F : Format P H) (cfg : FileConfig) (b : Bundle H) (pairingId : String) : Bool :=
  b.sync.source ≠ cfg.nodeName ∨ b.sync.pairingId ≠ pairingId ∨
    b.sync.contentHash ≠ F.contentHash (shared b.config)

/-- A stale cursor is advertised anew, and the loop reads again either way. -/
def outgoingPlan (F : Format P H) (cfg : FileConfig) (docs : Docs Key P) : Plan Key P (Reply H T) :=
  match read F cfg docs with
  | .error e => .done (.outgoing (.error e))
  | .ok b =>
    match b.scope with
    | .master pairingId peer =>
      if b.stale F cfg pairingId then
        match b.localVersion F cfg b.config with
        | .error e => .done (.outgoing (.error e))
        | .ok next => .commit (commitWrites F b.config next false) none
      else .done (.outgoing (.ok (some (peer, b.snapshot, b.sync.pending))))
    | _ => .done (.outgoing (.ok none))

/-- The check of a snapshot before the store is looked at: it must not carry local VIPs,
    its digest must fit, and this node must be able to run it, backend names aside. -/
def Snapshot.check (F : Format P H) (cfg : FileConfig) (s : Snapshot H) : Except Rejection Unit :=
  if s.sequence = 0 ∨ (s.config.listeners.any fun l => !l.vipIps.isEmpty) ∨
      F.contentHash s.config ≠ s.contentHash then
    .error ⟨400, "invalid shared proxy snapshot"⟩
  else
    let anonymous := s.config.targetGroups.map fun g => { g with targets := g.targets.map fun t => { t with backend := none } }
    match ({ cfg with listeners := s.config.listeners, targetGroups := anonymous } : FileConfig).validate with
    | .error e => .error ⟨400, s!"invalid proxy snapshot: {e}"⟩
    | .ok () => .ok ()

/-- The cursor a received snapshot leaves. -/
def Snapshot.cursor (s : Snapshot H) : SyncState H :=
  { sequence := s.sequence, source := s.source, pairingId := s.pairingId, contentHash := s.contentHash,
    pending := false, lastError := none }

def receivePlan (F : Format P H) (cfg : FileConfig) (s : Snapshot H) (docs : Docs Key P) : Plan Key P (Reply H T) :=
  let refuse (status : Nat) (message : String) : Plan Key P (Reply H T) :=
    .done (.receive (.error (.rejected ⟨status, message⟩)))
  match s.check F cfg with
  | .error r => .done (.receive (.error (.rejected r)))
  | .ok () =>
    match read F cfg docs with
    | .error e => .done (.receive (.error (.storage e)))
    | .ok b =>
      match b.scope with
      | .backup pairingId peer =>
        if s.pairingId ≠ pairingId ∨ s.source ≠ peer.name then
          refuse 409 "replica source does not match current HA pairing"
        else if s.pairingId = b.sync.pairingId ∧ s.sequence < b.sync.sequence then
          refuse 409 "stale proxy snapshot"
        else if s.pairingId = b.sync.pairingId ∧ s.sequence = b.sync.sequence then
          if s.source ≠ b.sync.source ∨ s.contentHash ≠ b.sync.contentHash ∨
              F.contentHash (shared b.config) ≠ s.contentHash then
            refuse 409 "conflicting proxy snapshot version"
          else .done (.receive (.ok (s.receipt, false)))
        else
          let changed := F.contentHash (shared b.config) ≠ s.contentHash
          let writeDocuments := changed ∨ (docs .listeners).isNone ∨ (docs .targetGroups).isNone
          .commit (commitWrites F s.config s.cursor writeDocuments) (some (.receive (.ok (s.receipt, changed))))
      | _ => refuse 409 "replica write requires BACKUP role"

/-- The cursor after the outcome of a delivery. -/
def SyncState.recorded (sync : SyncState H) (error : Option String) : SyncState H :=
  { sync with pending := error.isSome, lastError := error.map fun e => String.ofList (e.toList.take 512) }

def recordPlan (F : Format P H) (cfg : FileConfig) (s : Snapshot H) (error : Option String) (docs : Docs Key P) :
    Plan Key P (Reply H T) :=
  match read F cfg docs with
  | .error e => .done (.record (.error e))
  | .ok b =>
    match b.scope with
    | .master pairingId _ =>
      if pairingId ≠ s.pairingId ∨ b.sync.sequence ≠ s.sequence ∨ b.sync.source ≠ s.source ∨
          b.sync.contentHash ≠ s.contentHash then .done (.record (.ok ()))
      else if b.sync.recorded error = b.sync then .done (.record (.ok ()))
      else .commit (commitWrites F b.config (b.sync.recorded error) false) (some (.record (.ok ())))
    | _ => .done (.record (.ok ()))

/-- A call of one of the four functions. -/
inductive Call (H T : Type)
  | mutate (cfg : FileConfig) (update : Update T)
  | outgoing (cfg : FileConfig)
  | receive (cfg : FileConfig) (s : Snapshot H)
  | record (cfg : FileConfig) (s : Snapshot H) (error : Option String)

def Call.loop (F : Format P H) : Call H T → Loop Key P (Reply H T)
  | .mutate cfg update =>
    { plan := mutatePlan F cfg update
      limit := 16
      exhausted := .mutate (.error .contended)
      failed := fun e => .mutate (.error (.storage e)) }
  | .outgoing cfg =>
    { plan := fun _ => outgoingPlan F cfg
      limit := 16
      exhausted := .outgoing (.error "replication state changed concurrently; retry")
      failed := fun e => .outgoing (.error e) }
  | .receive cfg s =>
    { plan := fun _ => receivePlan F cfg s
      limit := 16
      exhausted := .receive (.error .contended)
      failed := fun e => .receive (.error (.storage e)) }
  | .record cfg s error =>
    { plan := fun _ => recordPlan F cfg s error
      limit := 16
      exhausted := .record (.error "replication acknowledgement changed concurrently; retry")
      failed := fun e => .record (.error e) }

end

end EdgeLb.Storage
