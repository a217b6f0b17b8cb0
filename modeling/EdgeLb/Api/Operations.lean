/-
  EdgeLb.Api.Operations — the writes of listeners and target groups on this node
  (`edge-lb/src/api/handlers/listeners.rs`, `handlers/target_groups.rs`, and
  `invoke_local` of `handlers/proxy_config.rs`).

  Each operation parses its body and hands `mutate` a closure that edits the stored
  configuration. A listener is checked against the stored listeners and groups; a target
  group is put in and then the whole configuration is validated, with the backends of the
  node's configuration as the inventory; deletions look at the stored configuration alone.

  Bodies are texts of any type `B`, and their JSON readers are parameters (`Json`), as are the
  printers of what is printed and read again.
-/

import EdgeLb.Config.Accepts
import EdgeLb.Provider.Native
import EdgeLb.Storage.Mutate
import EdgeLb.Lib.Upsert

namespace EdgeLb.Api

open EdgeLb.Config EdgeLb.Lib EdgeLb.Storage EdgeLb.Provider

/-! ## Bodies and replies -/

structure ListenerConfigResource where
  name : String := ""
  vipIps : List IpAddr
  port : UInt16
  targetPort : UInt16
  protocols : List Protocol
  targetGroup : String
  select : LbSelect
  inactiveTimeout : Option UInt32
  deriving DecidableEq, Repr

def ListenerConfigResource.ofListener (value : Listener) : ListenerConfigResource :=
  { name := value.name, vipIps := value.vipIps, port := value.port, targetPort := value.targetPort,
    protocols := value.protocols, targetGroup := value.targetGroup, select := value.select,
    inactiveTimeout := value.inactiveTimeout }

def nativeGeneratedListenerName (protocol : String) (port : UInt16) : String := s!"{protocol}-{port}"

/-- The listener's name is generated; of the given one only an `auto-` in front counts. -/
def ListenerConfigResource.toListener (value : ListenerConfigResource) : Listener :=
  let protocols := if value.protocols.isEmpty then [.tcp] else value.protocols
  let protocols := protocols.foldl (fun seen p => if p ∈ seen then seen else seen ++ [p]) []
  let generatedName := nativeGeneratedListenerName (String.intercalate "-" (protocols.map Protocol.asStr)) value.port
  { name := if startsWith (trim value.name) "auto-" then s!"auto-{generatedName}" else generatedName
    vipIps := value.vipIps, port := value.port, targetPort := value.targetPort, protocols,
    targetGroup := value.targetGroup, select := value.select, inactiveTimeout := value.inactiveTimeout }

inductive ProxyConfigOperation (B : Type)
  | listenerImport (body : B)
  | targetGroupImport (body : B)
  | listenerCreate (body : B)
  | listenerUpdate (name : String) (body : B)
  | listenerDelete (name : String)
  | targetGroupCreate (body : B)
  | targetGroupUpdate (name : String) (body : B)
  | targetGroupDelete (name : String)
  deriving DecidableEq, Repr

/-- An import is read in two steps: as JSON, then as a list of resources. -/
inductive ImportError
  | json (error : String)
  | payload (error : String)
  deriving DecidableEq, Repr

/-- The JSON of the API. `withName` sets the name in a target group's body. -/
structure Json (B : Type) where
  listener : B → Except String ListenerConfigResource
  listenerImport : B → Except ImportError (List ListenerConfigResource)
  targetGroup : Codec B TargetGroup
  targetGroupImport : B → Except ImportError (List TargetGroup)
  withName : String → B → B
  operation : Codec B (ProxyConfigOperation B)

inductive Body
  | error (message : String)
  | listener (resource : ListenerConfigResource)
  | targetGroup (group : TargetGroup)
  | imported (count : Nat)
  | deleted (name : String)
  deriving DecidableEq, Repr

/-- What an accepted write adds to its reply: who took it, and the version that shows it. -/
structure Accepted (H : Type) where
  authority : String
  barrier : Option (Nat × String × String × H)
  deriving DecidableEq, Repr

structure Reply (H : Type) where
  status : Nat
  body : Body
  sync : Option (Accepted H) := none
  deriving DecidableEq, Repr

def Reply.error {H : Type} (status : Nat) (message : String) : Reply H := { status, body := .error message }

/-- `(200..300).contains(&reply.status)`. -/
def Reply.accepted {H : Type} (r : Reply H) : Bool := 200 ≤ r.status && r.status < 300

def mutationError {H : Type} : MutationError → Reply H
  | .rejected r => .error r.status r.message
  | .storage e => .error 500 s!"committing proxy configuration: {e}"
  | .contended => .error 409 "proxy configuration changed concurrently; retry the operation"

/-! ## Listeners -/

inductive ListenerMutation
  | create
  | update (name : String)
  deriving DecidableEq, Repr

section listeners

variable (cfg : FileConfig) (ha : Option GatewayHaRuntimeConfig)

def listenerResourceConflicts (existing want : ListenerConfigResource) : Except String Bool :=
  if existing.port ≠ want.port then .ok false
  else if !existing.protocols.any (· ∈ want.protocols) then .ok false
  else do
    let existingIps ← effectiveVipIps cfg ha existing.vipIps
    let wantIps ← effectiveVipIps cfg ha want.vipIps
    return existingIps.any (· ∈ wantIps)

def validateListenerConfig (listener : Listener) (oldName : Option String) (existing : List Listener)
    (groups : List TargetGroup) : Except String Unit := do
  bailIf (isBlank listener.name) "listener name is required"
  bailIf (listener.port == 0) "listener port must be in range 1..=65535"
  bailIf (listener.targetPort == 0) "listener target port must be in range 1..=65535"
  bailIf listener.protocols.isEmpty "listener must select at least one protocol"
  bailIf (!groups.any (·.name == listener.targetGroup)) s!"target group {listener.targetGroup} not found"
  eachIdx (fun _ item =>
    if oldName = some item.name then .ok ()
    else do
      let conflicts ← if item.name = listener.name then pure true
        else listenerResourceConflicts cfg ha (.ofListener item) (.ofListener listener)
      bailIf conflicts
        s!"listener {listener.name} conflicts with existing listener {item.name} on port {listener.port}") existing

def validateListenerCapacity (listeners : List Listener) : Except String Unit :=
  validateConsistentHashListenerCapacity { cfg with listeners } fun _ listener => do
    let vips ← effectiveVipIps cfg ha listener.vipIps
    return vips.length * uniqueProtocolCount listener.protocols

def invalidListener {α : Type} (x : Except String α) : Except Rejection α :=
  x.mapError fun error => ⟨400, s!"invalid listener config: {error}"⟩

/-- The listener an update replaces; it must be there. -/
def ListenerMutation.oldName (listeners : List Listener) : ListenerMutation → Except Rejection (Option String)
  | .create => .ok none
  | .update name => if listeners.any (·.name = name) then .ok (some name) else .error ⟨404, s!"no listener {name}"⟩

def editSnapshot (state : ProxyConfig) (listener : Listener) (operation : ListenerMutation) :
    Except Rejection ProxyConfig := do
  let oldName ← operation.oldName state.listeners
  invalidListener (validateListenerConfig cfg ha listener oldName state.listeners state.targetGroups)
  let listeners := upsert (fun item => some item.name = oldName) listener state.listeners
  invalidListener (validateListenerCapacity cfg ha listeners)
  return { state with listeners }

def importListeners (names : List String) (state : ProxyConfig) : List Listener → Except Rejection ProxyConfig
  | [] => .ok state
  | listener :: rest =>
    if listener.name ∈ names then .error ⟨400, s!"duplicate listener {listener.name} in import"⟩
    else do
      let mutation := if state.listeners.any (·.name = listener.name) then .update listener.name else .create
      let state ← editSnapshot cfg ha state listener mutation
      importListeners (names ++ [listener.name]) state rest

end listeners

def deleteListener (name : String) (state : ProxyConfig) : Except Rejection ProxyConfig :=
  if state.listeners.any (·.name = name) then
    .ok { state with listeners := state.listeners.filter (·.name ≠ name) }
  else .error ⟨404, s!"no listener {name}"⟩

/-! ## Target groups -/

variable (cfg : FileConfig)

/-- The node's configuration with the given listeners and groups. -/
def withProxy (state : ProxyConfig) : FileConfig :=
  { cfg with listeners := state.listeners, targetGroups := state.targetGroups }

/-- Validate the whole configuration, as the last check of a write of groups. -/
def checked (context : String) (state : ProxyConfig) : Except Rejection ProxyConfig :=
  match (withProxy cfg state).validate with
  | .ok () => .ok state
  | .error e => .error ⟨400, s!"{context}: {e}"⟩

def putGroup (group : TargetGroup) (state : ProxyConfig) : ProxyConfig :=
  { state with targetGroups := upsertBy TargetGroup.name group state.targetGroups }

def upsertTargetGroup (group : TargetGroup) (state : ProxyConfig) : Except Rejection ProxyConfig :=
  if isBlank group.name then .error ⟨400, "target group name is required"⟩
  else checked cfg "invalid target group" (putGroup group state)

def putGroups (names : List String) (state : ProxyConfig) : List TargetGroup → Except Rejection ProxyConfig
  | [] => .ok state
  | group :: rest =>
    if isBlank group.name ∨ group.name ∈ names then .error ⟨400, "empty or duplicate target group name in import"⟩
    else putGroups (names ++ [group.name]) (putGroup group state) rest

def importTargetGroups (groups : List TargetGroup) (state : ProxyConfig) :
    Except Rejection ProxyConfig := do
  checked cfg "invalid target group import" (← putGroups [] state groups)

def deleteTargetGroup (name : String) (state : ProxyConfig) : Except Rejection ProxyConfig :=
  if state.listeners.any (·.targetGroup = name) then
    .error ⟨409, s!"target group {name} is still referenced by a listener"⟩
  else if state.targetGroups.any (·.name = name) then
    .ok { state with targetGroups := state.targetGroups.filter (·.name ≠ name) }
  else .error ⟨404, s!"no target group {name}"⟩

/-- The nodes are in order, and every backend that a target names is among them. -/
def InventoryFits (groups : List TargetGroup) : Prop :=
  validateInventory cfg = .ok () ∧ ∀ group ∈ groups, group.Known cfg.backendNodesEffective

theorem checked_eq_ok {cfg : FileConfig} (hrole : cfg.nodeRole = .gateway) {context : String} {state result : ProxyConfig} :
    checked cfg context state = .ok result ↔
      state = result ∧ (withProxy cfg state).Sound ∧ InventoryFits cfg state.targetGroups := by
  have hvalid : (withProxy cfg state).validate = .ok () ↔
      (withProxy cfg state).Sound ∧ InventoryFits cfg state.targetGroups := @validate_eq_ok (withProxy cfg state) hrole
  unfold checked
  cases hv : (withProxy cfg state).validate with
  | ok u =>
    simp only [Except.ok.injEq, hvalid.mp hv, and_true]
  | error e =>
    have hnot : ¬((withProxy cfg state).Sound ∧ InventoryFits cfg state.targetGroups) := fun h => by
      rw [hvalid.mpr h] at hv
      cases hv
    simp [hnot]

/-! ## The operations -/

/-- What an operation does to the stored configuration, and the reply when it does it; or
    the reply to a body that does not read. -/
structure Edit (H : Type) where
  update : ProxyConfig → Except Rejection ProxyConfig
  reply : Reply H

def parsed {H α : Type} (context : String) (x : Except String α) : Except (Reply H) α :=
  x.mapError fun e => .error 400 s!"{context}: {e}"

def parsedImport {H α : Type} (resource : String) (x : Except ImportError α) : Except (Reply H) α :=
  x.mapError fun
    | .json e => .error 400 s!"bad {resource} import JSON: {e}"
    | .payload e => .error 400 s!"bad {resource} import payload: {e}"

def editOf {B H : Type} (J : Json B) (cfg : FileConfig) (ha : Option GatewayHaRuntimeConfig) :
    ProxyConfigOperation B → Except (Reply H) (Edit H)
  | .listenerImport body => do
    let listeners := (← parsedImport "listener" (J.listenerImport body)).map (·.toListener)
    return { update := fun state => importListeners cfg ha [] state listeners
             reply := { status := 200, body := .imported listeners.length } }
  | .targetGroupImport body => do
    let groups ← parsedImport "target group" (J.targetGroupImport body)
    return { update := importTargetGroups cfg groups, reply := { status := 200, body := .imported groups.length } }
  | .listenerCreate body => do
    let listener := (← parsed "bad listener config JSON" (J.listener body)).toListener
    return { update := fun state => editSnapshot cfg ha state listener .create
             reply := { status := 201, body := .listener (.ofListener listener) } }
  | .listenerUpdate name body => do
    let listener := (← parsed "bad listener config JSON" (J.listener body)).toListener
    return { update := fun state => editSnapshot cfg ha state listener (.update name)
             reply := { status := 200, body := .listener (.ofListener listener) } }
  | .listenerDelete name => .ok { update := deleteListener name, reply := { status := 200, body := .deleted name } }
  | .targetGroupCreate body => do
    let group ← parsed "bad target group JSON" (J.targetGroup.decode body)
    return { update := upsertTargetGroup cfg group, reply := { status := 200, body := .targetGroup group } }
  | .targetGroupUpdate name body => do
    let group ← parsed "bad target group JSON" (J.targetGroup.decode (J.withName name body))
    return { update := upsertTargetGroup cfg group, reply := { status := 200, body := .targetGroup group } }
  | .targetGroupDelete name => .ok { update := deleteTargetGroup name, reply := { status := 200, body := .deleted name } }

/-! ### Rejections are client errors -/

def IsClientError (r : Rejection) : Prop := 400 ≤ r.status ∧ r.status < 500

theorem isClientError {status : Nat} {message : String} (h : 400 ≤ status ∧ status < 500) :
    IsClientError ⟨status, message⟩ := h

theorem invalidListener_rejects {α : Type} {x : Except String α} {r : Rejection} (h : invalidListener x = .error r) :
    IsClientError r := by
  cases x with
  | ok a => cases h
  | error e =>
    cases h
    exact isClientError (by decide)

section

variable {cfg : FileConfig} {ha : Option GatewayHaRuntimeConfig} {state : ProxyConfig} {r : Rejection}

theorem editSnapshot_rejects {listener : Listener} {operation : ListenerMutation}
    (h : editSnapshot cfg ha state listener operation = .error r) : IsClientError r := by
  unfold editSnapshot at h
  rcases bind_eq_error.mp h with hname | ⟨oldName, -, h⟩
  · cases operation with
    | create => cases hname
    | update name =>
      simp only [ListenerMutation.oldName] at hname
      split at hname
      · cases hname
      · cases hname
        exact isClientError (by decide)
  · rcases bind_eq_error.mp h with h | ⟨_, -, h⟩
    · exact invalidListener_rejects h
    · rcases bind_eq_error.mp h with h | ⟨_, -, h⟩
      · exact invalidListener_rejects h
      · cases h

theorem importListeners_rejects {listeners : List Listener} {names : List String}
    (h : importListeners cfg ha names state listeners = .error r) : IsClientError r := by
  induction listeners generalizing names state with
  | nil => cases h
  | cons listener rest ih =>
    unfold importListeners at h
    split at h
    · cases h
      exact isClientError (by decide)
    · rcases bind_eq_error.mp h with h | ⟨_, -, h⟩
      · exact editSnapshot_rejects h
      · exact ih h

theorem deleteListener_rejects {name : String} (h : deleteListener name state = .error r) : IsClientError r := by
  unfold deleteListener at h
  split at h
  · cases h
  · cases h
    exact isClientError (by decide)

theorem checked_rejects {context : String} (h : checked cfg context state = .error r) : IsClientError r := by
  unfold checked at h
  split at h
  · cases h
  · cases h
    exact isClientError (by decide)

theorem upsertTargetGroup_rejects {group : TargetGroup} (h : upsertTargetGroup cfg group state = .error r) :
    IsClientError r := by
  unfold upsertTargetGroup at h
  split at h
  · cases h
    exact isClientError (by decide)
  · exact checked_rejects h

theorem putGroups_rejects {groups : List TargetGroup} {names : List String}
    (h : putGroups names state groups = .error r) : IsClientError r := by
  induction groups generalizing names state with
  | nil => cases h
  | cons group rest ih =>
    unfold putGroups at h
    split at h
    · cases h
      exact isClientError (by decide)
    · exact ih h

theorem importTargetGroups_rejects {groups : List TargetGroup} (h : importTargetGroups cfg groups state = .error r) :
    IsClientError r := by
  rcases bind_eq_error.mp h with h | ⟨_, -, h⟩
  · exact putGroups_rejects h
  · exact checked_rejects h

theorem deleteTargetGroup_rejects {name : String} (h : deleteTargetGroup name state = .error r) : IsClientError r := by
  unfold deleteTargetGroup at h
  split at h
  · cases h
    exact isClientError (by decide)
  split at h
  · cases h
  · cases h
    exact isClientError (by decide)

theorem editOf_rejects {B H : Type} {J : Json B} {op : ProxyConfigOperation B} {edit : Edit H}
    (hedit : editOf J cfg ha op = .ok edit) (h : edit.update state = .error r) : IsClientError r := by
  cases op with
  | listenerImport body =>
    obtain ⟨listeners, -, hedit⟩ := bind_eq_ok.mp hedit
    obtain rfl := Except.ok.inj hedit
    exact importListeners_rejects h
  | targetGroupImport body =>
    obtain ⟨groups, -, hedit⟩ := bind_eq_ok.mp hedit
    obtain rfl := Except.ok.inj hedit
    exact importTargetGroups_rejects h
  | listenerCreate body =>
    obtain ⟨listener, -, hedit⟩ := bind_eq_ok.mp hedit
    obtain rfl := Except.ok.inj hedit
    exact editSnapshot_rejects h
  | listenerUpdate name body =>
    obtain ⟨listener, -, hedit⟩ := bind_eq_ok.mp hedit
    obtain rfl := Except.ok.inj hedit
    exact editSnapshot_rejects h
  | listenerDelete name =>
    obtain rfl := Except.ok.inj hedit
    exact deleteListener_rejects h
  | targetGroupCreate body =>
    obtain ⟨group, -, hedit⟩ := bind_eq_ok.mp hedit
    obtain rfl := Except.ok.inj hedit
    exact upsertTargetGroup_rejects h
  | targetGroupUpdate name body =>
    obtain ⟨group, -, hedit⟩ := bind_eq_ok.mp hedit
    obtain rfl := Except.ok.inj hedit
    exact upsertTargetGroup_rejects h
  | targetGroupDelete name =>
    obtain rfl := Except.ok.inj hedit
    exact deleteTargetGroup_rejects h

end

section

variable {B P H : Type} [DecidableEq P]

/-- `load_for_state_dir`. -/
def loadHa (F : Format P H) (docs : Docs Key P) : Except String GatewayHaRuntimeConfig :=
  match docs .ha with
  | none => .ok {}
  | some d => (withContext "parsing stored HA config" (F.ha.decode d.payload)).map normalizeRuntimeConfig

/-- An edit as the closure that `mutate` runs. -/
def Edit.closure (edit : Edit H) : Update Unit := fun _ state => (edit.update state).map fun state => (state, ())

def invokeLocal (F : Format P H) (J : Json B) (cfg : FileConfig) (at_ : Stamp) (op : ProxyConfigOperation B)
    (docs : Docs Key P) : Docs Key P × Reply H :=
  match editOf J cfg (loadHa F docs).toOption op with
  | .error reply => (docs, reply)
  | .ok edit =>
    match mutate F cfg edit.closure at_ docs with
    | (docs, .ok _) => (docs, edit.reply)
    | (docs, .error e) => (docs, mutationError e)

variable {F : Format P H} {J : Json B} {cfg : FileConfig} {op : ProxyConfigOperation B} {config : ProxyConfig}
  {docs : Docs Key P}

section

variable {edit : Edit H} (hedit : editOf J cfg (loadHa F docs).toOption op = .ok edit)
include hedit

/-- An edit that goes through is committed, and who may write stays as it was. -/
theorem invokeLocal_commits {room : Nat} (hstore : Writable F cfg (room + 1) config docs) {state : ProxyConfig}
    (hok : edit.update config = .ok state) (at_ : Stamp) :
    ∃ docs', invokeLocal F J cfg at_ op docs = (docs', edit.reply) ∧ Writable F cfg room state docs' ∧
      SameRole docs docs' := by
  have hclosure : edit.closure [] config = .ok (state, ()) := by simp only [Edit.closure, hok]; rfl
  obtain ⟨docs', changed, hmutate, hwritable, hrole⟩ := mutate_accepted hstore hclosure at_
  exact ⟨docs', by simp only [invokeLocal, hedit, hmutate], hwritable, hrole⟩

theorem invokeLocal_accepted
    (hstore : Writable F cfg 1 config docs) {state : ProxyConfig} (hok : edit.update config = .ok state) (at_ : Stamp) :
    invokeLocal F J cfg at_ op docs = ((mutate F cfg edit.closure at_ docs).1, edit.reply) := by
  have hclosure : edit.closure [] config = .ok (state, ()) := by simp only [Edit.closure, hok]; rfl
  obtain ⟨docs', changed, hmutate, -, -⟩ := mutate_accepted hstore hclosure at_
  simp only [invokeLocal, hedit, hmutate]

theorem invokeLocal_rejected {room : Nat}
    (hstore : Writable F cfg room config docs) {r : Rejection} (herr : edit.update config = .error r) (at_ : Stamp) :
    invokeLocal F J cfg at_ op docs = (docs, mutationError (.rejected r)) := by
  have hclosure : edit.closure [] config = .error r := by simp only [Edit.closure, herr]; rfl
  simp only [invokeLocal, hedit, mutate_rejected hstore hclosure at_]

end

theorem mutationError_not_accepted {r : Rejection} (h : IsClientError r) :
    (mutationError (.rejected r) : Reply H).accepted = false := by
  have hstatus : ¬ r.status < 300 := by
    have := h.1
    omega
  simp [mutationError, Reply.error, Reply.accepted, hstatus]

end

/-! ## Plain bodies -/

/-- Bodies that are the values themselves. -/
inductive PlainBody
  | targetGroup (group : TargetGroup)
  | operation (op : ProxyConfigOperation PlainBody)

def plainJson : Json PlainBody where
  listener := fun _ => .error "not a listener"
  listenerImport := fun _ => .error (.json "not a list of listeners")
  targetGroup := ⟨.targetGroup, fun | .targetGroup g => .ok g | _ => .error "not a target group", fun _ => rfl⟩
  targetGroupImport := fun _ => .error (.json "not a list of target groups")
  withName := fun name body => match body with
    | .targetGroup g => .targetGroup { g with name }
    | body => body
  operation := ⟨.operation, fun | .operation op => .ok op | _ => .error "not an operation", fun _ => rfl⟩

end EdgeLb.Api
