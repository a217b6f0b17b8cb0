/-
  EdgeLb.Api.Forward — a write sent to the BACKUP against the same write sent to the MASTER.

  Both end in the same functions on the MASTER, but with two configurations: its own public
  API merges the registered backends in, the peer's path does not. Writes of listeners and
  deletions never look at the backends. A write of target groups is validated against them,
  so it fares alike exactly when the two inventories give it the same verdict.
-/

import EdgeLb.Api.Authority

namespace EdgeLb.Api

open EdgeLb.Config EdgeLb.Lib EdgeLb.Storage EdgeLb.Control

/-! ## What depends on the backends -/

/-- The configuration a write of target groups asks for, when its body reads and its names
    are in order; what is left is to validate it. -/
def candidate {B : Type} (J : Json B) (config : ProxyConfig) : ProxyConfigOperation B → Option ProxyConfig
  | .targetGroupImport body => (J.targetGroupImport body).toOption.bind fun groups => (putGroups [] config groups).toOption
  | .targetGroupCreate body =>
    ((J.targetGroup.decode body).toOption.filter fun group => !isBlank group.name).map fun group => putGroup group config
  | .targetGroupUpdate name body =>
    ((J.targetGroup.decode (J.withName name body)).toOption.filter fun group => !isBlank group.name).map
      fun group => putGroup group config
  | _ => none

section

variable {B P H : Type} [DecidableEq P] {J : Json B} {base : FileConfig} {ha : Option GatewayHaRuntimeConfig}
  {op : ProxyConfigOperation B}

/-- The configuration with other backends, as the public API loads it. -/
def loaded (base : FileConfig) (backendNodes : List BackendNode) (config : ProxyConfig) : FileConfig :=
  withProxy { base with backendNodes } config

/-- The edits an operation comes to under two configurations that differ in the backends
    and in the listeners and groups of the file. -/
inductive Edits (J : Json B) (a b : FileConfig) (config : ProxyConfig) (op : ProxyConfigOperation B) (x y : Edit H) : Prop
  | same (hnone : candidate J config op = none) (heq : x.update config = y.update config)
  | checked (state : ProxyConfig) (context : String) (hsome : candidate J config op = some state)
      (hx : x.update config = checked a context state) (hy : y.update config = checked b context state)

theorem edits_upsert {a b : FileConfig} {config : ProxyConfig} {group : TargetGroup}
    (hop : candidate J config op = ((some group).filter fun group => !isBlank group.name).map fun group => putGroup group config)
    (reply : Reply H) :
    Edits J a b config op ⟨upsertTargetGroup a group, reply⟩ ⟨upsertTargetGroup b group, reply⟩ := by
  by_cases hblank : isBlank group.name = true
  · refine .same (by simp [hop, hblank]) ?_
    simp only [upsertTargetGroup, hblank, if_true]
  · refine .checked (putGroup group config) "invalid target group" (by simp [hop, hblank]) ?_ ?_
    · simp only [upsertTargetGroup, hblank, if_false, Bool.false_eq_true]
    · simp only [upsertTargetGroup, hblank, if_false, Bool.false_eq_true]

theorem edits_import {a b : FileConfig} {config : ProxyConfig} {groups : List TargetGroup}
    (hop : candidate J config op = (putGroups [] config groups).toOption) (reply : Reply H) :
    Edits J a b config op ⟨importTargetGroups a groups, reply⟩ ⟨importTargetGroups b groups, reply⟩ := by
  cases hput : putGroups [] config groups with
  | error r =>
    refine .same (by rw [hop, hput]; rfl) ?_
    simp only [importTargetGroups, hput]
    rfl
  | ok state =>
    refine .checked state "invalid target group import" (by rw [hop, hput]; rfl) ?_ ?_
    · simp only [importTargetGroups, hput]
      rfl
    · simp only [importTargetGroups, hput]
      rfl

/-- Of the configuration a listener's checks read the gateway's address alone. -/
theorem editSnapshot_loaded (backendNodes : List BackendNode) (config state : ProxyConfig) (listener : Listener)
    (operation : ListenerMutation) :
    editSnapshot (loaded base backendNodes config) ha state listener operation =
      editSnapshot base ha state listener operation := rfl

theorem importListeners_loaded (backendNodes : List BackendNode) (config state : ProxyConfig) (names : List String)
    (listeners : List Listener) :
    importListeners (loaded base backendNodes config) ha names state listeners =
      importListeners base ha names state listeners := by
  induction listeners generalizing names state with
  | nil => rfl
  | cons listener rest ih => simp only [importListeners, editSnapshot_loaded, ih]

/-- An operation reads its body without a look at the configuration, and of the rest only
    the writes of target groups depend on the backends. -/
theorem editOf_loaded (J : Json B) (base : FileConfig) (ha : Option GatewayHaRuntimeConfig)
    (backendNodes : List BackendNode) (config : ProxyConfig) (op : ProxyConfigOperation B) :
    (∃ reply : Reply H, reply.accepted = false ∧ candidate J config op = none ∧
      editOf J (loaded base backendNodes config) ha op = .error reply ∧ editOf J base ha op = .error reply) ∨
    ∃ x y : Edit H, x.reply = y.reply ∧ y.reply.accepted = true ∧
      editOf J (loaded base backendNodes config) ha op = .ok x ∧ editOf J base ha op = .ok y ∧
      Edits J (loaded base backendNodes config) base config op x y := by
  cases op with
  | listenerImport body =>
    simp only [editOf, parsedImport]
    cases J.listenerImport body with
    | error e => exact .inl ⟨_, by cases e <;> rfl, rfl, rfl, rfl⟩
    | ok listeners =>
      refine .inr ⟨_, _, ?_, ?_, rfl, rfl, .same rfl (importListeners_loaded backendNodes config config [] _)⟩
      · rfl
      · rfl
  | targetGroupImport body =>
    simp only [editOf, parsedImport]
    cases hbody : J.targetGroupImport body with
    | error e => exact .inl ⟨_, by cases e <;> rfl, by simp only [candidate, hbody]; rfl, rfl, rfl⟩
    | ok groups =>
      have hop : candidate J config (.targetGroupImport body) = (putGroups [] config groups).toOption := by
        simp only [candidate, hbody]
        rfl
      refine .inr ⟨_, _, ?_, ?_, rfl, rfl, edits_import hop _⟩
      · rfl
      · rfl
  | listenerCreate body =>
    simp only [editOf, parsed]
    cases J.listener body with
    | error e => exact .inl ⟨_, rfl, rfl, rfl, rfl⟩
    | ok listener =>
      refine .inr ⟨_, _, ?_, ?_, rfl, rfl, .same rfl (editSnapshot_loaded backendNodes config config _ _)⟩
      · rfl
      · rfl
  | listenerUpdate name body =>
    simp only [editOf, parsed]
    cases J.listener body with
    | error e => exact .inl ⟨_, rfl, rfl, rfl, rfl⟩
    | ok listener =>
      refine .inr ⟨_, _, ?_, ?_, rfl, rfl, .same rfl (editSnapshot_loaded backendNodes config config _ _)⟩
      · rfl
      · rfl
  | listenerDelete name => exact .inr ⟨_, _, rfl, rfl, rfl, rfl, .same rfl rfl⟩
  | targetGroupCreate body =>
    simp only [editOf, parsed]
    cases hbody : J.targetGroup.decode body with
    | error e => exact .inl ⟨_, rfl, by simp only [candidate, hbody]; rfl, rfl, rfl⟩
    | ok group =>
      have hop : candidate J config (.targetGroupCreate body) =
          ((some group).filter fun group => !isBlank group.name).map fun group => putGroup group config := by
        simp only [candidate, hbody]
        rfl
      refine .inr ⟨_, _, ?_, ?_, rfl, rfl, edits_upsert hop _⟩
      · rfl
      · rfl
  | targetGroupUpdate name body =>
    simp only [editOf, parsed]
    cases hbody : J.targetGroup.decode (J.withName name body) with
    | error e => exact .inl ⟨_, rfl, by simp only [candidate, hbody]; rfl, rfl, rfl⟩
    | ok group =>
      have hop : candidate J config (.targetGroupUpdate name body) =
          ((some group).filter fun group => !isBlank group.name).map fun group => putGroup group config := by
        simp only [candidate, hbody]
        rfl
      refine .inr ⟨_, _, ?_, ?_, rfl, rfl, edits_upsert hop _⟩
      · rfl
      · rfl
  | targetGroupDelete name => exact .inr ⟨_, _, rfl, rfl, rfl, rfl, .same rfl rfl⟩

/-! ## The write itself -/

variable {F : Format P H} {cfg : FileConfig} {config : ProxyConfig} {docs : Docs Key P}

omit [DecidableEq P] in
theorem readConfig_hydrated {cfg' : FileConfig} (h : readConfig F cfg docs = .ok config) :
    readConfig F (withProxy cfg' config) docs = .ok config := by
  obtain ⟨listeners, hlisteners, h⟩ := bind_eq_ok.mp h
  obtain ⟨targetGroups, hgroups, h⟩ := bind_eq_ok.mp h
  cases h
  simp only [readConfig, hlisteners, hgroups]
  cases listeners <;> cases targetGroups <;> rfl

omit [DecidableEq P] in
/-- What was stored is read whatever stands in the file. -/
theorem read_loaded {b : Bundle H} (h : read F base docs = .ok b) (backendNodes : List BackendNode) :
    read F (loaded base backendNodes b.config) docs = .ok b := by
  obtain ⟨hconfig, hscope, hsync⟩ := read_eq_ok.mp h
  exact read_eq_ok.mpr ⟨readConfig_hydrated hconfig, hscope, hsync⟩

section

variable (h : Writable F base 1 config docs) (backendNodes : List BackendNode)
include h

omit [DecidableEq P] in
theorem writable_loaded :
    Writable F (loaded base backendNodes config) 1 config docs := by
  obtain ⟨b, hb, rfl, hwriter, hroom⟩ := h
  exact ⟨b, read_loaded hb backendNodes, rfl, hwriter, hroom⟩

/-- Two closures that agree on what is stored leave the same documents. -/
theorem mutate_loaded {u v : Update Unit} (huv : u [] config = v [] config) (at_ : Stamp) :
    mutate F (loaded base backendNodes config) u at_ docs = mutate F base v at_ docs := by
  obtain ⟨b, hb, rfl, -, -⟩ := h
  simp only [mutate, mutatePlan, read_loaded hb, hb, earlierConfigs, List.filterMap_nil, huv]
  rfl

end

/-- The same answer and the same documents. -/
def SameEffect (x y : Docs Key P × Reply H) : Prop := x.2.accepted = y.2.accepted ∧ x.1 = y.1

/-- Two edits with one reply have the same effect when both are made or neither is. -/
theorem invokeLocal_sameEffect {ha : Option GatewayHaRuntimeConfig} (hha : (loadHa F docs).toOption = ha)
    {backendNodes : List BackendNode} {x y : Edit H}
    (hx : editOf J (loaded base backendNodes config) ha op = .ok x) (hy : editOf J base ha op = .ok y)
    (hreply : x.reply = y.reply) (haccepted : y.reply.accepted = true) (hstore : Writable F base 1 config docs)
    (hsame : ∀ s t, x.update config = .ok s → y.update config = .ok t → s = t) (at_ : Stamp) :
    SameEffect (invokeLocal F J (loaded base backendNodes config) at_ op docs) (invokeLocal F J base at_ op docs) ↔
      ((∃ s, x.update config = .ok s) ↔ ∃ t, y.update config = .ok t) := by
  subst hha
  have hstore' := writable_loaded hstore backendNodes
  cases hxu : x.update config with
  | ok s =>
    rw [invokeLocal_accepted hx hstore' hxu]
    cases hyu : y.update config with
    | ok t =>
      obtain rfl := hsame s t hxu hyu
      have hclosures : x.closure [] config = y.closure [] config := by simp only [Edit.closure, hxu, hyu]
      rw [invokeLocal_accepted hy hstore hyu]
      simp [SameEffect, hreply, mutate_loaded hstore backendNodes hclosures]
    | error r =>
      rw [invokeLocal_rejected hy hstore hyu]
      simp [SameEffect, hreply, haccepted, mutationError_not_accepted (H := H) (editOf_rejects hy hyu)]
  | error r =>
    rw [invokeLocal_rejected hx hstore' hxu]
    have hr := mutationError_not_accepted (H := H) (editOf_rejects hx hxu)
    cases hyu : y.update config with
    | ok t =>
      rw [invokeLocal_accepted hy hstore hyu]
      simp [SameEffect, haccepted, hr]
    | error r' =>
      rw [invokeLocal_rejected hy hstore hyu]
      simp [SameEffect, hr, mutationError_not_accepted (H := H) (editOf_rejects hy hyu)]

/-- Two inventories agree on a write: the configuration it asks for fits both or neither,
    unless it is refused for another reason. -/
def SameVerdict (J : Json B) (base other : FileConfig) (config : ProxyConfig) (op : ProxyConfigOperation B) : Prop :=
  ∀ state, candidate J config op = some state → (withProxy base state).Sound →
    (InventoryFits other state.targetGroups ↔ InventoryFits base state.targetGroups)

theorem sound_loaded {backendNodes : List BackendNode} {state : ProxyConfig} :
    (withProxy (loaded base backendNodes config) state).Sound ↔ (withProxy base state).Sound :=
  ⟨fun h => ⟨h.settings, h.endpoints, h.groups, h.names, h.listeners, h.capacity⟩,
    fun h => ⟨h.settings, h.endpoints, h.groups, h.names, h.listeners, h.capacity⟩⟩

theorem invokeLocal_loaded (hrole : base.nodeRole = .gateway) (hstore : Writable F base 1 config docs)
    (backendNodes : List BackendNode) (op : ProxyConfigOperation B) (at_ : Stamp) :
    SameEffect (invokeLocal F J (loaded base backendNodes config) at_ op docs) (invokeLocal F J base at_ op docs) ↔
      SameVerdict J base { base with backendNodes } config op := by
  rcases editOf_loaded (H := H) J base (loadHa F docs).toOption backendNodes config op with
    ⟨reply, -, hnone, hx, hy⟩ | ⟨x, y, hreply, haccepted, hx, hy, hedits⟩
  · have hvacuous : SameVerdict J base { base with backendNodes } config op := fun state hsome => by
      rw [hnone] at hsome
      cases hsome
    simp [SameEffect, invokeLocal, hx, hy, hvacuous]
  cases hedits with
  | same hnone heq =>
    have hvacuous : SameVerdict J base { base with backendNodes } config op := fun state hsome => by
      rw [hnone] at hsome
      cases hsome
    rw [invokeLocal_sameEffect rfl hx hy hreply haccepted hstore
      (fun s t hs ht => Except.ok.inj (hs.symm.trans (heq.trans ht)))]
    simp [heq, hvacuous]
  | checked state context hsome hxu hyu =>
    have hrole' : (loaded base backendNodes config).nodeRole = .gateway := hrole
    have hmade (a : FileConfig) (ha : a.nodeRole = .gateway) : (∃ s, checked a context state = .ok s) ↔
        (withProxy a state).Sound ∧ InventoryFits a state.targetGroups := by
      simp [checked_eq_ok ha]
    have hfits : InventoryFits (loaded base backendNodes config) state.targetGroups ↔
        InventoryFits { base with backendNodes } state.targetGroups := Iff.rfl
    rw [invokeLocal_sameEffect rfl hx hy hreply haccepted hstore (fun s t hs ht => ?_), hxu, hyu, hmade _ hrole',
      hmade _ hrole, sound_loaded, hfits]
    · constructor
      · intro h other hother hsound
        obtain rfl := Option.some.inj (hsome.symm.trans hother)
        simpa [hsound] using h
      · intro h
        exact and_congr_right fun hsound => h state hsome hsound
    · rw [hxu] at hs
      rw [hyu] at ht
      exact ((checked_eq_ok hrole').mp hs).1.symm.trans ((checked_eq_ok hrole).mp ht).1

/-! ## The two ways in -/

theorem eq_of_shell_eq {a b : FileConfig} (h : a.shell = b.shell) : a = { b with backendNodes := a.backendNodes } := by
  have hfill : a = { a.shell with backendNodes := a.backendNodes } := rfl
  rw [hfill, h]
  rfl

/-- A public write on the MASTER is applied under the merged and hydrated configuration. -/
theorem handle_write {master : Gateway P} {req : Request B} (hroute : route req = .write op)
    (hbase : (master.base F).Settled) (hstore : Writable F (master.base F) 1 config master.docs)
    {standby : Option GatewayHaPeer} (hmaster : writeRole F (master.base F) master.docs = .ok (.localMaster standby))
    (now : Nat) (at_ : Stamp) :
    let merged := (mergeInto now (master.base F) master.registry).2
    let cfg := loaded (master.base F) merged.1.backendNodes config
    handle F J now at_ req master =
      ({ master with registry := merged.2, docs := (applyAsMaster F J cfg at_ op standby master.docs).1 },
        .reply (applyAsMaster F J cfg at_ op standby master.docs).2) := by
  intro merged cfg
  obtain ⟨b, hb, rfl, -, -⟩ := hstore
  have hmerged := eq_of_shell_eq (merge_shell hbase master.registry now)
  have hload : loadProxyConfig F merged.1 master.docs = .ok b.config :=
    loadProxyConfig_of_readConfig (read_eq_ok.mp hb).1 (by rw [hmerged]) (by rw [hmerged])
  have hcfg : withProxy merged.1 b.config = cfg := by rw [hmerged]; rfl
  have hloaded : loadConfig F (loadOptions req.method req.path) now master = (merged.2, .ok cfg) := by
    simp only [loadConfig, loadOptions_write hroute, hbase.role, if_true]
    rw [hload, ← hcfg]
    rfl
  have hrole : cfg.nodeRole = .gateway := hbase.role
  have hwrite : writeRole F cfg master.docs = .ok (.localMaster standby) := hmaster
  simp only [handle, hloaded, hroute, applyPublic, hrole, ne_eq, not_true_eq_false, if_false, applyAuthoritative, hwrite]
  rfl

theorem route_peerRequest (J : Json B) (op : ProxyConfigOperation B) : route (peerRequest J op) = .peerActive := by
  have hv1 : startsWith (splitPathQuery "/api/v1/ha/peer/proxy-config/active") "/api/v1/" = true := by decide
  have hpath : canonicalPath (splitPathQuery "/api/v1/ha/peer/proxy-config/active") =
      some "/api/ha/peer/proxy-config/active" := by decide
  simp [route, peerRequest, hv1, hpath, operationOf]

/-- The same write handed over is applied under the configuration of the file. -/
theorem handle_peerRequest {master : Gateway P} (hbase : (master.base F).Settled) {standby : Option GatewayHaPeer}
    (hmaster : writeRole F (master.base F) master.docs = .ok (.localMaster standby)) (op : ProxyConfigOperation B)
    (now : Nat) (at_ : Stamp) :
    handle F J now at_ (peerRequest J op) master =
      ({ master with docs := (applyAsMaster F J (master.base F) at_ op standby master.docs).1 },
        .reply (applyAsMaster F J (master.base F) at_ op standby master.docs).2) := by
  have hloaded : loadConfig F (loadOptions (peerRequest J op).method (peerRequest J op).path) now master =
      (master.registry, .ok (master.base F)) := by
    simp only [loadConfig, loadOptions_peerActive (route_peerRequest J op), hbase.role, if_true]
    rfl
  have hbody : J.operation.decode (peerRequest J op).body = .ok op := J.operation.decode_encode op
  simp only [handle, hloaded, route_peerRequest, peerApplyActive, hbody, hmaster]

/-- What a node hands over is the write it was asked for. -/
theorem forward_peerRequest {backup : Gateway P} {req fwd : Request B} (hroute : route req = .write op) {now : Nat}
    {at_ : Stamp} {peer : GatewayHaPeer} (h : (handle F J now at_ req backup).2 = .forward peer fwd) :
    fwd = peerRequest J op := by
  unfold handle at h
  dsimp only at h
  split at h
  · cases h
  next cfg hcfg =>
    rw [hroute] at h
    simp only [applyPublic] at h
    split at h
    · cases h
    unfold applyAuthoritative at h
    split at h
    · cases h
    · cases h
      rfl
    · cases h

end

/-! ## A pair of gateways -/

def gatewayFile (name : String) (ip : UInt32) : FileConfig :=
  { nodeRole := .gateway, nodeName := name, publicIp := .v4 ip, underlayIp := .v4 ip
    network := { gatewayPublicIp := .v4 ip, gatewayIp := .v4 ip, vxlanDev := "edge-hub" }
    gatewayNodes := [⟨"gateway-a", .v4 0xc000020b, .v4 0xc000020b, "10.255.255.1/24"⟩,
      ⟨"gateway-b", .v4 0xc000020c, .v4 0xc000020c, "10.255.255.1/24"⟩] }

def peerA : GatewayHaPeer := { name := "gateway-a", underlayIp := "192.0.2.11" }

def peerB : GatewayHaPeer := { name := "gateway-b", underlayIp := "192.0.2.12" }

/-- Paired, with the first gateway active and nothing stored. -/
def pairDocs (peer : GatewayHaPeer) : Docs Key Payload
  | .ha => some ⟨.ha { enabled := true, peers := [peer] }, 1, "t1"⟩
  | .haPeerSecret => some ⟨.secret ⟨peer.name, peer.underlayIp, "token", "pairing-1"⟩, 2, "t1"⟩
  | .haActiveGateway => some ⟨.text "gateway-a", 3, "t1"⟩
  | _ => none

/-- One backend has subscribed to the MASTER. -/
def gatewayA : Gateway Payload :=
  { file := gatewayFile "gateway-a" 0xc000020b
    registry := upsert { nodeName := "backend-a", underlayIp := "192.0.2.21" } none "stream-1" 100 {}
    docs := pairDocs peerB }

def gatewayB : Gateway Payload := { file := gatewayFile "gateway-b" 0xc000020c, docs := pairDocs peerA }

def createWeb : Request PlainBody :=
  { method := .post, path := "/api/v1/target-groups"
    body := .targetGroup { name := "web", targets := [{ backend := some "backend-a", address := .v4 0xc0000215 }] } }

def deleteWeb : Request PlainBody :=
  { method := .delete, path := "/api/v1/target-groups/web", body := .targetGroup { name := "" } }

end EdgeLb.Api
