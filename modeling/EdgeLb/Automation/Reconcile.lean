/-
  EdgeLb.Automation.Reconcile — the target groups that templates generate
  (`automation_nodes`, `planned_target_group` and `reconcile_templates` of
  `edge-lb/src/api/handlers/automations.rs`).

  The loop plans the group of each enabled template from the backends registered now and
  writes it when no stored group equals it. Each write goes through the public check of a
  target group, which validates all stored groups against the current inventory. So the
  first write decides: when every other stored group still names known backends, all plans
  are written; otherwise the loop stops and every stale group stays.

  The registry does not change and time does not pass during a run, so the nodes are
  computed once.
-/

import Mathlib.Data.List.Find
import EdgeLb.Lib.Settle
import EdgeLb.Automation.Template
import EdgeLb.Api.Authority
import EdgeLb.Api.Commits

namespace EdgeLb.Automation

open EdgeLb.Config EdgeLb.Lib EdgeLb.Storage EdgeLb.Control EdgeLb.Api

/-! ## The registered backends -/

def subscriptionForBackend (subs : SortedMap String ActiveBackendSubscription) (node : BackendNode) :
    Option ActiveBackendSubscription :=
  (subs.get? node.name).or (subs.values.find? fun sub => showIp sub.underlayIp = showIp node.underlayIp)

/-- The backend's name in the configuration: by name, by underlay address, by public address. -/
def canonicalBackendName (backends : List BackendNode) (node : BackendNode) : Option String :=
  let byName := backends.find? fun b => b.name = node.name
  let byUnderlay := backends.find? fun b => b.underlayIp = node.underlayIp
  let byPublic := if node.publicIp.isUnspecified then none else backends.find? fun b => b.publicIp = node.publicIp
  (byName.or (byUnderlay.or byPublic)).map (·.name)

def matchedNodeFromBackend (name : String) (publicIp underlayIp : IpAddr) (publicIpSource underlayIpSource : Option String) :
    Option MatchedNode :=
  match underlayIp with
  | .v6 _ => none
  | .v4 bits =>
    if bits = 0 then none
    else some { name, underlayIp := showIp (.v4 bits)
                publicIp := if publicIp.isUnspecified then "auto" else showIp publicIp
                underlayIpSource, publicIpSource }

def automationNodes (now : Nat) (cfg : FileConfig) (reg : BackendRegistry) : List MatchedNode :=
  let (nodes, reg) := activeBackendNodes now cfg reg
  nodes.filterMap fun node =>
    let sub := subscriptionForBackend reg.subscriptions node
    let name := (canonicalBackendName cfg.backendNodesEffective node).getD node.name
    matchedNodeFromBackend name node.publicIp node.underlayIp (sub.map (·.publicIpSource)) (sub.map (·.underlayIpSource))

/-! ## The loop -/

inductive ReconcileError (H : Type)
  | plan (template error : String)
  | write (group : String) (reply : Reply H)

section

variable {B P H : Type} [DecidableEq P]

/-- Where the answer to a write comes from: this node, or the peer it is handed to. -/
def answer (send : GatewayHaPeer → Request B → Reply H) : Outcome B H → Reply H
  | .reply r => r
  | .forward peer req => send peer req
  | _ => .error 500 ""

def groupNamed (groups : List TargetGroup) (name : String) : Option TargetGroup :=
  groups.find? fun group => group.name = name

def plannedTargetGroup (regex : String → String → Except String Bool) (nodes : List MatchedNode)
    (groups : List TargetGroup) (template : AutomationTemplate) : Except String TargetGroup :=
  plannedTargetGroupForNodes regex template nodes (groupNamed groups template.targetGroup.name)

variable (F : Format P H) (J : Json B) (regex : String → String → Except String Bool)
  (send : GatewayHaPeer → Request B → Reply H) (cfg : FileConfig) (nodes : List MatchedNode)

/-- One enabled template: whether its group was written. -/
def reconcileTemplate (current : List TargetGroup) (at_ : Stamp) (docs : Docs Key P) (template : AutomationTemplate) :
    Docs Key P × Except (ReconcileError H) Bool :=
  match (loadProxyConfig F cfg docs) >>= fun stored => plannedTargetGroup regex nodes stored.targetGroups template with
  | .error e => (docs, .error (.plan template.name e))
  | .ok group =>
    if group ∈ current then (docs, .ok false)
    else
      match applyAuthoritative F J cfg at_ (.targetGroupCreate (J.targetGroup.encode group)) docs with
      | (docs, outcome) =>
        let reply := answer send outcome
        if reply.accepted then (docs, .ok true) else (docs, .error (.write group.name reply))

/-- The templates in order, each write under a stamp of its own; the first failure ends it. -/
def reconcileFrom (current : List TargetGroup) (stamp : Nat → Stamp) (applied : Bool) (docs : Docs Key P) :
    List AutomationTemplate → Docs Key P × Except (ReconcileError H) Bool
  | [] => (docs, .ok applied)
  | template :: rest =>
    if !template.enabled then reconcileFrom current stamp applied docs rest
    else
      match reconcileTemplate F J regex send cfg nodes current (stamp rest.length) docs template with
      | (docs, .ok written) => reconcileFrom current stamp (applied || written) docs rest
      | (docs, .error e) => (docs, .error e)

def reconcileTemplates (stamp : Nat → Stamp) (docs : Docs Key P) (config : AutomationConfig) :
    Docs Key P × Except (ReconcileError H) Bool :=
  let current := ((loadProxyConfig F cfg docs).toOption.map (·.targetGroups)).getD []
  reconcileFrom F J regex send cfg nodes current stamp false docs config.templates

end

/-! ## The nodes are usable -/

/-- Right after a merge every node has an address that reads and a name of the inventory. -/
theorem automationNodes_usable {base : FileConfig} {reg : BackendRegistry} (hsettled : base.Settled)
    (hreg : reg.Inv (gatewayUnderlays base)) (now : Nat) :
    let merged := (mergeInto now base reg).2
    ∀ node ∈ automationNodes now merged.1 merged.2, node.Usable merged.1.backendNodesEffective := by
  intro merged node hnode
  obtain ⟨backend, hbackend, hmatched⟩ := List.mem_filterMap.mp hnode
  obtain ⟨-, known, hknown, hname⟩ := active_in_merged hsettled hreg now hbackend
  have hinventory : merged.1.backendNodesEffective = merged.1.backendNodes := by
    have hne : merged.1.backendNodes.isEmpty = false := by
      rw [List.isEmpty_eq_false_iff]
      exact List.ne_nil_of_mem hknown
    simp [FileConfig.backendNodesEffective, hne]
  -- the inventory has the backend under its own name
  obtain ⟨found, hfound⟩ : ∃ b, merged.1.backendNodesEffective.find? (fun b => b.name = backend.name) = some b := by
    rw [← Option.isSome_iff_exists, List.find?_isSome, hinventory]
    exact ⟨known, hknown, by simpa using hname⟩
  have hcanonical : canonicalBackendName merged.1.backendNodesEffective backend = some found.name := by
    simp [canonicalBackendName, hfound]
  dsimp only at hmatched
  unfold matchedNodeFromBackend at hmatched
  split at hmatched
  · cases hmatched
  next bits _ =>
    split at hmatched
    · cases hmatched
    next hzero =>
      cases hmatched
      refine ⟨⟨.v4 bits, parseIp_showIp bits, by simpa [IpAddr.isUnspecified] using hzero⟩, ?_⟩
      simp only [hcanonical, Option.getD_some]
      exact List.any_eq_true.mpr ⟨found, List.mem_of_find?_eq_some hfound, by simp⟩

/-! ## Stored groups -/

/-- What every accepted write leaves of the groups. -/
structure GroupsOk (config : ProxyConfig) : Prop where
  wellFormed : ∀ group ∈ config.targetGroups, group.WellFormed
  names : (config.targetGroups.map (·.name)).Nodup

section

variable {config : ProxyConfig} (h : GroupsOk config) {group other : TargetGroup}
include h

theorem mem_putGroup :
    other ∈ (putGroup group config).targetGroups ↔ other = group ∨ (other ∈ config.targetGroups ∧ other.name ≠ group.name) :=
  mem_upsertBy h.names

/-- A write leaves the groups of other names. -/
theorem mem_putGroup_of_ne (hne : other.name ≠ group.name) :
    other ∈ (putGroup group config).targetGroups ↔ other ∈ config.targetGroups := by
  rw [mem_putGroup h]
  constructor
  · rintro (rfl | ⟨hmem, -⟩)
    · exact absurd rfl hne
    · exact hmem
  · exact fun hmem => .inr ⟨hmem, hne⟩

theorem putGroup_ok (hgroup : group.WellFormed) : GroupsOk (putGroup group config) := by
  refine ⟨fun g hg => ?_, nodup_upsertBy h.names⟩
  rcases (mem_putGroup h).mp hg with rfl | ⟨hmem, -⟩
  · exact hgroup
  · exact h.wellFormed g hmem

end

/-! ## When a plan is accepted -/

/-- Everything passes under the current inventory, the group of this name aside. -/
structure Admits (cfg : FileConfig) (config : ProxyConfig) (name : String) : Prop where
  settings : validateSettings cfg = .ok ()
  endpoints : validateEndpoints cfg = .ok ()
  inventory : validateInventory cfg = .ok ()
  others : ∀ group ∈ config.targetGroups, group.name ≠ name → group.Known cfg.backendNodesEffective
  listeners : eachAfter (validateListener (putGroup { name } config).targetGroups) [] config.listeners = .ok ()
  capacity : validateConsistentHashListenerCapacity (withProxy cfg config) configuredListenerExpansionCount = .ok ()

section

variable {cfg : FileConfig} {config : ProxyConfig} {group : TargetGroup}

/-- Groups of the same names are the same to a listener. -/
theorem putGroup_names (group other : TargetGroup) (hname : group.name = other.name) (config : ProxyConfig) :
    ∀ name ∈ (putGroup group config).targetGroups.map (·.name), name ∈ (putGroup other config).targetGroups.map (·.name) := by
  intro name hmem
  rw [putGroup, mem_map_upsertBy] at hmem ⊢
  rwa [← hname]

theorem validate_putGroup (hrole : cfg.nodeRole = .gateway) (hok : GroupsOk config) (hgroup : group.WellFormed)
    (hknown : group.Known cfg.backendNodesEffective) :
    (withProxy cfg (putGroup group config)).validate = .ok () ↔ Admits cfg config group.name := by
  have hmem {g : TargetGroup} : g ∈ (putGroup group config).targetGroups ↔ _ := mem_putGroup hok
  rw [@validate_eq_ok (withProxy cfg (putGroup group config)) hrole]
  constructor
  · rintro ⟨hsound, hinventory, hall⟩
    refine ⟨hsound.settings, hsound.endpoints, hinventory, fun g hg hne => hall g (hmem.mpr (.inr ⟨hg, hne⟩)), ?_,
      hsound.capacity⟩
    exact validateListeners_mono (putGroup_names group { name := group.name } rfl config) hsound.listeners
  · intro h
    have hok' := putGroup_ok hok hgroup
    refine ⟨⟨h.settings, h.endpoints, hok'.wellFormed, hok'.names, ?_, h.capacity⟩, h.inventory, fun g hg => ?_⟩
    · exact validateListeners_mono (putGroup_names { name := group.name } group rfl config) h.listeners
    · rcases hmem.mp hg with rfl | ⟨hg, hne⟩
      · exact hknown
      · exact h.others g hg hne

/-- A configuration that is valid as it stands admits any group. -/
theorem admits_of_valid (hrole : cfg.nodeRole = .gateway) (h : (withProxy cfg config).validate = .ok ()) (name : String) :
    Admits cfg config name := by
  obtain ⟨hsound, hinventory, hall⟩ := (@validate_eq_ok (withProxy cfg config) hrole).mp h
  refine ⟨hsound.settings, hsound.endpoints, hinventory, fun g hg _ => hall g hg, ?_, hsound.capacity⟩
  refine validateListeners_mono (fun n hn => ?_) hsound.listeners
  rw [putGroup, mem_map_upsertBy]
  exact .inr hn

end

def accepts (cfg : FileConfig) (config : ProxyConfig) : Bool := (withProxy cfg config).validate = .ok ()

/-! ## One template -/

section

variable {B P H : Type} [DecidableEq P] {F : Format P H} {J : Json B} {regex : String → String → Except String Bool}
  {send : GatewayHaPeer → Request B → Reply H} {cfg : FileConfig} {nodes : List MatchedNode}

omit [DecidableEq P] in
theorem load_of_writable {room : Nat} {config : ProxyConfig} {docs : Docs Key P} (h : Writable F cfg room config docs) :
    loadProxyConfig F cfg docs = .ok config := by
  obtain ⟨b, hb, rfl, -, -⟩ := h
  exact loadProxyConfig_of_readConfig (read_eq_ok.mp hb).1 rfl rfl

omit [DecidableEq P] in
theorem writable_mono {room room' : Nat} (hle : room ≤ room') {config : ProxyConfig} {docs : Docs Key P}
    (h : Writable F cfg room' config docs) : Writable F cfg room config docs := by
  obtain ⟨b, hb, hconfig, hwriter, hroom⟩ := h
  exact ⟨b, hb, hconfig, hwriter, by omega⟩

omit [DecidableEq P] in
/-- The role is read from the HA documents alone. -/
theorem writeRole_sameRole {docs docs' : Docs Key P} (h : SameRole docs docs') : writeRole F cfg docs' = writeRole F cfg docs := by
  obtain ⟨hha, -, hactive⟩ := h
  have hload : loadHa F docs' = loadHa F docs := by
    unfold loadHa
    rw [hha]
  have hgateway : activeGateway F cfg docs' = activeGateway F cfg docs := by
    unfold activeGateway
    rw [hload, hactive]
  unfold writeRole activeGatewayIsLocal
  rw [hload, hgateway]

variable {group : TargetGroup}

omit [DecidableEq P] in
/-- The edit that writes a planned group. -/
theorem editOf_group (cfg : FileConfig) (J : Json B) (F : Format P H) (config : ProxyConfig)
    (hgroup : group.WellFormed) (docs : Docs Key P) :
    ∃ edit : Edit H, editOf J cfg (loadHa F docs).toOption (.targetGroupCreate (J.targetGroup.encode group)) = .ok edit ∧
      edit.reply.accepted = true ∧ edit.update config = checked cfg "invalid target group" (putGroup group config) := by
  refine ⟨⟨upsertTargetGroup cfg group, { status := 200, body := .targetGroup group }⟩, ?_, rfl, ?_⟩
  · simp only [editOf, J.targetGroup.decode_encode]
    rfl
  · simp only [upsertTargetGroup, hgroup.name, Bool.false_eq_true, if_false]

/-- The MASTER answers a write itself. -/
theorem applyAuthoritative_master (J : Json B) {docs : Docs Key P} {standby : Option GatewayHaPeer}
    (hmaster : writeRole F cfg docs = .ok (.localMaster standby)) (op : ProxyConfigOperation B) (at_ : Stamp) :
    applyAuthoritative F J cfg at_ op docs =
      ((applyAsMaster F J cfg at_ op standby docs).1, .reply (applyAsMaster F J cfg at_ op standby docs).2) := by
  simp only [applyAuthoritative, hmaster]
  rfl

/-- The MASTER writes a planned group when the result is valid. -/
theorem applyAsMaster_group (J : Json B) (standby : Option GatewayHaPeer) {room : Nat} {config : ProxyConfig}
    {docs : Docs Key P} (hstore : Writable F cfg (room + 1) config docs) (hgroup : group.WellFormed)
    (hvalid : (withProxy cfg (putGroup group config)).validate = .ok ()) (at_ : Stamp) :
    let x := applyAsMaster F J cfg at_ (.targetGroupCreate (J.targetGroup.encode group)) standby docs
    x.2.accepted = true ∧ Writable F cfg room (putGroup group config) x.1 ∧ SameRole docs x.1 := by
  intro x
  obtain ⟨edit, hedit, haccepted, hupdate⟩ := editOf_group cfg J F config hgroup docs
  have hok : edit.update config = .ok (putGroup group config) := by
    rw [hupdate]
    simp only [checked, hvalid]
  obtain ⟨docs', hinvoke, hwritable, hrole⟩ := invokeLocal_commits hedit hstore hok at_
  simp only [x, applyAsMaster_accepted, applyAsMaster_docs, hinvoke]
  exact ⟨haccepted, hwritable, hrole⟩

/-- Otherwise it stops. -/
theorem applyAsMaster_group_refused (J : Json B) (standby : Option GatewayHaPeer) {room : Nat} {config : ProxyConfig}
    {docs : Docs Key P} (hstore : Writable F cfg room config docs) (hgroup : group.WellFormed)
    (hinvalid : (withProxy cfg (putGroup group config)).validate ≠ .ok ()) (at_ : Stamp) :
    let x := applyAsMaster F J cfg at_ (.targetGroupCreate (J.targetGroup.encode group)) standby docs
    x.2.accepted = false ∧ x.1 = docs := by
  intro x
  obtain ⟨edit, hedit, -, hupdate⟩ := editOf_group cfg J F config hgroup docs
  obtain ⟨r, hr⟩ : ∃ r, edit.update config = .error r := by
    rw [hupdate]
    cases hv : (withProxy cfg (putGroup group config)).validate with
    | ok u => exact absurd hv hinvalid
    | error e =>
      simp only [checked, hv]
      exact ⟨_, rfl⟩
  have hinvoke := invokeLocal_rejected hedit hstore hr at_
  simp only [x, applyAsMaster_accepted, applyAsMaster_docs, hinvoke]
  exact ⟨mutationError_not_accepted (editOf_rejects hedit hr), trivial⟩

/-- No stored group is what the template plans. -/
def stale (regex : String → String → Except String Bool) (nodes : List MatchedNode) (groups : List TargetGroup)
    (template : AutomationTemplate) : Bool :=
  !groups.any fun group => plannedTargetGroup regex nodes groups template = .ok group

/-- What the loop knows at each template: the store can be written here, and its groups are
    in order. -/
structure Ready (F : Format P H) (cfg : FileConfig) (standby : Option GatewayHaPeer) (room : Nat) (config : ProxyConfig)
    (docs : Docs Key P) : Prop where
  writable : Writable F cfg room config docs
  master : writeRole F cfg docs = .ok (.localMaster standby)
  groups : GroupsOk config

variable {standby : Option GatewayHaPeer} {room : Nat} {config : ProxyConfig} {docs : Docs Key P}
  {current : List TargetGroup} {template : AutomationTemplate} {group : TargetGroup}

section

variable (h : Ready F cfg standby room config docs)
  (hplan : plannedTargetGroup regex nodes config.targetGroups template = .ok group)
include h hplan

omit [DecidableEq P] in
theorem load_planned :
    (loadProxyConfig F cfg docs >>= fun stored => plannedTargetGroup regex nodes stored.targetGroups template) = .ok group :=
  bind_eq_ok.mpr ⟨config, load_of_writable h.writable, hplan⟩

theorem reconcileTemplate_current (hcurrent : group ∈ current) (at_ : Stamp) :
    reconcileTemplate F J regex send cfg nodes current at_ docs template = (docs, .ok false) := by
  simp only [reconcileTemplate, load_planned h hplan, hcurrent, if_true]

end

section

variable (J : Json B) (send : GatewayHaPeer → Request B → Reply H)
  (hplan : plannedTargetGroup regex nodes config.targetGroups template = .ok group) (hcurrent : group ∉ current)
  (hgroup : group.WellFormed)
include hplan hcurrent hgroup

theorem reconcileTemplate_writes (h : Ready F cfg standby (room + 1) config docs)
    (hvalid : accepts cfg (putGroup group config) = true) (at_ : Stamp) :
    ∃ docs', reconcileTemplate F J regex send cfg nodes current at_ docs template = (docs', .ok true) ∧
      Ready F cfg standby room (putGroup group config) docs' := by
  obtain ⟨haccepted, hwritable, hsame⟩ :=
    applyAsMaster_group J standby h.writable hgroup (of_decide_eq_true hvalid) at_
  refine ⟨_, ?_, hwritable, (writeRole_sameRole hsame).trans h.master, putGroup_ok h.groups hgroup⟩
  simp only [reconcileTemplate, load_planned h hplan, hcurrent, if_false, applyAuthoritative_master J h.master, answer,
    haccepted, if_true]

theorem reconcileTemplate_refused (h : Ready F cfg standby room config docs)
    (hinvalid : accepts cfg (putGroup group config) = false) (at_ : Stamp) :
    ∃ e, reconcileTemplate F J regex send cfg nodes current at_ docs template = (docs, .error e) := by
  obtain ⟨haccepted, hdocs⟩ :=
    applyAsMaster_group_refused J standby h.writable hgroup (of_decide_eq_false hinvalid) at_
  simp only [reconcileTemplate, load_planned h hplan, hcurrent, if_false, applyAuthoritative_master J h.master, answer,
    haccepted, Bool.false_eq_true, hdocs]
  exact ⟨_, rfl⟩

end

/-! ## The whole run -/

omit [DecidableEq P] in
theorem mem_groups_of_named {groups : List TargetGroup} {name : String} (h : groupNamed groups name = some group) :
    group ∈ groups ∧ group.name = name := by
  refine ⟨List.mem_of_find?_eq_some h, ?_⟩
  simpa using List.find?_some h

theorem groupNamed_eq_some {groups : List TargetGroup} (hnames : (groups.map (·.name)).Nodup) {name : String} :
    groupNamed groups name = some group ↔ group ∈ groups ∧ group.name = name :=
  ⟨mem_groups_of_named, fun ⟨hmem, hname⟩ => find?_key_of_mem hnames hmem hname⟩

/-- A plan depends on the stored group of the template's name alone. -/
theorem plannedTargetGroup_congr {groups groups' : List TargetGroup} (hnames : (groups.map (·.name)).Nodup)
    (hnames' : (groups'.map (·.name)).Nodup)
    (hsame : ∀ g : TargetGroup, g.name = template.targetGroup.name → (g ∈ groups' ↔ g ∈ groups)) :
    plannedTargetGroup regex nodes groups' template = plannedTargetGroup regex nodes groups template := by
  have hnamed : groupNamed groups' template.targetGroup.name = groupNamed groups template.targetGroup.name := by
    apply Option.ext
    intro g
    rw [groupNamed_eq_some hnames, groupNamed_eq_some hnames']
    constructor
    · rintro ⟨hmem, hname⟩
      exact ⟨(hsame g hname).mp hmem, hname⟩
    · rintro ⟨hmem, hname⟩
      exact ⟨(hsame g hname).mpr hmem, hname⟩
  unfold plannedTargetGroup
  rw [hnamed]

/-- Every template of a normal form has a plan, and the checks of a group accept it. -/
theorem exists_plan (hnodes : ∀ node ∈ nodes, node.Usable cfg.backendNodesEffective) (hok : GroupsOk config)
    (hnormal : template.targetGroup.Normal) (regex : String → String → Except String Bool) :
    ∃ group, plannedTargetGroup regex nodes config.targetGroups template = .ok group ∧
      group.name = template.targetGroup.name ∧ group.WellFormed ∧ group.Known cfg.backendNodesEffective := by
  obtain ⟨group, hgroup⟩ : ∃ group, plannedTargetGroup regex nodes config.targetGroups template = .ok group :=
    exists_planned hnodes
  have hexisting : ∀ old, groupNamed config.targetGroups template.targetGroup.name = some old → old.WellFormed :=
    fun old hold => hok.wellFormed old (mem_groups_of_named hold).1
  exact ⟨group, hgroup, planned_wellFormed hnormal hnodes hexisting hgroup⟩

theorem stale_iff (hplan : plannedTargetGroup regex nodes config.targetGroups template = .ok group) :
    stale regex nodes config.targetGroups template = true ↔ group ∉ config.targetGroups := by
  simp only [stale, hplan, Except.ok.injEq, Bool.not_eq_true', List.any_eq_false, decide_eq_true_eq]
  exact ⟨fun h hmem => h group hmem rfl, fun h g hg heq => h (heq ▸ hg)⟩

/-- The templates as they come out of saving. -/
structure Saved (templates : List AutomationTemplate) : Prop where
  normal : ∀ t ∈ templates, t.targetGroup.Normal
  names : (templates.map (·.targetGroup.name)).Nodup

theorem Saved.tail {t : AutomationTemplate} {ts : List AutomationTemplate} (h : Saved (t :: ts)) :
    Saved ts ∧ t.targetGroup.name ∉ ts.map (·.targetGroup.name) := by
  obtain ⟨hnot, hnames⟩ := List.nodup_cons.mp h.names
  exact ⟨⟨fun t' ht' => h.normal t' (List.mem_cons_of_mem t ht'), hnames⟩, hnot⟩

/-- The first enabled template whose plan is not stored. -/
def firstStale (regex : String → String → Except String Bool) (nodes : List MatchedNode) (groups : List TargetGroup)
    (templates : List AutomationTemplate) : Option AutomationTemplate :=
  templates.find? fun t => t.enabled && stale regex nodes groups t

variable {config' : ProxyConfig} {t : AutomationTemplate} {ts : List AutomationTemplate}

/-- The groups the loop compares with are, for the templates still to come, the stored ones. -/
def CurrentFor (current : List TargetGroup) (config : ProxyConfig) (templates : List AutomationTemplate) : Prop :=
  ∀ t ∈ templates, ∀ g : TargetGroup, g.name = t.targetGroup.name → (g ∈ current ↔ g ∈ config.targetGroups)

theorem CurrentFor.tail (h : CurrentFor current config (t :: ts)) : CurrentFor current config ts :=
  fun t' ht' => h t' (List.mem_cons_of_mem t ht')

theorem CurrentFor.written (h : CurrentFor current config (t :: ts)) (hok : GroupsOk config)
    (hnot : t.targetGroup.name ∉ ts.map (·.targetGroup.name)) (hname : group.name = t.targetGroup.name) :
    CurrentFor current (putGroup group config) ts := by
  intro t' ht' g hg
  rw [h.tail t' ht' g hg]
  refine (mem_putGroup_of_ne hok ?_).symm
  rw [hname, hg]
  exact fun heq => hnot (heq ▸ List.mem_map_of_mem ht')

/-- The configuration an enabled template makes of one that does not hold its plan. -/
def wanted (regex : String → String → Except String Bool) (nodes : List MatchedNode) (config : ProxyConfig)
    (template : AutomationTemplate) : Option ProxyConfig :=
  if !template.enabled then none
  else
    match plannedTargetGroup regex nodes config.targetGroups template with
    | .error _ => none
    | .ok group => if group ∈ config.targetGroups then none else some (putGroup group config)

theorem wanted_eq_some : wanted regex nodes config template = some config' ↔ template.enabled = true ∧
    ∃ group, plannedTargetGroup regex nodes config.targetGroups template = .ok group ∧ group ∉ config.targetGroups ∧
      putGroup group config = config' := by
  unfold wanted
  cases template.enabled with
  | false => simp
  | true =>
    cases plannedTargetGroup regex nodes config.targetGroups template with
    | error e => simp
    | ok g => simp

theorem wanted_eq_none (henabled : template.enabled = true)
    (hplan : plannedTargetGroup regex nodes config.targetGroups template = .ok group) :
    wanted regex nodes config template = none ↔ group ∈ config.targetGroups := by
  simp [wanted, henabled, hplan]

/-- The plan over what it has made is the same. -/
theorem plannedTargetGroup_again (hok : GroupsOk config') (hname : group.name = template.targetGroup.name)
    (hplan : plannedTargetGroup regex nodes config.targetGroups template = .ok group) (hmem : group ∈ config'.targetGroups) :
    plannedTargetGroup regex nodes config'.targetGroups template = .ok group := by
  have hnamed : groupNamed config'.targetGroups template.targetGroup.name = some group :=
    (groupNamed_eq_some hok.names).mpr ⟨hmem, hname⟩
  unfold plannedTargetGroup
  rw [hnamed]
  exact planned_again hplan

section

variable {templates : List AutomationTemplate} {u : AutomationTemplate} (hsaved : Saved templates)
  (hnodes : ∀ node ∈ nodes, node.Usable cfg.backendNodesEffective)
include hsaved

theorem eq_of_group_name (ht : t ∈ templates) (hu : u ∈ templates) (h : t.targetGroup.name = u.targetGroup.name) : t = u :=
  List.inj_on_of_nodup_map hsaved.names ht hu h

include hnodes

/-- What a template wants is its plan, put in place. -/
theorem exists_wanted (hok : GroupsOk config) (ht : t ∈ templates) (hnext : wanted regex nodes config t = some config') :
    ∃ group, plannedTargetGroup regex nodes config.targetGroups t = .ok group ∧ group.name = t.targetGroup.name ∧
      group.WellFormed ∧ group.Known cfg.backendNodesEffective ∧ group ∉ config.targetGroups ∧ putGroup group config = config' := by
  obtain ⟨-, group, hplan, hout, hput⟩ := wanted_eq_some.mp hnext
  obtain ⟨planned, hplanned, hname, hwell, hknown⟩ := exists_plan hnodes hok (hsaved.normal t ht) regex
  obtain rfl := Except.ok.inj (hplanned.symm.trans hplan)
  exact ⟨planned, hplan, hname, hwell, hknown, hout, hput⟩

/-- A write leaves every plan as it is: its own, and the other templates' groups are others. -/
theorem plannedTargetGroup_wanted (hok : GroupsOk config) (ht : t ∈ templates) (hu : u ∈ templates)
    (hnext : wanted regex nodes config u = some config') :
    plannedTargetGroup regex nodes config'.targetGroups t = plannedTargetGroup regex nodes config.targetGroups t := by
  obtain ⟨planned, hplan, hname, hwell, -, -, rfl⟩ := exists_wanted hsaved hnodes hok hu hnext
  have hok' := putGroup_ok hok hwell
  by_cases htu : t.targetGroup.name = u.targetGroup.name
  · obtain rfl := eq_of_group_name hsaved ht hu htu
    rw [hplan]
    exact plannedTargetGroup_again hok' hname hplan ((mem_putGroup hok).mpr (.inl rfl))
  · refine plannedTargetGroup_congr hok.names hok'.names fun g hg => mem_putGroup_of_ne hok fun heq => htu ?_
    rw [← hg, heq, hname]

/-- What the tasks of `Settle` are here: each is done by its own write, and the others' writes
    are of other groups. -/
theorem tasks_wanted :
    Tasks (wanted regex nodes) GroupsOk templates where
  keeps := by
    intro config config' t hok ht hnext
    obtain ⟨group, -, -, hwell, -, -, rfl⟩ := exists_wanted hsaved hnodes hok ht hnext
    exact putGroup_ok hok hwell
  done := by
    intro config config' t hok ht hnext
    have hsame := plannedTargetGroup_wanted hsaved hnodes hok ht ht hnext
    have henabled := (wanted_eq_some.mp hnext).1
    obtain ⟨planned, hplan, -, -, -, -, rfl⟩ := exists_wanted hsaved hnodes hok ht hnext
    exact (wanted_eq_none henabled (hsame.trans hplan)).mpr ((mem_putGroup hok).mpr (.inl rfl))
  frame := by
    intro config config' t u hok ht hu hfresh hnext
    have hsame := plannedTargetGroup_wanted hsaved hnodes hok ht hu hnext
    obtain ⟨planned, -, hname, -, -, -, rfl⟩ := exists_wanted hsaved hnodes hok hu hnext
    by_cases henabled : t.enabled = true
    · obtain ⟨own, hown, hownName, -, -⟩ := exists_plan hnodes hok (hsaved.normal t ht) regex
      refine (wanted_eq_none henabled (hsame.trans hown)).mpr ((mem_putGroup_of_ne hok ?_).mpr
        ((wanted_eq_none henabled hown).mp hfresh))
      intro heq
      obtain rfl := eq_of_group_name hsaved ht hu (by rw [← hownName, ← hname, heq])
      rw [hfresh] at hnext
      cases hnext
    · simp [wanted, henabled]

theorem plannedTargetGroup_settle (ok : ProxyConfig → Bool) (hok : GroupsOk config) (ht : t ∈ templates) :
    plannedTargetGroup regex nodes (settle (wanted regex nodes) ok config templates).targetGroups t =
      plannedTargetGroup regex nodes config.targetGroups t := by
  have hstep : ∀ c c' u, GroupsOk c →
      plannedTargetGroup regex nodes c.targetGroups t = plannedTargetGroup regex nodes config.targetGroups t →
      u ∈ templates → wanted regex nodes c u = some c' →
      plannedTargetGroup regex nodes c'.targetGroups t = plannedTargetGroup regex nodes config.targetGroups t :=
    fun c c' u hc hq hu hnext => (plannedTargetGroup_wanted hsaved hnodes hc ht hu hnext).trans hq
  exact (settle_keeps (tasks_wanted hsaved hnodes) hstep (List.Subset.refl templates) hok rfl).2

/-- Under the inventory the nodes are from, a valid configuration takes every plan. -/
theorem accepts_on (hrole : cfg.nodeRole = .gateway) : AcceptsOn (wanted regex nodes) (accepts cfg) GroupsOk templates := by
  intro config config' t hok hvalid ht hnext
  obtain ⟨planned, -, -, hwell, hknown, -, rfl⟩ := exists_wanted hsaved hnodes hok ht hnext
  have hadmits := admits_of_valid hrole (of_decide_eq_true hvalid) planned.name
  exact decide_eq_true ((validate_putGroup hrole hok hwell hknown).mpr hadmits)

/-- The first task that is not done. -/
theorem find?_wanted (hok : GroupsOk config) :
    (templates.find? fun t => (wanted regex nodes config t).isSome) = firstStale regex nodes config.targetGroups templates := by
  refine List.find?_congr fun t ht => ?_
  obtain ⟨group, hplan, -, -, -⟩ := exists_plan hnodes hok (hsaved.normal t ht) regex
  rw [Bool.eq_iff_iff, Bool.and_eq_true, stale_iff hplan, Option.isSome_iff_exists]
  simp only [wanted_eq_some, hplan, Except.ok.injEq]
  simp

end

/-- A disabled template is passed over. -/
def ifEnabled {S ε : Type} (step : List AutomationTemplate → S → AutomationTemplate → S × Except ε Bool)
    (rest : List AutomationTemplate) (s : S) (template : AutomationTemplate) : S × Except ε Bool :=
  if !template.enabled then (s, .ok false) else step rest s template

theorem tryEach_ifEnabled {S ε : Type} (step : List AutomationTemplate → S → AutomationTemplate → S × Except ε Bool)
    (applied : Bool) (s : S) :
    tryEach (ifEnabled step) applied s (t :: ts) =
      if !t.enabled then tryEach (ifEnabled step) applied s ts
      else
        match step ts s t with
        | (s, .ok written) => tryEach (ifEnabled step) (applied || written) s ts
        | (s, .error e) => (s, .error e) := by
  cases henabled : t.enabled with
  | true => simp only [tryEach, ifEnabled, henabled, Bool.not_true, Bool.false_eq_true, if_false]; rfl
  | false => simp [tryEach, ifEnabled, henabled]

section

variable (J : Json B) (send : GatewayHaPeer → Request B → Reply H) (stamp : Nat → Stamp)

theorem reconcileFrom_eq (applied : Bool) (docs : Docs Key P) (templates : List AutomationTemplate) :
    reconcileFrom F J regex send cfg nodes current stamp applied docs templates =
      tryEach (ifEnabled fun rest => reconcileTemplate F J regex send cfg nodes current (stamp rest.length))
        applied docs templates := by
  induction templates generalizing applied docs with
  | nil => rfl
  | cons t ts ih =>
    rw [tryEach_ifEnabled]
    unfold reconcileFrom
    simp only [ih]
    rcases reconcileTemplate F J regex send cfg nodes current (stamp ts.length) docs t with ⟨docs', _ | _⟩
    · rfl
    · rfl

/-- The loop does the templates' tasks under its own inventory. -/
theorem reconcileTemplate_attempts (hnodes : ∀ node ∈ nodes, node.Usable cfg.backendNodesEffective) :
    Attempts (wanted regex nodes) (accepts cfg)
      (ifEnabled fun rest => reconcileTemplate F J regex send cfg nodes current (stamp rest.length))
      fun room ts config docs => Ready F cfg standby room config docs ∧ Saved ts ∧ CurrentFor current config ts where
  skip := fun ⟨h, hsaved, hcurrent⟩ => ⟨h, hsaved.tail.1, hcurrent.tail⟩
  mono hle := fun ⟨h, hrest⟩ => ⟨⟨writable_mono hle h.writable, h.master, h.groups⟩, hrest⟩
  fresh := by
    rintro room t ts config docs ⟨h, hsaved, hcurrent⟩ hnext
    by_cases henabled : t.enabled = true
    · obtain ⟨group, hplan, hname, -, -⟩ := exists_plan hnodes h.groups (hsaved.normal t List.mem_cons_self) regex
      have hmem := (hcurrent t List.mem_cons_self group hname).mpr ((wanted_eq_none henabled hplan).mp hnext)
      exact ⟨false, by simp [ifEnabled, henabled, reconcileTemplate_current h hplan hmem]⟩
    · exact ⟨false, by simp [ifEnabled, henabled]⟩
  refused := by
    rintro room t ts config config' docs ⟨h, hsaved, hcurrent⟩ hnext hrefused
    have henabled := (wanted_eq_some.mp hnext).1
    obtain ⟨group, hplan, hname, hwell, -, hout, rfl⟩ := exists_wanted hsaved hnodes h.groups List.mem_cons_self hnext
    have hmem : group ∉ current := fun hin => hout ((hcurrent t List.mem_cons_self group hname).mp hin)
    obtain ⟨e, he⟩ := reconcileTemplate_refused J send hplan hmem hwell h hrefused (stamp ts.length)
    exact ⟨e, by simp [ifEnabled, henabled, he]⟩
  taken := by
    rintro room t ts config config' docs ⟨h, hsaved, hcurrent⟩ hnext haccepted
    have henabled := (wanted_eq_some.mp hnext).1
    obtain ⟨group, hplan, hname, hwell, -, hout, rfl⟩ := exists_wanted hsaved hnodes h.groups List.mem_cons_self hnext
    have hmem : group ∉ current := fun hin => hout ((hcurrent t List.mem_cons_self group hname).mp hin)
    obtain ⟨docs', hwritten, hready⟩ := reconcileTemplate_writes J send hplan hmem hwell h haccepted (stamp ts.length)
    obtain ⟨htail, hnot⟩ := hsaved.tail
    exact ⟨docs', true, by simp [ifEnabled, henabled, hwritten], hready, htail, hcurrent.written h.groups hnot hname⟩

end

/-- One run on the MASTER leaves every enabled template's group equal to its plan for the
    backends registered now exactly when all groups are up to date already, or the first one
    that is not can be written past the others. -/
theorem reconcile_reaches_plans_iff (J : Json B) (send : GatewayHaPeer → Request B → Reply H) {base : FileConfig}
    {reg : BackendRegistry} (hsettled : base.Settled) (hreg : reg.Inv (gatewayUnderlays base)) (now : Nat)
    (hcfg : (mergeInto now base reg).2.1 = cfg) (hnodes : automationNodes now cfg (mergeInto now base reg).2.2 = nodes)
    {raw saved : AutomationConfig} (hsaved : normalizeConfig regex raw = .ok saved)
    (hstore : Writable F cfg saved.templates.length config docs)
    (hmaster : writeRole F cfg docs = .ok (.localMaster standby)) (hgroups : GroupsOk config) (stamp : Nat → Stamp) :
    (∀ t ∈ saved.templates, t.enabled = true → ∃ group after,
      plannedTargetGroup regex nodes config.targetGroups t = .ok group ∧
      loadProxyConfig F cfg (reconcileTemplates F J regex send cfg nodes stamp docs saved).1 = .ok after ∧
      groupNamed after.targetGroups t.targetGroup.name = some group) ↔
    ∀ t, firstStale regex nodes config.targetGroups saved.templates = some t → Admits cfg config t.targetGroup.name := by
  subst hcfg hnodes
  have husable := automationNodes_usable hsettled hreg now
  have hrole : (mergeInto now base reg).2.1.nodeRole = .gateway := by
    show (mergeInto now base reg).2.1.shell.nodeRole = .gateway
    rw [merge_shell hsettled]
    exact hsettled.role
  obtain ⟨hnormal, hnames⟩ := normalizeConfig_ok hsaved
  have hready : Ready F (mergeInto now base reg).2.1 standby saved.templates.length config docs := ⟨hstore, hmaster, hgroups⟩
  have hcurrent : CurrentFor config.targetGroups config saved.templates := fun _ _ _ _ => Iff.rfl
  have hload := load_of_writable hstore
  simp only [reconcileTemplates, hload, Except.toOption, Option.map_some, Option.getD_some]
  have htemplates : Saved saved.templates := ⟨hnormal, hnames⟩
  have htasks : Tasks (wanted regex _) GroupsOk saved.templates := tasks_wanted htemplates husable
  obtain ⟨hready', -⟩ := tryEach_settles (n := 0) (reconcileTemplate_attempts J send stamp husable) false
    ⟨hready, htemplates, hcurrent⟩
  rw [← reconcileFrom_eq] at hready'
  rw [load_of_writable hready'.writable, ← find?_wanted htemplates husable hgroups]
  constructor
  · intro hplans first hfirst
    by_contra hrefused
    have hpred := List.find?_some hfirst
    obtain ⟨written, hnext⟩ := Option.isSome_iff_exists.mp hpred
    have henabled := (wanted_eq_some.mp hnext).1
    obtain ⟨group, after, hplan, hafter, hnamed⟩ := hplans first (List.mem_of_find?_eq_some hfirst) henabled
    obtain ⟨planned, hplanned, hname, hwell, hknown, hout, rfl⟩ :=
      exists_wanted htemplates husable hgroups (List.mem_of_find?_eq_some hfirst) hnext
    -- nothing was written, so the plan would have been stored before
    have hinvalid := mt (validate_putGroup hrole hgroups hwell hknown).mp (hname ▸ hrefused)
    rw [settle_none hfirst hnext (decide_eq_false hinvalid)] at hafter
    obtain rfl := Except.ok.inj hafter
    obtain rfl := Except.ok.inj (hplanned.symm.trans hplan)
    exact hout (mem_groups_of_named hnamed).1
  · intro hfirst t ht henabled
    have hall := settle_all htasks (accepts_on htemplates husable hrole) (List.Subset.refl _) hgroups
      fun u c' hu hnext => by
        obtain ⟨planned, -, hname, hwell, hknown, -, rfl⟩ :=
          exists_wanted htemplates husable hgroups (List.mem_of_find?_eq_some hu) hnext
        exact decide_eq_true ((validate_putGroup hrole hgroups hwell hknown).mpr (hname ▸ hfirst u hu))
    obtain ⟨group, hplan, hname, -, -⟩ := exists_plan husable hgroups (hnormal t ht) regex
    have hplan' := (plannedTargetGroup_settle htemplates husable (accepts (mergeInto now base reg).2.1) hgroups ht).trans hplan
    exact ⟨group, _, hplan, rfl, (groupNamed_eq_some hready'.groups.names).mpr
      ⟨(wanted_eq_none henabled hplan').mp (hall t ht), hname⟩⟩

end

/-! ## A backend leaves -/

def noRegex : String → String → Except String Bool := fun _ _ => .error "no regular expressions"

def aloneFile : FileConfig :=
  { nodeRole := .gateway, nodeName := "gateway-a", publicIp := .v4 0xc000020b, underlayIp := .v4 0xc000020b
    network := { gatewayPublicIp := .v4 0xc000020b, gatewayIp := .v4 0xc000020b, vxlanDev := "edge-hub" }
    gatewayNodes := [⟨"gateway-a", .v4 0xc000020b, .v4 0xc000020b, "10.255.255.1/24"⟩] }

/-- Two backends subscribe; later the second one's stream ends. -/
def bothSubscribed : BackendRegistry :=
  upsert { nodeName := "backend-b", underlayIp := "192.0.2.22" } none "stream-2" 100
    (upsert { nodeName := "backend-a", underlayIp := "192.0.2.21" } none "stream-1" 100 {})

def oneLeft : BackendRegistry := remove "backend-b" "stream-2" bothSubscribed

def twoTargets : List BackendTarget :=
  [{ backend := some "backend-a", address := .v4 0xc0000215 }, { backend := some "backend-b", address := .v4 0xc0000216 }]

def generatedGroup (name : String) : TargetGroup :=
  { name, periodSecs := some 15, retries := some 3, targets := twoTargets }

def storedGroups (groups : List TargetGroup) : Docs Key Payload
  | .targetGroups => some ⟨.targetGroups groups, 1, "t1"⟩
  | _ => none

def templatesFor (names : List String) : AutomationConfig :=
  { templates := names.map fun name => { name := s!"template-{name}", targetGroup := { name } } }

def plainSend : GatewayHaPeer → Request PlainBody → Reply (Option ProxyConfig) := fun _ _ => .error 502 ""

/-- What is merged and matched then. -/
def leftCfg : FileConfig :=
  { aloneFile with backendNodes := [⟨"backend-a", .v4 0, .v4 0xc0000215, "10.255.255.2/24"⟩] }

def leftNodes : List MatchedNode := [⟨"backend-a", "192.0.2.21", "auto", some "unknown", some "unknown"⟩]

theorem merged_oneLeft : (mergeInto 110 aloneFile oneLeft).2.1 = leftCfg ∧
    automationNodes 110 leftCfg (mergeInto 110 aloneFile oneLeft).2.2 = leftNodes := by decide

def stampFrom (n : Nat) : Stamp := { revision := 10 - n, now := "t2" }

/-- Two generated groups that were accepted with both backends: after one backend has left,
    each of them keeps the other from being written, and both stay as they were. -/
theorem departed_backend_blocks_every_group :
    let stored := [generatedGroup "api", generatedGroup "web"]
    let after := reconcileTemplates plainFormat plainJson noRegex plainSend leftCfg leftNodes stampFrom (storedGroups stored)
      (templatesFor ["api", "web"])
    (withProxy (mergeInto 100 aloneFile bothSubscribed).2.1 { targetGroups := stored }).validate = .ok () ∧
      (mergeInto 110 aloneFile oneLeft).2.1 = leftCfg ∧
      automationNodes 110 leftCfg (mergeInto 110 aloneFile oneLeft).2.2 = leftNodes ∧
      (∀ t ∈ (templatesFor ["api", "web"]).templates, stale noRegex leftNodes stored t = true) ∧
      (loadProxyConfig plainFormat leftCfg after.1).map (·.targetGroups) = .ok stored := by
  refine ⟨by decide, merged_oneLeft.1, merged_oneLeft.2, by decide, by decide⟩

/-- With one group that names the departed backend, it is rewritten and the new one added. -/
theorem departed_backend_pruned_from_one_group :
    normalizeConfig noRegex (templatesFor ["api", "web"]) = .ok (templatesFor ["api", "web"]) ∧
    writeRole plainFormat leftCfg (storedGroups [generatedGroup "api"]) = .ok (.localMaster none) ∧
    ∀ t ∈ (templatesFor ["api", "web"]).templates, t.enabled = true → ∃ group after,
      plannedTargetGroup noRegex leftNodes [generatedGroup "api"] t = .ok group ∧
      loadProxyConfig plainFormat leftCfg (reconcileTemplates plainFormat plainJson noRegex plainSend leftCfg leftNodes
        stampFrom (storedGroups [generatedGroup "api"]) (templatesFor ["api", "web"])).1 = .ok after ∧
      groupNamed after.targetGroups t.targetGroup.name = some group := by
  have hsettled : aloneFile.Settled := by
    rw [show aloneFile = aloneFile.normalize by decide]
    exact settled_normalize rfl
  have hreg : oneLeft.Inv (gatewayUnderlays aloneFile) :=
    remove_inv (upsert_inv (upsert_inv (empty_inv _) _ _ _ _) _ _ _ _) _ _
  have hsaved : normalizeConfig noRegex (templatesFor ["api", "web"]) = .ok (templatesFor ["api", "web"]) := by
    decide
  have hstore : Writable plainFormat leftCfg 2 { targetGroups := [generatedGroup "api"] } (storedGroups [generatedGroup "api"]) :=
    ⟨⟨_, defaultSync plainFormat, .standalone⟩, by decide, rfl, by decide, by decide⟩
  have hmaster : writeRole plainFormat leftCfg (storedGroups [generatedGroup "api"]) = .ok (.localMaster none) := by
    decide
  have hgroups : GroupsOk { targetGroups := [generatedGroup "api"] } := by
    refine ⟨fun group hgroup => ?_, by decide⟩
    obtain rfl := List.mem_singleton.mp hgroup
    refine ⟨by decide, fun hmonitor => ?_, ?_⟩
    · cases hmonitor
    · unfold BackendTarget.WellFormed
      decide
  refine ⟨hsaved, hmaster, (reconcile_reaches_plans_iff plainJson plainSend hsettled hreg 110 merged_oneLeft.1
    merged_oneLeft.2 hsaved hstore hmaster hgroups stampFrom).mpr fun t ht => ?_⟩
  have hfirst : firstStale noRegex leftNodes [generatedGroup "api"] (templatesFor ["api", "web"]).templates =
      some { name := "template-api", targetGroup := { name := "api" } } := by decide
  obtain rfl := Option.some.inj (hfirst.symm.trans ht)
  refine ⟨by decide, by decide, by decide, fun group hgroup hne => ?_, by decide,
    by decide⟩
  obtain rfl := List.mem_singleton.mp hgroup
  exact absurd rfl hne

end EdgeLb.Automation
