/-
  EdgeLb.Automation.Views — the two gateways of a pair reconcile their templates (`run` of
  `edge-lb/src/role/gateway.rs`, `reconcile_templates` of `api/handlers/automations.rs`,
  `apply_authoritative` and `forward_to_master` of `api/handlers/proxy_config.rs`).

  Both run the same loop, whatever their role. Each plans the groups from the backends that
  are registered with it; the BACKUP hands its writes to the MASTER, which takes them over
  when they pass under its file's own backends. So both write the MASTER's groups, from two
  views (`docs/automations.md`: the BACKUP does not evaluate templates of its own accord).

  - `reconciled_pair_rests`: when the templates select the same targets at both gateways, and
    the MASTER's file lists no backend that is not registered with it, then once both have
    reconciled neither writes again.
  - `empty_view_clears_group`: a BACKUP with no backends clears the MASTER's group, the
    MASTER fills it again, and so on.
-/

import EdgeLb.Lib.Settle
import EdgeLb.Lib.Run
import EdgeLb.Api.Forward
import EdgeLb.Automation.Reconcile

namespace EdgeLb.Automation

open EdgeLb.Config EdgeLb.Lib EdgeLb.Storage EdgeLb.Control EdgeLb.Api

/-! ## The pair -/

/-- What a gateway's loop has merged, and the backends it matches templates with. -/
structure View where
  cfg : FileConfig
  nodes : List MatchedNode
  deriving DecidableEq, Repr

inductive Site
  | master | backup
  deriving DecidableEq, Repr

def Site.other : Site → Site
  | .master => .backup
  | .backup => .master

structure Sites (P : Type) where
  master : Gateway P
  backup : Gateway P

section

variable {P : Type}

def Sites.gateway (s : Sites P) : Site → Gateway P
  | .master => s.master
  | .backup => s.backup

def Sites.set (s : Sites P) (gw : Gateway P) : Site → Sites P
  | .master => { s with master := gw }
  | .backup => { s with backup := gw }

end

/-- One reconcile and the delivery after it: where it runs, when, and the stamps of what is
    stored. -/
structure Turn (H : Type) where
  site : Site
  now : Nat
  stamp : Nat → Stamp
  cursor : SyncState H
  received : Stamp

section

variable {B P H : Type} [DecidableEq P] (F : Format P H) (J : Json B) (regex : String → String → Except String Bool)

def viewOf (now : Nat) (gw : Gateway P) : View :=
  let merged := (mergeInto now (gw.base F) gw.registry).2
  { cfg := merged.1, nodes := automationNodes now merged.1 merged.2 }

/-- `apply_authoritative` at one of the gateways; what it hands over, the other one handles. -/
def applyAt (cfg : FileConfig) (site : Site) (now : Nat) (at_ : Stamp) (op : ProxyConfigOperation B) (s : Sites P) :
    Sites P × Reply H :=
  match applyAuthoritative F J cfg at_ op (s.gateway site).docs with
  | (docs, outcome) =>
    let s := s.set { s.gateway site with docs } site
    match outcome with
    | .reply r => (s, r)
    | .forward peer req =>
      match handle F J now at_ req (s.gateway site.other) with
      | (gw, outcome) => (s.set gw site.other, relay peer outcome)
    | _ => (s, .error 500 "")

variable (views : Site → View) (site : Site) (now : Nat)

/-- `reconcileTemplate` with the peer's state. -/
def reconcileTemplateAt (current : List TargetGroup) (at_ : Stamp) (s : Sites P) (template : AutomationTemplate) :
    Sites P × Except (ReconcileError H) Bool :=
  match (loadProxyConfig F (views site).cfg (s.gateway site).docs) >>= fun stored =>
      plannedTargetGroup regex (views site).nodes stored.targetGroups template with
  | .error e => (s, .error (.plan template.name e))
  | .ok group =>
    if group ∈ current then (s, .ok false)
    else
      match applyAt F J (views site).cfg site now at_ (.targetGroupCreate (J.targetGroup.encode group)) s with
      | (s, reply) => if reply.accepted then (s, .ok true) else (s, .error (.write group.name reply))

def reconcileFromAt (current : List TargetGroup) (stamp : Nat → Stamp) (applied : Bool) (s : Sites P) :
    List AutomationTemplate → Sites P × Except (ReconcileError H) Bool
  | [] => (s, .ok applied)
  | template :: rest =>
    if !template.enabled then reconcileFromAt current stamp applied s rest
    else
      match reconcileTemplateAt F J regex views site now current (stamp rest.length) s template with
      | (s, .ok written) => reconcileFromAt current stamp (applied || written) s rest
      | (s, .error e) => (s, .error e)

def reconcileAt (stamp : Nat → Stamp) (config : AutomationConfig) (s : Sites P) :
    Sites P × Except (ReconcileError H) Bool :=
  let current := ((loadProxyConfig F (views site).cfg (s.gateway site).docs).toOption.map (·.targetGroups)).getD []
  reconcileFromAt F J regex views site now current stamp false s config.templates

/-- The groups the MASTER has stored. -/
def masterGroups (s : Sites P) : List TargetGroup :=
  ((loadProxyConfig F (s.master.base F) s.master.docs).toOption.map (·.targetGroups)).getD []

/-- Replication delivered: the BACKUP stores the MASTER's configuration as a snapshot has it. -/
def deliver (cursor : SyncState H) (at_ : Stamp) (s : Sites P) : Sites P :=
  match loadProxyConfig F (s.master.base F) s.master.docs with
  | .error _ => s
  | .ok config =>
    let docs := s.backup.docs.written (commitWrites F (shared config) cursor true) at_.revision at_.now
    { s with backup := { s.backup with docs } }

def takeTurn (config : AutomationConfig) (s : Sites P) (turn : Turn H) : Sites P :=
  deliver F turn.cursor turn.received (reconcileAt F J regex views turn.site turn.now turn.stamp config s).1

end

/-! ## The two judges -/

/-- An inventory with more names refuses what one with fewer accepts only when it is refused
    itself. -/
theorem accepts_stuck {cfg base : FileConfig} {config : ProxyConfig} (hrole : base.nodeRole = .gateway) (hshell : cfg.shell = base.shell)
    (hnames : ∀ b ∈ base.backendNodesEffective, ∃ b' ∈ cfg.backendNodesEffective, b'.name = b.name)
    (haccepted : accepts base config = true) (hrefused : accepts cfg config = false) (config' : ProxyConfig) :
    accepts cfg config' = false := by
  have hmerged := eq_of_shell_eq hshell
  have hrole' : cfg.nodeRole = .gateway := by
    rw [hmerged]
    exact hrole
  have hsound' : (withProxy base config).Sound → (withProxy cfg config).Sound := by
    rw [hmerged]
    exact fun h => ⟨h.settings, h.endpoints, h.groups, h.names, h.listeners, h.capacity⟩
  obtain ⟨hsound, -, hknown⟩ := (@validate_eq_ok (withProxy base config) hrole).mp (of_decide_eq_true haccepted)
  have hinventory : validateInventory cfg ≠ .ok () := by
    intro hinventory
    refine of_decide_eq_false hrefused ((@validate_eq_ok (withProxy cfg config) hrole').mpr
      ⟨hsound' hsound, hinventory, ?_⟩)
    intro group hgroup target htarget
    have hlisted := hknown group hgroup target htarget
    unfold BackendTarget.known at hlisted ⊢
    cases hbackend : target.backend with
    | none => rfl
    | some name =>
      simp only [hbackend, Option.all_some, List.any_eq_true, beq_iff_eq] at hlisted ⊢
      obtain ⟨b, hb, rfl⟩ := hlisted
      exact hnames b hb
  refine decide_eq_false fun hvalid => hinventory ?_
  exact ((@validate_eq_ok (withProxy cfg config') hrole').mp hvalid).2.1

/-! ## One write -/

/-- The configuration under which a gateway's writes are checked: the BACKUP's under the
    MASTER's file. -/
def judge (views : Site → View) (base : FileConfig) : Site → FileConfig
  | .master => (views .master).cfg
  | .backup => base

section

variable {B P H : Type} [DecidableEq P] {F : Format P H} {J : Json B} {regex : String → String → Except String Bool}

omit [DecidableEq P] in
theorem writable_shell {a b : FileConfig} (h : a.shell = b.shell) {room : Nat} {config : ProxyConfig} {docs : Docs Key P} :
    Writable F a room config docs ↔ Writable F b room config docs := by
  rw [eq_of_shell_eq h]
  rfl

omit [DecidableEq P] in
theorem writeRole_shell {a b : FileConfig} (h : a.shell = b.shell) (docs : Docs Key P) :
    writeRole F a docs = writeRole F b docs := by
  rw [eq_of_shell_eq h]
  rfl

omit [DecidableEq P] in
theorem base_sameRole (gw : Gateway P) {docs : Docs Key P} (h : SameRole gw.docs docs) :
    Gateway.base F { gw with docs } = gw.base F := by
  have hload : loadHa F docs = loadHa F gw.docs := by
    unfold loadHa
    rw [h.1]
  unfold Gateway.base mergeGatewayPeers
  rw [hload]

/-- The fixed side of the pair: the MASTER's view is its own configuration with other backends,
    and the nodes it matches are among them. -/
structure Views (views : Site → View) (base : FileConfig) : Prop where
  settled : base.Settled
  shell : (views .master).cfg.shell = base.shell
  nodes : ∀ node ∈ (views .master).nodes, node.Usable (views .master).cfg.backendNodesEffective

section

variable {views : Site → View} {base : FileConfig} (h : Views views base)
include h

theorem Views.role : (views .master).cfg.nodeRole = .gateway := by
  show (views .master).cfg.shell.nodeRole = .gateway
  rw [h.shell]
  exact h.settled.role

theorem Views.judge_shell (site : Site) :
    (judge views base site).shell = base.shell := by
  cases site with
  | master => exact h.shell
  | backup => rfl

end

/-- The MASTER stores `config`, and the roles are what they are. -/
structure Held (F : Format P H) (views : Site → View) (base : FileConfig) (room : Nat) (config : ProxyConfig)
    (s : Sites P) : Prop where
  file : s.master.base F = base
  writable : Writable F base room config s.master.docs
  master : ∃ standby, writeRole F base s.master.docs = .ok (.localMaster standby)
  backup : ∃ peer, writeRole F (views .backup).cfg s.backup.docs = .ok (.backup peer)
  groups : GroupsOk config

variable {views : Site → View} {base : FileConfig} {room : Nat} {config : ProxyConfig} {s : Sites P} {group : TargetGroup}

section

variable (J : Json B) (hviews : Views views base)
include hviews

/-- Either gateway's write is the MASTER's own under the configuration that judges it. -/
theorem applyAt_eq (h : Held F views base room config s) (site : Site) (now : Nat) (at_ : Stamp)
    (op : ProxyConfigOperation B) : ∃ standby,
    applyAt F J (views site).cfg site now at_ op s =
      ({ s with master := { s.master with docs :=
          (applyAsMaster F J (judge views base site) at_ op standby s.master.docs).1 } },
        (applyAsMaster F J (judge views base site) at_ op standby s.master.docs).2) := by
  obtain ⟨standby, hmaster⟩ := h.master
  refine ⟨standby, ?_⟩
  cases site with
  | master =>
    have hmaster' : writeRole F (views .master).cfg s.master.docs = .ok (.localMaster standby) := by
      rw [writeRole_shell hviews.shell]
      exact hmaster
    simp only [applyAt, Sites.gateway, applyAuthoritative_master J hmaster']
    rfl
  | backup =>
    obtain ⟨peer, hbackup⟩ := h.backup
    have hforward : applyAuthoritative F J (views .backup).cfg at_ op s.backup.docs =
        (s.backup.docs, .forward peer (peerRequest J op)) := by
      simp only [applyAuthoritative, hbackup]
    have hsettled : (s.master.base F).Settled := h.file ▸ hviews.settled
    have hhandle := handle_peerRequest (J := J) hsettled (by rw [h.file]; exact hmaster) op now at_
    rw [h.file] at hhandle
    simp only [applyAt, Sites.gateway, Sites.set, Site.other, hforward, hhandle]
    rfl

theorem applyAt_group (h : Held F views base (room + 1) config s) (site : Site) (hgroup : group.WellFormed)
    (hvalid : accepts (judge views base site) (putGroup group config) = true) (now : Nat) (at_ : Stamp) :
    ∃ s' reply, applyAt F J (views site).cfg site now at_ (.targetGroupCreate (J.targetGroup.encode group)) s =
        (s', reply) ∧ reply.accepted = true ∧ Held F views base room (putGroup group config) s' ∧ s'.backup = s.backup := by
  obtain ⟨standby, happly⟩ := applyAt_eq J hviews h site now at_ (.targetGroupCreate (J.targetGroup.encode group))
  have hshell := hviews.judge_shell site
  obtain ⟨haccepted, hwritable, hsame⟩ := applyAsMaster_group J standby ((writable_shell hshell).mpr h.writable) hgroup
    (of_decide_eq_true hvalid) at_
  obtain ⟨standby', hmaster⟩ := h.master
  refine ⟨_, _, happly, haccepted, ⟨?_, (writable_shell hshell).mp hwritable, ⟨standby', ?_⟩, h.backup, ?_⟩, rfl⟩
  · exact (base_sameRole s.master hsame).trans h.file
  · exact (writeRole_sameRole hsame).trans hmaster
  · exact putGroup_ok h.groups hgroup

theorem applyAt_refused (h : Held F views base room config s) (site : Site) (hgroup : group.WellFormed)
    (hinvalid : accepts (judge views base site) (putGroup group config) = false) (now : Nat) (at_ : Stamp) :
    ∃ reply, applyAt F J (views site).cfg site now at_ (.targetGroupCreate (J.targetGroup.encode group)) s = (s, reply) ∧
      reply.accepted = false := by
  obtain ⟨standby, happly⟩ := applyAt_eq J hviews h site now at_ (.targetGroupCreate (J.targetGroup.encode group))
  have hshell := hviews.judge_shell site
  obtain ⟨hrefused, hdocs⟩ := applyAsMaster_group_refused J standby ((writable_shell hshell).mpr h.writable) hgroup
    (of_decide_eq_false hinvalid) at_
  rw [hdocs] at happly
  exact ⟨_, happly, hrefused⟩

end

/-! ## One reconcile -/

variable {template t : AutomationTemplate} {templates : List AutomationTemplate} {site : Site} {current : List TargetGroup}

/-- What the gateway loads agrees with the MASTER's configuration on the groups still to come. -/
def LoadsFor (F : Format P H) (views : Site → View) (site : Site) (s : Sites P) (config : ProxyConfig)
    (templates : List AutomationTemplate) : Prop :=
  ∃ loaded, loadProxyConfig F (views site).cfg (s.gateway site).docs = .ok loaded ∧
    (loaded.targetGroups.map (·.name)).Nodup ∧ CurrentFor loaded.targetGroups config templates

omit [DecidableEq P] in
theorem LoadsFor.tail (h : LoadsFor F views site s config (t :: templates)) : LoadsFor F views site s config templates := by
  obtain ⟨loaded, hload, hnames, hcurrent⟩ := h
  exact ⟨loaded, hload, hnames, hcurrent.tail⟩

omit [DecidableEq P] in
theorem Held.load_master (hviews : Views views base) (h : Held F views base room config s) :
    loadProxyConfig F (views .master).cfg s.master.docs = .ok config :=
  load_of_writable ((writable_shell hviews.shell).mpr h.writable)

omit [DecidableEq P] in
theorem LoadsFor.written (hviews : Views views base) (h : LoadsFor F views site s config (t :: templates)) {s' : Sites P}
    (hok : GroupsOk config) (hheld : Held F views base room (putGroup group config) s') (hbackup : s'.backup = s.backup)
    (hnot : t.targetGroup.name ∉ templates.map (·.targetGroup.name)) (hname : group.name = t.targetGroup.name) :
    LoadsFor F views site s' (putGroup group config) templates := by
  cases site with
  | master => exact ⟨putGroup group config, hheld.load_master hviews, hheld.groups.names, fun _ _ _ _ => Iff.rfl⟩
  | backup =>
    obtain ⟨loaded, hload, hnames, hcurrent⟩ := h
    refine ⟨loaded, ?_, hnames, hcurrent.written hok hnot hname⟩
    simp only [Sites.gateway, hbackup]
    exact hload

/-- Both gateways select the same targets, so what one plans the other does. -/
def SameTargets (regex : String → String → Except String Bool) (views : Site → View) (templates : List AutomationTemplate) : Prop :=
  ∀ t ∈ templates, t.enabled = true →
    targetsOf regex (views .backup).nodes t = targetsOf regex (views .master).nodes t

omit [DecidableEq P] in
theorem load_planned_at (h : LoadsFor F views site s config (t :: templates)) (hgroups : GroupsOk config)
    (hsame : SameTargets regex views (t :: templates)) (henabled : t.enabled = true)
    (hplan : plannedTargetGroup regex (views .master).nodes config.targetGroups t = .ok group) :
    (loadProxyConfig F (views site).cfg (s.gateway site).docs >>= fun stored =>
      plannedTargetGroup regex (views site).nodes stored.targetGroups t) = .ok group := by
  obtain ⟨loaded, hload, hnames, hcurrent⟩ := h
  refine bind_eq_ok.mpr ⟨loaded, hload, ?_⟩
  have htargets : targetsOf regex (views site).nodes t = targetsOf regex (views .master).nodes t := by
    cases site with
    | master => rfl
    | backup => exact hsame t List.mem_cons_self henabled
  have hown : plannedTargetGroup regex (views site).nodes loaded.targetGroups t =
      plannedTargetGroup regex (views .master).nodes loaded.targetGroups t := planned_congr htargets _
  rw [hown, plannedTargetGroup_congr hgroups.names hnames fun g hg => hcurrent t List.mem_cons_self g hg]
  exact hplan

section

variable (J : Json B) (hviews : Views views base) (now : Nat) (stamp : Nat → Stamp)

theorem reconcileFromAt_eq (applied : Bool) (s : Sites P) (templates : List AutomationTemplate) :
    reconcileFromAt F J regex views site now current stamp applied s templates =
      tryEach (ifEnabled fun rest => reconcileTemplateAt F J regex views site now current (stamp rest.length))
        applied s templates := by
  induction templates generalizing applied s with
  | nil => rfl
  | cons t ts ih =>
    rw [tryEach_ifEnabled]
    unfold reconcileFromAt
    simp only [ih]
    rcases reconcileTemplateAt F J regex views site now current (stamp ts.length) s t with ⟨s', _ | _⟩
    · rfl
    · rfl

include hviews

/-- The loop at either gateway does the templates' tasks on the MASTER's configuration, under
    the judge of its writes. -/
theorem reconcileTemplateAt_attempts :
    Attempts (wanted regex (views .master).nodes) (accepts (judge views base site))
      (ifEnabled fun rest => reconcileTemplateAt F J regex views site now current (stamp rest.length))
      fun room ts config s => Held F views base room config s ∧ Saved ts ∧ SameTargets regex views ts ∧
        CurrentFor current config ts ∧ LoadsFor F views site s config ts where
  skip := fun ⟨h, hsaved, hsame, hcurrent, hload⟩ =>
    ⟨h, hsaved.tail.1, fun u hu => hsame u (List.mem_cons_of_mem _ hu), hcurrent.tail, hload.tail⟩
  mono hle := fun ⟨h, hrest⟩ => ⟨⟨h.file, writable_mono hle h.writable, h.master, h.backup, h.groups⟩, hrest⟩
  fresh := by
    rintro room t ts config s ⟨h, hsaved, hsame, hcurrent, hload⟩ hnext
    by_cases henabled : t.enabled = true
    · obtain ⟨group, hplan, hname, -, -⟩ := exists_plan hviews.nodes h.groups (hsaved.normal t List.mem_cons_self) regex
      have hplanned := load_planned_at hload h.groups hsame henabled hplan
      have hmem := (hcurrent t List.mem_cons_self group hname).mpr ((wanted_eq_none henabled hplan).mp hnext)
      exact ⟨false, by simp [ifEnabled, henabled, reconcileTemplateAt, hplanned, hmem]⟩
    · exact ⟨false, by simp [ifEnabled, henabled]⟩
  refused := by
    rintro room t ts config config' s ⟨h, hsaved, hsame, hcurrent, hload⟩ hnext hrefused
    have henabled := (wanted_eq_some.mp hnext).1
    obtain ⟨group, hplan, hname, hwell, -, hout, rfl⟩ := exists_wanted hsaved hviews.nodes h.groups List.mem_cons_self hnext
    have hplanned := load_planned_at hload h.groups hsame henabled hplan
    have hmem : group ∉ current := fun hin => hout ((hcurrent t List.mem_cons_self group hname).mp hin)
    obtain ⟨reply, happly, hreply⟩ := applyAt_refused J hviews h site hwell hrefused now (stamp ts.length)
    exact ⟨.write group.name reply, by simp [ifEnabled, henabled, reconcileTemplateAt, hplanned, hmem, happly, hreply]⟩
  taken := by
    rintro room t ts config config' s ⟨h, hsaved, hsame, hcurrent, hload⟩ hnext haccepted
    have henabled := (wanted_eq_some.mp hnext).1
    obtain ⟨group, hplan, hname, hwell, -, hout, rfl⟩ := exists_wanted hsaved hviews.nodes h.groups List.mem_cons_self hnext
    have hplanned := load_planned_at hload h.groups hsame henabled hplan
    have hmem : group ∉ current := fun hin => hout ((hcurrent t List.mem_cons_self group hname).mp hin)
    obtain ⟨s', reply, happly, hreply, hheld, hbackup⟩ := applyAt_group J hviews h site hwell haccepted now (stamp ts.length)
    obtain ⟨htail, hnot⟩ := hsaved.tail
    refine ⟨s', true, by simp [ifEnabled, henabled, reconcileTemplateAt, hplanned, hmem, happly, hreply], hheld, htail,
      fun u hu => hsame u (List.mem_cons_of_mem t hu), hcurrent.written h.groups hnot hname, ?_⟩
    exact hload.written hviews h.groups hheld hbackup hnot hname

end

/-! ## Turns -/

/-- The BACKUP's replica has the MASTER's groups. -/
def Delivered (F : Format P H) (views : Site → View) (config : ProxyConfig) (s : Sites P) : Prop :=
  ∃ loaded, loadProxyConfig F (views .backup).cfg s.backup.docs = .ok loaded ∧ loaded.targetGroups = config.targetGroups

omit [DecidableEq P] in
theorem deliver_spec (h : Held F views base room config s) (cursor : SyncState H) (at_ : Stamp) :
    (deliver F cursor at_ s).master = s.master ∧ Held F views base room config (deliver F cursor at_ s) ∧
      Delivered F views config (deliver F cursor at_ s) := by
  have hload : loadProxyConfig F (s.master.base F) s.master.docs = .ok config := by
    rw [h.file]
    exact load_of_writable h.writable
  obtain ⟨peer, hbackup⟩ := h.backup
  simp only [deliver, hload]
  refine ⟨trivial, ⟨h.file, h.writable, h.master, ⟨peer, ?_⟩, h.groups⟩, shared config, ?_, rfl⟩
  · exact (writeRole_sameRole ⟨rfl, rfl, rfl⟩).trans hbackup
  · simp only [loadProxyConfig, storedOr, Docs.written, commitWrites, if_true, F.listeners.decode_encode,
      F.targetGroups.decode_encode]
    rfl

/-- Where replication has been delivered, a gateway's loop starts from the MASTER's groups. -/
theorem reconcileAt_eq (J : Json B) (hviews : Views views base) (h : Held F views base room config s)
    (hdelivered : Delivered F views config s) (site : Site) (now : Nat) (stamp : Nat → Stamp) (saved : AutomationConfig) :
    reconcileAt F J regex views site now stamp saved s =
        tryEach (ifEnabled fun rest => reconcileTemplateAt F J regex views site now config.targetGroups (stamp rest.length))
          false s saved.templates ∧
      LoadsFor F views site s config saved.templates := by
  obtain ⟨loaded, hload, hgroups⟩ : ∃ loaded, loadProxyConfig F (views site).cfg (s.gateway site).docs = .ok loaded ∧
      loaded.targetGroups = config.targetGroups := by
    cases site with
    | master => exact ⟨config, h.load_master hviews, rfl⟩
    | backup => exact hdelivered
  refine ⟨?_, loaded, hload, hgroups ▸ h.groups.names, hgroups ▸ fun _ _ _ _ => Iff.rfl⟩
  simp only [reconcileAt, hload, Except.toOption, Option.map_some, Option.getD_some, hgroups, reconcileFromAt_eq]

variable {saved : AutomationConfig}

section

variable (J : Json B) (hviews : Views views base) (hsaved : Saved saved.templates)
  (hsame : SameTargets regex views saved.templates) (hdelivered : Delivered F views config s) (turn : Turn H)
include hviews hsaved hsame hdelivered

theorem takeTurn_settles (h : Held F views base (saved.templates.length + room) config s) :
    let config' := settle (wanted regex (views .master).nodes) (accepts (judge views base turn.site)) config saved.templates
    Held F views base room config' (takeTurn F J regex views saved s turn) ∧
      Delivered F views config' (takeTurn F J regex views saved s turn) := by
  obtain ⟨hrun, hloads⟩ := reconcileAt_eq J hviews h hdelivered turn.site turn.now turn.stamp saved
  obtain ⟨hheld, -⟩ := tryEach_settles (reconcileTemplateAt_attempts J hviews turn.now turn.stamp) false
    ⟨h, hsaved, hsame, fun _ _ _ _ => Iff.rfl, hloads⟩
  rw [← hrun] at hheld
  exact (deliver_spec hheld turn.cursor turn.received).2

theorem takeTurn_stopped (h : Held F views base room config s)
    (hstopped : Stopped (wanted regex (views .master).nodes) (accepts (judge views base turn.site)) config saved.templates) :
    (takeTurn F J regex views saved s turn).master = s.master ∧
      Held F views base room config (takeTurn F J regex views saved s turn) ∧
      Delivered F views config (takeTurn F J regex views saved s turn) := by
  obtain ⟨hrun, hloads⟩ := reconcileAt_eq J hviews h hdelivered turn.site turn.now turn.stamp saved
  have hrests := tryEach_stopped (reconcileTemplateAt_attempts J hviews turn.now turn.stamp) hstopped false
    ⟨h, hsaved, hsame, fun _ _ _ _ => Iff.rfl, hloads⟩
  rw [← hrun] at hrests
  unfold takeTurn
  rw [hrests]
  exact deliver_spec h turn.cursor turn.received

end

/-! ## Runs -/

/-- The versions that the gateways yet to reconcile may need. -/
def need (n : Nat) (acted : Site → Bool) : Nat := (if acted .master then 0 else n) + (if acted .backup then 0 else n)

variable {acted : Site → Bool}

theorem need_acted (n : Nat) {site : Site} (h : acted site = false) :
    need n acted = n + need n fun x => acted x || x = site := by
  cases site with
  | master => simp [need, h]
  | backup => simp [need, h, Nat.add_comm]

/-- The gateways that have reconciled have nothing left to do. -/
def Progress (F : Format P H) (regex : String → String → Except String Bool) (views : Site → View) (base : FileConfig)
    (templates : List AutomationTemplate) (acted : Site → Bool) (s : Sites P) : Prop :=
  ∃ config, Held F views base (need templates.length acted) config s ∧ Delivered F views config s ∧
    ∀ site, acted site = true →
      Stopped (wanted regex (views .master).nodes) (accepts (judge views base site)) config templates

/-- Every backend of the MASTER's file is registered with it. -/
def ListedRegistered (base cfg : FileConfig) : Prop :=
  ∀ b ∈ base.backendNodesEffective, ∃ b' ∈ cfg.backendNodesEffective, b'.name = b.name

/-- One gateway's reconcile leaves nothing to do there, and gives the other nothing to do. -/
theorem stopped_after (hviews : Views views base) (hlisted : ListedRegistered base (views .master).cfg)
    (hsaved : Saved templates) (hgroups : GroupsOk config) (site x : Site)
    (h : x ≠ site → Stopped (wanted regex (views .master).nodes) (accepts (judge views base x)) config templates) :
    Stopped (wanted regex (views .master).nodes) (accepts (judge views base x))
      (settle (wanted regex (views .master).nodes) (accepts (judge views base site)) config templates) templates := by
  have htasks : Tasks (wanted regex (views .master).nodes) GroupsOk templates := tasks_wanted hsaved hviews.nodes
  by_cases hself : x = site
  · subst hself
    exact stopped_settle htasks (List.Subset.refl templates) hgroups
  · cases site with
    | master => exact (h hself).after_total htasks (accepts_on hsaved hviews.nodes hviews.role) hgroups
    | backup =>
      obtain rfl : x = .master := by
        cases x with
        | master => rfl
        | backup => exact absurd rfl hself
      refine (h hself).after_stuck fun _ _ config' _ haccepted hrefused => ?_
      exact accepts_stuck hviews.settled.role hviews.shell hlisted haccepted hrefused

section

variable (J : Json B) (hviews : Views views base) (hlisted : ListedRegistered base (views .master).cfg)
  (hsaved : Saved saved.templates) (hsame : SameTargets regex views saved.templates)
  (h : Progress F regex views base saved.templates acted s)
include hviews hlisted hsaved hsame h

theorem takeTurn_progress (turn : Turn H) :
    Progress F regex views base saved.templates (fun x => acted x || x = turn.site) (takeTurn F J regex views saved s turn) := by
  obtain ⟨config, hheld, hdelivered, hstopped⟩ := h
  cases hacted : acted turn.site with
  | true =>
    have hsites : (fun x => acted x || decide (x = turn.site)) = acted := by
      funext x
      by_cases hx : x = turn.site
      · simp [hx, hacted]
      · simp [hx]
    obtain ⟨-, hheld', hdelivered'⟩ := takeTurn_stopped J hviews hsaved hsame hdelivered turn hheld (hstopped _ hacted)
    rw [hsites]
    exact ⟨config, hheld', hdelivered', hstopped⟩
  | false =>
    rw [need_acted _ hacted] at hheld
    obtain ⟨hheld', hdelivered'⟩ := takeTurn_settles J hviews hsaved hsame hdelivered turn hheld
    refine ⟨_, hheld', hdelivered', fun x hx => ?_⟩
    refine stopped_after hviews hlisted hsaved hheld.groups turn.site x fun hne => hstopped x ?_
    simpa [hne] using hx

theorem run_progress (turns : List (Turn H)) :
    Progress F regex views base saved.templates (fun x => acted x || turns.any (x = ·.site))
      (run (takeTurn F J regex views saved) s turns) := by
  induction turns generalizing s acted with
  | nil => simpa using h
  | cons turn turns ih =>
    have hrest := ih (takeTurn_progress J hviews hlisted hsaved hsame h turn)
    simpa [Bool.or_assoc] using hrest

end

/-- Where nothing is left to do at either gateway, no turn writes. -/
theorem run_rests (J : Json B) (hviews : Views views base) (hsaved : Saved saved.templates)
    (hsame : SameTargets regex views saved.templates) (h : Held F views base room config s)
    (hdelivered : Delivered F views config s)
    (hstopped : ∀ site, Stopped (wanted regex (views .master).nodes) (accepts (judge views base site)) config saved.templates)
    (turns : List (Turn H)) : (run (takeTurn F J regex views saved) s turns).master.docs = s.master.docs := by
  let Rests (s' : Sites P) : Prop :=
    s'.master.docs = s.master.docs ∧ Held F views base room config s' ∧ Delivered F views config s'
  have hrests : Rests (run (takeTurn F J regex views saved) s turns) := by
    refine inv_run_all _ (fun s' turn hs' => ?_) ⟨rfl, h, hdelivered⟩ turns
    obtain ⟨hdocs, hheld, hreplica⟩ := hs'
    obtain ⟨hmaster, hheld', hreplica'⟩ := takeTurn_stopped J hviews hsaved hsame hreplica turn hheld (hstopped turn.site)
    exact ⟨by rw [hmaster, hdocs], hheld', hreplica'⟩
  exact hrests.1

omit [DecidableEq P] in
theorem Held.masterGroups_eq (h : Held F views base room config s) : masterGroups F s = config.targetGroups := by
  simp only [masterGroups, h.file, load_of_writable h.writable, Except.toOption, Option.map_some, Option.getD_some]

/-- A group that is its template's plan is not written by any run. -/
theorem settle_keeps_planned (hviews : Views views base) (hsaved : Saved templates) (hgroups : GroupsOk config)
    (ok : ProxyConfig → Bool) (ht : t ∈ templates)
    (hplan : plannedTargetGroup regex (views .master).nodes config.targetGroups t = .ok group)
    (hnamed : groupNamed config.targetGroups t.targetGroup.name = some group) :
    groupNamed (settle (wanted regex (views .master).nodes) ok config templates).targetGroups t.targetGroup.name =
      some group := by
  have htasks : Tasks (wanted regex (views .master).nodes) GroupsOk templates := tasks_wanted hsaved hviews.nodes
  have hkeep : ∀ c c' u, GroupsOk c → groupNamed c.targetGroups t.targetGroup.name = some group → u ∈ templates →
      wanted regex (views .master).nodes c u = some c' → groupNamed c'.targetGroups t.targetGroup.name = some group := by
    intro c c' u hok hkept hu hnext
    obtain ⟨planned, hwritten, hname, hwell, -, hout, rfl⟩ := exists_wanted hsaved hviews.nodes hok hu hnext
    obtain ⟨hmem, hgroup⟩ := mem_groups_of_named hkept
    have hne : group.name ≠ planned.name := by
      intro heq
      obtain rfl := eq_of_group_name hsaved ht hu (by rw [← hgroup, ← hname, heq])
      have hagain := plannedTargetGroup_again hok hgroup hplan hmem
      obtain rfl := Except.ok.inj (hagain.symm.trans hwritten)
      exact hout hmem
    exact (groupNamed_eq_some (putGroup_ok hok hwell).names).mpr ⟨(mem_putGroup_of_ne hok hne).mpr hmem, hgroup⟩
  exact (settle_keeps htasks hkeep (List.Subset.refl templates) hgroups hnamed).2

/-- Two gateways at which the templates select the same targets: once both have reconciled,
    nothing is written any more, and at no time does the BACKUP touch a group that is what
    the MASTER plans. -/
theorem reconciled_pair_rests (J : Json B) (now : Site → Nat) {s : Sites P} (hfile : s.master.file.Settled)
    (hpeers : PeersRead F s.master.docs s.master.file)
    (hreg : s.master.registry.Inv (gatewayUnderlays (s.master.base F))) {raw saved : AutomationConfig}
    (hsaved : normalizeConfig regex raw = .ok saved)
    (hviews : (fun site => viewOf F (now site) (s.gateway site)) = views)
    (hstore : Writable F (s.master.base F) (2 * saved.templates.length) config s.master.docs)
    (hgroups : GroupsOk config) (hdelivered : Delivered F views config s) {standby : Option GatewayHaPeer}
    (hmaster : writeRole F (s.master.base F) s.master.docs = .ok (.localMaster standby)) {peer : GatewayHaPeer}
    (hbackup : writeRole F (views .backup).cfg s.backup.docs = .ok (.backup peer))
    (hsame : SameTargets regex views saved.templates)
    (hlisted : ListedRegistered (s.master.base F) (views .master).cfg) :
    (∀ turns further : List (Turn H), (∀ site, ∃ turn ∈ turns, turn.site = site) →
      (run (takeTurn F J regex views saved) s (turns ++ further)).master.docs =
        (run (takeTurn F J regex views saved) s turns).master.docs) ∧
    ∀ (turns : List (Turn H)) (turn : Turn H) (t : AutomationTemplate) (group : TargetGroup),
      turn.site = .backup → t ∈ saved.templates → t.enabled = true →
      let reached := run (takeTurn F J regex views saved) s turns
      plannedTargetGroup regex (views .master).nodes (masterGroups F reached) t = .ok group →
      groupNamed (masterGroups F reached) t.targetGroup.name = some group →
      groupNamed (masterGroups F (takeTurn F J regex views saved reached turn)) t.targetGroup.name = some group := by
  have hbase : (s.master.base F).Settled := mergeGatewayPeers_settled hfile hpeers
  have hfixed : Views views (s.master.base F) := by
    subst hviews
    exact ⟨hbase, merge_shell hbase s.master.registry (now .master), automationNodes_usable hbase hreg (now .master)⟩
  obtain ⟨hnormal, hnames⟩ := normalizeConfig_ok hsaved
  have htemplates : Saved saved.templates := ⟨hnormal, hnames⟩
  have hroom : need saved.templates.length (fun _ => false) = 2 * saved.templates.length := by
    simp only [need, Bool.false_eq_true, if_false]
    omega
  have hstart : Progress F regex views (s.master.base F) saved.templates (fun _ => false) s := by
    refine ⟨config, ⟨rfl, ?_, ⟨standby, hmaster⟩, ⟨peer, hbackup⟩, hgroups⟩, hdelivered, fun site h => nomatch h⟩
    rw [hroom]
    exact hstore
  constructor
  · intro turns further hboth
    obtain ⟨stored, hheld, hreplica, hstopped⟩ := run_progress J hfixed hlisted htemplates hsame hstart turns
    have hall : ∀ site, Stopped (wanted regex (views .master).nodes) (accepts (judge views (s.master.base F) site)) stored
        saved.templates := by
      intro site
      obtain ⟨turn, hturn, rfl⟩ := hboth site
      exact hstopped turn.site (by simpa using ⟨turn, hturn, rfl⟩)
    rw [run_append]
    exact run_rests J hfixed htemplates hsame hheld hreplica hall further
  · intro turns turn t group hsite ht henabled reached hplan hnamed
    obtain ⟨stored, hheld, hreplica, hstopped⟩ := run_progress J hfixed hlisted htemplates hsame hstart turns
    rw [hheld.masterGroups_eq] at hplan hnamed
    cases hacted : turns.any (turn.site = ·.site) with
    | true =>
      obtain ⟨-, hheld', -⟩ := takeTurn_stopped J hfixed htemplates hsame hreplica turn hheld
        (hstopped turn.site (by simpa using hacted))
      rw [hheld'.masterGroups_eq]
      exact hnamed
    | false =>
      rw [need_acted _ (by simpa using hacted : (false || turns.any (turn.site = ·.site)) = false)] at hheld
      obtain ⟨hheld', -⟩ := takeTurn_settles J hfixed htemplates hsame hreplica turn hheld
      rw [hheld'.masterGroups_eq]
      exact settle_keeps_planned hfixed htemplates hheld.groups _ ht hplan hnamed

end

/-! ## One backend -/

def turnAt (site : Site) : Turn (Option ProxyConfig) :=
  { site, now := 110, stamp := stampFrom, cursor := defaultSync plainFormat, received := ⟨7, "t3"⟩ }

def afterTurns (views : Site → View) (s : Sites Payload) (sites : List Site) : Sites Payload :=
  run (takeTurn plainFormat plainJson noRegex views (templatesFor ["web"])) s (sites.map turnAt)

def fileOf : Site → FileConfig
  | .master => gatewayFile "gateway-a" 0xc000020b
  | .backup => gatewayFile "gateway-b" 0xc000020c

/-- What is seen of the one backend where it has subscribed. -/
def seenBy (sites : List Site) (site : Site) : View :=
  if site ∈ sites then { cfg := { fileOf site with backendNodes := leftCfg.backendNodes }, nodes := leftNodes }
  else { cfg := fileOf site, nodes := [] }

def webGroup (targets : List BackendTarget) : TargetGroup :=
  { name := "web", periodSecs := some 15, retries := some 3, targets }

def onlyTarget : BackendTarget := { backend := some "backend-a", address := .v4 0xc0000215 }

/-- The backend has subscribed to the MASTER and not to the BACKUP: the BACKUP clears the group
    that the MASTER has made of it, and the MASTER makes it again. -/
theorem empty_view_clears_group : let s : Sites Payload := { master := gatewayA, backup := gatewayB }
    let views := seenBy [.master]
    (viewOf plainFormat 110 gatewayA = views .master ∧ viewOf plainFormat 110 gatewayB = views .backup) ∧
      writeRole plainFormat (views .backup).cfg gatewayB.docs = .ok (.backup peerA) ∧
      masterGroups plainFormat (afterTurns views s [.master]) = [webGroup [onlyTarget]] ∧
      masterGroups plainFormat (afterTurns views s [.master, .backup]) = [webGroup []] ∧
      masterGroups plainFormat (afterTurns views s [.master, .backup, .master]) = [webGroup [onlyTarget]] := by
  decide

def sharedPair : Sites Payload := { master := gatewayA, backup := { gatewayB with registry := gatewayA.registry } }

def webTemplate : AutomationTemplate := { name := "template-web", targetGroup := { name := "web" } }

/-- Subscribed to both, it stays. -/
theorem shared_view_rests :
    let views := seenBy [.master, .backup]
    masterGroups plainFormat (afterTurns views sharedPair [.master]) = [webGroup [onlyTarget]] ∧
      groupNamed (masterGroups plainFormat (afterTurns views sharedPair [.master, .backup])) "web" =
        some (webGroup [onlyTarget]) ∧
      (afterTurns views sharedPair [.master, .backup, .master, .backup]).master.docs =
        (afterTurns views sharedPair [.master, .backup]).master.docs := by
  intro views
  have hviews : (fun site => viewOf plainFormat 110 (sharedPair.gateway site)) = views := by
    funext site
    cases site with
    | master => decide
    | backup => decide
  have hfile : gatewayA.file.Settled := by
    rw [show gatewayA.file = gatewayA.file.normalize by decide]
    exact settled_normalize rfl
  have hpeers : PeersRead plainFormat gatewayA.docs gatewayA.file := by decide
  have hreg : gatewayA.registry.Inv (gatewayUnderlays (gatewayA.base plainFormat)) :=
    upsert_inv (empty_inv _) { nodeName := "backend-a", underlayIp := "192.0.2.21" } none "stream-1" 100
  have hsaved : normalizeConfig noRegex (templatesFor ["web"]) = .ok (templatesFor ["web"]) := by decide
  have hstore : Writable plainFormat (gatewayA.base plainFormat) 2 {} gatewayA.docs :=
    ⟨_, rfl, rfl, by decide, by decide⟩
  have hgroups : GroupsOk {} := ⟨fun group hgroup => absurd hgroup List.not_mem_nil, List.nodup_nil⟩
  have hmaster : writeRole plainFormat (gatewayA.base plainFormat) gatewayA.docs = .ok (.localMaster (some peerB)) := by
    decide
  have hbackup : writeRole plainFormat (views .backup).cfg sharedPair.backup.docs = .ok (.backup peerA) := by
    decide
  have hdelivered : Delivered plainFormat views {} sharedPair := ⟨{}, by decide, rfl⟩
  have htargets : ∀ t ∈ (templatesFor ["web"]).templates, targetsOf noRegex (views .backup).nodes t =
      targetsOf noRegex (views .master).nodes t := by decide
  have hsame : SameTargets noRegex views (templatesFor ["web"]).templates := fun t ht _ => htargets t ht
  have hlisted : ListedRegistered (gatewayA.base plainFormat) (views .master).cfg := by
    have hnone : (gatewayA.base plainFormat).backendNodesEffective = [] := by decide
    intro b hb
    rw [hnone] at hb
    cases hb
  obtain ⟨hrests, hkept⟩ := reconciled_pair_rests plainJson (fun _ => 110) hfile hpeers hreg hsaved hviews hstore hgroups
    hdelivered hmaster hbackup hsame hlisted
  have hfirst : masterGroups plainFormat (afterTurns views sharedPair [.master]) = [webGroup [onlyTarget]] := by decide
  have hplanned : plannedTargetGroup noRegex (views .master).nodes [webGroup [onlyTarget]] webTemplate =
      .ok (webGroup [onlyTarget]) := by decide
  have hlater := hkept [turnAt .master] (turnAt .backup) webTemplate (webGroup [onlyTarget]) rfl (by decide) rfl
  have hdone := hrests [turnAt .master, turnAt .backup] [turnAt .master, turnAt .backup] fun site => by
    cases site with
    | master => exact ⟨turnAt .master, List.mem_cons_self, rfl⟩
    | backup => exact ⟨turnAt .backup, List.mem_cons_of_mem _ List.mem_cons_self, rfl⟩
  simp only [afterTurns, List.map_cons, List.map_nil, List.cons_append, List.nil_append, run_cons, run_nil] at hfirst hlater hdone ⊢
  rw [hfirst] at hlater
  exact ⟨hfirst, hlater hplanned rfl, hdone⟩

end EdgeLb.Automation
