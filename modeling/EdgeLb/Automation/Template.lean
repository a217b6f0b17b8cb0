/-
  EdgeLb.Automation.Template — automation templates (`edge-lb/src/automation/model.rs`,
  `validate.rs`, `filter.rs`, and `planned_target_group_for_nodes` of
  `api/handlers/automations.rs`).

  A template selects backends and describes the target group to be made of them. It is
  normalised when it is saved. Regular expressions are a parameter (`regex pattern text`),
  since their engine is not the program's. A filter that fails on a node does not match it.

  Proved: what a saved template plans passes the checks of a target group
  (`planned_wellFormed`).
-/

import EdgeLb.Config.Accepts

namespace EdgeLb.Automation

open EdgeLb.Config EdgeLb.Lib

inductive NodeScope
  | all | filtered
  deriving DecidableEq, Repr

inductive FilterField
  | name | underlayIp | publicIp | underlayIpSource | publicIpSource
  deriving DecidableEq, Repr

inductive FilterOp
  | equals | notEquals | startsWith | notStartsWith | contains | notContains | regex | inCidr | notInCidr
  deriving DecidableEq, Repr

structure FilterCondition where
  field : FilterField
  op : FilterOp
  value : String
  deriving DecidableEq, Repr

/-- All conditions must hold: `FilterMatch` has one value. -/
structure NodeFilter where
  conditions : List FilterCondition := []
  deriving DecidableEq, Repr

structure TargetGroupTemplate where
  name : String := ""
  monitor : Bool := false
  probeType : Option String := some "none"
  probePort : Option UInt16 := none
  probeReq : Option String := none
  probeResp : Option String := none
  probeSkipTlsVerify : Bool := false
  periodSecs : Option UInt32 := some 15
  retries : Option UInt32 := some 3
  deriving DecidableEq, Repr

structure AutomationTemplate where
  name : String := ""
  enabled : Bool := true
  nodeScope : NodeScope := .all
  nodeFilter : Option NodeFilter := some {}
  targetGroup : TargetGroupTemplate := {}
  deriving DecidableEq, Repr

structure AutomationConfig where
  templates : List AutomationTemplate := []
  deriving DecidableEq, Repr

structure MatchedNode where
  name : String
  underlayIp : String
  publicIp : String
  underlayIpSource : Option String
  publicIpSource : Option String
  deriving DecidableEq, Repr

/-! ## Saving -/

/-- A given text, trimmed; a blank one counts as none. -/
def givenText (value : Option String) : Option String := (value.map trim).filter (· ≠ "")

def probeTypes : List String := ["none", "ping", "tcp", "udp", "http", "https"]

/-- The payload fields under a probe type. -/
def normalizePayload (probeType : String) (group : TargetGroupTemplate) : Except String TargetGroupTemplate :=
  if probeType ∈ ["http", "https"] then do
    bailIf (givenText group.probeReq).isNone "HTTP/HTTPS probe request is required"
    bailIf (group.probeSkipTlsVerify && probeType ≠ "https") "skip TLS verification is only valid for HTTPS probes"
    return { group with probeReq := givenText group.probeReq, probeResp := givenText group.probeResp }
  else if probeType ∈ ["tcp", "udp"] then
    .ok { group with probeReq := givenText group.probeReq, probeResp := givenText group.probeResp
                     probeSkipTlsVerify := false }
  else .ok { group with probeReq := none, probeResp := none, probeSkipTlsVerify := false }

def normalizeMonitored (group : TargetGroupTemplate) : Except String TargetGroupTemplate := do
  let probeType := ((givenText group.probeType).map toAsciiLowercase).getD "tcp"
  bailIf (probeType ∉ probeTypes) s!"unsupported probe_type {probeType}"
  let group ← normalizePayload probeType { group with probeType := some probeType }
  bailIf (probeType ≠ "ping" && group.probePort.isNone) "probe port is required for this probe type"
  bailIf (group.periodSecs.getD 15 == 0) "probe period must be in range 1..=65535"
  return { group with periodSecs := some (group.periodSecs.getD 15), retries := some (group.retries.getD 3) }

def validateCidr (value : String) : Except String Unit := do
  let (ip, bits) ← orBail (splitOnce '/' value.toList) "CIDR must include prefix"
  let ip ← orBail (parseIp (String.ofList ip)) "invalid IP address syntax"
  bailIf (!ip.isV4) "only IPv4 CIDR is supported"
  let bits ← orBail (parseUnsigned 256 bits) "invalid digit found in string"
  bailIf (32 < bits) "IPv4 CIDR prefix out of range"

section

variable (regex : String → String → Except String Bool)

def validateCondition (condition : FilterCondition) : Except String Unit := do
  let value := trim condition.value
  bailIf (value = "") "filter condition value must not be empty"
  match condition.op with
  | .regex => let _ ← regex value ""
  | .inCidr => validateCidr value
  | .notInCidr => validateCidr value
  | _ => pure ()
  bailIf (condition.field ∉ [.underlayIp, .publicIp] && condition.op ∈ [.inCidr, .notInCidr])
    "CIDR filter operators are only valid for IP fields"

def validateTemplate (template : AutomationTemplate) : Except String Unit := do
  bailIf (template.targetGroup.probePort == some 0) "probe port must be in range 1..=65535"
  eachIdx (fun _ condition => validateCondition regex condition) ((template.nodeFilter.map (·.conditions)).getD [])

def normalizeGroup (group : TargetGroupTemplate) : Except String TargetGroupTemplate :=
  if group.monitor then normalizeMonitored group
  else .ok { group with probeType := some "none", probeReq := none, probeResp := none, probeSkipTlsVerify := false }

def normalizeTemplate (template : AutomationTemplate) : Except String AutomationTemplate := do
  let name := trim template.targetGroup.name
  bailIf (name = "") "target group name is required"
  let targetGroup ← normalizeGroup { template.targetGroup with name }
  let template := { template with name := s!"template-{name}", targetGroup }
  validateTemplate regex template
  return template

/-- No two templates make the same group. -/
def validateUniqueTemplates (config : AutomationConfig) : Except String Unit :=
  eachAfter (fun before template => do
    bailIf (before.any (·.name = template.name)) s!"duplicate automation template {template.name}"
    match before.find? fun owner => owner.targetGroup.name = template.targetGroup.name with
    | none => pure ()
    | some owner =>
      .error (s!"duplicate automation target group {template.targetGroup.name} owned by {owner.name} and " ++
        template.name)) [] config.templates

def normalizeConfig (config : AutomationConfig) : Except String AutomationConfig := do
  let templates ← config.templates.mapM (normalizeTemplate regex)
  validateUniqueTemplates { templates }
  return { templates }

/-! ## Matching -/

def ipv4InCidr (ip : UInt32) (cidr : String) : Except String Bool := do
  let (base, bits) ← orBail (splitOnce '/' cidr.toList) "CIDR must include prefix"
  let base ← orBail (parseIpv4 (String.ofList base)) "invalid IPv4 address syntax"
  let bits ← orBail (parseUnsigned 256 bits) "invalid digit found in string"
  bailIf (32 < bits) "IPv4 CIDR prefix out of range"
  return ip.toNat / 2 ^ (32 - bits) = base.toNat / 2 ^ (32 - bits)

def fieldValue (node : MatchedNode) : FilterField → String
  | .name => node.name
  | .underlayIp => node.underlayIp
  | .publicIp => node.publicIp
  | .underlayIpSource => node.underlayIpSource.getD ""
  | .publicIpSource => node.publicIpSource.getD ""

def matchesCondition (node : MatchedNode) (condition : FilterCondition) : Except String Bool :=
  let current := fieldValue node condition.field
  let want := trim condition.value
  match condition.op with
  | .equals => .ok (current = want)
  | .notEquals => .ok (current ≠ want)
  | .startsWith => .ok (Lib.startsWith current want)
  | .notStartsWith => .ok (!Lib.startsWith current want)
  | .contains => .ok (containsText current want)
  | .notContains => .ok (!containsText current want)
  | .regex => regex want current
  | .inCidr =>
    match parseIp current with
    | none => .error "invalid IP address syntax"
    | some (.v4 ip) => ipv4InCidr ip want
    | some (.v6 _) => .ok false
  | .notInCidr =>
    match parseIp current with
    | some (.v4 ip) => (ipv4InCidr ip want).map (!·)
    | _ => .ok true

def matchesNode (node : MatchedNode) : List FilterCondition → Except String Bool
  | [] => .ok true
  | condition :: rest => do
    if ← matchesCondition regex node condition then matchesNode node rest else return false

def matchedNodes (template : AutomationTemplate) (nodes : List MatchedNode) : List MatchedNode :=
  match template.nodeScope, template.nodeFilter with
  | .filtered, some filter => nodes.filter fun node => (matchesNode regex node filter.conditions).toOption.getD false
  | _, _ => nodes

/-! ## Planning -/

/-- A target keeps the weight it had. -/
def plannedTarget (existing : Option TargetGroup) (node : MatchedNode) : Except String BackendTarget := do
  let address ← orBail (parseIp node.underlayIp) "invalid IP address syntax"
  let old := existing.bind fun group => group.targets.find? fun target => target.address = address
  return { backend := some node.name, address, weight := (old.map (·.weight)).getD 1 }

def plannedProbeType (group : TargetGroupTemplate) : Option String :=
  (group.probeType.filter fun value => !eqIgnoreAsciiCase value "none").map toAsciiLowercase

/-- The group without its targets comes from the template alone. -/
def plannedGroup (group : TargetGroupTemplate) (targets : List BackendTarget) : TargetGroup :=
  let probeType := plannedProbeType group
  let payloadProbe := probeType ∈ [some "tcp", some "udp", some "http", some "https"]
  { name := group.name
    monitor := group.monitor && probeType.isSome
    probeType
    probePort := if probeType = some "ping" then none else group.probePort
    probeReq := if payloadProbe then group.probeReq else none
    probeResp := if payloadProbe then group.probeResp else none
    probeSkipTlsVerify := group.probeSkipTlsVerify && probeType = some "https"
    periodSecs := group.periodSecs
    retries := group.retries
    targets }

def plannedTargetGroupForNodes (template : AutomationTemplate) (nodes : List MatchedNode) (existing : Option TargetGroup) :
    Except String TargetGroup := do
  return plannedGroup template.targetGroup (← (matchedNodes regex template nodes).mapM (plannedTarget existing))

/-! ## Saved templates -/

/-- What normalisation leaves of a group's description. -/
structure TargetGroupTemplate.Normal (group : TargetGroupTemplate) : Prop where
  name : isBlank group.name = false
  port : group.probePort ≠ some 0
  monitored : group.monitor = true → (∃ p ∈ probeTypes, group.probeType = some p) ∧ group.periodSecs ≠ some 0

variable {regex}

theorem normalizePayload_keeps {probeType : String} {group out : TargetGroupTemplate}
    (h : normalizePayload probeType group = .ok out) :
    out.name = group.name ∧ out.monitor = group.monitor ∧ out.probeType = group.probeType := by
  unfold normalizePayload at h
  split at h
  · obtain ⟨-, h⟩ := seq_eq_ok.mp h
    obtain ⟨-, h⟩ := seq_eq_ok.mp h
    cases h
    exact ⟨rfl, rfl, rfl⟩
  · split at h
    · cases h
      exact ⟨rfl, rfl, rfl⟩
    · cases h
      exact ⟨rfl, rfl, rfl⟩

theorem normalizeMonitored_normal {group out : TargetGroupTemplate} (h : normalizeMonitored group = .ok out) :
    out.name = group.name ∧ (∃ p ∈ probeTypes, out.probeType = some p) ∧ out.periodSecs ≠ some 0 := by
  unfold normalizeMonitored at h
  obtain ⟨htype, h⟩ := seq_eq_ok.mp h
  obtain ⟨payload, hpayload, h⟩ := bind_eq_ok.mp h
  obtain ⟨-, h⟩ := seq_eq_ok.mp h
  obtain ⟨hperiod, h⟩ := seq_eq_ok.mp h
  cases h
  obtain ⟨hname, -, hprobe⟩ := normalizePayload_keeps hpayload
  refine ⟨hname, ⟨_, ?_, hprobe⟩, ?_⟩
  · simpa using htype
  · simpa using hperiod

theorem normalizeTemplate_normal {template out : AutomationTemplate} (h : normalizeTemplate regex template = .ok out) :
    out.targetGroup.Normal := by
  unfold normalizeTemplate at h
  obtain ⟨hname, h⟩ := seq_eq_ok.mp h
  obtain ⟨group, hgroup, h⟩ := bind_eq_ok.mp h
  obtain ⟨hvalid, h⟩ := seq_eq_ok.mp h
  cases h
  obtain ⟨hport, -⟩ := seq_eq_ok.mp hvalid
  replace hname : trim template.targetGroup.name ≠ "" := by simpa using hname
  have hport : group.probePort ≠ some 0 := by simpa using hport
  unfold normalizeGroup at hgroup
  split at hgroup
  · obtain ⟨hkept, htype, hperiod⟩ := normalizeMonitored_normal hgroup
    refine ⟨?_, hport, fun _ => ⟨htype, hperiod⟩⟩
    rw [hkept]
    exact isBlank_trim hname
  · next hmonitor =>
    cases hgroup
    exact ⟨isBlank_trim hname, hport, fun hm => absurd hm hmonitor⟩

theorem normalizeConfig_ok {config out : AutomationConfig} (h : normalizeConfig regex config = .ok out) :
    (∀ t ∈ out.templates, t.targetGroup.Normal) ∧ (out.templates.map (·.targetGroup.name)).Nodup := by
  obtain ⟨templates, htemplates, h⟩ := bind_eq_ok.mp h
  obtain ⟨hunique, h⟩ := seq_eq_ok.mp h
  cases h
  constructor
  · intro t ht
    obtain ⟨raw, -, hraw⟩ := mem_of_mapM_eq_ok htemplates ht
    exact normalizeTemplate_normal hraw
  · -- of the two refusals only the one by group name matters
    let looser (before : List AutomationTemplate) (t : AutomationTemplate) : Except String Unit :=
      bailIf (before.any fun owner => owner.targetGroup.name = t.targetGroup.name) ""
    have hloose : eachAfter looser [] templates = .ok () := by
      refine eachAfter_mono (fun before t hpass => ?_) hunique
      obtain ⟨-, hpass⟩ := seq_eq_ok.mp hpass
      split at hpass
      · next hnone => simpa [looser] using hnone
      · cases hpass
    refine ((eachAfter_nodup (p := fun _ => True) fun before t => ?_).mp hloose).2
    simp [looser]

/-! ## What is planned -/

theorem probeType_planned : ∀ p ∈ probeTypes,
    ((some p).filter fun value => !eqIgnoreAsciiCase value "none").map toAsciiLowercase =
      if p = "none" then none else some p := by decide

theorem probeType_read : ∀ p ∈ probeTypes, toAsciiLowercase (trim p) = p := by decide

/-- The probe type of a monitored group is kept, but for the one that means none. -/
theorem plannedProbeType_monitored {group : TargetGroupTemplate} (h : group.Normal) (hmonitor : group.monitor = true)
    (hsome : (plannedProbeType group).isSome = true) :
    ∃ p ∈ probeTypes, p ≠ "none" ∧ plannedProbeType group = some p := by
  obtain ⟨⟨p, hp, htype⟩, -⟩ := h.monitored hmonitor
  have hplanned : plannedProbeType group = if p = "none" then none else some p := by
    rw [plannedProbeType, htype]
    exact probeType_planned p hp
  by_cases hnone : p = "none"
  · simp [hplanned, hnone] at hsome
  · exact ⟨p, hp, hnone, by simp [hplanned, hnone]⟩

theorem plannedGroup_probe {group : TargetGroupTemplate} (h : group.Normal) (targets : List BackendTarget) (label : String)
    (hmonitor : (plannedGroup group targets).monitor = true) :
    validateProbeConfig label (plannedGroup group targets) = .ok () := by
  obtain ⟨hm, hsome⟩ := Bool.and_eq_true_iff.mp hmonitor
  obtain ⟨p, hp, hnone, htype⟩ := plannedProbeType_monitored h hm hsome
  have hperiod := (h.monitored hm).2
  have hport := h.port
  have hkind := probeType_read p hp
  have hmember : p ∈ ["none", "ping", "tcp", "udp", "http", "https"] := hp
  unfold validateProbeConfig plannedGroup
  simp only [htype, Option.getD_some, hkind]
  by_cases hping : p = "ping"
  · subst hping
    simp [seq_eq_ok, hperiod]
  · have hpayload : p ∈ ["tcp", "udp", "http", "https"] := by simp_all
    cases hgiven : group.probePort with
    | none => simp [seq_eq_ok, hperiod, hping, hmember, hpayload]
    | some port =>
      have hzero : port ≠ 0 := fun hz => hport (by rw [hgiven, hz])
      simp [seq_eq_ok, hperiod, hping, hnone, hzero, hmember, hpayload]

/-- A node whose address reads and is usable, under a name of the inventory. -/
structure MatchedNode.Usable (backends : List BackendNode) (node : MatchedNode) : Prop where
  address : ∃ ip, parseIp node.underlayIp = some ip ∧ ip.isUnspecified = false
  known : (backends.any fun b => b.name == node.name) = true

variable {node : MatchedNode}

theorem mem_of_mem_matchedNodes {template : AutomationTemplate} {nodes : List MatchedNode}
    (h : node ∈ matchedNodes regex template nodes) : node ∈ nodes := by
  unfold matchedNodes at h
  split at h
  · exact (List.mem_filter.mp h).1
  · exact h

variable {backends : List BackendNode} {nodes : List MatchedNode} {template : AutomationTemplate}
  {existing : Option TargetGroup}

theorem exists_planned (hnodes : ∀ node ∈ nodes, node.Usable backends) :
    ∃ group, plannedTargetGroupForNodes regex template nodes existing = .ok group := by
  obtain ⟨targets, htargets⟩ : ∃ targets, (matchedNodes regex template nodes).mapM (plannedTarget existing) = .ok targets := by
    refine exists_mapM_eq_ok fun node hnode => ?_
    obtain ⟨ip, hip, -⟩ := (hnodes node (mem_of_mem_matchedNodes hnode)).address
    simp only [plannedTarget, hip, orBail]
    exact ⟨_, rfl⟩
  exact ⟨_, bind_eq_ok.mpr ⟨targets, htargets, rfl⟩⟩

/-- A planned target has a weight that was accepted before or one, and a usable address. -/
theorem plannedTarget_wellFormed {target : BackendTarget} (hnode : node.Usable backends)
    (hexisting : ∀ group, existing = some group → group.WellFormed) (h : plannedTarget existing node = .ok target) :
    target.WellFormed ∧ target.known backends = true := by
  obtain ⟨ip, hip, hspecified⟩ := hnode.address
  obtain ⟨address, haddress, h⟩ := bind_eq_ok.mp h
  cases h
  obtain rfl : ip = address := by
    rw [orBail_eq_ok] at haddress
    exact Option.some.inj (hip.symm.trans haddress)
  refine ⟨⟨?_, hspecified⟩, hnode.known⟩
  cases hold : existing.bind fun group => group.targets.find? fun target => target.address = ip with
  | none => exact (by decide : (1 : UInt32) ≠ 0)
  | some old =>
    obtain ⟨group, hgroup, hfind⟩ := Option.bind_eq_some_iff.mp hold
    exact ((hexisting group hgroup).targets old (List.mem_of_find?_eq_some hfind)).1

/-- What a saved template plans over usable nodes is a group the checks accept. -/
theorem planned_wellFormed (hnormal : template.targetGroup.Normal) (hnodes : ∀ node ∈ nodes, node.Usable backends)
    (hexisting : ∀ group, existing = some group → group.WellFormed) {group : TargetGroup}
    (h : plannedTargetGroupForNodes regex template nodes existing = .ok group) :
    group.name = template.targetGroup.name ∧ group.WellFormed ∧ group.Known backends := by
  obtain ⟨targets, htargets, h⟩ := bind_eq_ok.mp h
  cases h
  have hall : ∀ target ∈ targets, target.WellFormed ∧ target.known backends = true := by
    intro target htarget
    obtain ⟨node, hnode, hplanned⟩ := mem_of_mapM_eq_ok htargets htarget
    exact plannedTarget_wellFormed (hnodes node (mem_of_mem_matchedNodes hnode)) hexisting hplanned
  refine ⟨rfl, ⟨hnormal.name, fun hmonitor => plannedGroup_probe hnormal targets _ hmonitor, ?_⟩, ?_⟩
  · exact fun target htarget => (hall target htarget).1
  · exact fun target htarget => (hall target htarget).2

/-! ## Planning again -/

/-- What a plan reads of the nodes: their names and addresses, in order. -/
def targetsOf (regex : String → String → Except String Bool) (nodes : List MatchedNode) (template : AutomationTemplate) :
    List (String × Option IpAddr) :=
  (matchedNodes regex template nodes).map fun node => (node.name, parseIp node.underlayIp)

theorem planned_congr {nodes' : List MatchedNode} (h : targetsOf regex nodes' template = targetsOf regex nodes template)
    (existing : Option TargetGroup) :
    plannedTargetGroupForNodes regex template nodes' existing = plannedTargetGroupForNodes regex template nodes existing := by
  let fromPair (pair : String × Option IpAddr) : Except String BackendTarget := do
    let address ← orBail pair.2 "invalid IP address syntax"
    let old := existing.bind fun group => group.targets.find? fun target => target.address = address
    return { backend := some pair.1, address, weight := (old.map (·.weight)).getD 1 }
  have hpairs (nodes : List MatchedNode) :
      (matchedNodes regex template nodes).mapM (plannedTarget existing) = (targetsOf regex nodes template).mapM fromPair := by
    rw [targetsOf, List.mapM_map]
    rfl
  unfold plannedTargetGroupForNodes
  rw [hpairs nodes', hpairs nodes, h]

/-- The weight a target at this address is given. -/
def keptWeight (existing : Option TargetGroup) (address : IpAddr) : UInt32 :=
  ((existing.bind fun group => group.targets.find? fun target => target.address = address).map (·.weight)).getD 1

theorem plannedTarget_eq_ok {target : BackendTarget} :
    plannedTarget existing node = .ok target ↔ ∃ address, parseIp node.underlayIp = some address ∧
      target = { backend := some node.name, address, weight := keptWeight existing address } := by
  unfold plannedTarget
  rw [bind_eq_ok]
  simp only [orBail_eq_ok]
  constructor
  · rintro ⟨address, haddress, h⟩
    exact ⟨address, haddress, (Except.ok.inj h).symm⟩
  · rintro ⟨address, haddress, rfl⟩
    exact ⟨address, haddress, rfl⟩

/-- A plan over a group that was planned from the same nodes is that group: the weights are
    found again under their addresses. -/
theorem planned_again {group : TargetGroup} (h : plannedTargetGroupForNodes regex template nodes existing = .ok group) :
    plannedTargetGroupForNodes regex template nodes (some group) = .ok group := by
  obtain ⟨targets, htargets, h⟩ := bind_eq_ok.mp h
  obtain rfl := Except.ok.inj h
  refine bind_eq_ok.mpr ⟨targets, ?_, rfl⟩
  rw [← htargets]
  refine mapM_congr fun node hnode => ?_
  obtain ⟨target, htarget, hplanned⟩ := mapM_ok_of_mem htargets hnode
  rw [hplanned]
  obtain ⟨address, haddress, rfl⟩ := plannedTarget_eq_ok.mp hplanned
  refine plannedTarget_eq_ok.mpr ⟨address, haddress, ?_⟩
  -- the first target at the address has the same weight, though it may be another node's
  obtain ⟨found, hfound⟩ : ∃ found, targets.find? (fun target => target.address = address) = some found := by
    rw [← Option.isSome_iff_exists, List.find?_isSome]
    exact ⟨_, htarget, by simp⟩
  obtain ⟨node', -, hplanned'⟩ := mem_of_mapM_eq_ok htargets (List.mem_of_find?_eq_some hfound)
  obtain ⟨address', -, rfl⟩ := plannedTarget_eq_ok.mp hplanned'
  obtain rfl : address' = address := by simpa using List.find?_some hfound
  have hweight : keptWeight (some (plannedGroup template.targetGroup targets)) address' = keptWeight existing address' := by
    simp [keptWeight, plannedGroup, hfound]
  rw [hweight]

end

end EdgeLb.Automation
