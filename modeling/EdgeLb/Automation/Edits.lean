/-
  EdgeLb.Automation.Edits — automation templates changed over the API of both gateways
  (`api/handlers/automations.rs`, `automation/store.rs`, `automation/sync.rs`).

  The templates are one document. A request loads it, makes its change and saves the whole
  of it: on the MASTER to its own store, on the BACKUP by sending it to the MASTER. The
  MASTER then sends what it saved to the BACKUP. Workers of both gateways take these steps
  in any order, each step may fail, and nothing ties a save to the load before it.

  A save is a set of edits, one for each template it is about; for all others it writes
  back what the request had loaded. So an edit lasts as long as no save writes back
  something older (`Current`): then a template is as the last request that edited it left
  it. Two requests that load the same document both succeed and the first one's edit is
  gone (`created_template_lost`).
-/

import EdgeLb.Automation.Template
import EdgeLb.Lib.Run
import EdgeLb.Lib.Upsert
import Mathlib.Logic.Function.Basic

namespace EdgeLb.Automation

open EdgeLb.Config EdgeLb.Lib

/-! ## Requests -/

inductive ImportMode
  | mergeSkip | mergeOverwrite | replaceAll
  deriving DecidableEq, Repr

inductive TemplateRequest
  | create (template : AutomationTemplate)
  | update (name : String) (template : AutomationTemplate)
  | delete (name : String)
  | importAll (dryRun : Bool) (mode : ImportMode) (config : AutomationConfig)
  deriving DecidableEq, Repr

abbrev Refusal := Nat × String

def AutomationConfig.template (config : AutomationConfig) (name : String) : Option AutomationTemplate :=
  config.templates.find? (·.name = name)

def upsertTemplate (config : AutomationConfig) (oldName : Option String) (template : AutomationTemplate) :
    AutomationConfig :=
  { templates := upsert (·.name = oldName.getD template.name) template config.templates }

def deleteTemplate (config : AutomationConfig) (name : String) : AutomationConfig × Bool :=
  let templates := config.templates.filter (·.name ≠ name)
  ({ templates }, templates.length ≠ config.templates.length)

/-- One template of an import that merges. -/
def mergeTemplate (mode : ImportMode) (merged : AutomationConfig) (template : AutomationTemplate) : AutomationConfig :=
  if merged.templates.any (·.name = template.name) then
    if mode = .mergeOverwrite then upsertTemplate merged none template else merged
  else { templates := merged.templates ++ [template] }

def mergeImport (current incoming : AutomationConfig) (mode : ImportMode) : AutomationConfig :=
  if mode = .replaceAll then incoming else incoming.templates.foldl (mergeTemplate mode) current

section

variable (regex : String → String → Except String Bool)

def normalized (config : AutomationConfig) : Except Refusal AutomationConfig :=
  (normalizeConfig regex config).mapError (400, ·)

/-- The body, before anything is loaded. -/
def checkedRequest : TemplateRequest → Except Refusal TemplateRequest
  | .create template => ((normalizeTemplate regex template).mapError (400, ·)).map .create
  | .update name template => ((normalizeTemplate regex template).mapError (400, ·)).map (.update name)
  | .delete name => .ok (.delete name)
  | .importAll dryRun mode config => (normalized regex config).map (.importAll dryRun mode)

/-- What a request makes of the configuration it loaded; nothing to save for a dry run. -/
def planned (config : AutomationConfig) : TemplateRequest → Except Refusal (Option AutomationConfig)
  | .create template =>
    if config.templates.any (·.name = template.name) then .error (409, s!"automation template {template.name} exists")
    else (normalized regex (upsertTemplate config none template)).map some
  | .update name template =>
    if !config.templates.any (·.name = name) then .error (404, s!"automation template {name} not found")
    else if template.name ≠ name && config.templates.any (·.name = template.name) then
      .error (409, s!"automation template {template.name} exists")
    else (normalized regex (upsertTemplate config (some name) template)).map some
  | .delete name =>
    if !(deleteTemplate config name).2 then .error (404, s!"automation template {name} not found")
    else .ok (some (deleteTemplate config name).1)
  | .importAll dryRun mode incoming =>
    (normalized regex (mergeImport config incoming mode)).map fun merged => if dryRun then none else some merged

/-! ## The pair -/

inductive Phase
  | waiting
  | loaded (request : TemplateRequest) (config : AutomationConfig)
  | saved (value : AutomationConfig)
  | replicated
  | answered (reply : Except Refusal Unit)
  deriving DecidableEq

/-- A save that reached the MASTER's store. -/
structure Save (ι : Type) where
  id : ι
  request : TemplateRequest
  loaded : AutomationConfig

structure Pair (ι : Type) where
  masterName : String
  master : AutomationConfig
  backup : AutomationConfig
  phase : ι → Phase
  /-- In the order they were made. -/
  saves : List (Save ι)

/-- The faults are the environment's; `cleanup` is the answer to deleting the generated group. -/
inductive EditEvent (ι : Type)
  | load (i : ι) (fault : Option String)
  | save (i : ι) (cleanup : Option Refusal) (fault : Option String)
  | replicate (i : ι) (fault : Option String)
  | finish (i : ι) (fault : Option String)

variable {ι : Type} [DecidableEq ι] (requests : ι → TemplateRequest) (atBackup : ι → Bool)

def Pair.to (s : Pair ι) (i : ι) (phase : Phase) : Pair ι := { s with phase := Function.update s.phase i phase }

/-- The BACKUP passes the MASTER's refusal on. -/
def Pair.refuse (s : Pair ι) (i : ι) (refusal : Refusal) : Pair ι :=
  s.to i (.answered (.error (if atBackup i then
    (500, s!"HA peer automation sync {s.masterName} failed with HTTP {refusal.1}: {refusal.2}") else refusal)))

/-- The status under which the MASTER answers that a save went wrong. -/
def syncFailed (atBackup : Bool) : Nat := if atBackup then 409 else 500

def cleanupFails (request : TemplateRequest) (cleanup : Option Refusal) : Option Refusal :=
  match request, cleanup with
  | .delete _, some (status, body) =>
    if (200 ≤ status ∧ status < 300) ∨ status = 404 then none
    else some (502, s!"generated target group cleanup failed with HTTP {status}: {body}")
  | _, _ => none

/-- What the gateway that saved answers when the target groups could not be brought up to date; the
    MASTER's own deletions do not try. -/
def reconcileFailed (request : TemplateRequest) (atBackup : Bool) (e : String) : Option Refusal :=
  match request, atBackup with
  | _, true => some (502, s!"automation templates saved but reconcile failed: {e}")
  | .create _, false => some (502, s!"automation template saved but reconcile failed: {e}")
  | .update _ _, false => some (502, s!"automation template saved but reconcile failed: {e}")
  | .importAll _ _ _, false => some (502, s!"automation templates imported but reconcile failed: {e}")
  | .delete _, false => none

def stepEdit (s : Pair ι) : EditEvent ι → Pair ι
  | .load i fault =>
    match s.phase i, checkedRequest regex (requests i), fault with
    | .waiting, .error refusal, _ => s.to i (.answered (.error refusal))
    | .waiting, .ok _, some e => s.to i (.answered (.error (500, e)))
    | .waiting, .ok request, none => s.to i (.loaded request (if atBackup i then s.backup else s.master))
    | _, _, _ => s
  | .save i cleanup fault =>
    match s.phase i with
    | .loaded request config =>
      match planned regex config request, cleanupFails request cleanup, fault with
      | .error refusal, _, _ => s.to i (.answered (.error refusal))
      | .ok none, _, _ => s.to i (.answered (.ok ()))
      | .ok (some _), some refusal, _ => s.to i (.answered (.error refusal))
      | .ok (some _), none, some e => s.refuse atBackup i (syncFailed (atBackup i), e)
      | .ok (some value), none, none =>
        -- the MASTER checks what the BACKUP sends once more
        match if atBackup i then normalized regex value else .ok value with
        | .error refusal => s.refuse atBackup i refusal
        | .ok value => { s.to i (.saved value) with master := value, saves := s.saves ++ [⟨i, request, config⟩] }
    | _ => s
  | .replicate i fault =>
    match s.phase i, fault with
    | .saved _, some e => s.refuse atBackup i (syncFailed (atBackup i), e)
    | .saved value, none => { s.to i .replicated with backup := value }
    | _, _ => s
  | .finish i fault =>
    match s.phase i, fault.bind (reconcileFailed (requests i) (atBackup i)) with
    | .replicated, some refusal => s.refuse atBackup i refusal
    | .replicated, none => s.to i (.answered (.ok ()))
    | _, _ => s

end

/-! ## Normal configurations -/

theorem givenText_givenText (value : Option String) : givenText (givenText value) = givenText value := by
  cases value with
  | none => rfl
  | some text =>
    by_cases h : trim text = ""
    · simp [givenText, Option.filter_some, h]
    · simp [givenText, Option.filter_some, h, trim_trim]

theorem givenText_probeType : ∀ p ∈ probeTypes, ((givenText (some p)).map toAsciiLowercase).getD "tcp" = p := by decide

variable {group out : TargetGroupTemplate}

/-- Checking the payload again changes nothing, whatever the times are. -/
theorem normalizePayload_again {probeType : String}
    (h : normalizePayload probeType group = .ok out) (periodSecs retries : Option UInt32) :
    normalizePayload probeType { out with periodSecs, retries } = .ok { out with periodSecs, retries } := by
  unfold normalizePayload at h ⊢
  split at h
  · next hhttp =>
    obtain ⟨hreq, h⟩ := seq_eq_ok.mp h
    obtain ⟨htls, h⟩ := seq_eq_ok.mp h
    obtain rfl := Except.ok.inj h
    rw [if_pos hhttp]
    refine seq_eq_ok.mpr ⟨?_, seq_eq_ok.mpr ⟨htls, ?_⟩⟩
    · rw [givenText_givenText]
      exact hreq
    · simp only [givenText_givenText]
      rfl
  · next hhttp =>
    rw [if_neg hhttp]
    split at h
    · next htcp =>
      obtain rfl := Except.ok.inj h
      rw [if_pos htcp]
      simp only [givenText_givenText]
    · next htcp =>
      obtain rfl := Except.ok.inj h
      rw [if_neg htcp]

theorem normalizeMonitored_again (h : normalizeMonitored group = .ok out) : normalizeMonitored out = .ok out := by
  unfold normalizeMonitored at h
  obtain ⟨htype, h⟩ := seq_eq_ok.mp h
  obtain ⟨payload, hpayload, h⟩ := bind_eq_ok.mp h
  obtain ⟨hport, h⟩ := seq_eq_ok.mp h
  obtain ⟨hperiod, h⟩ := seq_eq_ok.mp h
  obtain rfl := Except.ok.inj h
  generalize hp : ((givenText group.probeType).map toAsciiLowercase).getD "tcp" = p at *
  have hmem : p ∈ probeTypes := by simpa using htype
  have hprobe : payload.probeType = some p := (normalizePayload_keeps hpayload).2.2
  have hagain := normalizePayload_again hpayload (some (payload.periodSecs.getD 15)) (some (payload.retries.getD 3))
  cases payload
  cases hprobe
  unfold normalizeMonitored
  simp only [givenText_probeType p hmem]
  refine seq_eq_ok.mpr ⟨htype, bind_eq_ok.mpr ⟨_, hagain, seq_eq_ok.mpr ⟨hport, seq_eq_ok.mpr ⟨?_, rfl⟩⟩⟩⟩
  simpa using hperiod

theorem normalizeGroup_again (h : normalizeGroup group = .ok out) :
    normalizeGroup out = .ok out ∧ out.name = group.name := by
  unfold normalizeGroup at h
  split at h
  · next hmonitor =>
    have hkept : out.monitor = true := by
      unfold normalizeMonitored at h
      obtain ⟨-, h⟩ := seq_eq_ok.mp h
      obtain ⟨payload, hpayload, h⟩ := bind_eq_ok.mp h
      obtain ⟨-, h⟩ := seq_eq_ok.mp h
      obtain ⟨-, h⟩ := seq_eq_ok.mp h
      obtain rfl := Except.ok.inj h
      exact (normalizePayload_keeps hpayload).2.1.trans hmonitor
    unfold normalizeGroup
    rw [if_pos hkept]
    exact ⟨normalizeMonitored_again h, (normalizeMonitored_normal h).1⟩
  · next hmonitor =>
    obtain rfl := Except.ok.inj h
    unfold normalizeGroup
    rw [if_neg hmonitor]
    exact ⟨rfl, rfl⟩

section

variable {regex : String → String → Except String Bool}

/-- A normalised template is named after its group and normalises to itself. -/
theorem normalizeTemplate_again {template out : AutomationTemplate} (h : normalizeTemplate regex template = .ok out) :
    normalizeTemplate regex out = .ok out ∧ out.name = s!"template-{out.targetGroup.name}" := by
  unfold normalizeTemplate at h
  obtain ⟨hname, h⟩ := seq_eq_ok.mp h
  obtain ⟨group, hgroup, h⟩ := bind_eq_ok.mp h
  obtain ⟨hvalid, h⟩ := seq_eq_ok.mp h
  obtain rfl := Except.ok.inj h
  obtain ⟨hagain, hgroupName⟩ := normalizeGroup_again hgroup
  have htrim : trim group.name = group.name := by
    rw [hgroupName]
    exact trim_trim _
  have hnamed : trim template.targetGroup.name = group.name := hgroupName.symm
  refine ⟨?_, ?_⟩
  · unfold normalizeTemplate
    simp only [htrim]
    rw [hnamed] at hname hvalid ⊢
    exact seq_eq_ok.mpr ⟨hname, bind_eq_ok.mpr ⟨group, hagain, seq_eq_ok.mpr ⟨hvalid, rfl⟩⟩⟩
  · rw [hnamed]

/-- A configuration that normalises to itself. -/
def Settled (regex : String → String → Except String Bool) (config : AutomationConfig) : Prop :=
  normalizeConfig regex config = .ok config

theorem normalizeConfig_of_normal {config out : AutomationConfig}
    (hnormal : ∀ t ∈ config.templates, normalizeTemplate regex t = .ok t) (h : normalizeConfig regex config = .ok out) :
    out = config := by
  obtain ⟨templates, htemplates, h⟩ := bind_eq_ok.mp h
  obtain ⟨-, h⟩ := seq_eq_ok.mp h
  obtain rfl := Except.ok.inj h
  rw [mapM_eq_map (g := id) hnormal, List.map_id] at htemplates
  rw [← Except.ok.inj htemplates]

theorem settled_normalized {config out : AutomationConfig} (h : normalizeConfig regex config = .ok out) :
    Settled regex out := by
  obtain ⟨templates, htemplates, h⟩ := bind_eq_ok.mp h
  obtain ⟨hunique, h⟩ := seq_eq_ok.mp h
  obtain rfl := Except.ok.inj h
  refine bind_eq_ok.mpr ⟨templates, ?_, seq_eq_ok.mpr ⟨hunique, rfl⟩⟩
  have hagain : ∀ t ∈ templates, normalizeTemplate regex t = .ok (id t) := by
    intro t ht
    obtain ⟨raw, -, hraw⟩ := mem_of_mapM_eq_ok htemplates ht
    exact (normalizeTemplate_again hraw).1
  have hmap := mapM_eq_map hagain
  rwa [List.map_id] at hmap

variable {config : AutomationConfig}

theorem Settled.normal (h : Settled regex config) {t : AutomationTemplate}
    (ht : t ∈ config.templates) : normalizeTemplate regex t = .ok t ∧ t.name = s!"template-{t.targetGroup.name}" := by
  obtain ⟨templates, htemplates, h⟩ := bind_eq_ok.mp h
  obtain ⟨-, h⟩ := seq_eq_ok.mp h
  obtain rfl := Except.ok.inj h
  obtain ⟨raw, -, hraw⟩ := mem_of_mapM_eq_ok htemplates ht
  exact normalizeTemplate_again hraw

/-- Templates of a settled configuration have different names. -/
theorem Settled.names (h : Settled regex config) : (config.templates.map (·.name)).Nodup := by
  have hgroups := (normalizeConfig_ok h).2
  have hmap : config.templates.map (·.name) =
      (config.templates.map (·.targetGroup.name)).map fun name => s!"template-{name}" := by
    rw [List.map_map]
    exact List.map_congr_left fun t ht => (h.normal ht).2
  rw [hmap]
  refine hgroups.map fun a b hab => ?_
  simpa [toString] using hab

/-! ## What a save edits -/

/-- What a request does to the template of a name, if anything: it puts one there, or none. -/
def TemplateRequest.edits (config : AutomationConfig) : TemplateRequest → String → Option (Option AutomationTemplate)
  | .create template, name => if name = template.name then some (some template) else none
  | .update old template, name =>
    if name = template.name then some (some template) else if name = old then some none else none
  | .delete old, name => if name = old then some none else none
  | .importAll _ .replaceAll incoming, name => some (incoming.template name)
  | .importAll _ .mergeOverwrite incoming, name => (incoming.template name).map some
  | .importAll _ .mergeSkip incoming, name =>
    if (config.template name).isSome then none else (incoming.template name).map some

/-- A request that has been checked. -/
def TemplateRequest.Normal (regex : String → String → Except String Bool) : TemplateRequest → Prop
  | .create template => normalizeTemplate regex template = .ok template
  | .update _ template => normalizeTemplate regex template = .ok template
  | .delete _ => True
  | .importAll _ _ config => Settled regex config

theorem normal_of_checked {raw request : TemplateRequest} (h : checkedRequest regex raw = .ok request) :
    request.Normal regex := by
  cases raw with
  | create template =>
    obtain ⟨t, ht, rfl⟩ := map_eq_ok.mp h
    exact (normalizeTemplate_again (mapError_eq_ok.mp ht)).1
  | update name template =>
    obtain ⟨t, ht, rfl⟩ := map_eq_ok.mp h
    exact (normalizeTemplate_again (mapError_eq_ok.mp ht)).1
  | delete name =>
    obtain rfl := Except.ok.inj h
    trivial
  | importAll dryRun mode config =>
    obtain ⟨c, hc, rfl⟩ := map_eq_ok.mp h
    exact settled_normalized (mapError_eq_ok.mp hc)

theorem mergeTemplate_skip (merged : AutomationConfig) (template : AutomationTemplate) (name : String) :
    (mergeTemplate .mergeSkip merged template).template name =
      (merged.template name).or (if template.name = name then some template else none) := by
  unfold mergeTemplate
  by_cases hany : merged.templates.any (fun t => t.name = template.name) = true
  · rw [if_pos hany, if_neg (by decide)]
    by_cases hname : template.name = name
    · subst hname
      have hsome : (merged.template template.name).isSome = true := by
        simpa [AutomationConfig.template] using hany
      obtain ⟨t, ht⟩ := Option.isSome_iff_exists.mp hsome
      rw [ht, Option.some_or]
    · rw [if_neg hname, Option.or_none]
  · rw [if_neg hany]
    simp only [AutomationConfig.template, List.find?_append, List.find?_singleton, decide_eq_true_eq]

theorem mergeTemplate_overwrite (merged : AutomationConfig) (template : AutomationTemplate) :
    mergeTemplate .mergeOverwrite merged template = { templates := upsertBy (·.name) template merged.templates } := by
  unfold mergeTemplate upsertTemplate upsertBy upsert
  by_cases hany : merged.templates.any (fun t => t.name = template.name) = true
  · simp only [Option.getD_none, if_pos hany, if_true]
  · simp only [if_neg hany]

theorem foldl_mergeSkip (templates : List AutomationTemplate) (current : AutomationConfig) (name : String) :
    (templates.foldl (mergeTemplate .mergeSkip) current).template name =
      (current.template name).or (templates.find? (·.name = name)) := by
  induction templates generalizing current with
  | nil => simp
  | cons t ts ih =>
    rw [List.foldl_cons, ih, mergeTemplate_skip, Option.or_assoc, List.find?_cons]
    by_cases hname : t.name = name
    · simp [hname]
    · simp [hname]

theorem foldl_mergeOverwrite {templates : List AutomationTemplate} (hnodup : (templates.map (·.name)).Nodup)
    {current : AutomationConfig} (hcurrent : (current.templates.map (·.name)).Nodup) (name : String) :
    (templates.foldl (mergeTemplate .mergeOverwrite) current).template name =
      (templates.find? (·.name = name)).or (current.template name) := by
  induction templates generalizing current with
  | nil => simp
  | cons t ts ih =>
    rw [List.map_cons, List.nodup_cons] at hnodup
    have hstep : ((mergeTemplate .mergeOverwrite current t).templates.map (·.name)).Nodup := by
      rw [mergeTemplate_overwrite]
      exact nodup_upsertBy hcurrent
    have hlook : (mergeTemplate .mergeOverwrite current t).template name =
        if name = t.name then some t else current.template name := by
      rw [mergeTemplate_overwrite]
      exact find?_upsertBy hcurrent name
    rw [List.foldl_cons, ih hnodup.2 hstep, hlook, List.find?_cons]
    by_cases hname : t.name = name
    · -- no later template of the import has the name
      have hnone : ts.find? (fun x => x.name = name) = none := by
        rw [List.find?_eq_none]
        intro x hx heq
        exact hnodup.1 (List.mem_map.mpr ⟨x, hx, (of_decide_eq_true heq).trans hname.symm⟩)
      rw [hnone]
      simp [hname]
    · have hname' : ¬ name = t.name := fun h => hname h.symm
      simp [hname, hname']

theorem template_mergeImport {current incoming : AutomationConfig} (hcurrent : Settled regex current)
    (hincoming : Settled regex incoming) (dryRun : Bool) (mode : ImportMode) (name : String) :
    (mergeImport current incoming mode).template name =
      ((TemplateRequest.importAll dryRun mode incoming).edits current name).getD (current.template name) := by
  cases mode with
  | replaceAll => rfl
  | mergeSkip =>
    have hlook : (mergeImport current incoming .mergeSkip).template name =
        (current.template name).or (incoming.template name) := foldl_mergeSkip incoming.templates current name
    rw [hlook, TemplateRequest.edits]
    cases hc : current.template name with
    | some t => simp
    | none => cases incoming.template name <;> simp
  | mergeOverwrite =>
    have hlook : (mergeImport current incoming .mergeOverwrite).template name =
        (incoming.template name).or (current.template name) := foldl_mergeOverwrite hincoming.names hcurrent.names name
    rw [hlook, TemplateRequest.edits]
    cases incoming.template name <;> simp

theorem normalized_of_normal {config out : AutomationConfig}
    (hnormal : ∀ t ∈ config.templates, normalizeTemplate regex t = .ok t) (h : normalized regex config = .ok out) :
    out = config ∧ Settled regex out :=
  ⟨normalizeConfig_of_normal hnormal (mapError_eq_ok.mp h), settled_normalized (mapError_eq_ok.mp h)⟩

theorem mem_mergeImport {current incoming : AutomationConfig} {mode : ImportMode} {t : AutomationTemplate}
    (h : t ∈ (mergeImport current incoming mode).templates) : t ∈ current.templates ∨ t ∈ incoming.templates := by
  unfold mergeImport at h
  split at h
  · exact .inr h
  · generalize incoming.templates = ts at h ⊢
    induction ts generalizing current with
    | nil => exact .inl h
    | cons x xs ih =>
      rcases ih h with hmem | hmem
      · unfold mergeTemplate at hmem
        split at hmem
        · split at hmem
          · rcases mem_of_mem_upsert hmem with rfl | hmem
            · exact .inr List.mem_cons_self
            · exact .inl hmem
          · exact .inl hmem
        · rcases List.mem_append.mp hmem with hmem | hmem
          · exact .inl hmem
          · exact .inr (List.mem_singleton.mp hmem ▸ List.mem_cons_self)
      · exact .inr (List.mem_cons_of_mem x hmem)

theorem validateUniqueTemplates_ok :
    validateUniqueTemplates config = .ok () ↔
      config.templates.Pairwise fun s t => s.name ≠ t.name ∧ s.targetGroup.name ≠ t.targetGroup.name := by
  rw [validateUniqueTemplates, eachAfter_pairwise (p := fun _ => True)
    (r := fun s t : AutomationTemplate => s.name ≠ t.name ∧ s.targetGroup.name ≠ t.targetGroup.name)]
  · simp
  · intro before t
    rw [seq_eq_ok, bailIf_eq_ok]
    cases hfind : before.find? fun owner => owner.targetGroup.name = t.targetGroup.name with
    | none =>
      have hnone : ∀ s ∈ before, s.targetGroup.name ≠ t.targetGroup.name := by simpa using hfind
      constructor
      · rintro ⟨hnames, -⟩
        have hnames : ∀ s ∈ before, s.name ≠ t.name := by simpa using hnames
        exact ⟨trivial, fun s hs => ⟨hnames s hs, hnone s hs⟩⟩
      · rintro ⟨-, hall⟩
        exact ⟨by simpa using fun s hs => (hall s hs).1, rfl⟩
    | some owner =>
      have howner := List.find?_some hfind
      rw [decide_eq_true_eq] at howner
      have hmem : owner ∈ before := List.mem_of_find?_eq_some hfind
      refine iff_of_false (fun h => by cases h.2) fun h => (h.2 owner hmem).2 howner

theorem settled_delete (h : Settled regex config) (name : String) : Settled regex (deleteTemplate config name).1 := by
  have hnormal : ∀ t ∈ (deleteTemplate config name).1.templates, normalizeTemplate regex t = .ok (id t) := fun t ht =>
    (h.normal (List.mem_filter.mp ht).1).1
  obtain ⟨templates, htemplates, hsettled⟩ := bind_eq_ok.mp h
  obtain ⟨hunique, hsettled⟩ := seq_eq_ok.mp hsettled
  obtain rfl := Except.ok.inj hsettled
  refine bind_eq_ok.mpr ⟨_, mapM_eq_map hnormal, seq_eq_ok.mpr ⟨?_, ?_⟩⟩
  · rw [List.map_id]
    exact validateUniqueTemplates_ok.mpr ((validateUniqueTemplates_ok.mp hunique).sublist List.filter_sublist)
  · rw [List.map_id]
    rfl

theorem normal_upsertTemplate (hconfig : Settled regex config) {template : AutomationTemplate}
    (htemplate : normalizeTemplate regex template = .ok template) (old : Option String) :
    ∀ t ∈ (upsertTemplate config old template).templates, normalizeTemplate regex t = .ok t := by
  intro t ht
  rcases mem_of_mem_upsert ht with rfl | ht
  · exact htemplate
  · exact (hconfig.normal ht).1

/-- A request writes its edits over what it loaded, and nothing else. -/
theorem planned_edits {config value : AutomationConfig} {request : TemplateRequest} (hconfig : Settled regex config)
    (hrequest : request.Normal regex) (h : planned regex config request = .ok (some value)) :
    Settled regex value ∧ ∀ name, value.template name = (request.edits config name).getD (config.template name) := by
  cases request with
  | create template =>
    rw [planned] at h
    split at h
    · cases h
    · obtain ⟨out, hout, heq⟩ := map_eq_ok.mp h
      obtain rfl := Option.some.inj heq
      obtain ⟨rfl, hsettled⟩ := normalized_of_normal (normal_upsertTemplate hconfig hrequest none) hout
      refine ⟨hsettled, fun name => ?_⟩
      have hlook : (upsertTemplate config none template).template name =
          if name = template.name then some template else config.template name := find?_upsertBy hconfig.names name
      rw [hlook, TemplateRequest.edits]
      split
      · rfl
      · rfl
  | update old template =>
    rw [planned] at h
    split at h
    · cases h
    · next hold =>
      split at h
      · cases h
      · next hfree =>
        obtain ⟨out, hout, heq⟩ := map_eq_ok.mp h
        obtain rfl := Option.some.inj heq
        obtain ⟨rfl, hsettled⟩ := normalized_of_normal (normal_upsertTemplate hconfig hrequest (some old)) hout
        refine ⟨hsettled, fun name => ?_⟩
        have hany : ∃ t ∈ config.templates, t.name = old := by simpa using hold
        have hfree' : template.name = old ∨ ∀ t ∈ config.templates, t.name ≠ template.name := by
          by_cases hname : template.name = old
          · exact .inl hname
          · exact .inr (by simpa [hname] using hfree)
        have hlook : (upsertTemplate config (some old) template).template name =
            if name = template.name then some template else if name = old then none else config.template name :=
          find?_upsert_key hconfig.names hany hfree' name
        rw [hlook, TemplateRequest.edits]
        split
        · rfl
        · split
          · rfl
          · rfl
  | delete old =>
    rw [planned] at h
    split at h
    · cases h
    · obtain rfl := Option.some.inj (Except.ok.inj h)
      refine ⟨settled_delete hconfig old, fun name => ?_⟩
      rw [AutomationConfig.template, deleteTemplate, List.find?_filter, TemplateRequest.edits]
      by_cases hname : name = old
      · simp [hname]
      · have hagree : ∀ t : AutomationTemplate,
            decide (decide (t.name ≠ old) = true ∧ decide (t.name = name) = true) = decide (t.name = name) := by
          intro t
          by_cases ht : t.name = name
          · simp [ht, hname]
          · simp [ht]
        simp only [hagree, if_neg hname]
        rfl
  | importAll dryRun mode incoming =>
    obtain ⟨merged, hmerged, heq⟩ := map_eq_ok.mp h
    have hnormal : ∀ t ∈ (mergeImport config incoming mode).templates, normalizeTemplate regex t = .ok t := by
      intro t ht
      rcases mem_mergeImport ht with ht | ht
      · exact (hconfig.normal ht).1
      · exact (Settled.normal hrequest ht).1
    obtain ⟨rfl, hsettled⟩ := normalized_of_normal hnormal hmerged
    split at heq
    · cases heq
    · obtain rfl := Option.some.inj heq
      exact ⟨hsettled, template_mergeImport hconfig hrequest dryRun mode⟩

end

/-! ## Edits that last -/

section

variable {ι : Type}

def Save.edits (save : Save ι) : String → Option (Option AutomationTemplate) := save.request.edits save.loaded

/-- What a save edited is still so, or a later save edited it. -/
def Lasts (config : AutomationConfig) (save : Save ι) (later : List (Save ι)) : Prop :=
  ∀ name edit, save.edits name = some edit →
    config.template name = edit ∨ ∃ save' ∈ later, (save'.edits name).isSome = true

def AllLast (config : AutomationConfig) (saves : List (Save ι)) : Prop :=
  ∀ before save later, saves = before ++ save :: later → Lasts config save later

/-- One more save, which leaves alone what it does not edit. -/
theorem AllLast.snoc {config value : AutomationConfig} {saves : List (Save ι)} (h : AllLast config saves)
    {save : Save ι} (hvalue : ∀ name, value.template name = (save.edits name).getD (config.template name)) :
    AllLast value (saves ++ [save]) := by
  intro before save' later hsplit name edit hedit
  rcases List.eq_nil_or_concat later with rfl | ⟨later', last, rfl⟩
  · -- the new save itself
    obtain ⟨-, hlast⟩ := List.append_inj' hsplit rfl
    obtain rfl := List.singleton_inj.mp hlast
    rw [hvalue name, hedit]
    exact .inl rfl
  · rw [List.concat_eq_append, ← List.cons_append, ← List.append_assoc] at hsplit
    obtain ⟨hsaves, hlast⟩ := List.append_inj' hsplit rfl
    obtain rfl := List.singleton_inj.mp hlast
    rw [List.concat_eq_append]
    cases hagain : save.edits name with
    | some edit' => exact .inr ⟨save, List.mem_append_right _ (List.mem_singleton_self _), by rw [hagain]; rfl⟩
    | none =>
      rcases h before save' later' hsaves name edit hedit with hkept | ⟨other, hother, hedits⟩
      · rw [hvalue name, hagain]
        exact .inl hkept
      · exact .inr ⟨other, List.mem_append_left _ hother, hedits⟩

end

/-! ## Runs -/

def TemplateRequest.isDryRun : TemplateRequest → Bool
  | .importAll dryRun _ _ => dryRun
  | _ => false

section

variable (regex : String → String → Except String Bool) {ι : Type} [DecidableEq ι] (requests : ι → TemplateRequest)
  (atBackup : ι → Bool)

/-- The request has been saved, as it was checked. -/
def Logged (saves : List (Save ι)) (i : ι) : Prop :=
  ∃ save ∈ saves, save.id = i ∧ checkedRequest regex (requests i) = .ok save.request

def PhaseOk (saves : List (Save ι)) (i : ι) : Phase → Prop
  | .waiting => True
  | .loaded request config => checkedRequest regex (requests i) = .ok request ∧ Settled regex config
  | .saved value => Settled regex value ∧ Logged regex requests saves i
  | .replicated => Logged regex requests saves i
  | .answered (.ok ()) => (requests i).isDryRun = true ∨ Logged regex requests saves i
  | .answered (.error _) => True

structure EditInv (s : Pair ι) : Prop where
  master : Settled regex s.master
  backup : Settled regex s.backup
  last : AllLast s.master s.saves
  phases : ∀ i, PhaseOk regex requests s.saves i (s.phase i)

/-- When a save is made, the templates it does not edit are stored as the request loaded them. -/
def Current (s : Pair ι) : EditEvent ι → Prop
  | .save i _ _ => ∀ request config, s.phase i = .loaded request config →
      ∀ name, request.edits config name = none → config.template name = s.master.template name
  | _ => True

/-- It is enough that nothing was saved since the request loaded. -/
def unchanged (s : Pair ι) : EditEvent ι → Bool
  | .save i _ _ =>
    match s.phase i with
    | .loaded _ config => config = s.master
    | _ => true
  | _ => true

variable {regex requests atBackup} {s : Pair ι}

omit [DecidableEq ι] in
theorem current_of_unchanged {e : EditEvent ι} (h : unchanged s e = true) : Current s e := by
  cases e with
  | save i cleanup fault =>
    intro request config hphase name _
    simp only [unchanged, hphase, decide_eq_true_eq] at h
    rw [h]
  | load i fault => trivial
  | replicate i fault => trivial
  | finish i fault => trivial

omit [DecidableEq ι] in
theorem PhaseOk.mono {saves saves' : List (Save ι)} (hsub : ∀ save ∈ saves, save ∈ saves') {i : ι} {phase : Phase}
    (h : PhaseOk regex requests saves i phase) : PhaseOk regex requests saves' i phase := by
  have hlogged : Logged regex requests saves i → Logged regex requests saves' i := by
    rintro ⟨save, hmem, hid⟩
    exact ⟨save, hsub save hmem, hid⟩
  cases phase with
  | waiting => trivial
  | loaded request config => exact h
  | saved value => exact ⟨h.1, hlogged h.2⟩
  | replicated => exact hlogged h
  | answered reply =>
    cases reply with
    | error refusal => trivial
    | ok _ => exact h.imp_right hlogged

theorem EditInv.to (h : EditInv regex requests s) {i : ι} {phase : Phase}
    (hphase : PhaseOk regex requests s.saves i phase) : EditInv regex requests (s.to i phase) where
  master := h.master
  backup := h.backup
  last := h.last
  phases j := by
    by_cases hj : j = i
    · subst hj
      simp only [Pair.to, Function.update_self]
      exact hphase
    · simp only [Pair.to, Function.update_of_ne hj]
      exact h.phases j

theorem EditInv.refuse (h : EditInv regex requests s) (i : ι) (refusal : Refusal) :
    EditInv regex requests (s.refuse atBackup i refusal) := h.to trivial

theorem isDryRun_of_planned {raw request : TemplateRequest} (hchecked : checkedRequest regex raw = .ok request)
    {config : AutomationConfig} (h : planned regex config request = .ok none) : raw.isDryRun = true := by
  cases request with
  | create template =>
    rw [planned] at h
    split at h
    · cases h
    · obtain ⟨_, -, heq⟩ := map_eq_ok.mp h
      cases heq
  | update old template =>
    rw [planned] at h
    split at h
    · cases h
    · split at h
      · cases h
      · obtain ⟨_, -, heq⟩ := map_eq_ok.mp h
        cases heq
  | delete old =>
    rw [planned] at h
    split at h
    · cases h
    · cases h
  | importAll dryRun mode incoming =>
    obtain ⟨_, -, heq⟩ := map_eq_ok.mp h
    have hdry : dryRun = true := by
      cases dryRun with
      | true => rfl
      | false => cases heq
    cases raw with
    | importAll dryRun' mode' config' =>
      obtain ⟨_, -, heq'⟩ := map_eq_ok.mp hchecked
      obtain ⟨rfl, -, -⟩ := TemplateRequest.importAll.inj heq'
      exact hdry
    | create template =>
      obtain ⟨_, -, heq'⟩ := map_eq_ok.mp hchecked
      cases heq'
    | update old template =>
      obtain ⟨_, -, heq'⟩ := map_eq_ok.mp hchecked
      cases heq'
    | delete old => cases hchecked

/-- The save that reaches the MASTER's store. -/
theorem EditInv.save (h : EditInv regex requests s) {i : ι} {request : TemplateRequest} {config value : AutomationConfig}
    (hphase : s.phase i = .loaded request config) (hplan : planned regex config request = .ok (some value))
    (hcurrent : ∀ name, request.edits config name = none → config.template name = s.master.template name) :
    EditInv regex requests { s.to i (.saved value) with master := value, saves := s.saves ++ [⟨i, request, config⟩] } := by
  have hloaded := h.phases i
  rw [hphase] at hloaded
  obtain ⟨hchecked, hconfig⟩ := hloaded
  obtain ⟨hvalue, hedits⟩ := planned_edits hconfig (normal_of_checked hchecked) hplan
  have hlast : AllLast value (s.saves ++ [⟨i, request, config⟩]) := by
    refine h.last.snoc fun name => ?_
    rw [hedits name, Save.edits]
    cases hname : request.edits config name with
    | some edit => rfl
    | none => exact hcurrent name hname
  refine ⟨hvalue, h.backup, hlast, fun j => ?_⟩
  · by_cases hj : j = i
    · subst hj
      simp only [Pair.to, Function.update_self]
      exact ⟨hvalue, _, List.mem_append_right _ (List.mem_singleton_self _), rfl, hchecked⟩
    · simp only [Pair.to, Function.update_of_ne hj]
      exact (h.phases j).mono fun save hsave => List.mem_append_left _ hsave

theorem editInv_step (s : Pair ι) (e : EditEvent ι) (h : EditInv regex requests s) (hcurrent : Current s e) :
    EditInv regex requests (stepEdit regex requests atBackup s e) := by
  cases e with
  | load i fault =>
    simp only [stepEdit]
    split
    · exact h.to trivial
    · exact h.to trivial
    · next hchecked =>
      refine h.to ⟨hchecked, ?_⟩
      split
      · exact h.backup
      · exact h.master
    · exact h
  | save i cleanup fault =>
    simp only [stepEdit]
    split
    · next request config hphase =>
      have hloaded := h.phases i
      rw [hphase] at hloaded
      split
      · exact h.to trivial
      · next hplan => exact h.to (.inl (isDryRun_of_planned hloaded.1 hplan))
      · exact h.to trivial
      · exact h.refuse i _
      · next value hplan _ =>
        have hsettled := (planned_edits hloaded.2 (normal_of_checked hloaded.1) hplan).1
        split
        · exact h.refuse i _
        · next value' hvalue =>
          -- the MASTER's check leaves the value as it is
          have heq : value' = value := by
            split at hvalue
            · exact Except.ok.inj ((mapError_eq_ok.mp hvalue).symm.trans hsettled)
            · exact (Except.ok.inj hvalue).symm
          subst heq
          exact h.save hphase hplan (hcurrent request config hphase)
    · exact h
  | replicate i fault =>
    simp only [stepEdit]
    split
    · exact h.refuse i _
    · next value hphase =>
      have hsaved := h.phases i
      rw [hphase] at hsaved
      have hto : EditInv regex requests (s.to i .replicated) := h.to hsaved.2
      exact ⟨hto.master, hsaved.1, hto.last, hto.phases⟩
    · exact h
  | finish i fault =>
    simp only [stepEdit]
    split
    · exact h.refuse i _
    · next hphase _ =>
      have hreplicated := h.phases i
      rw [hphase] at hreplicated
      exact h.to (.inr hreplicated)
    · exact h

end

/-- Both gateways have settled templates and no request has been made. -/
def started {ι : Type} (masterName : String) (master backup : AutomationConfig) : Pair ι :=
  { masterName, master, backup, phase := fun _ => .waiting, saves := [] }

/-- Creates, updates, deletions and imports at both gateways, in any interleaving and with any
    steps failing: if every save finds the templates it does not edit stored as its request
    loaded them, then every request answered with success has been saved, and what it edited is
    in the MASTER's store unless a request saved after it edited that template too or
    replaced them all. -/
theorem answered_edits_last (regex : String → String → Except String Bool) {ι : Type} [DecidableEq ι]
    (requests : ι → TemplateRequest) (atBackup : ι → Bool) {s : Pair ι} {masterName : String}
    {master backup : AutomationConfig} (hs : s = started masterName master backup) (hmaster : Settled regex master)
    (hbackup : Settled regex backup) (es : List (EditEvent ι))
    (hcurrent : StepsMeet (stepEdit regex requests atBackup) Current s es) (i : ι)
    (hanswered : (run (stepEdit regex requests atBackup) s es).phase i = .answered (.ok ()))
    (hdry : (requests i).isDryRun = false) :
    ∃ before save later, (run (stepEdit regex requests atBackup) s es).saves = before ++ save :: later ∧
      save.id = i ∧ checkedRequest regex (requests i) = .ok save.request ∧
      Lasts (run (stepEdit regex requests atBackup) s es).master save later := by
  have h0 : EditInv regex requests s := by
    subst hs
    refine ⟨hmaster, hbackup, fun before save later hsplit => ?_, fun i => trivial⟩
    simp [started] at hsplit
  have hinv := inv_run (stepEdit regex requests atBackup) editInv_step h0 hcurrent
  have hphase := hinv.phases i
  rw [hanswered] at hphase
  rcases hphase with hdry' | ⟨save, hmem, hid, hchecked⟩
  · rw [hdry] at hdry'
    cases hdry'
  · obtain ⟨before, later, hsplit⟩ := List.append_of_mem hmem
    exact ⟨before, save, later, hsplit, hid, hchecked, hinv.last before save later hsplit⟩

/-! ## Two requests -/

def namedTemplate (group : String) : AutomationTemplate := { targetGroup := { name := group } }

/-- Each of two requests creates a template. -/
def twoCreates (i : Bool) : TemplateRequest := .create (namedTemplate (if i then "api" else "web"))

def handled (i : Bool) : List (EditEvent Bool) := [.replicate i none, .finish i none]

def emptyPair : Pair Bool := started "gateway-a" {} {}

def anyRegex : String → String → Except String Bool := fun _ _ => .ok true

/-- One after the other, each from a gateway that has what was saved before. -/
def oneByOne : List (EditEvent Bool) :=
  [.load false none, .save false none none] ++ handled false ++ [.load true none, .save true none none] ++ handled true

/-- Both load before either saves. -/
def atOnce : List (EditEvent Bool) :=
  [.load false none, .load true none, .save false none none] ++ handled false ++ [.save true none none] ++ handled true

/-- One at the MASTER, one at the BACKUP. -/
theorem created_templates_kept :
    (run (stepEdit anyRegex twoCreates id) emptyPair oneByOne).phase false = .answered (.ok ()) ∧
      ∃ before save later, (run (stepEdit anyRegex twoCreates id) emptyPair oneByOne).saves = before ++ save :: later ∧
        save.id = false ∧ checkedRequest anyRegex (twoCreates false) = .ok save.request ∧
        Lasts (run (stepEdit anyRegex twoCreates id) emptyPair oneByOne).master save later := by
  have hanswered : (run (stepEdit anyRegex twoCreates id) emptyPair oneByOne).phase false = .answered (.ok ()) := by
    decide
  have hunchanged : StepsMeet (stepEdit anyRegex twoCreates id) (fun s e => unchanged s e = true) emptyPair oneByOne := by
    decide
  have hcurrent := hunchanged.imp (I := fun _ => True) _ (fun _ _ _ _ => trivial) (fun _ _ _ => current_of_unchanged) trivial
  have hempty : Settled anyRegex {} := rfl
  have hstarted : emptyPair = started "gateway-a" {} {} := rfl
  exact ⟨hanswered, answered_edits_last anyRegex twoCreates id hstarted hempty hempty oneByOne hcurrent false hanswered rfl⟩

/-- Both at the MASTER: both are answered with success, and the first template is gone. -/
theorem created_template_lost :
    (run (stepEdit anyRegex twoCreates fun _ => false) emptyPair atOnce).phase false = .answered (.ok ()) ∧
      (run (stepEdit anyRegex twoCreates fun _ => false) emptyPair atOnce).phase true = .answered (.ok ()) ∧
      (run (stepEdit anyRegex twoCreates fun _ => false) emptyPair atOnce).master.template "template-web" = none ∧
      (run (stepEdit anyRegex twoCreates fun _ => false) emptyPair atOnce).master.templates.map (·.name) = ["template-api"] := by
  decide

end EdgeLb.Automation
