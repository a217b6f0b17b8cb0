/-
  EdgeLb.Api.Commits — the stored listeners and target groups over a sequence of writes.

  `commit` is one operation on the stored configuration, on a node whose other settings stay
  as they are: what the operation's edit gives when it goes through, and the configuration as
  it was when it is rejected.

  Two things are said of an accepted operation, and everything about runs of them follows from
  these (`Commits`). It commits what was asked for, no more and no less. And it is made of
  single changes, each with the checks that were passed for it (`Change`): one change, or for
  an import of listeners one for each listener.
-/

import EdgeLb.Api.Operations
import EdgeLb.Lib.Run
import Mathlib.Logic.Relation

namespace EdgeLb.Api

open EdgeLb.Config EdgeLb.Lib EdgeLb.Storage EdgeLb.Provider

section

variable {B : Type} (J : Json B)

/-- The listeners of a request whose body reads. -/
def listenersOf : ProxyConfigOperation B → List Listener
  | .listenerImport body => ((J.listenerImport body).toOption.getD []).map (·.toListener)
  | .listenerCreate body | .listenerUpdate _ body => ((J.listener body).toOption.map (·.toListener)).toList
  | _ => []

def groupsOf : ProxyConfigOperation B → List TargetGroup
  | .targetGroupImport body => (J.targetGroupImport body).toOption.getD []
  | .targetGroupCreate body => (J.targetGroup.decode body).toOption.toList
  | .targetGroupUpdate name body => (J.targetGroup.decode (J.withName name body)).toOption.toList
  | _ => []

def putListener (state : ProxyConfig) (listener : Listener) : ProxyConfig :=
  { state with listeners := upsertBy Listener.name listener state.listeners }

def replaceListener (name : String) (state : ProxyConfig) (listener : Listener) : ProxyConfig :=
  { state with listeners := updateFirst (·.name = name) (fun _ => listener) state.listeners }

def removeListener (name : String) (state : ProxyConfig) : ProxyConfig :=
  { state with listeners := state.listeners.filter (·.name ≠ name) }

def removeGroup (name : String) (state : ProxyConfig) : ProxyConfig :=
  { state with targetGroups := state.targetGroups.filter (·.name ≠ name) }

/-- The configuration a request asks for, before any check. -/
def asked (state : ProxyConfig) (op : ProxyConfigOperation B) : ProxyConfig :=
  match op with
  | .listenerImport _ => (listenersOf J op).foldl putListener state
  | .listenerCreate _ => { state with listeners := state.listeners ++ listenersOf J op }
  | .listenerUpdate name _ => (listenersOf J op).foldl (replaceListener name) state
  | .listenerDelete name => removeListener name state
  | .targetGroupImport _ | .targetGroupCreate _ | .targetGroupUpdate _ _ =>
    (groupsOf J op).foldl (fun state group => putGroup group state) state
  | .targetGroupDelete name => removeGroup name state

variable (cfg : FileConfig) (ha : Option GatewayHaRuntimeConfig)

/-- The configuration an operation commits, when it is accepted. -/
def committed (op : ProxyConfigOperation B) (state : ProxyConfig) : Option ProxyConfig :=
  match (editOf J cfg ha op : Except (Reply Unit) (Edit Unit)) with
  | .ok edit => (edit.update state).toOption
  | .error _ => none

def commit (state : ProxyConfig) (op : ProxyConfigOperation B) : ProxyConfig := (committed J cfg ha op state).getD state

end

/-! ## A listener put in -/

theorem nodup_seen (protocols : List Protocol) :
    (protocols.foldl (fun seen p => if p ∈ seen then seen else seen ++ [p]) []).Nodup := by
  have hkeep : ∀ (seen : List Protocol) (p : Protocol), seen.Nodup → (if p ∈ seen then seen else seen ++ [p]).Nodup := by
    intro seen p hseen
    split
    · exact hseen
    · next hnew => exact List.nodup_append.mpr ⟨hseen, by simp, fun a ha b hb => by
        rw [List.mem_singleton.mp hb]
        exact fun heq => hnew (heq ▸ ha)⟩
  exact inv_run_all (fun seen p => if p ∈ seen then seen else seen ++ [p]) hkeep List.nodup_nil protocols

theorem toListener_protocols_nodup (resource : ListenerConfigResource) : resource.toListener.protocols.Nodup :=
  nodup_seen _

theorem listenersOf_protocols_nodup {B : Type} {J : Json B} {op : ProxyConfigOperation B} {listener : Listener}
    (h : listener ∈ listenersOf J op) : listener.protocols.Nodup := by
  have hread : ∃ resource : ListenerConfigResource, resource.toListener = listener := by
    cases op with
    | listenerImport body =>
      obtain ⟨resource, -, heq⟩ := List.mem_map.mp h
      exact ⟨resource, heq⟩
    | listenerCreate body | listenerUpdate name body =>
      obtain ⟨resource, -, heq⟩ := Option.map_eq_some_iff.mp (Option.mem_toList.mp h)
      exact ⟨resource, heq⟩
    | _ => cases h
  obtain ⟨resource, rfl⟩ := hread
  exact toListener_protocols_nodup resource

section

variable {cfg : FileConfig} {ha : Option GatewayHaRuntimeConfig} {state state' : ProxyConfig}

/-- What passed when a listener was put in, and what came of it. -/
structure Puts (cfg : FileConfig) (ha : Option GatewayHaRuntimeConfig) (listener : Listener) (oldName : Option String)
    (state state' : ProxyConfig) : Prop where
  checked : validateListenerConfig cfg ha listener oldName state.listeners state.targetGroups = .ok ()
  fits : validateListenerCapacity cfg ha state'.listeners = .ok ()
  result : state' = { state with listeners := upsert (fun item => some item.name = oldName) listener state.listeners }

variable {listener : Listener} {written : List Listener} {names : List String}

theorem editSnapshot_eq_ok {operation : ListenerMutation} :
    editSnapshot cfg ha state listener operation = .ok state' ↔
      ∃ oldName, operation.oldName state.listeners = .ok oldName ∧ Puts cfg ha listener oldName state state' := by
  unfold editSnapshot
  rw [bind_eq_ok]
  refine exists_congr fun oldName => and_congr_right fun _ => ?_
  rw [seq_eq_ok, seq_eq_ok, invalidListener, invalidListener, mapError_eq_ok, mapError_eq_ok]
  constructor
  · rintro ⟨hchecked, hfits, hresult⟩
    obtain rfl := Except.ok.inj hresult
    exact ⟨hchecked, hfits, rfl⟩
  · rintro ⟨hchecked, hfits, rfl⟩
    exact ⟨hchecked, hfits, rfl⟩

theorem Puts.mem {oldName : Option String} (h : Puts cfg ha listener oldName state state') :
    listener ∈ state'.listeners := by
  rw [h.result]
  exact mem_upsert_self

theorem Puts.keeps {listener item : Listener} {oldName : Option String} (h : Puts cfg ha listener oldName state state')
    (hitem : item ∈ state.listeners) (hname : some item.name ≠ oldName) : item ∈ state'.listeners := by
  rw [h.result]
  exact mem_upsert_of_mem hitem (decide_eq_false hname)

/-- The listener an import of `listener` replaces. -/
def replacedBy (listeners : List Listener) (listener : Listener) : Option String :=
  if listeners.any (·.name = listener.name) then some listener.name else none

theorem importMutation_oldName (listeners : List Listener) (listener : Listener) :
    ListenerMutation.oldName listeners
      (if listeners.any (·.name = listener.name) then .update listener.name else .create) =
      .ok (replacedBy listeners listener) := by
  unfold replacedBy
  split
  · next hany => simp only [ListenerMutation.oldName, hany, if_true]
  · rfl

/-- A listener is put in under its own name. -/
theorem Puts.putListener_eq (h : Puts cfg ha listener (replacedBy state.listeners listener) state state') :
    state' = putListener state listener := by
  rw [h.result, putListener, upsertBy, replacedBy]
  split
  · simp only [Option.some.injEq]
  · next hany =>
    have hnone : (state.listeners.any fun item => decide (some item.name = none)) = false := by simp
    simp only [upsert, hany, hnone, Bool.false_eq_true, if_false]

/-! ## Single changes -/

/-- One change that an operation with these listeners makes. -/
inductive Change (cfg : FileConfig) (ha : Option GatewayHaRuntimeConfig) (written : List Listener) :
    ProxyConfig → ProxyConfig → Prop
  | put {state state' : ProxyConfig} {listener : Listener} {oldName : Option String} (mem : listener ∈ written)
      (puts : Puts cfg ha listener oldName state state') : Change cfg ha written state state'
  | dropListener (state : ProxyConfig) (name : String) : Change cfg ha written state (removeListener name state)
  | setGroups (state : ProxyConfig) (groups : List TargetGroup)
      (valid : (withProxy cfg { state with targetGroups := groups }).validate = .ok ()) :
      Change cfg ha written state { state with targetGroups := groups }
  | dropGroup (state : ProxyConfig) (name : String) (unused : ∀ listener ∈ state.listeners, listener.targetGroup ≠ name) :
      Change cfg ha written state (removeGroup name state)

abbrev Changes (cfg : FileConfig) (ha : Option GatewayHaRuntimeConfig) (written : List Listener) :
    ProxyConfig → ProxyConfig → Prop :=
  Relation.ReflTransGen (Change cfg ha written)

/-- What every single change keeps. -/
theorem Changes.keep {I : ProxyConfig → Prop}
    (step : ∀ s s', I s → Change cfg ha written s s' → I s') (h : Changes cfg ha written state state') (h0 : I state) :
    I state' := by
  induction h with
  | refl => exact h0
  | tail _ hchange ih => exact step _ _ ih hchange

theorem importListeners_puts {rest : List Listener}
    (h : importListeners cfg ha names state (listener :: rest) = .ok state') :
    listener.name ∉ names ∧ ∃ next, Puts cfg ha listener (replacedBy state.listeners listener) state next ∧
      importListeners cfg ha (names ++ [listener.name]) next rest = .ok state' := by
  unfold importListeners at h
  split at h
  · cases h
  · next hnew =>
    obtain ⟨next, hedit, hrest⟩ := bind_eq_ok.mp h
    obtain ⟨oldName, hold, hputs⟩ := editSnapshot_eq_ok.mp hedit
    rw [importMutation_oldName] at hold
    obtain rfl := Except.ok.inj hold
    exact ⟨hnew, next, hputs, hrest⟩

theorem importListeners_changes {written listeners : List Listener}
    (hwritten : ∀ listener ∈ listeners, listener ∈ written)
    (h : importListeners cfg ha names state listeners = .ok state') : Changes cfg ha written state state' := by
  induction listeners generalizing names state with
  | nil =>
    obtain rfl := Except.ok.inj h
    exact .refl
  | cons listener rest ih =>
    obtain ⟨-, next, hputs, hrest⟩ := importListeners_puts h
    obtain ⟨hmem, hwritten⟩ := List.forall_mem_cons.mp hwritten
    exact .head (.put hmem hputs) (ih hwritten hrest)

section

variable {listeners : List Listener} (h : importListeners cfg ha names state listeners = .ok state')
include h

theorem importListeners_eq_asked : state' = listeners.foldl putListener state := by
  induction listeners generalizing names state with
  | nil => exact (Except.ok.inj h).symm
  | cons listener rest ih =>
    obtain ⟨-, next, hputs, hrest⟩ := importListeners_puts h
    rw [List.foldl_cons, ← hputs.putListener_eq]
    exact ih hrest

/-- No listener of an import replaces another one of it. -/
theorem importListeners_mem :
    (∀ item ∈ state.listeners, item.name ∈ names → item ∈ state'.listeners) ∧
      ∀ listener ∈ listeners, listener ∈ state'.listeners := by
  induction listeners generalizing names state with
  | nil =>
    obtain rfl := Except.ok.inj h
    exact ⟨fun item hitem _ => hitem, by simp⟩
  | cons listener rest ih =>
    obtain ⟨hnew, next, hputs, hrest⟩ := importListeners_puts h
    obtain ⟨hearlier, hlater⟩ := ih hrest
    refine ⟨fun item hitem hname => ?_, List.forall_mem_cons.mpr ⟨?_, hlater⟩⟩
    · refine hearlier item (hputs.keeps hitem ?_) (List.mem_append_left _ hname)
      unfold replacedBy
      split
      · exact fun heq => hnew (Option.some.inj heq ▸ hname)
      · simp
    · exact hearlier listener hputs.mem (by simp)

end

theorem putGroups_eq_asked {groups : List TargetGroup} (h : putGroups names state groups = .ok state') :
    state' = groups.foldl (fun state group => putGroup group state) state := by
  induction groups generalizing names state with
  | nil => exact (Except.ok.inj h).symm
  | cons group rest ih =>
    unfold putGroups at h
    split at h
    · cases h
    · exact ih h

theorem checked_changes {context : String} {next : ProxyConfig}
    (hlisteners : next.listeners = state.listeners) (h : checked cfg context next = .ok state') :
    state' = next ∧ Changes cfg ha written state state' := by
  unfold checked at h
  split at h
  · next hvalid =>
    obtain rfl := Except.ok.inj h
    have hnext : next = { state with targetGroups := next.targetGroups } := by rw [← hlisteners]
    rw [hnext] at hvalid
    refine ⟨rfl, ?_⟩
    rw [hnext]
    exact .single (.setGroups state _ hvalid)
  · cases h

theorem foldl_putGroup_listeners (groups : List TargetGroup) (state : ProxyConfig) :
    (groups.foldl (fun state group => putGroup group state) state).listeners = state.listeners :=
  inv_run_all (I := fun s => s.listeners = state.listeners) (fun state group => putGroup group state)
    (fun _ _ h => h) rfl groups

theorem upsertTargetGroup_changes {group : TargetGroup} (h : upsertTargetGroup cfg group state = .ok state') :
    state' = putGroup group state ∧ Changes cfg ha written state state' := by
  unfold upsertTargetGroup at h
  split at h
  · cases h
  · exact checked_changes rfl h

theorem importTargetGroups_changes {groups : List TargetGroup} (h : importTargetGroups cfg groups state = .ok state') :
    state' = groups.foldl (fun state group => putGroup group state) state ∧ Changes cfg ha written state state' := by
  obtain ⟨next, hnext, h⟩ := bind_eq_ok.mp h
  obtain rfl := putGroups_eq_asked hnext
  exact checked_changes (foldl_putGroup_listeners groups state) h

theorem deleteTargetGroup_eq_ok {name : String} (h : deleteTargetGroup name state = .ok state') :
    (∀ listener ∈ state.listeners, listener.targetGroup ≠ name) ∧ state' = removeGroup name state := by
  unfold deleteTargetGroup at h
  split at h
  · cases h
  · next hunused =>
    split at h
    · obtain rfl := Except.ok.inj h
      exact ⟨by simpa using hunused, rfl⟩
    · cases h

end

/-! ## Accepted operations -/

section

variable {B : Type} {J : Json B} {cfg : FileConfig} {ha : Option GatewayHaRuntimeConfig} {op : ProxyConfigOperation B}
  {state state' : ProxyConfig}

theorem committed_eq_some :
    committed J cfg ha op state = some state' ↔
      ∃ edit : Edit Unit, editOf J cfg ha op = .ok edit ∧ edit.update state = .ok state' := by
  unfold committed
  cases hedit : (editOf J cfg ha op : Except (Reply Unit) (Edit Unit)) with
  | error r => simp
  | ok edit =>
    cases hupdate : edit.update state with
    | ok s => simp [hupdate, Except.toOption]
    | error r => simp [hupdate, Except.toOption]

/-- What is said of every accepted operation. -/
structure Commits (J : Json B) (cfg : FileConfig) (ha : Option GatewayHaRuntimeConfig) (op : ProxyConfigOperation B)
    (state state' : ProxyConfig) : Prop where
  asked : state' = asked J state op
  changes : Changes cfg ha (listenersOf J op) state state'
  written : ∀ listener ∈ listenersOf J op, listener ∈ state'.listeners

theorem commits_create {body : B} {resource : ListenerConfigResource} (hread : J.listener body = .ok resource)
    (h : editSnapshot cfg ha state resource.toListener .create = .ok state') :
    Commits J cfg ha (.listenerCreate body) state state' := by
  obtain ⟨oldName, hold, hputs⟩ := editSnapshot_eq_ok.mp h
  obtain rfl := Except.ok.inj hold
  have hof : listenersOf J (.listenerCreate body) = [resource.toListener] := by
    simp only [listenersOf, hread, Except.toOption, Option.map_some, Option.toList_some]
  have hnone : (state.listeners.any fun item => decide (some item.name = none)) = false := by simp
  constructor
  · rw [hputs.result, asked, hof]
    simp only [upsert, hnone, Bool.false_eq_true, if_false]
  · rw [hof]
    exact .single (.put List.mem_cons_self hputs)
  · rw [hof]
    exact List.forall_mem_singleton.mpr hputs.mem

theorem commits_update {name : String} {body : B} {resource : ListenerConfigResource}
    (hread : J.listener body = .ok resource)
    (h : editSnapshot cfg ha state resource.toListener (.update name) = .ok state') :
    Commits J cfg ha (.listenerUpdate name body) state state' := by
  obtain ⟨oldName, hold, hputs⟩ := editSnapshot_eq_ok.mp h
  have hof : listenersOf J (.listenerUpdate name body) = [resource.toListener] := by
    simp only [listenersOf, hread, Except.toOption, Option.map_some, Option.toList_some]
  simp only [ListenerMutation.oldName] at hold
  split at hold
  · next hany =>
    obtain rfl := Except.ok.inj hold
    constructor
    · rw [hputs.result, asked, hof, List.foldl_cons, List.foldl_nil, replaceListener]
      simp only [upsert, Option.some.injEq, hany, if_true]
    · rw [hof]
      exact .single (.put List.mem_cons_self hputs)
    · rw [hof]
      exact List.forall_mem_singleton.mpr hputs.mem
  · cases hold

theorem commits_of_committed (h : committed J cfg ha op state = some state') : Commits J cfg ha op state state' := by
  obtain ⟨edit, hedit, hupdate⟩ := committed_eq_some.mp h
  cases op with
  | listenerImport body =>
    obtain ⟨resources, hread, hedit⟩ := bind_eq_ok.mp hedit
    obtain rfl := Except.ok.inj hedit
    have hof : listenersOf J (.listenerImport body) = resources.map (·.toListener) := by
      simp only [listenersOf, mapError_eq_ok.mp hread, Except.toOption, Option.getD_some]
    refine ⟨?_, ?_, ?_⟩
    · rw [asked, hof]
      exact importListeners_eq_asked hupdate
    · rw [hof]
      exact importListeners_changes (fun _ hmem => hmem) hupdate
    · rw [hof]
      exact (importListeners_mem hupdate).2
  | targetGroupImport body =>
    obtain ⟨groups, hread, hedit⟩ := bind_eq_ok.mp hedit
    obtain rfl := Except.ok.inj hedit
    have hof : groupsOf J (.targetGroupImport body) = groups := by
      simp only [groupsOf, mapError_eq_ok.mp hread, Except.toOption, Option.getD_some]
    obtain ⟨hresult, hchanges⟩ := importTargetGroups_changes hupdate
    exact ⟨by rw [asked, hof, hresult], hchanges, fun _ hmem => (nomatch hmem)⟩
  | listenerCreate body =>
    obtain ⟨resource, hread, hedit⟩ := bind_eq_ok.mp hedit
    obtain rfl := Except.ok.inj hedit
    exact commits_create (mapError_eq_ok.mp hread) hupdate
  | listenerUpdate name body =>
    obtain ⟨resource, hread, hedit⟩ := bind_eq_ok.mp hedit
    obtain rfl := Except.ok.inj hedit
    exact commits_update (mapError_eq_ok.mp hread) hupdate
  | listenerDelete name =>
    obtain rfl := Except.ok.inj hedit
    simp only [deleteListener] at hupdate
    split at hupdate
    · obtain rfl := Except.ok.inj hupdate
      exact ⟨rfl, .single (.dropListener state name), fun _ hmem => (nomatch hmem)⟩
    · cases hupdate
  | targetGroupCreate body =>
    obtain ⟨group, hread, hedit⟩ := bind_eq_ok.mp hedit
    obtain rfl := Except.ok.inj hedit
    have hof : groupsOf J (.targetGroupCreate body) = [group] := by
      simp only [groupsOf, mapError_eq_ok.mp hread, Except.toOption, Option.toList_some]
    obtain ⟨hresult, hchanges⟩ := upsertTargetGroup_changes hupdate
    exact ⟨by rw [asked, hof, hresult, List.foldl_cons, List.foldl_nil], hchanges, fun _ hmem => (nomatch hmem)⟩
  | targetGroupUpdate name body =>
    obtain ⟨group, hread, hedit⟩ := bind_eq_ok.mp hedit
    obtain rfl := Except.ok.inj hedit
    have hof : groupsOf J (.targetGroupUpdate name body) = [group] := by
      simp only [groupsOf, mapError_eq_ok.mp hread, Except.toOption, Option.toList_some]
    obtain ⟨hresult, hchanges⟩ := upsertTargetGroup_changes hupdate
    exact ⟨by rw [asked, hof, hresult, List.foldl_cons, List.foldl_nil], hchanges, fun _ hmem => (nomatch hmem)⟩
  | targetGroupDelete name =>
    obtain rfl := Except.ok.inj hedit
    obtain ⟨hunused, rfl⟩ := deleteTargetGroup_eq_ok hupdate
    exact ⟨rfl, .single (.dropGroup state name hunused), fun _ hmem => (nomatch hmem)⟩

theorem commit_of_committed (h : committed J cfg ha op state = some state') : commit J cfg ha state op = state' := by
  rw [commit, h, Option.getD_some]

theorem commit_of_rejected (h : committed J cfg ha op state = none) : commit J cfg ha state op = state := by
  rw [commit, h, Option.getD_none]

/-- What every change of well-read listeners keeps, every operation keeps. -/
theorem commit_keep {I : ProxyConfig → Prop} (step : ∀ s s', I s → Change cfg ha (listenersOf J op) s s' → I s')
    (h : I state) : I (commit J cfg ha state op) := by
  cases hc : committed J cfg ha op state with
  | none => rwa [commit_of_rejected hc]
  | some state' =>
    rw [commit_of_committed hc]
    exact (commits_of_committed hc).changes.keep step h

/-! ## On the node's store -/

/-- The kind of reply does not matter to what is written. -/
theorem editOf_update (J : Json B) (cfg : FileConfig) (ha : Option GatewayHaRuntimeConfig) (op : ProxyConfigOperation B)
    (H : Type) :
    (editOf J cfg ha op : Except (Reply H) (Edit H)).toOption.map Edit.update =
      (editOf J cfg ha op : Except (Reply Unit) (Edit Unit)).toOption.map Edit.update := by
  cases op with
  | listenerImport body =>
    simp only [editOf]
    cases J.listenerImport body <;> rfl
  | targetGroupImport body =>
    simp only [editOf]
    cases J.targetGroupImport body <;> rfl
  | listenerCreate body | listenerUpdate name body =>
    simp only [editOf]
    cases J.listener body <;> rfl
  | targetGroupCreate body =>
    simp only [editOf]
    cases J.targetGroup.decode body <;> rfl
  | targetGroupUpdate name body =>
    simp only [editOf]
    cases J.targetGroup.decode (J.withName name body) <;> rfl
  | listenerDelete name | targetGroupDelete name => rfl

/-- On a store the node may write to, an operation leaves what `commit` says. -/
theorem invokeLocal_commit {P H : Type} [DecidableEq P] {F : Format P H} {docs : Docs Key P} {room : Nat}
    (hstore : Writable F cfg (room + 1) state docs) (op : ProxyConfigOperation B) (at_ : Stamp) :
    ∃ left, room ≤ left ∧ Writable F cfg left (commit J cfg (loadHa F docs).toOption state op)
      (invokeLocal F J cfg at_ op docs).1 := by
  have hupdate := editOf_update J cfg (loadHa F docs).toOption op H
  cases hedit : (editOf J cfg (loadHa F docs).toOption op : Except (Reply H) (Edit H)) with
  | error reply =>
    have hnone : committed J cfg (loadHa F docs).toOption op state = none := by
      unfold committed
      cases hunit : (editOf J cfg (loadHa F docs).toOption op : Except (Reply Unit) (Edit Unit)) with
      | error r => rfl
      | ok edit =>
        rw [hedit, hunit] at hupdate
        cases hupdate
    rw [commit_of_rejected hnone]
    exact ⟨room + 1, Nat.le_succ room, by simpa only [invokeLocal, hedit] using hstore⟩
  | ok edit =>
    have hcommitted : committed J cfg (loadHa F docs).toOption op state = (edit.update state).toOption := by
      unfold committed
      cases hunit : (editOf J cfg (loadHa F docs).toOption op : Except (Reply Unit) (Edit Unit)) with
      | error r =>
        rw [hedit, hunit] at hupdate
        cases hupdate
      | ok plain =>
        rw [hedit, hunit] at hupdate
        obtain hsame : edit.update = plain.update := Option.some.inj hupdate
        rw [hsame]
    cases hresult : edit.update state with
    | error r =>
      rw [hresult] at hcommitted
      rw [commit_of_rejected hcommitted, invokeLocal_rejected hedit hstore hresult at_]
      exact ⟨room + 1, Nat.le_succ room, hstore⟩
    | ok next =>
      rw [hresult] at hcommitted
      obtain ⟨docs', hinvoke, hwritable, -⟩ := invokeLocal_commits hedit hstore hresult at_
      rw [commit_of_committed hcommitted, hinvoke]
      exact ⟨room, le_refl room, hwritable⟩

end

/-! ## Bodies that are the values -/

inductive ValueBody
  | listener (resource : ListenerConfigResource)
  | listeners (resources : List ListenerConfigResource)
  | targetGroup (group : TargetGroup)
  | targetGroups (groups : List TargetGroup)
  | operation (op : ProxyConfigOperation ValueBody)

def valueJson : Json ValueBody where
  listener := fun | .listener r => .ok r | _ => .error "not a listener"
  listenerImport := fun | .listeners rs => .ok rs | _ => .error (.json "not a list of listeners")
  targetGroup := ⟨.targetGroup, fun | .targetGroup g => .ok g | _ => .error "not a target group", fun _ => rfl⟩
  targetGroupImport := fun | .targetGroups gs => .ok gs | _ => .error (.json "not a list of target groups")
  withName := fun name body => match body with
    | .targetGroup g => .targetGroup { g with name }
    | body => body
  operation := ⟨.operation, fun | .operation op => .ok op | _ => .error "not an operation", fun _ => rfl⟩

def soloGateway : FileConfig :=
  { nodeRole := .gateway, nodeName := "gateway-a", publicIp := .v4 0xc000020b, underlayIp := .v4 0xc000020b
    network := { gatewayPublicIp := .v4 0xc000020b, gatewayIp := .v4 0xc000020b, vxlanDev := "edge-hub" }
    gatewayNodes := [⟨"gateway-a", .v4 0xc000020b, .v4 0xc000020b, "10.255.255.1/24"⟩] }

example : soloGateway.validate = .ok () := by decide

end EdgeLb.Api
