/-
  EdgeLb.Ha.Hooks — the programs behind the managed HA hooks (`run_managed_hook_state` and
  `run_hook_program` of `edge-lb/src/provider/native/ha.rs`), and what a call takes for done.

  A call runs `promote` or `demote`, then `verify`, and records the role and the VIP once both
  have succeeded. A program that could not be started has not run; one that ended with a
  failure has. A call that is not forced is skipped when what it asks for is recorded.

  So the record falls behind the hooks: a `demote` that ran and was not confirmed leaves the
  MASTER recorded before it, and when that role is asked for again nothing is run
  (`demoted_master_skipped`). The record tells the last role hook just as long as no call
  runs one without confirming it, unless nothing or the same state is recorded.
-/

import EdgeLb.Ha.Role
import EdgeLb.Lib.Run

namespace EdgeLb.Ha

open EdgeLb.Config EdgeLb.Lib

inductive HookAction
  | promote | demote | verify
  deriving DecidableEq, Repr

def HookAction.text : HookAction → String
  | .promote => "promote"
  | .demote => "demote"
  | .verify => "verify"

/-- A program that was run. -/
structure HookRun where
  path : String
  action : HookAction
  state : HaRole
  vip : String
  deriving DecidableEq, Repr

/-- How running a program ends. -/
inductive HookEnd
  | success
  | notStarted (error : String)
  | failed (status : String)
  deriving DecidableEq, Repr

structure HookPaths where
  promoteHook : Option String := none
  demoteHook : Option String := none
  verifyHook : Option String := none
  deriving DecidableEq, Repr

structure HookEnds where
  /-- Making the hook scripts, before any of them is run. -/
  scripts : Option String := none
  role : HookEnd := .success
  verify : HookEnd := .success
  deriving DecidableEq, Repr

structure HookRequest where
  ha : GatewayHaRuntimeConfig
  paths : HookPaths := {}
  state : HaRole
  vipOverride : Option String := none
  force : Bool := false
  ends : HookEnds := {}

structure HookState where
  /-- The entry of `LAST_MANAGED_HOOK_STATE`. -/
  last : Option ManagedHookState := none
  log : List HookRun := []
  deriving DecidableEq, Repr

def HookRequest.desired (r : HookRequest) : ManagedHookState :=
  { state := r.state, vip := (r.vipOverride.or r.ha.vip.privateVip).getD "" }

def HookRun.error (run : HookRun) : HookEnd → Option String
  | .success => none
  | .notStarted e => some s!"executing managed HA {run.action.text} hook {run.path}: {e}"
  | .failed status => some s!"managed HA {run.action.text} hook {run.path} failed with {status}"

def runHookProgram (run : HookRun) (ending : HookEnd) (log : List HookRun) : List HookRun × Except String Unit :=
  let log := match ending with
    | .notStarted _ => log
    | _ => log ++ [run]
  (log, orFail (run.error ending) ())

def DEFAULT_PROMOTE_HOOK : String := "/usr/local/bin/edge-lb-promote"
def DEFAULT_DEMOTE_HOOK : String := "/usr/local/bin/edge-lb-demote"
def DEFAULT_VERIFY_HOOK : String := "/usr/local/bin/edge-lb-verify-vip"

def actionOf : HaRole → HookAction
  | .master => .promote
  | .backup => .demote

def HookRequest.roleHook (r : HookRequest) : HookRun :=
  let path := match r.state with
    | .master => r.paths.promoteHook.getD DEFAULT_PROMOTE_HOOK
    | .backup => r.paths.demoteHook.getD DEFAULT_DEMOTE_HOOK
  { path, action := actionOf r.state, state := r.state, vip := r.desired.vip }

def HookRequest.verifyHook (r : HookRequest) : HookRun :=
  { path := r.paths.verifyHook.getD DEFAULT_VERIFY_HOOK
    action := .verify, state := r.state, vip := r.desired.vip }

def runHooks (r : HookRequest) (log : List HookRun) : List HookRun × Except String Unit :=
  match r.ends.scripts with
  | some e => (log, .error e)
  | none =>
    match runHookProgram r.roleHook r.ends.role log with
    | (log, .error e) => (log, .error e)
    | (log, .ok ()) => runHookProgram r.verifyHook r.ends.verify log

variable (s : HookState)

def skipped (r : HookRequest) : Bool := !r.force && s.last = some r.desired

def applyHooks (r : HookRequest) : HookState × Except String Bool :=
  if skipped s r then (s, .ok false)
  else
    match runHooks r s.log with
    | (log, .error e) => ({ s with log }, .error e)
    | (log, .ok ()) => ({ last := some r.desired, log }, .ok true)

def stepHooks (r : HookRequest) : HookState := (applyHooks s r).1

/-! ## The node's role -/

/-- The failures of a request, as the node's role sees them. -/
def HookRequest.faults (r : HookRequest) : RoleFaults :=
  { roleHook := r.ends.scripts.or (r.roleHook.error r.ends.role), verifyHook := r.verifyHook.error r.ends.verify }

/-- The programs left aside, a call is `applyManagedHookState`. -/
theorem applyHooks_role (r : HookRequest) (n : NodeHa) (h : n.lastHook = s.last) :
    (applyManagedHookState r.ha r.state r.vipOverride r.force r.faults n).2 = (applyHooks s r).2 ∧
      (applyManagedHookState r.ha r.state r.vipOverride r.force r.faults n).1.lastHook = (applyHooks s r).1.last := by
  have hdesired : r.desired = { state := r.state, vip := (r.vipOverride.or r.ha.vip.privateVip).getD "" } := rfl
  by_cases hskip : skipped s r = true
  · have hskip' := hskip
    simp only [skipped, ← h, hdesired] at hskip'
    simp only [applyHooks, applyManagedHookState, hskip, hskip', if_true]
    exact ⟨trivial, h⟩
  · have hskip' := hskip
    simp only [skipped, ← h, hdesired] at hskip'
    simp only [applyHooks, applyManagedHookState, hskip, hskip', runHooks, runManagedHookState, runHookProgram,
      HookRequest.faults]
    cases r.ends.scripts with
    | some e => exact ⟨rfl, h⟩
    | none =>
      cases r.roleHook.error r.ends.role with
      | some e => exact ⟨rfl, h⟩
      | none =>
        cases r.verifyHook.error r.ends.verify with
        | some e => exact ⟨rfl, h⟩
        | none => exact ⟨rfl, rfl⟩

/-! ## What the record tells -/

def lastRoleHook (log : List HookRun) : Option HookRun := (log.filter fun run => run.action ≠ .verify).getLast?

/-- The last `promote` or `demote` that ran was the one for this state and VIP. -/
def LastFor (log : List HookRun) (d : ManagedHookState) : Prop :=
  ∃ run, lastRoleHook log = some run ∧ run.action = actionOf d.state ∧ run.state = d.state ∧ run.vip = d.vip

/-- A skipped call is one whose role hook ran last. -/
def SkipsRight : Prop := ∀ r, skipped s r = true → LastFor s.log r.desired

/-- The call runs its role hook. -/
def HookRequest.runsRole (r : HookRequest) : Bool :=
  r.ends.scripts.isNone && match r.ends.role with
    | .notStarted _ => false
    | _ => true

/-- And both hooks succeed. -/
def HookRequest.confirmed (r : HookRequest) : Bool :=
  r.ends.scripts.isNone && r.ends.role = .success && r.ends.verify = .success

/-- A role hook is run without being confirmed only when nothing or the same state is recorded. -/
def ConfirmedOrSame (r : HookRequest) : Prop :=
  r.runsRole = true → r.confirmed = true ∨ s.last = none ∨ s.last = some r.desired

theorem lastRoleHook_snoc (log : List HookRun) (run : HookRun) :
    lastRoleHook (log ++ [run]) = if run.action = .verify then lastRoleHook log else some run := by
  by_cases h : run.action = .verify
  · simp [lastRoleHook, List.filter_append, h]
  · simp [lastRoleHook, List.filter_append, h]

theorem actionOf_ne_verify (role : HaRole) : actionOf role ≠ .verify := by cases role <;> decide

theorem runHookProgram_ok (run : HookRun) (ending : HookEnd) (log : List HookRun) :
    (runHookProgram run ending log).2 = .ok () ↔ ending = .success := by
  cases ending <;> simp [runHookProgram, HookRun.error, orFail]

/-- Verifying leaves the last role hook what it was. -/
theorem lastRoleHook_verify (r : HookRequest) (ending : HookEnd) (log : List HookRun) :
    lastRoleHook (runHookProgram r.verifyHook ending log).1 = lastRoleHook log := by
  cases ending with
  | notStarted e => rfl
  | success => exact (lastRoleHook_snoc log r.verifyHook).trans (if_pos rfl)
  | failed status => exact (lastRoleHook_snoc log r.verifyHook).trans (if_pos rfl)

theorem lastRoleHook_role (r : HookRequest) (log : List HookRun) :
    lastRoleHook (log ++ [r.roleHook]) = some r.roleHook :=
  (lastRoleHook_snoc log r.roleHook).trans (if_neg (actionOf_ne_verify r.state))

variable {r : HookRequest}

theorem runHooks_of_success (hscripts : r.ends.scripts = none) (hrole : r.ends.role = .success)
    (log : List HookRun) : runHooks r log = runHookProgram r.verifyHook r.ends.verify (log ++ [r.roleHook]) := by
  simp only [runHooks, hscripts, hrole, runHookProgram, HookRun.error, orFail]

/-- The last role hook after a call's hooks, and whether they succeed. -/
theorem runHooks_spec (r : HookRequest) (log : List HookRun) :
    lastRoleHook (runHooks r log).1 = (if r.runsRole = true then some r.roleHook else lastRoleHook log) ∧
      ((runHooks r log).2 = .ok () ↔ r.confirmed = true) := by
  cases hscripts : r.ends.scripts with
  | some e => simp [runHooks, HookRequest.runsRole, HookRequest.confirmed, hscripts]
  | none =>
    cases hrole : r.ends.role with
    | notStarted e =>
      simp [runHooks, HookRequest.runsRole, HookRequest.confirmed, hscripts, hrole, runHookProgram, HookRun.error, orFail]
    | failed status =>
      simp [runHooks, HookRequest.runsRole, HookRequest.confirmed, hscripts, hrole, runHookProgram, HookRun.error, orFail,
        lastRoleHook_role]
    | success =>
      rw [runHooks_of_success hscripts hrole, lastRoleHook_verify, lastRoleHook_role, runHookProgram_ok]
      simp [HookRequest.runsRole, HookRequest.confirmed, hscripts, hrole]

theorem confirmed_runsRole (h : r.confirmed = true) : r.runsRole = true := by
  simp only [HookRequest.confirmed, Bool.and_eq_true, decide_eq_true_eq] at h
  simp only [HookRequest.runsRole, h.1.1, h.1.2, Bool.and_self]

/-- What a call that is not skipped leaves. -/
theorem stepHooks_spec {s : HookState} (hskip : skipped s r = false) :
    (stepHooks s r).last = (if r.confirmed = true then some r.desired else s.last) ∧
      lastRoleHook (stepHooks s r).log = if r.runsRole = true then some r.roleHook else lastRoleHook s.log := by
  obtain ⟨hlog, hok⟩ := runHooks_spec r s.log
  unfold stepHooks applyHooks
  rw [hskip]
  rcases hruns : runHooks r s.log with ⟨log, e | _⟩
  · rw [hruns] at hlog hok
    have hconfirmed : ¬ r.confirmed = true := by
      intro h
      cases hok.mpr h
    rw [if_neg hconfirmed]
    exact ⟨rfl, hlog⟩
  · rw [hruns] at hlog hok
    rw [if_pos (hok.mp rfl)]
    exact ⟨rfl, hlog⟩

theorem lastFor_roleHook {log : List HookRun} (h : lastRoleHook log = some r.roleHook)
    (d : ManagedHookState) : LastFor log d ↔ d = r.desired := by
  constructor
  · rintro ⟨run, hrun, -, hstate, hvip⟩
    obtain rfl := Option.some.inj (h.symm.trans hrun)
    cases d
    simp only [ManagedHookState.mk.injEq, HookRequest.desired]
    exact ⟨hstate.symm, hvip.symm⟩
  · rintro rfl
    exact ⟨r.roleHook, h, rfl, rfl, rfl⟩

/-- Any recorded state can be asked for. -/
theorem skipsRight_iff : SkipsRight s ↔ ∀ d, s.last = some d → LastFor s.log d := by
  constructor
  · intro h d hd
    have hdesired : HookRequest.desired { ha := {}, state := d.state, vipOverride := some d.vip } = d := rfl
    have hskipped : skipped s { ha := {}, state := d.state, vipOverride := some d.vip } = true := by
      simp only [skipped, hdesired, hd, decide_true, Bool.not_false, Bool.and_self]
    exact hdesired ▸ h _ hskipped
  · intro h r hr
    simp only [skipped, Bool.and_eq_true, decide_eq_true_eq] at hr
    exact h r.desired hr.2

/-- One call keeps the record right just when it confirms the role hook it runs, or finds nothing
    or the same state recorded. -/
theorem skipsRight_step (r : HookRequest) (h : SkipsRight s) :
    SkipsRight (stepHooks s r) ↔ ConfirmedOrSame s r := by
  by_cases hskip : skipped s r = true
  · have hlast : s.last = some r.desired := by
      simp only [skipped, Bool.and_eq_true, decide_eq_true_eq] at hskip
      exact hskip.2
    have hstep : stepHooks s r = s := by
      unfold stepHooks applyHooks
      rw [if_pos hskip]
    rw [hstep]
    exact iff_of_true h fun _ => .inr (.inr hlast)
  · obtain ⟨hlast, hlog⟩ := stepHooks_spec (Bool.eq_false_iff.mpr hskip)
    rw [skipsRight_iff] at h ⊢
    by_cases hruns : r.runsRole = true
    · rw [if_pos hruns] at hlog
      simp only [ConfirmedOrSame, hruns, lastFor_roleHook hlog, true_imp_iff]
      by_cases hconfirmed : r.confirmed = true
      · rw [if_pos hconfirmed] at hlast
        rw [hlast]
        exact iff_of_true (fun d hd => (Option.some.inj hd).symm) (.inl hconfirmed)
      · rw [if_neg hconfirmed] at hlast
        rw [hlast]
        cases hs : s.last with
        | none => simp
        | some d => simp [hconfirmed]
    · have hconfirmed : ¬ r.confirmed = true := fun hc => hruns (confirmed_runsRole hc)
      rw [if_neg hconfirmed] at hlast
      rw [if_neg hruns] at hlog
      refine iff_of_true (fun d hd => ?_) fun hr => absurd hr hruns
      rw [hlast] at hd
      rw [LastFor, hlog]
      exact h d hd

/-- In every sequence of calls since the agent started: whatever call comes next, if it is skipped
    then the last role hook that ran was the one it asks for, just when every role hook was
    confirmed, or ran while nothing or the same state was recorded. -/
theorem skipped_hooks_iff (rs : List HookRequest) :
    (∀ ps, ps <+: rs → SkipsRight (run stepHooks {} ps)) ↔ StepsMeet stepHooks ConfirmedOrSame {} rs :=
  inv_prefixes_iff stepHooks skipsRight_step ((skipsRight_iff {}).mpr nofun) rs

def hookVip : GatewayHaRuntimeConfig := { enabled := true, vip := { provider := .hook, privateVip := some "192.0.2.200" } }

/-- The node becomes MASTER, then BACKUP; the hook that verifies this fails. -/
def unverifiedDemotion : List HookRequest :=
  [{ ha := hookVip, state := .master },
    { ha := hookVip, state := .backup, force := true, ends := { verify := .failed "exit status: 1" } }]

/-- MASTER is asked for again: skipped, although `demote` ran last. -/
theorem demoted_master_skipped :
    (applyHooks (run stepHooks {} unverifiedDemotion) { ha := hookVip, state := .master }).2 = .ok false ∧
      lastRoleHook (run stepHooks {} unverifiedDemotion).log =
        some { path := "/usr/local/bin/edge-lb-demote", action := .demote, state := .backup, vip := "192.0.2.200" } := by
  decide

end EdgeLb.Ha
