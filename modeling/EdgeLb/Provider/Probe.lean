/-
  EdgeLb.Provider.Probe — the probe worker (`edge-lb/src/provider/native/probe.rs`: `probe_round`,
  `apply_results`; `provider/native/store.rs`: `mutate_target_health`).

  The worker reads the configuration, probes the targets that are due, reads the configuration
  again and writes the results whose definition is still scheduled into the health records. It
  takes turns with the projection under one lock; edits of the configuration may come at any
  time, so that every read may find any configuration.

  A round is one event, at its write: nothing it does before touches the records, and the
  schedule and the counters belong to the worker alone.

  Proved: over every run of rounds, projections and restarts, a name is `nok` exactly when a
  failure was written that made `retries` in a row of one definition, and nothing has cleared it
  since; a success makes it `ok`; a result is written only for a definition that is scheduled at
  the second read (`health_follows_probes`).
-/

import EdgeLb.Provider.Health
import EdgeLb.Lib.Since

namespace EdgeLb.Provider

open EdgeLb.Common EdgeLb.Lib EdgeLb.Config EdgeLb.Datapath

inductive ProbeOutcome
  | ok | fail
  deriving DecidableEq, Repr

/-! ## The worker -/

/-- The worker's memory: for each key the definition last probed with the time it is due again,
    and the consecutive failures. -/
structure Worker where
  schedule : String → Option (ProbeTarget × Nat) := fun _ => none
  runtimes : String → Option UInt32 := fun _ => none

structure Health where
  records : List TargetHealthEntry := []
  worker : Worker := {}

/-- One probe: the clock before it, its outcome, and the clock after it. -/
structure ProbeIo where
  now : Nat
  outcome : ProbeOutcome
  done : Nat

def Worker.retain (w : Worker) (keys : List String) : Worker :=
  { schedule := fun key => if key ∈ keys then w.schedule key else none
    runtimes := fun key => if key ∈ keys then w.runtimes key else none }

/-- `probe_is_due`. -/
def Worker.probeIsDue (w : Worker) (target : ProbeTarget) (now : Nat) : Bool :=
  match w.schedule target.key with
  | none => true
  | some (previous, due) => previous ≠ target || due ≤ now

/-- A due probe: the failures of another definition are forgotten. -/
def Worker.probe (w : Worker) (target : ProbeTarget) (io : ProbeIo) : Worker :=
  let runtimes := match w.schedule target.key with
    | some (previous, _) => if previous ≠ target then Function.update w.runtimes target.key none else w.runtimes
    | none => w.runtimes
  { schedule := Function.update w.schedule target.key (some (target, io.done + target.periodSecs)), runtimes }

/-- The loop of `probe_round` over the scheduled targets. -/
def probeTargets : List ProbeTarget → (Nat → ProbeIo) → Worker → Worker × List (ProbeTarget × ProbeOutcome)
  | [], _, w => (w, [])
  | target :: targets, io, w =>
    let later := fun i => io (i + 1)
    if !w.probeIsDue target (io 0).now then probeTargets targets later w
    else
      let (w, outcomes) := probeTargets targets later (w.probe target (io 0))
      (w, (target, (io 0).outcome) :: outcomes)

/-- `consecutive_failures.saturating_add(1)`. -/
def addFailure (failures : UInt32) : UInt32 := if failures = 0xffffffff then failures else failures + 1

/-- The next count of a target, and the state it gives its names, if it gives one. -/
def verdict (failures : UInt32) (target : ProbeTarget) : ProbeOutcome → UInt32 × Option String
  | .ok => (0, some "ok")
  | .fail => (addFailure failures, if target.retries ≤ addFailure failures then some "nok" else none)

/-- The first loop of `apply_results`: the counters, and the updates to make. -/
def foldOutcomes : List (ProbeTarget × ProbeOutcome) → (String → Option UInt32) →
    (String → Option UInt32) × List (String × String)
  | [], runtimes => (runtimes, [])
  | (target, outcome) :: outcomes, runtimes =>
    let (failures, state) := verdict ((runtimes target.key).getD 0) target outcome
    let (runtimes, updates) := foldOutcomes outcomes (Function.update runtimes target.key (some failures))
    (runtimes, (state.toList.flatMap fun state => target.names.map fun name => (name, state)) ++ updates)

/-- `apply_results`; a write that fails leaves the records as they were. -/
def applyResults (s : Health) (outcomes : List (ProbeTarget × ProbeOutcome)) (stored : Bool) : Health :=
  let (runtimes, updates) := foldOutcomes outcomes s.worker.runtimes
  { records := if stored then updates.foldl setState s.records else s.records
    worker := { s.worker with runtimes } }

/-- What a round meets: the configuration at its two reads (`none` when it cannot be read), its
    probes, and whether the write of the records succeeds. -/
structure Round where
  first : Option FileConfig
  io : Nat → ProbeIo
  second : Option FileConfig
  stored : Bool

/-- What there is to see of a run. -/
inductive Obs
  | restart
  | begin (keys : List String)
  | probe (target : ProbeTarget)
  | result (target : ProbeTarget) (outcome : ProbeOutcome) (stored : Bool)
  | project (wanted : List WantedRecord)

/-- `probe_round`, with what is seen of it, the newest first. -/
def probeRound (s : Health) (r : Round) : Health × List Obs :=
  match r.first with
  | none => (s, [])
  | some effective =>
    let targets := scheduledTargets effective
    let keys := targets.map (·.key)
    let (worker, outcomes) := probeTargets targets r.io (s.worker.retain keys)
    let probes := (outcomes.map fun o => Obs.probe o.1).reverse ++ [.begin keys]
    if outcomes.isEmpty then ({ s with worker }, probes)
    else match r.second with
      | none => ({ s with worker }, probes)
      | some current =>
        let kept := outcomes.filter fun o => o.1 ∈ scheduledTargets current
        (applyResults { s with worker } kept r.stored,
          (kept.map fun o => Obs.result o.1 o.2 r.stored).reverse ++ probes)

/-! ## Runs -/

inductive HealthEv
  | restart
  | project (cfg : FileConfig) (ha : Option GatewayHaRuntimeConfig)
  | round (r : Round)

def stepHealth (s : Health × List Obs) : HealthEv → Health × List Obs
  | .restart => ({ s.1 with worker := {} }, .restart :: s.2)
  | .project cfg ha =>
    match projectedRecords cfg ha with
    | .error _ => s
    | .ok wanted => ({ s.1 with records := projectRecords s.1.records wanted }, .project wanted :: s.2)
  | .round r => ((probeRound s.1 r).1, (probeRound s.1 r).2 ++ s.2)

def runHealth (es : List HealthEv) : Health × List Obs := es.foldl stepHealth ({}, [])

/-! ## Reading the log -/

/-- The failures of a definition in a row: those written since its last success, since another
    definition was probed under its key or a round began without it, or since a restart. -/
def streak (target : ProbeTarget) : List Obs → Nat
  | [] => 0
  | .restart :: _ => 0
  | .begin keys :: log => if target.key ∈ keys then streak target log else 0
  | .probe other :: log => if other.key = target.key ∧ other ≠ target then 0 else streak target log
  | .result other .ok _ :: log => if other.key = target.key then 0 else streak target log
  | .result other .fail _ :: log => if other = target then streak target log + 1 else streak target log
  | .project _ :: log => streak target log

/-- The last projection wants a record of the name. -/
def recorded (name : String) : List Obs → Bool
  | [] => false
  | .project wanted :: _ => name ∈ wanted.map (·.name)
  | _ :: log => recorded name log

variable (name : String)

/-- The newest entry is a failure of the name that makes `retries` in a row, written to its record. -/
def NokWritten : List Obs → Prop
  | .result target .fail true :: log => name ∈ target.names ∧
      target.retries.toNat ≤ streak target (.result target .fail true :: log) ∧ recorded name log = true
  | _ => False

/-- The newest entry is a success of the name, written to its record. -/
def OkWritten : List Obs → Prop
  | .result target .ok true :: log => name ∈ target.names ∧ recorded name log = true
  | _ => False

/-- A success of the name, or a projection that wants no record of it or finds it not probed. -/
def Obs.Clears : Obs → Prop
  | .result target .ok true => name ∈ target.names
  | .project wanted => name ∉ wanted.map (·.name) ∨ ∃ w ∈ wanted, w.name = name ∧ w.probed = false
  | _ => False

/-- No result of the name, and no projection without it. -/
def Obs.Leaves : Obs → Prop
  | .result target _ _ => name ∉ target.names
  | .project wanted => name ∈ wanted.map (·.name)
  | _ => True

@[simp] theorem recorded_result (target : ProbeTarget) (outcome : ProbeOutcome) (stored : Bool)
    (log : List Obs) : recorded name (.result target outcome stored :: log) = recorded name log := rfl

theorem failure_clears_nothing (target : ProbeTarget) (stored : Bool) :
    ¬ (Obs.result target .fail stored).Clears name := by
  cases stored <;> exact id

def Nok (log : List Obs) : Prop := Since (NokWritten name) (fun o => ¬ o.Clears name) log

def Ok (log : List Obs) : Prop := Since (OkWritten name) (fun o => o.Leaves name) log

/-! ## The counters -/

/-- The memory of the worker against the log: for the definition last probed under a key, the
    count is that of its failures in a row; no other definition has any. -/
structure Counted (w : Worker) (log : List Obs) : Prop where
  last : ∀ target due, w.schedule target.key = some (target, due) →
    ((w.runtimes target.key).getD 0).toNat = min (streak target log) (2 ^ 32 - 1)
  other : ∀ target, (∀ due, w.schedule target.key ≠ some (target, due)) → streak target log = 0
  fresh : ∀ key, w.schedule key = none → w.runtimes key = none

theorem counted_restart (log : List Obs) : Counted {} (.restart :: log) where
  last := by
    intro target due h
    cases h
  other := by
    intro target _
    rfl
  fresh := by
    intro key _
    rfl

variable {log : List Obs} {w : Worker} {target : ProbeTarget} {records : List TargetHealthEntry}

theorem Counted.project (h : Counted w log) (wanted : List WantedRecord) : Counted w (.project wanted :: log) :=
  ⟨h.last, h.other, h.fresh⟩

theorem Counted.retain (h : Counted w log) (keys : List String) : Counted (w.retain keys) (.begin keys :: log) where
  last := by
    intro target due hlast
    by_cases hmem : target.key ∈ keys
    · simp only [Worker.retain, hmem, if_true] at hlast
      simpa [Worker.retain, hmem, streak] using h.last target due hlast
    · simp [Worker.retain, hmem] at hlast
  other := by
    intro target hother
    by_cases hmem : target.key ∈ keys
    · simp only [Worker.retain, hmem, if_true] at hother
      simpa [hmem, streak] using h.other target hother
    · simp [hmem, streak]
  fresh := by
    intro key hnone
    by_cases hmem : key ∈ keys
    · simp only [Worker.retain, hmem, if_true] at hnone
      simpa [Worker.retain, hmem] using h.fresh key hnone
    · simp [Worker.retain, hmem]

/-- Another key is not touched by a probe. -/
theorem probe_runtimes_ne {io : ProbeIo} {key : String} (h : key ≠ target.key) :
    (w.probe target io).runtimes key = w.runtimes key := by
  unfold Worker.probe
  split
  · split
    · exact Function.update_of_ne h ..
    · rfl
  · rfl

theorem probe_runtimes_same {io : ProbeIo} {due : Nat}
    (h : w.schedule target.key = some (target, due)) : (w.probe target io).runtimes = w.runtimes := by
  simp [Worker.probe, h]

theorem probe_runtimes_new (hcounted : Counted w log) {io : ProbeIo}
    (h : ∀ due, w.schedule target.key ≠ some (target, due)) : (w.probe target io).runtimes target.key = none := by
  unfold Worker.probe
  split
  next previous due hsome =>
    have hne : previous ≠ target := by
      intro he
      exact h due (he ▸ hsome)
    simp [hne]
  next hnone => exact hcounted.fresh _ hnone

theorem Counted.probe (h : Counted w log) (target : ProbeTarget) (io : ProbeIo) :
    Counted (w.probe target io) (.probe target :: log) where
  last := by
    intro t due hlast
    by_cases hkey : t.key = target.key
    · have ht : t = target := by
        simp only [Worker.probe, hkey, Function.update_self] at hlast
        exact (congrArg Prod.fst (Option.some.inj hlast)).symm
      subst ht
      simp only [streak, ne_eq, not_true_eq_false, and_false, if_false]
      by_cases hold : ∃ due, w.schedule t.key = some (t, due)
      · obtain ⟨due', hdue⟩ := hold
        rw [probe_runtimes_same hdue]
        exact h.last t due' hdue
      · have hnew : ∀ due, w.schedule t.key ≠ some (t, due) := fun due hdue => hold ⟨due, hdue⟩
        rw [probe_runtimes_new h hnew, h.other t hnew]
        rfl
    · have hlog : streak t (.probe target :: log) = streak t log := by
        simp [streak, Ne.symm hkey]
      rw [probe_runtimes_ne hkey, hlog]
      apply h.last t due
      simpa [Worker.probe, Function.update_of_ne hkey] using hlast
  other := by
    intro t hother
    by_cases hkey : t.key = target.key
    · have hne : target ≠ t := by
        intro he
        subst he
        exact hother (io.done + target.periodSecs) (by simp [Worker.probe])
      simp [streak, hkey, hne]
    · have hlog : streak t (.probe target :: log) = streak t log := by
        simp [streak, Ne.symm hkey]
      rw [hlog]
      apply h.other t
      intro due hdue
      exact hother due (by simpa [Worker.probe, Function.update_of_ne hkey] using hdue)
  fresh := by
    intro key hnone
    by_cases hkey : key = target.key
    · simp [Worker.probe, hkey] at hnone
    · rw [probe_runtimes_ne hkey]
      apply h.fresh key
      simpa [Worker.probe, Function.update_of_ne hkey] using hnone

theorem addFailure_toNat (failures : UInt32) {n : Nat} (h : failures.toNat = min n (2 ^ 32 - 1)) :
    (addFailure failures).toNat = min (n + 1) (2 ^ 32 - 1) := by
  unfold addFailure
  split
  next hmax =>
    have hnat : failures.toNat = 4294967295 := by
      rw [hmax]
      rfl
    omega
  next hmax =>
    have hne : failures.toNat ≠ 4294967295 := fun he => hmax (UInt32.toNat.inj he)
    have hone : (1 : UInt32).toNat = 1 := rfl
    rw [UInt32.toNat_add, hone]
    omega

/-- The counter of one result. -/
def Worker.count (w : Worker) (target : ProbeTarget) (outcome : ProbeOutcome) : Worker :=
  let failures := (verdict ((w.runtimes target.key).getD 0) target outcome).1
  { w with runtimes := Function.update w.runtimes target.key (some failures) }

/-- A result of the definition last probed under its key. -/
theorem Counted.result (h : Counted w log) {due : Nat}
    (hlast : w.schedule target.key = some (target, due)) (outcome : ProbeOutcome) (stored : Bool) :
    Counted (w.count target outcome) (.result target outcome stored :: log) where
  last := by
    intro t due' hlast'
    by_cases hkey : t.key = target.key
    · have ht : t = target := by
        rw [hkey] at hlast'
        exact (congrArg Prod.fst (Option.some.inj (hlast.symm.trans hlast'))).symm
      subst ht
      simp only [Worker.count, Function.update_self, Option.getD_some]
      cases outcome with
      | ok => simp [verdict, streak]
      | fail =>
        simp only [verdict, streak, if_true]
        exact addFailure_toNat _ (h.last t due hlast)
    · have hne : target ≠ t := fun he => hkey (he ▸ rfl)
      have hlog : streak t (.result target outcome stored :: log) = streak t log := by
        cases outcome with
        | ok => simp [streak, Ne.symm hkey]
        | fail => simp [streak, hne]
      simp only [Worker.count, Function.update_of_ne hkey, hlog]
      exact h.last t due' hlast'
  other := by
    intro t hother
    have hne : target ≠ t := by
      intro he
      subst he
      exact hother due hlast
    have hzero := h.other t hother
    cases outcome with
    | ok => simp [streak, hzero]
    | fail => simp [streak, hne, hzero]
  fresh := by
    intro key hnone
    have hkey : key ≠ target.key := by
      intro he
      rw [he] at hnone
      cases hlast.symm.trans hnone
    simp only [Worker.count, Function.update_of_ne hkey]
    exact h.fresh key hnone

/-! ## The records against the log -/

structure Shown (records : List TargetHealthEntry) (log : List Obs) : Prop where
  there : ∀ name, (stateOf records name).isSome = recorded name log
  nok : ∀ name, stateOf records name = some (some "nok") ↔ Nok name log
  ok : ∀ name, Ok name log → stateOf records name = some (some "ok")

/-- An entry that writes no record. -/
def Obs.Idle : Obs → Prop
  | .result _ _ stored => stored = false
  | .project _ => False
  | _ => True

theorem Shown.idle (h : Shown records log) {o : Obs} (ho : o.Idle) : Shown records (o :: log) := by
  have hfacts : ∀ name, recorded name (o :: log) = recorded name log ∧ ¬ NokWritten name (o :: log) ∧
      ¬ OkWritten name (o :: log) ∧ ¬ o.Clears name := by
    intro name
    cases o with
    | restart => simp [recorded, NokWritten, OkWritten, Obs.Clears]
    | «begin» keys => simp [recorded, NokWritten, OkWritten, Obs.Clears]
    | probe target => simp [recorded, NokWritten, OkWritten, Obs.Clears]
    | project wanted => exact ho.elim
    | result target outcome stored =>
      obtain rfl : stored = false := ho
      cases outcome <;> simp [recorded, NokWritten, OkWritten, Obs.Clears]
  refine ⟨fun name => ?_, fun name => ?_, fun name hok => ?_⟩
  · rw [(hfacts name).1]
    exact h.there name
  · rw [h.nok name, Nok, Nok, since_cons]
    simp [(hfacts name).2.1, (hfacts name).2.2.2]
  · rcases since_cons.mp hok with hstart | ⟨hok, _⟩
    · exact absurd hstart (hfacts name).2.2.1
    · exact h.ok name hok

theorem Shown.project (h : Shown records log)
    (wanted : List WantedRecord) : Shown (projectRecords records wanted) (.project wanted :: log) where
  there := by
    intro name
    rw [stateOf_project]
    by_cases hmem : name ∈ wanted.map (·.name) <;> simp only [recorded, hmem, if_true, if_false] <;> rfl
  nok := by
    intro name
    have hclears : ¬ (Obs.project wanted).Clears name ↔
        name ∈ wanted.map (·.name) ∧ (wanted.filter fun w => w.name = name).all (·.probed) = true := by
      simp only [List.all_eq_true, List.mem_filter, decide_eq_true_eq, and_imp]
      simp [Obs.Clears]
    rw [Nok, since_cons, hclears, stateOf_project, ← Nok, ← h.nok name]
    by_cases hmem : name ∈ wanted.map (·.name)
    · by_cases hprobed : (wanted.filter fun w => w.name = name).all (·.probed) = true
      · rw [if_pos hmem, if_pos hprobed]
        rcases stateOf records name with _ | _ | state <;> simp [NokWritten, hmem, hprobed]
      · rw [if_pos hmem, if_neg hprobed]
        simp [NokWritten, hprobed]
    · simp [NokWritten, hmem]
  ok := by
    intro name hok
    rcases since_cons.mp hok with hstart | ⟨hok, hleaves⟩
    · exact hstart.elim
    · rw [stateOf_project, if_pos (show name ∈ wanted.map (·.name) from hleaves), h.ok name hok]
      split <;> rfl

/-- The updates that one result makes. -/
def resultUpdates (failures : UInt32) (target : ProbeTarget) (outcome : ProbeOutcome) : List (String × String) :=
  (verdict failures target outcome).2.toList.flatMap fun state => target.names.map fun name => (name, state)

theorem Shown.success (h : Shown records log) (failures : UInt32) (target : ProbeTarget) :
    Shown ((resultUpdates failures target .ok).foldl setState records) (.result target .ok true :: log) := by
  have hupdates : resultUpdates failures target .ok = target.names.map fun name => (name, "ok") := by
    simp [resultUpdates, verdict]
  have hstate := stateOf_setStates records target.names "ok"
  rw [hupdates]
  refine ⟨fun name => ?_, fun name => ?_, fun name hok => ?_⟩
  · rw [hstate, recorded_result, ← h.there name]
    split <;> simp
  · rw [hstate, Nok, since_cons]
    by_cases hmem : name ∈ target.names
    · simp [NokWritten, Obs.Clears, hmem]
    · rw [if_neg hmem, h.nok name]
      simp [NokWritten, Obs.Clears, hmem, Nok]
  · rw [hstate]
    rcases since_cons.mp hok with ⟨hmem, hrecorded⟩ | ⟨hok, hleaves⟩
    · have hsome := (h.there name).trans hrecorded
      obtain ⟨state, hstate⟩ := Option.isSome_iff_exists.mp hsome
      rw [if_pos hmem, hstate]
      rfl
    · rw [if_neg hleaves]
      exact h.ok name hok

theorem Shown.failure (h : Shown records log) {failures : UInt32}
    (hcount : failures.toNat = min (streak target log) (2 ^ 32 - 1)) :
    Shown ((resultUpdates failures target .fail).foldl setState records) (.result target .fail true :: log) := by
  have hstreak : streak target (.result target .fail true :: log) = streak target log + 1 := by
    simp [streak]
  have hretries : target.retries ≤ addFailure failures ↔ target.retries.toNat ≤ streak target log + 1 := by
    have hlt := target.retries.toNat_lt
    rw [UInt32.le_iff_toNat_le, addFailure_toNat failures hcount]
    omega
  by_cases hreached : target.retries ≤ addFailure failures
  · have hupdates : resultUpdates failures target .fail = target.names.map fun name => (name, "nok") := by
      simp [resultUpdates, verdict, hreached]
    have hstate := stateOf_setStates records target.names "nok"
    rw [hupdates]
    refine ⟨fun name => ?_, fun name => ?_, fun name hok => ?_⟩
    · rw [hstate, recorded_result, ← h.there name]
      split <;> simp
    · rw [hstate, Nok, since_cons]
      by_cases hmem : name ∈ target.names
      · -- the record of a name that is `nok` already is there
        have hthere : Nok name log → (stateOf records name).isSome = true := by
          intro hnok
          rw [(h.nok name).mpr hnok]
          rfl
        have hwritten : NokWritten name (.result target .fail true :: log) ↔ (stateOf records name).isSome = true := by
          rw [h.there name, NokWritten, hstreak]
          simp [hmem, hretries.mp hreached]
        have hset : (stateOf records name).map (fun _ => some "nok") = some (some "nok") ↔
            (stateOf records name).isSome = true := by
          cases stateOf records name <;> simp
        rw [if_pos hmem, hset, hwritten]
        exact ⟨.inl, fun hor => hor.elim id fun hold => hthere hold.1⟩
      · rw [if_neg hmem, h.nok name]
        simp [NokWritten, failure_clears_nothing, hmem, Nok]
    · rcases since_cons.mp hok with hstart | ⟨hok, hleaves⟩
      · exact hstart.elim
      · rw [hstate, if_neg hleaves]
        exact h.ok name hok
  · have hupdates : resultUpdates failures target .fail = [] := by
      simp [resultUpdates, verdict, hreached]
    rw [hupdates]
    refine ⟨fun name => h.there name, fun name => ?_, fun name hok => ?_⟩
    · have hfew : ¬ target.retries.toNat ≤ streak target log + 1 := fun hle => hreached (hretries.mpr hle)
      have hnot : ¬ NokWritten name (.result target .fail true :: log) := by
        rw [NokWritten, hstreak]
        exact fun hwritten => hfew hwritten.2.1
      rw [Nok, since_cons, List.foldl_nil, h.nok name]
      simp [hnot, failure_clears_nothing, Nok]
    · rcases since_cons.mp hok with hstart | ⟨hok, _⟩
      · exact hstart.elim
      · exact h.ok name hok

/-! ## Runs -/

structure Sees (s : Health) (log : List Obs) : Prop where
  counted : Counted s.worker log
  shown : Shown s.records log

/-- One result of `apply_results`, counter and records. -/
def Health.applyOne (s : Health) (target : ProbeTarget) (outcome : ProbeOutcome) (stored : Bool) : Health :=
  let updates := resultUpdates ((s.worker.runtimes target.key).getD 0) target outcome
  { records := if stored then updates.foldl setState s.records else s.records
    worker := s.worker.count target outcome }

theorem applyResults_nil (s : Health) (stored : Bool) : applyResults s [] stored = s := by
  cases stored <;> rfl

/-- The two loops of `apply_results` are one over the results: the counters do not read the records. -/
theorem applyResults_cons (s : Health) (target : ProbeTarget) (outcome : ProbeOutcome)
    (outcomes : List (ProbeTarget × ProbeOutcome)) (stored : Bool) :
    applyResults s ((target, outcome) :: outcomes) stored =
      applyResults (s.applyOne target outcome stored) outcomes stored := by
  cases stored with
  | false => rfl
  | true => simp [applyResults, foldOutcomes, Health.applyOne, Worker.count, resultUpdates, List.foldl_append]

theorem Sees.result {s : Health} (h : Sees s log) {due : Nat}
    (hlast : s.worker.schedule target.key = some (target, due)) (outcome : ProbeOutcome) (stored : Bool) :
    Sees (s.applyOne target outcome stored) (.result target outcome stored :: log) where
  counted := h.counted.result hlast outcome stored
  shown := by
    cases stored with
    | false => exact h.shown.idle rfl
    | true =>
      cases outcome with
      | ok => exact h.shown.success _ target
      | fail => exact h.shown.failure (h.counted.last target due hlast)

theorem Sees.results {s : Health} (h : Sees s log) {outcomes : List (ProbeTarget × ProbeOutcome)}
    (hlast : ∀ o ∈ outcomes, ∃ due, s.worker.schedule o.1.key = some (o.1, due)) (stored : Bool) :
    Sees (applyResults s outcomes stored) ((outcomes.map fun o => Obs.result o.1 o.2 stored).reverse ++ log) := by
  induction outcomes generalizing s log with
  | nil =>
    rw [applyResults_nil]
    exact h
  | cons o outcomes ih =>
    obtain ⟨target, outcome⟩ := o
    obtain ⟨due, hdue⟩ := hlast _ List.mem_cons_self
    rw [applyResults_cons, List.map_cons, List.reverse_cons, List.append_assoc]
    exact ih (h.result hdue outcome stored) fun o ho => hlast o (List.mem_cons_of_mem _ ho)

/-- A key goes on naming the definition last probed under it while no other is met. -/
theorem probeTargets_schedule {targets : List ProbeTarget} {io : Nat → ProbeIo}
    (hsame : ∀ t ∈ targets, t.key = target.key → t = target) (h : ∃ due, w.schedule target.key = some (target, due)) :
    ∃ due, (probeTargets targets io w).1.schedule target.key = some (target, due) := by
  induction targets generalizing io w with
  | nil => exact h
  | cons t targets ih =>
    have hrest : ∀ t' ∈ targets, t'.key = target.key → t' = target :=
      fun t' ht' => hsame t' (List.mem_cons_of_mem _ ht')
    unfold probeTargets
    simp only
    split
    · exact ih hrest h
    · apply ih hrest
      by_cases hkey : t.key = target.key
      · obtain rfl := hsame t List.mem_cons_self hkey
        exact ⟨_, by simp [Worker.probe]; rfl⟩
      · obtain ⟨due, hdue⟩ := h
        refine ⟨due, ?_⟩
        simpa [Worker.probe, Function.update_of_ne (Ne.symm hkey)] using hdue

theorem Counted.probes {targets : List ProbeTarget} (hone : ∀ t ∈ targets, ∀ t' ∈ targets, t.key = t'.key → t = t')
    (io : Nat → ProbeIo) (h : Counted w log) :
    let out := probeTargets targets io w
    Counted out.1 ((out.2.map fun o => Obs.probe o.1).reverse ++ log) ∧
      ∀ o ∈ out.2, ∃ due, out.1.schedule o.1.key = some (o.1, due) := by
  induction targets generalizing io w log with
  | nil => exact ⟨h, by simp [probeTargets]⟩
  | cons target targets ih =>
    have hrest : ∀ t ∈ targets, ∀ t' ∈ targets, t.key = t'.key → t = t' :=
      fun t ht t' ht' => hone t (List.mem_cons_of_mem _ ht) t' (List.mem_cons_of_mem _ ht')
    unfold probeTargets
    simp only
    split
    · exact ih hrest _ h
    · obtain ⟨hcounted, hlast⟩ := ih hrest (fun i => io (i + 1)) (h.probe target (io 0))
      refine ⟨?_, List.forall_mem_cons.mpr ⟨?_, hlast⟩⟩
      · rw [List.map_cons, List.reverse_cons, List.append_assoc]
        exact hcounted
      · apply probeTargets_schedule
        · intro t ht hkey
          exact hone t (List.mem_cons_of_mem _ ht) target List.mem_cons_self hkey
        · exact ⟨_, by simp [Worker.probe]; rfl⟩

theorem Shown.probes (h : Shown records log)
    (targets : List ProbeTarget) : Shown records ((targets.map Obs.probe).reverse ++ log) := by
  induction targets generalizing log with
  | nil => exact h
  | cons target targets ih =>
    rw [List.map_cons, List.reverse_cons, List.append_assoc]
    exact ih (h.idle trivial)

/-- No two definitions are scheduled under one key when the round begins. -/
def Round.OneDefinition (r : Round) : Prop :=
  ∀ cfg, r.first = some cfg → ∀ t ∈ scheduledTargets cfg, ∀ t' ∈ scheduledTargets cfg, t.key = t'.key → t = t'

theorem Sees.round {s : Health} (h : Sees s log) {r : Round} (hone : r.OneDefinition) :
    Sees (probeRound s r).1 ((probeRound s r).2 ++ log) := by
  unfold probeRound
  split
  · exact h
  next effective hfirst =>
    have hprobes := Counted.probes (hone effective hfirst) r.io
      (h.counted.retain ((scheduledTargets effective).map (·.key)))
    have hshown := (h.shown.idle (o := .begin ((scheduledTargets effective).map (·.key))) trivial).probes
      ((probeTargets (scheduledTargets effective) r.io
        (s.worker.retain ((scheduledTargets effective).map (·.key)))).2.map (·.1))
    simp only [List.map_map, Function.comp_def] at hshown
    simp only at hprobes ⊢
    generalize probeTargets (scheduledTargets effective) r.io _ = out at hprobes hshown ⊢
    obtain ⟨hcounted, hlast⟩ := hprobes
    have hsees : Sees { s with worker := out.1 } ((out.2.map fun o => Obs.probe o.1).reverse ++
        .begin ((scheduledTargets effective).map (·.key)) :: log) := ⟨hcounted, hshown⟩
    split
    · simpa using hsees
    split
    · simpa using hsees
    next current hsecond =>
      have hkept : ∀ o ∈ out.2.filter (fun o => decide (o.1 ∈ scheduledTargets current)),
          ∃ due, out.1.schedule o.1.key = some (o.1, due) := fun o ho => hlast o (List.mem_filter.mp ho).1
      simpa only [List.append_assoc, List.singleton_append] using hsees.results hkept r.stored

theorem runHealth_sees {es : List HealthEv} (hone : ∀ r, HealthEv.round r ∈ es → r.OneDefinition) :
    Sees (runHealth es).1 (runHealth es).2 := by
  have hinit : Sees {} [] := by
    refine ⟨⟨nofun, fun _ _ => rfl, fun _ _ => rfl⟩, fun _ => rfl, fun name => ?_, fun name hok => ?_⟩
    · simp [Nok, since_nil, NokWritten, stateOf]
    · exact (since_nil.mp hok).elim
  have hstep : ∀ (es : List HealthEv) (s : Health × List Obs), (∀ r, HealthEv.round r ∈ es → r.OneDefinition) →
      Sees s.1 s.2 → Sees (es.foldl stepHealth s).1 (es.foldl stepHealth s).2 := by
    intro es
    induction es with
    | nil => exact fun s _ h => h
    | cons e es ih =>
      intro s hone h
      refine ih _ (fun r hr => hone r (List.mem_cons_of_mem _ hr)) ?_
      cases e with
      | restart => exact ⟨counted_restart _, h.shown.idle trivial⟩
      | project cfg ha =>
        unfold stepHealth
        simp only
        split
        · exact h
        · exact ⟨h.counted.project _, h.shown.project _⟩
      | round r => exact h.round (hone r List.mem_cons_self)
  exact hstep es ({}, []) hone hinit

theorem results_scheduled {s : Health} {r : Round} {outcome : ProbeOutcome} {stored : Bool}
    (h : Obs.result target outcome stored ∈ (probeRound s r).2) :
    ∃ current, r.second = some current ∧ target ∈ scheduledTargets current := by
  unfold probeRound at h
  split at h
  · cases h
  simp only at h
  split at h
  · simp at h
  split at h
  · simp at h
  next current hsecond =>
    refine ⟨current, hsecond, ?_⟩
    simp only [List.mem_append, List.mem_reverse, List.mem_map, List.mem_filter, decide_eq_true_eq, List.mem_singleton,
      reduceCtorEq, and_false, exists_false, or_false] at h
    obtain ⟨o, ⟨_, hmem⟩, heq⟩ := h
    cases heq
    exact hmem

/-! ## What is published -/

/-- Over every run: a name is `nok` exactly when a failure that made `retries` in a row of its
    definition was written, and neither a success nor a projection has cleared it since; its last
    result a success, it is `ok`; and results are written only for what the second read schedules. -/
theorem health_follows_probes (es : List HealthEv) (hone : ∀ r, HealthEv.round r ∈ es → r.OneDefinition) :
    let s := (runHealth es).1
    let log := (runHealth es).2
    (∀ name, stateOf s.records name = some (some "nok") ↔ Nok name log) ∧
    (∀ name, Ok name log → stateOf s.records name = some (some "ok")) ∧
    ∀ r, HealthEv.round r ∈ es → ∀ before target outcome stored,
      Obs.result target outcome stored ∈ (probeRound before r).2 →
        ∃ current, r.second = some current ∧ target ∈ scheduledTargets current := by
  have hsees := runHealth_sees hone
  exact ⟨hsees.shown.nok, hsees.shown.ok, fun r _ before target outcome stored h => results_scheduled h⟩

/-! One backend 192.0.2.20 behind 192.0.2.11:8080, probed on a port of its own; two failures count. -/

def webGroup (port : UInt16) : TargetGroup :=
  { name := "web", monitor := true, probeType := some "tcp", probePort := some port, retries := some 2
    targets := [{ address := .v4 0xc0000214 }] }

def probedOn (port : UInt16) : FileConfig :=
  { targetGroups := [webGroup port]
    listeners := [{ name := "web", port := 8080, targetPort := 9090, targetGroup := "web" }] }

/-- A round that reads one configuration throughout. -/
def roundOf (cfg : FileConfig) (outcome : ProbeOutcome) (now : Nat) : Round :=
  { first := some cfg, io := fun _ => { now, outcome, done := now }, second := some cfg, stored := true }

def webHealth : String := "web:192.0.2.20_tcp_9090"

def twoFailures : List HealthEv :=
  [.project (probedOn 18081) none, .round (roundOf (probedOn 18081) .fail 0), .round (roundOf (probedOn 18081) .fail 60)]

theorem roundOf_one_definition (port : UInt16) (outcome : ProbeOutcome) (now : Nat)
    (hv4 : ∀ t ∈ scheduledTargets (probedOn port), t.address.isV4 = true) :
    (roundOf (probedOn port) outcome now).OneDefinition := by
  intro cfg hfirst t ht t' ht' hkey
  obtain rfl := Option.some.inj hfirst
  exact scheduled_one_definition (by simp [probedOn]) hv4 ht ht' hkey

theorem nok_after_two_failures :
    stateOf (runHealth twoFailures).1.records webHealth = some (some "nok") ∧
      Nok webHealth (runHealth twoFailures).2 := by
  have hstate : stateOf (runHealth twoFailures).1.records webHealth = some (some "nok") := by decide
  have hone : ∀ r, HealthEv.round r ∈ twoFailures → r.OneDefinition := by
    intro r hr
    simp only [twoFailures, List.mem_cons, HealthEv.round.injEq, reduceCtorEq, List.not_mem_nil, or_false,
      false_or] at hr
    rcases hr with rfl | rfl
    · exact roundOf_one_definition _ _ _ (by decide)
    · exact roundOf_one_definition _ _ _ (by decide)
  exact ⟨hstate, ((health_follows_probes twoFailures hone).1 webHealth).mp hstate⟩

def Obs.isResultOf (target : ProbeTarget) : Obs → Bool
  | .result other _ _ => other = target
  | _ => false

/-- The probe port is edited. The name stays `nok`, although the new definition was never probed;
    and a failure of the old definition, read again just before the edit, is written after it and
    makes the name `nok`. -/
theorem nok_outlives_definition :
    let edited := probeTargetAt (probedOn 18080) (webGroup 18080) (.v4 0xc0000214)
    let kept := runHealth (twoFailures ++ [.project (probedOn 18080) none])
    let late := runHealth [.project (probedOn 18081) none, .round (roundOf (probedOn 18081) .fail 0),
      .project (probedOn 18080) none, .round (roundOf (probedOn 18081) .fail 60)]
    scheduledTargets (probedOn 18080) = [edited] ∧ webHealth ∈ edited.names ∧
      stateOf kept.1.records webHealth = some (some "nok") ∧ kept.2.any (Obs.isResultOf edited) = false ∧
      stateOf late.1.records webHealth = some (some "nok") ∧ late.2.any (Obs.isResultOf edited) = false := by
  decide

end EdgeLb.Provider
