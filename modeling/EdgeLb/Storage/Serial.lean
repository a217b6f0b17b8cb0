/-
  EdgeLb.Storage.Serial — `mutate_on` among concurrent callers.

  Any number of calls of the four loops, and any writes of the HA, secret and
  active-gateway documents, over one store, in any interleaving of their transactions.

  Proved: each commit of a `mutate_on` writes its closure's result for the configuration
  stored immediately before the commit; a call commits at most once, and not at all unless
  it answers that it did; and the HA documents of the store it commits on make this node
  the writer (`mutations_serialize`).
-/

import EdgeLb.Storage.ProxyReplication

namespace EdgeLb.Storage

open EdgeLb.Config EdgeLb.Lib

section

variable {P H T : Type}

/-! ## Reading back a commit -/

variable {F : Format P H} {b : Bundle H} {cfg : FileConfig} {docs : Docs Key P}

theorem read_eq_ok :
    read F cfg docs = .ok b ↔ readConfig F cfg docs = .ok b.config ∧
      (∃ ha, decodeDoc F.ha (docs .ha) = .ok ha ∧ readScope F cfg (ha.getD {}) docs = .ok b.scope) ∧
      readSync F docs = .ok b.sync := by
  simp only [read, bind_eq_ok]
  constructor
  · rintro ⟨config, hconfig, ha, hha, scope, hscope, sync, hsync, hb⟩
    cases hb
    exact ⟨hconfig, ⟨ha, hha, hscope⟩, hsync⟩
  · rintro ⟨hconfig, ⟨ha, hha, hscope⟩, hsync⟩
    exact ⟨b.config, hconfig, ha, hha, b.scope, hscope, b.sync, hsync, rfl⟩

theorem decodeDoc_encode {α : Type} (c : Codec P α) (a : α) (revision : Int) (now : String) :
    decodeDoc c (some ⟨c.encode a, revision, now⟩) = .ok (some a) := by
  simp only [decodeDoc, c.decode_encode]
  rfl

theorem readSync_written (F : Format P H) (docs : Docs Key P) (config : ProxyConfig) (sync : SyncState H)
    (business : Bool) (revision : Int) (now : String) :
    readSync F (docs.written (commitWrites F config sync business) revision now) = .ok sync := by
  simp only [readSync, Docs.written, commitWrites, decodeDoc_encode]
  rfl

theorem readConfig_written (F : Format P H) (cfg : FileConfig) (docs : Docs Key P) (config : ProxyConfig)
    (sync : SyncState H) (revision : Int) (now : String) :
    readConfig F cfg (docs.written (commitWrites F config sync true) revision now) = .ok config := by
  simp only [readConfig, Docs.written, commitWrites, if_true, decodeDoc_encode]
  rfl

section

variable (h : read F cfg docs = .ok b) (config : ProxyConfig) (sync : SyncState H) (revision : Int) (now : String)
include h

/-- A commit that writes the configuration reads back as that configuration, under the
    scope of before. -/
theorem read_written :
    read F cfg (docs.written (commitWrites F config sync true) revision now) =
      .ok { config, sync, scope := b.scope } := by
  obtain ⟨-, ⟨ha, hha, hscope⟩, -⟩ := read_eq_ok.mp h
  exact read_eq_ok.mpr ⟨readConfig_written .., ⟨ha, hha, hscope⟩, readSync_written ..⟩

/-- A commit of the cursor alone leaves the configuration. -/
theorem read_written_cursor :
    read F cfg (docs.written (commitWrites F config sync false) revision now) = .ok { b with sync } := by
  obtain ⟨hconfig, ⟨ha, hha, hscope⟩, -⟩ := read_eq_ok.mp h
  exact read_eq_ok.mpr ⟨hconfig, ⟨ha, hha, hscope⟩, readSync_written ..⟩

end

/-! ## What a mutation plans -/

def Scope.localWriter : Scope → Bool
  | .backup _ _ => false
  | _ => true

theorem requireLocalWriter_ok (h : b.requireLocalWriter = .ok ()) : b.scope.localWriter = true := by
  unfold Bundle.requireLocalWriter at h
  split at h
  · cases h
  · next hscope =>
    cases hs : b.scope with
    | standalone => rfl
    | master p peer => rfl
    | backup p peer => exact absurd hs (hscope p peer)

variable [DecidableEq P]

theorem mutatePlan_commit {update : Update T} {seen : List (Docs Key P)} {writes : Key → Option P}
    {after : Option (Reply H T)} (h : mutatePlan F cfg update seen docs = .commit writes after) :
    ∃ b state result sync, read F cfg docs = .ok b ∧ b.scope.localWriter = true ∧
      update (earlierConfigs F cfg seen) b.config = .ok (state, result) ∧
      b.localVersion F cfg state = .ok sync ∧ writes = commitWrites F state sync true ∧
      after = some (.mutate (.ok (result, true))) := by
  unfold mutatePlan at h
  split at h
  · cases h
  next b hb =>
    split at h
    · cases h
    next hwriter =>
      split at h
      · cases h
      next state result hupdate =>
        split at h
        · cases h
        split at h
        · cases h
        next sync hsync =>
          cases h
          exact ⟨b, state, result, sync, hb, requireLocalWriter_ok hwriter, hupdate, hsync, rfl, rfl⟩

variable [DecidableEq H]

theorem mutate_once (F : Format P H) (cfg : FileConfig) (update : Update T) :
    ((Call.mutate cfg update : Call H T).loop F).Once := by
  intro seen snap writes after hplan hnone
  obtain ⟨_, _, _, _, _, _, _, _, _, rfl⟩ := mutatePlan_commit hplan
  cases hnone

/-- The answers of a mutation that has committed nothing: rejected, unchanged, contended,
    or stopped by the store. -/
def Reply.uncommitted : Reply H T → Bool
  | .mutate (.ok (_, changed)) => !changed
  | _ => true

/-- `c` is the closure applied to the configuration stored right before it, at the writer. -/
def AppliesUpdate (F : Format P H) (cfg : FileConfig) (update : Update T) {ι : Type} (c : Commit ι Key P) : Prop :=
  ∃ before after earlier result, read F cfg c.before.docs = .ok before ∧ read F cfg c.after.docs = .ok after ∧
    update earlier before.config = .ok (after.config, result) ∧ before.scope.localWriter = true

theorem applies_of_atomic {update : Update T} {ι : Type} {calls : ι → Call H T}
    {c : Commit ι Key P} {i : ι} (hi : calls i = .mutate cfg update) (hcaller : c.caller = some i)
    (h : c.Atomic (fun i => (calls i).loop F) KEYS) : AppliesUpdate F cfg update c := by
  simp only [Commit.Atomic, hcaller, hi] at h
  obtain ⟨seen, writes, after, revision, now, hplan, -, hafter⟩ := h
  obtain ⟨b, state, result, sync, hread, hwriter, hupdate, -, rfl, -⟩ := mutatePlan_commit hplan
  refine ⟨b, ⟨state, sync, b.scope⟩, earlierConfigs F cfg seen, result, hread, ?_, hupdate, hwriter⟩
  rw [hafter]
  exact read_written hread state sync revision now

variable {ι : Type} [DecidableEq ι]

theorem mutations_serialize (F : Format P H) (calls : ι → Call H T) {store : DocStore Key P}
    (hwf : WellFormed store) (es : List (CallEv ι Key P)) :
    let loops := fun i => (calls i).loop F
    let s := run (stepCall loops KEYS) (Sys.fresh loops store) es
    Chained store s.log s.store ∧
      ∀ i cfg update, calls i = .mutate cfg update →
        (∀ c ∈ s.log, c.caller = some i → AppliesUpdate F cfg update c) ∧ commitsBy i s.log ≤ 1 ∧
        ∀ r, s.phase i = .finished r → r.uncommitted = true → commitsBy i s.log = 0 := by
  intro loops s
  have hinv : Inv loops KEYS store s := run_inv mem_KEYS hwf es
  refine ⟨hinv.chained, fun i cfg update hi => ?_⟩
  have hloop : loops i = (Call.mutate cfg update).loop F := congrArg (Call.loop F) hi
  have honce : OnceInv loops i s := run_once mem_KEYS hwf (hloop ▸ mutate_once F cfg update) es
  refine ⟨fun c hc hcaller => applies_of_atomic hi hcaller (hinv.logged c hc), ?_, fun r hr huncommitted => ?_⟩
  · by_cases hfin : ∃ r, s.phase i = .finished r
    · obtain ⟨r, hr⟩ := hfin
      rcases honce.finished r hr with h | ⟨h, -⟩ <;> omega
    · rw [honce.running fun r hr => hfin ⟨r, hr⟩]
      exact Nat.zero_le 1
  · rcases honce.finished r hr with h | ⟨-, seen, snap, writes, hplan⟩
    · exact h
    · -- a call that ended by a commit says so
      rw [hloop] at hplan
      obtain ⟨_, _, result, _, _, _, _, _, _, hr'⟩ := mutatePlan_commit hplan
      rw [Option.some.inj hr'] at huncommitted
      cases huncommitted

end

/-! ## Two writers

Both read the empty store; the second is refused, reads again and adds to the first's group. -/

/-- Payloads that are the values themselves. -/
inductive Payload
  | listeners (v : List Listener)
  | targetGroups (v : List TargetGroup)
  | sync (v : SyncState (Option ProxyConfig))
  | ha (v : GatewayHaRuntimeConfig)
  | secret (v : GatewayHaPeerSecrets)
  | text (v : String)
  deriving DecidableEq

/-- A digest that is the configuration itself. -/
def plainFormat : Format Payload (Option ProxyConfig) where
  listeners := ⟨.listeners, fun | .listeners v => .ok v | _ => .error "not listeners", fun _ => rfl⟩
  targetGroups := ⟨.targetGroups, fun | .targetGroups v => .ok v | _ => .error "not target groups", fun _ => rfl⟩
  sync := ⟨.sync, fun | .sync v => .ok v | _ => .error "not a cursor", fun _ => rfl⟩
  ha := ⟨.ha, fun | .ha v => .ok v | _ => .error "not an HA configuration", fun _ => rfl⟩
  secret := ⟨.secret, fun | .secret v => .ok v | _ => .error "not a secret", fun _ => rfl⟩
  text := fun | .text v => v | _ => ""
  contentHash := some
  noHash := none

def emptyStore : DocStore Key Payload := { docs := fun _ => none, revisions := [] }

theorem emptyStore_wellFormed : WellFormed emptyStore := fun _ _ h => by cases h

def addGroup (name : String) : Update Unit :=
  fun _ config => .ok ({ config with targetGroups := config.targetGroups ++ [{ name }] }, ())

def twoWriters (second : Bool) : Call (Option ProxyConfig) Unit :=
  .mutate {} (addGroup (if second then "sip" else "web"))

def racing : List (CallEv Bool Key Payload) :=
  [.read false, .read true, .commit false 1 "t1", .commit true 2 "t2", .read true, .commit true 3 "t3"]

theorem racing_writers_serialize :
    let loops := fun i => (twoWriters i).loop plainFormat
    let s := run (stepCall loops KEYS) (Sys.fresh loops emptyStore) racing
    (read plainFormat {} s.store.docs).map (fun b => b.config.targetGroups.map (·.name)) = .ok ["web", "sip"] ∧
      s.log.map (·.caller) = [some false, some true] ∧
      ∀ c ∈ s.log, c.caller = some true → AppliesUpdate plainFormat {} (addGroup "sip") c := by
  refine ⟨by decide, by decide, ?_⟩
  exact ((mutations_serialize plainFormat twoWriters emptyStore_wellFormed racing).2 true {} _ rfl).1

end EdgeLb.Storage
