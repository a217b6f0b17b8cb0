/-
  EdgeLb.Storage.Mutate — `mutate_on` while nobody else writes.

  The first round then reads, plans and commits on the same documents, so a mutation is a
  function of the documents: rejected and nothing written, or the closure's result stored.
-/

import EdgeLb.Storage.Serial

namespace EdgeLb.Storage

open EdgeLb.Config EdgeLb.Lib

/-- When a commit is made, as `next_revision` and the clock have it. -/
structure Stamp where
  revision : Int
  now : String
  deriving DecidableEq, Repr

section

variable {P H T : Type} [DecidableEq P]

def mutate (F : Format P H) (cfg : FileConfig) (update : Update T) (at_ : Stamp) (docs : Docs Key P) :
    Docs Key P × Except MutationError (T × Bool) :=
  match mutatePlan F cfg update [] docs with
  | .done (.mutate r) => (docs, r)
  | .commit writes (some (.mutate r)) => (docs.written writes at_.revision at_.now, r)
  | _ => (docs, .error .contended)

theorem mutatePlan_done {F : Format P H} {cfg : FileConfig} {update : Update T} {seen : List (Docs Key P)}
    {docs : Docs Key P} {r : Reply H T} (h : mutatePlan F cfg update seen docs = .done r) : ∃ r', r = .mutate r' := by
  unfold mutatePlan at h
  split at h
  · cases h
    exact ⟨_, rfl⟩
  split at h
  · cases h
    exact ⟨_, rfl⟩
  split at h
  · cases h
    exact ⟨_, rfl⟩
  split at h
  · cases h
    exact ⟨_, rfl⟩
  split at h
  · cases h
    exact ⟨_, rfl⟩
  · cases h

/-- The documents store `config` for this node to change, with room for `room` versions. -/
def Writable (F : Format P H) (cfg : FileConfig) (room : Nat) (config : ProxyConfig) (docs : Docs Key P) : Prop :=
  ∃ b, read F cfg docs = .ok b ∧ b.config = config ∧ b.scope.localWriter = true ∧ b.sync.sequence + room < 2 ^ 64

omit [DecidableEq P] in
theorem requireLocalWriter_of_localWriter {b : Bundle H} (h : b.scope.localWriter = true) :
    b.requireLocalWriter = .ok () := by
  unfold Bundle.requireLocalWriter
  cases hs : b.scope with
  | standalone => rfl
  | master pairingId peer => rfl
  | backup pairingId peer => simp [hs, Scope.localWriter] at h

omit [DecidableEq P] in
/-- The writer's next version has the next number. -/
theorem localVersion_of_localWriter (F : Format P H) (cfg : FileConfig) (config : ProxyConfig) {b : Bundle H}
    (h : b.scope.localWriter = true) (hroom : b.sync.sequence + 1 < 2 ^ 64) :
    ∃ sync, b.localVersion F cfg config = .ok sync ∧ sync.sequence = b.sync.sequence + 1 := by
  have hnext (pairingId : String) (pending : Bool) :
      ∃ sync, nextVersion F cfg b.sync config pairingId pending = .ok sync ∧ sync.sequence = b.sync.sequence + 1 := by
    have hnot : decide (2 ^ 64 ≤ b.sync.sequence + 1) = false := decide_eq_false (by omega)
    have hok : nextVersion F cfg b.sync config pairingId pending = .ok
        { sequence := b.sync.sequence + 1, source := cfg.nodeName, pairingId,
          contentHash := F.contentHash (shared config), pending, lastError := none } := by
      simp only [nextVersion, hnot]
      rfl
    exact ⟨_, hok, rfl⟩
  unfold Bundle.localVersion
  cases hs : b.scope with
  | standalone => exact hnext "" false
  | master pairingId peer => exact hnext pairingId true
  | backup pairingId peer => simp [hs, Scope.localWriter] at h

variable {F : Format P H} {cfg : FileConfig} {update : Update T} {room : Nat} {config : ProxyConfig} {docs : Docs Key P}

theorem mutate_rejected (h : Writable F cfg room config docs) {r : Rejection} (hr : update [] config = .error r)
    (at_ : Stamp) : mutate F cfg update at_ docs = (docs, .error (.rejected r)) := by
  obtain ⟨b, hb, rfl, hwriter, -⟩ := h
  have hplan : mutatePlan F cfg update [] docs = .done (.mutate (.error (.rejected r))) := by
    simp only [mutatePlan, hb, requireLocalWriter_of_localWriter hwriter, earlierConfigs, List.filterMap_nil, hr]
  simp only [mutate, hplan]

/-- Equal texts are equal configurations. -/
theorem sameText_eq {a b : ProxyConfig} (h : sameText F a b = true) : a = b := by
  simp only [sameText, decide_eq_true_eq, Codec.encode_inj] at h
  cases a
  cases b
  simp_all

/-- The documents that say who may write. -/
def SameRole (docs docs' : Docs Key P) : Prop :=
  docs' .ha = docs .ha ∧ docs' .haPeerSecret = docs .haPeerSecret ∧ docs' .haActiveGateway = docs .haActiveGateway

theorem mutate_accepted (h : Writable F cfg (room + 1) config docs) {state : ProxyConfig} {x : T}
    (hx : update [] config = .ok (state, x)) (at_ : Stamp) :
    ∃ docs' changed, mutate F cfg update at_ docs = (docs', .ok (x, changed)) ∧ Writable F cfg room state docs' ∧
      SameRole docs docs' := by
  obtain ⟨b, hb, rfl, hwriter, hroom⟩ := h
  by_cases hsame : sameText F b.config state = true
  · have hplan : mutatePlan F cfg update [] docs = .done (.mutate (.ok (x, false))) := by
      simp only [mutatePlan, hb, requireLocalWriter_of_localWriter hwriter, earlierConfigs, List.filterMap_nil, hx, hsame,
        if_true]
    refine ⟨docs, false, by simp only [mutate, hplan], ⟨b, hb, sameText_eq hsame, hwriter, by omega⟩, rfl, rfl, rfl⟩
  · obtain ⟨sync, hsync, hseq⟩ := localVersion_of_localWriter F cfg state hwriter (by omega)
    have hplan : mutatePlan F cfg update [] docs =
        .commit (commitWrites F state sync true) (some (.mutate (.ok (x, true)))) := by
      simp only [mutatePlan, hb, requireLocalWriter_of_localWriter hwriter, earlierConfigs, List.filterMap_nil, hx, hsame,
        Bool.false_eq_true, if_false, hsync]
    refine ⟨docs.written (commitWrites F state sync true) at_.revision at_.now, true, by simp only [mutate, hplan],
      ⟨_, read_written hb state sync at_.revision at_.now, rfl, hwriter, ?_⟩, rfl, rfl, rfl⟩
    show sync.sequence + room < 2 ^ 64
    omega

end

end EdgeLb.Storage
