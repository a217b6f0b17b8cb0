/-
  EdgeLb.Provider.PendingFlows — the queue of flow operations through takes, acknowledgements
  and requeues (`PendingFlowBatch` and `flow_ack_covers_sent` of
  `edge-lb/src/provider/native/xsync.rs`).

  Mutations, takes and answers come in any order. The batches taken are answered in the order
  they were sent: one that its answer covers is delivered, any other is queued again. An upsert
  that is older than the upsert of its key still pending is ignored; `heeded` has the other
  mutations.

  Proved: a batch never exceeds the limit, and no key has two operations in one batch or in the
  queue. As long as no batch is queued again over a newer operation on one of its keys
  (`Unmutated`), what was delivered of a key, then what is in flight, then what is pending, are
  mutations of that key in the order they were made, and the last of them is its last
  (`pending_flows_in_order`). The session answers every batch before the next mutation, so it
  never queues one over a newer operation (`lockstep_unmutated`).
-/

import EdgeLb.Lib.Run
import EdgeLb.Provider.XSync

namespace EdgeLb.Provider

open EdgeLb.Common EdgeLb.Datapath EdgeLb.Lib

/-! ## The operations of a key -/

namespace PendingFlowBatch

variable {pending : PendingFlowBatch}

def operations (pending : PendingFlowBatch) : List FlowMutation := pending.keys.filterMap pending.lookup

theorem operations_ofKey (hkeyed : Keyed pending) (k : NativeFlowKey) :
    ofKey k pending.operations = (pending.lookup k).toList := by
  rw [operations, ofKey_filterMap pending.keys_nodup hkeyed]
  split
  · rfl
  next hk => rw [AList.lookup_eq_none.mpr hk, Option.toList_none]

end PendingFlowBatch

/-! ## A batch -/

theorem FlowSyncBatch.operations_length (batch : FlowSyncBatch) : batch.operations.length = batch.operationCount := by
  rw [operations, operationCount, List.length_append, List.length_map, List.length_map, Nat.add_comm]

namespace PendingFlowBatch

variable {pending : PendingFlowBatch}

variable (rank : NativeFlowKey → Nat)

theorem batchKeys_length (pending : PendingFlowBatch) :
    (pending.batchKeys rank).length ≤ MAX_SYNC_OPS_PER_BATCH := by
  simp only [batchKeys, List.length_append, List.length_take]
  omega

section

variable (hkeyed : Keyed pending)
include hkeyed

theorem batch_count :
    (pending.takeLimitedBatch rank).1.operationCount ≤ MAX_SYNC_OPS_PER_BATCH := by
  have hle := (List.subperm_of_subset (batch_nodup rank hkeyed) (batch_keys_subset rank hkeyed)).length_le
  rw [List.length_map, FlowSyncBatch.operations_length] at hle
  exact hle.trans (batchKeys_length rank pending)

end

end PendingFlowBatch

/-! ## The queue -/

/-- `inFlight`: taken and not answered yet, the oldest first. `acked`: delivered and fully
    acknowledged, in that order. `heeded`: the mutations that were not ignored. -/
structure Queue where
  pending : PendingFlowBatch := ∅
  inFlight : List FlowSyncBatch := []
  acked : List FlowMutation := []
  heeded : List FlowMutation := []

inductive QueueEvent
  | mutate (m : FlowMutation)
  | take (rank : NativeFlowKey → Nat)
  | answer (applied : Nat)

def stepQueue (s : Queue) : QueueEvent → Queue
  | .mutate m =>
    { s with pending := s.pending.applyMutation m
             heeded := if s.pending.ignores m then s.heeded else s.heeded ++ [m] }
  | .take rank =>
    let (batch, pending) := s.pending.takeLimitedBatch rank
    { s with pending, inFlight := s.inFlight ++ [batch] }
  | .answer applied =>
    match s.inFlight with
    | [] => s
    | batch :: inFlight =>
      if flowAckCoversSent batch.operationCount applied then
        { s with inFlight, acked := s.acked ++ batch.operations }
      else { s with inFlight, pending := s.pending.requeueBatch batch }

def mutationsOf (es : List QueueEvent) : List FlowMutation :=
  es.filterMap fun
    | .mutate m => some m
    | _ => none

/-- The batches in flight. -/
def Queue.sent (s : Queue) : List FlowMutation := s.inFlight.flatMap FlowSyncBatch.operations

/-- What was delivered and acknowledged, then what is not yet: in flight or pending. -/
def Queue.operations (s : Queue) : List FlowMutation := s.acked ++ s.sent ++ s.pending.operations

/-- A batch queued again has no key with a newer operation, pending or in a later batch. -/
def Unmutated (s : Queue) : QueueEvent → Prop
  | .answer applied =>
    ∀ batch ∈ s.inFlight.head?, flowAckCoversSent batch.operationCount applied = false →
      ∀ m ∈ batch.operations, s.pending.lookup m.key = none ∧ ∀ later ∈ s.inFlight.tail,
        m.key ∉ later.operations.map FlowMutation.key
  | _ => True

structure Queue.Filed (s : Queue) : Prop where
  keyed : Keyed s.pending
  batches : ∀ batch ∈ s.inFlight,
    batch.operationCount ≤ MAX_SYNC_OPS_PER_BATCH ∧ (batch.operations.map FlowMutation.key).Nodup

variable {s : Queue} {e : QueueEvent}

theorem Queue.Filed.step (h : s.Filed) (e : QueueEvent) : (stepQueue s e).Filed := by
  cases e with
  | mutate m => exact ⟨PendingFlowBatch.applyMutation_keyed h.keyed m, h.batches⟩
  | take rank =>
    refine ⟨PendingFlowBatch.taken_keyed rank h.keyed, ?_⟩
    intro batch hbatch
    rcases List.mem_append.mp hbatch with hold | hnew
    · exact h.batches batch hold
    · obtain rfl := List.mem_singleton.mp hnew
      exact ⟨PendingFlowBatch.batch_count rank h.keyed, PendingFlowBatch.batch_nodup rank h.keyed⟩
  | answer applied =>
    cases hflight : s.inFlight with
    | nil =>
      simp only [stepQueue, hflight]
      exact h
    | cons batch later =>
      have hlater : ∀ b ∈ later, b.operationCount ≤ MAX_SYNC_OPS_PER_BATCH ∧ (b.operations.map FlowMutation.key).Nodup :=
        fun b hb => h.batches b (hflight ▸ List.mem_cons_of_mem batch hb)
      simp only [stepQueue, hflight]
      split
      · exact ⟨h.keyed, hlater⟩
      · refine ⟨?_, hlater⟩
        rw [PendingFlowBatch.requeueBatch_eq]
        exact PendingFlowBatch.applyMutations_keyed h.keyed batch.operations

theorem filed_run (es : List QueueEvent) : (run stepQueue {} es).Filed :=
  inv_run_all stepQueue (fun _ e h => h.step e)
    ⟨fun k m h => by simp [AList.lookup_empty] at h, fun batch hbatch => by cases hbatch⟩ es

/-! ## The session -/

/-- Each batch is answered before the next mutation or take. -/
def Lockstep (s : Queue) : QueueEvent → Prop
  | .answer _ => True
  | _ => s.inFlight = []

instance Lockstep.decidable (s : Queue) : ∀ e, Decidable (Lockstep s e)
  | .answer _ => .isTrue trivial
  | .mutate _ => inferInstanceAs (Decidable (s.inFlight = []))
  | .take _ => inferInstanceAs (Decidable (s.inFlight = []))

/-- What is in flight has nothing pending for its keys, and nothing behind it. -/
def Queue.Single (s : Queue) : Prop :=
  s.inFlight.tail = [] ∧ ∀ batch ∈ s.inFlight, ∀ m ∈ batch.operations, s.pending.lookup m.key = none

theorem Queue.Single.step (hfiled : s.Filed) (h : s.Single) (hok : Lockstep s e) : (stepQueue s e).Single := by
  cases e with
  | mutate m =>
    have hempty : (stepQueue s (.mutate m)).inFlight = [] := hok
    exact ⟨by rw [hempty]; rfl, by simp [hempty]⟩
  | take rank =>
    have hone : (stepQueue s (.take rank)).inFlight = [(s.pending.takeLimitedBatch rank).1] := by
      have hempty : s.inFlight = [] := hok
      simp [stepQueue, hempty]
    refine ⟨by rw [hone]; rfl, ?_⟩
    intro batch hbatch m hm
    rw [hone, List.mem_singleton] at hbatch
    subst hbatch
    exact PendingFlowBatch.batch_vacant rank hfiled.keyed hm
  | answer applied =>
    obtain ⟨htail, -⟩ := id h
    cases hflight : s.inFlight with
    | nil =>
      simp only [stepQueue, hflight]
      exact h
    | cons batch later =>
      rw [hflight, List.tail_cons] at htail
      have hempty : (stepQueue s (.answer applied)).inFlight = [] := by
        simp only [stepQueue, hflight]
        split <;> exact htail
      exact ⟨by rw [hempty]; rfl, by simp [hempty]⟩

theorem Queue.Single.unmutated (h : s.Single) (e : QueueEvent) : Unmutated s e := by
  cases e with
  | mutate m => trivial
  | take rank => trivial
  | answer applied =>
    intro batch hbatch _ m hm
    refine ⟨h.2 batch (List.mem_of_mem_head? hbatch) m hm, ?_⟩
    simp [h.1]

/-- A session that answers each batch before it goes on never queues one over a newer operation. -/
theorem lockstep_unmutated {es : List QueueEvent} (h : StepsMeet stepQueue Lockstep {} es) :
    StepsMeet stepQueue Unmutated {} es := by
  have hkeep : ∀ s e, s.Filed ∧ s.Single → Lockstep s e → (stepQueue s e).Filed ∧ (stepQueue s e).Single :=
    fun s e hs hok => ⟨hs.1.step e, hs.2.step hs.1 hok⟩
  have hinit : ({} : Queue).Filed ∧ ({} : Queue).Single := ⟨filed_run [], rfl, fun batch hbatch => by cases hbatch⟩
  exact StepsMeet.imp stepQueue hkeep (fun s e hs _ => hs.2.unmutated e) hinit h

/-- What the receiver counts of a batch. -/
def appliedOf (r : Receiving) (batch : FlowSyncBatch) : Nat :=
  (if r.upsertPinned then batch.entries.length else 0) + (if r.deletePinned then batch.deletes.length else 0)

/-- A send of the session is a take and its answer. -/
theorem send_pending (rank : NativeFlowKey → Nat) (now : UInt64) (r : Receiving) (w : Session) :
    (send rank now r w).pending =
      (run stepQueue { pending := w.pending }
        [.take rank, .answer (appliedOf r (w.pending.takeLimitedBatch rank).1)]).pending := by
  have hcovered : covered rank r w = flowAckCoversSent (w.pending.takeLimitedBatch rank).1.operationCount
      (appliedOf r (w.pending.takeLimitedBatch rank).1) := rfl
  simp only [send_eq, run_cons, run_nil, stepQueue, List.nil_append, hcovered]
  generalize flowAckCoversSent _ _ = full
  cases full <;> rfl

/-! ## What is delivered -/

theorem Queue.operations_ofKey (h : s.Filed) (k : NativeFlowKey) :
    ofKey k s.operations = ofKey k s.acked ++ ofKey k s.sent ++ (s.pending.lookup k).toList := by
  rw [operations, ofKey_append, ofKey_append, PendingFlowBatch.operations_ofKey h.keyed]

/-- Only a mutation changes what was delivered or is outstanding of a key. -/
theorem operations_ofKey_kept (h : s.Filed) (hok : Unmutated s e)
    (he : ∀ m, e ≠ .mutate m) (k : NativeFlowKey) : ofKey k (stepQueue s e).operations = ofKey k s.operations := by
  rw [Queue.operations_ofKey (h.step e), Queue.operations_ofKey h]
  cases e with
  | mutate m => exact absurd rfl (he m)
  | take rank =>
    have hsent : (stepQueue s (.take rank)).sent = s.sent ++ (s.pending.takeLimitedBatch rank).1.operations := by
      simp [Queue.sent, stepQueue]
    rw [hsent, ofKey_append, ← PendingFlowBatch.taken_ofKey rank h.keyed k]
    simp only [List.append_assoc]
    rfl
  | answer applied =>
    cases hflight : s.inFlight with
    | nil => simp only [stepQueue, hflight]
    | cons batch later =>
      have hsent : s.sent = batch.operations ++ later.flatMap FlowSyncBatch.operations := by simp [Queue.sent, hflight]
      rw [hsent, ofKey_append]
      cases hcover : flowAckCoversSent batch.operationCount applied with
      | true =>
        simp only [stepQueue, hflight, hcover, if_true, Queue.sent, ofKey_append, List.append_assoc]
      | false =>
        have hfree := hok batch (by simp [hflight]) hcover
        simp only [stepQueue, hflight, hcover, Bool.false_eq_true, if_false, Queue.sent]
        rw [PendingFlowBatch.requeueBatch_eq, PendingFlowBatch.applyMutations_vacant
          (h.batches batch (by simp [hflight])).2 (fun m hm => (hfree m hm).1)]
        -- the requeue moves the batch's operation behind the later batches, which have none of its key
        by_cases hk : k ∈ batch.operations.map FlowMutation.key
        · obtain ⟨m, hm, rfl⟩ := List.mem_map.mp hk
          have hnone : ofKey m.key (later.flatMap FlowSyncBatch.operations) = [] := by
            rw [ofKey_eq_nil_iff, List.map_flatMap, List.mem_flatMap]
            rintro ⟨b, hb, hin⟩
            exact (hfree m hm).2 b (by simpa [hflight] using hb) hin
          simp [hnone]
        · simp [ofKey_eq_nil_iff.mpr hk]

/-- Per key, the operations delivered and outstanding are mutations in their order, up to the last. -/
structure InOrder (s : Queue) (k : NativeFlowKey) : Prop where
  sublist : (ofKey k s.operations).Sublist (ofKey k s.heeded)
  last : (ofKey k s.operations).getLast? = (ofKey k s.heeded).getLast?

/-- A mutation that is heeded takes the place of what was pending for its key. -/
theorem operations_ofKey_mutate (h : s.Filed) (m : FlowMutation) (k : NativeFlowKey) :
    ofKey k (stepQueue s (.mutate m)).operations =
      if s.pending.ignores m = false ∧ m.key = k then ofKey k s.acked ++ ofKey k s.sent ++ [m] else ofKey k s.operations := by
  have hops := Queue.operations_ofKey (h.step (.mutate m)) k
  have hpending : (stepQueue s (.mutate m)).pending =
      if s.pending.ignores m then s.pending else s.pending.insert m.key m := PendingFlowBatch.applyMutation_eq s.pending m
  rw [hpending] at hops
  rw [hops, Queue.operations_ofKey h]
  cases hignores : s.pending.ignores m with
  | true => simp [stepQueue, Queue.sent]
  | false =>
    by_cases hk : m.key = k
    · subst hk
      simp [stepQueue, Queue.sent]
    · simp [stepQueue, Queue.sent, hk, AList.lookup_insert_ne (Ne.symm hk)]

theorem heeded_ofKey_mutate (s : Queue) (m : FlowMutation) (k : NativeFlowKey) :
    ofKey k (stepQueue s (.mutate m)).heeded =
      if s.pending.ignores m = false ∧ m.key = k then ofKey k s.heeded ++ [m] else ofKey k s.heeded := by
  cases hignores : s.pending.ignores m with
  | true => simp [stepQueue, hignores]
  | false => by_cases hk : m.key = k <;> simp [stepQueue, hignores, ofKey, List.filter_append, hk]

theorem heeded_kept (he : ∀ m, e ≠ .mutate m) : (stepQueue s e).heeded = s.heeded := by
  cases e with
  | mutate m => exact absurd rfl (he m)
  | take rank => rfl
  | answer applied =>
    simp only [stepQueue]
    split
    · rfl
    · split <;> rfl

theorem InOrder.step (hfiled : s.Filed) {k : NativeFlowKey} (h : InOrder s k)
    (hok : Unmutated s e) : InOrder (stepQueue s e) k := by
  by_cases he : ∃ m, e = .mutate m
  · obtain ⟨m, rfl⟩ := he
    have hops := operations_ofKey_mutate hfiled m k
    have hheeded := heeded_ofKey_mutate s m k
    split at hops
    next hcounts =>
      rw [if_pos hcounts] at hheeded
      have hsub : (ofKey k s.acked ++ ofKey k s.sent).Sublist (ofKey k s.heeded) := by
        have hall := h.sublist
        rw [Queue.operations_ofKey hfiled] at hall
        exact (List.sublist_append_left _ _).trans hall
      constructor
      · rw [hops, hheeded]
        exact hsub.append_right [m]
      · rw [hops, hheeded, List.getLast?_concat, List.getLast?_concat]
    next hnot =>
      rw [if_neg hnot] at hheeded
      exact ⟨hops ▸ hheeded ▸ h.sublist, hops ▸ hheeded ▸ h.last⟩
  · have he' : ∀ m, e ≠ .mutate m := fun m hm => he ⟨m, hm⟩
    have hops := operations_ofKey_kept hfiled hok he' k
    have hheeded : (stepQueue s e).heeded = s.heeded := heeded_kept he'
    exact ⟨hops ▸ hheeded ▸ h.sublist, hops ▸ hheeded ▸ h.last⟩

/-- No batch exceeds the limit, and no key has two operations in a batch or in the queue. While
    no batch is queued again over newer operations on its keys, the operations delivered, in
    flight and pending of each key are mutations of it in their order, up to its last one. -/
theorem pending_flows_in_order (es : List QueueEvent) :
    let s := run stepQueue {} es
    (∀ batch ∈ s.inFlight, batch.operationCount ≤ MAX_SYNC_OPS_PER_BATCH ∧
        (batch.operations.map FlowMutation.key).Nodup) ∧
      (s.pending.operations.map FlowMutation.key).Nodup ∧
      (StepsMeet stepQueue Unmutated {} es → ∀ k, (ofKey k s.operations).Sublist (ofKey k s.heeded) ∧
        (ofKey k s.operations).getLast? = (ofKey k s.heeded).getLast?) := by
  intro s
  have hfiled : s.Filed := filed_run es
  refine ⟨hfiled.batches, ?_, ?_⟩
  · rw [nodup_keys_iff]
    intro k
    rw [PendingFlowBatch.operations_ofKey hfiled.keyed]
    exact Option.length_toList_le
  · intro hmeet k
    have hkeep : ∀ s e, s.Filed ∧ InOrder s k → Unmutated s e → (stepQueue s e).Filed ∧ InOrder (stepQueue s e) k :=
      fun s e h hok => ⟨h.1.step e, h.2.step h.1 hok⟩
    have hinit : ({} : Queue).Filed ∧ InOrder {} k := ⟨filed_run [], .refl _, rfl⟩
    have hinv : s.Filed ∧ InOrder s k := inv_run stepQueue hkeep hinit hmeet
    exact ⟨hinv.2.sublist, hinv.2.last⟩

def queuedKey : NativeFlowKey := ⟨0x0a000007, 0x0a000001, 40001, 80, 6⟩

def upsertSeen (lastSeenNs : UInt64) : FlowMutation :=
  .upsert (queuedKey, ⟨1, 0, 0x0a000001, 0x0a000065, 80, 8080, 60, lastSeenNs⟩)

def takeNow : QueueEvent := .take fun _ => 0

/-- An older upsert of a key is ignored, and a batch queued again brings back the upsert that a
    delete had followed. -/
theorem queue_loses_last_mutation :
    let older := [.mutate (upsertSeen 10), .mutate (upsertSeen 5)]
    let requeued := [.mutate (upsertSeen 10), takeNow, .mutate (.delete queuedKey), .answer 0]
    (ofKey queuedKey (run stepQueue {} older).operations).getLast? = some (upsertSeen 10) ∧
      (ofKey queuedKey (mutationsOf older)).getLast? = some (upsertSeen 5) ∧
      (ofKey queuedKey (run stepQueue {} requeued).operations).getLast? = some (upsertSeen 10) ∧
      (ofKey queuedKey (mutationsOf requeued)).getLast? = some (.delete queuedKey) := by
  decide

/-- The peer applies one of two operations, both are sent again with the refreshed flow. -/
def retried : List QueueEvent :=
  [.mutate (upsertSeen 10), .mutate (.delete queuedKey.mirror), takeNow, .answer 1, .mutate (upsertSeen 20), takeNow,
    .answer 2, .mutate (.delete queuedKey)]

theorem retried_in_order :
    StepsMeet stepQueue Unmutated {} retried ∧
      (run stepQueue {} retried).acked = [.delete queuedKey.mirror, upsertSeen 20] ∧
      (ofKey queuedKey (run stepQueue {} retried).operations).Sublist (ofKey queuedKey (run stepQueue {} retried).heeded) ∧
      (ofKey queuedKey (run stepQueue {} retried).operations).getLast? =
        (ofKey queuedKey (run stepQueue {} retried).heeded).getLast? := by
  have hmeet : StepsMeet stepQueue Unmutated {} retried := lockstep_unmutated (by decide)
  exact ⟨hmeet, by decide, (pending_flows_in_order retried).2.2 hmeet queuedKey⟩

end EdgeLb.Provider
