/-
  EdgeLb.Provider.XSync — flow replication from the MASTER to its peer in one session
  (`sync_session_grpc`, `PendingFlowBatch` and `apply_proto_request` of
  `edge-lb/src/provider/native/xsync.rs`; `upsert_flows` and `delete_flows` of
  `linux/native_dnat.rs`).

  The session drains the datapath's ring of flow events into one pending operation for each
  key, dumps the flow table from time to time and makes the difference to what the peer has
  acknowledged pending, and sends pending operations in batches. The ring may lose an event,
  a refreshed flow leaves none, and neither does a flow that the sweep removes. A session
  starts with nothing acknowledged.

  The hash map of pending operations is walked in an order of its own, given by a rank of the
  keys. When a batch is flushed is left to the run: `should_flush` and the reconcile schedule
  only say how long to wait.
-/

import EdgeLb.Lib.Cell
import EdgeLb.Lib.Check
import EdgeLb.Lib.MapSync
import EdgeLb.Provider.FlowTransfer
import Mathlib.Data.List.Sort

namespace EdgeLb.Provider

open EdgeLb.Common EdgeLb.Datapath EdgeLb.Lib

def MAX_SYNC_OPS_PER_BATCH : Nat := 4096

inductive FlowMutation
  | upsert (entry : FlowEntry)
  | delete (key : NativeFlowKey)
  deriving DecidableEq, Repr

/-- `FlowBatchState` has the same two cases. -/
abbrev FlowBatchState := FlowMutation

abbrev PendingFlowBatch := BpfMap NativeFlowKey FlowBatchState

structure FlowSyncBatch where
  entries : List FlowEntry := []
  deletes : List NativeFlowKey := []
  deriving DecidableEq, Repr

def FlowSyncBatch.operationCount (batch : FlowSyncBatch) : Nat := batch.entries.length + batch.deletes.length

/-! ## The pending operations -/

namespace PendingFlowBatch

variable (pending : PendingFlowBatch) (key : NativeFlowKey)

def applyUpsert (entry : FlowEntry) : PendingFlowBatch :=
  let takes := match pending.lookup entry.1 with
    | some (.upsert (_, value)) => decide (value.lastSeenNs ≤ entry.2.lastSeenNs)
    | _ => true
  if takes then pending.insert entry.1 (.upsert entry) else pending

def applyDelete : PendingFlowBatch := pending.insert key (.delete key)

def applyMutation : FlowMutation → PendingFlowBatch
  | .upsert entry => applyUpsert pending entry
  | .delete key => applyDelete pending key

def applyMutations (mutations : List FlowMutation) : PendingFlowBatch :=
  mutations.foldl applyMutation pending

def applyEntries (entries : List FlowEntry) : PendingFlowBatch :=
  entries.foldl applyUpsert pending

def applyDeletes (keys : List NativeFlowKey) : PendingFlowBatch :=
  keys.foldl applyDelete pending

def requeueBatch (batch : FlowSyncBatch) : PendingFlowBatch :=
  applyEntries (applyDeletes pending batch.deletes) batch.entries

/-- The keys in the order the hash map is walked. -/
def walk (rank : NativeFlowKey → Nat) (pending : PendingFlowBatch) : List NativeFlowKey :=
  pending.keys.insertionSort fun a b => rank a ≤ rank b

def upsertAt : Option FlowEntry :=
  match pending.lookup key with
  | some (.upsert entry) => some entry
  | _ => none

def deleteAt : Option NativeFlowKey :=
  match pending.lookup key with
  | some (.delete key) => some key
  | _ => none

/-- Upserts first, then deletes, up to the limit. -/
def batchKeys (rank : NativeFlowKey → Nat) (pending : PendingFlowBatch) : List NativeFlowKey :=
  let upserts := ((walk rank pending).filter fun key => (upsertAt pending key).isSome).take MAX_SYNC_OPS_PER_BATCH
  let deletes := ((walk rank pending).filter fun key => (deleteAt pending key).isSome).take
    (MAX_SYNC_OPS_PER_BATCH - upserts.length)
  upserts ++ deletes

def takeLimitedBatch (rank : NativeFlowKey → Nat) (pending : PendingFlowBatch) : FlowSyncBatch × PendingFlowBatch :=
  let keys := batchKeys rank pending
  ({ entries := keys.filterMap (upsertAt pending), deletes := keys.filterMap (deleteAt pending) }, eraseAll pending keys)

end PendingFlowBatch

/-! ## The receiver -/

/-- `flow_apply_applies`: a new key, or a value strictly fresher than the local one. -/
def flowApplyApplies (stored : Option NativeFlowValue) (replica : NativeFlowValue) : Bool :=
  stored.all fun local_ => local_.lastSeenNs < replica.lastSeenNs

/-- `upsert_flows` on an attached datapath. -/
def upsertFlows (entries : List FlowEntry) (flows : BpfMap NativeFlowKey NativeFlowValue) :
    BpfMap NativeFlowKey NativeFlowValue :=
  entries.foldl (fun flows e => if flowApplyApplies (flows.lookup e.1) e.2 then flows.insert e.1 e.2 else flows) flows

structure FlowSyncRequest where
  entries : List Pb.FlowEntry
  deletes : List Pb.FlowKey

/-- The receiver's flow map is pinned, or not, when the entries and when the deletes are
    applied; without it nothing is applied or counted. `clock` is its monotonic clock as the
    entry of a key is read. -/
structure Receiving where
  upsertPinned : Bool := true
  deletePinned : Bool := true
  clock : Pb.FlowEntry → UInt64

def applyProtoRequest (r : Receiving) (request : FlowSyncRequest) (flows : BpfMap NativeFlowKey NativeFlowValue) :
    Except String (BpfMap NativeFlowKey NativeFlowValue × Nat) := do
  let entries ← request.entries.mapM fun e => entryFromProtoAt e (r.clock e)
  let deletes ← request.deletes.mapM keyFromProto
  let flows := if r.upsertPinned then upsertFlows entries flows else flows
  let flows := if r.deletePinned then eraseAll flows deletes else flows
  return (flows, (if r.upsertPinned then entries.length else 0) + (if r.deletePinned then deletes.length else 0))

/-! ## The session -/

/-- `removed` and `settled` are history: the keys removed during the session, and whether the
    table is as the last dump found it. -/
structure Session where
  table : BpfMap NativeFlowKey NativeFlowValue
  ring : List FlowMutation := []
  pending : PendingFlowBatch := ∅
  replica : BpfMap NativeFlowKey UInt64 := ∅
  receiver : BpfMap NativeFlowKey NativeFlowValue
  removed : List NativeFlowKey := []
  settled : Bool := false

/-- `seen`: the event reaches the ring. A send is one batch with its acknowledgement. -/
inductive SessionEvent
  | create (key : NativeFlowKey) (value : NativeFlowValue) (seen : Bool)
  | refresh (key : NativeFlowKey) (now : UInt64)
  | remove (key : NativeFlowKey) (seen : Bool)
  | drain
  | reconcile
  | send (rank : NativeFlowKey → Nat) (now : UInt64) (receiving : Receiving)

def dumpFlows (table : BpfMap NativeFlowKey NativeFlowValue) : List FlowEntry :=
  table.keys.filterMap fun key => (table.lookup key).map fun value => (key, value)

/-- What a full reconcile makes pending. -/
def reconcilePending (w : Session) : PendingFlowBatch :=
  let flows := dumpFlows w.table
  let entries := flows.filter fun e => (w.replica.lookup e.1).all fun seen => seen < e.2.lastSeenNs
  let deletes := w.replica.keys.filter fun key => key ∉ flows.map (·.1)
  (w.pending.applyDeletes deletes).applyEntries entries

def flowAckCoversSent (expected accepted : Nat) : Bool := accepted = expected

def requestOf (batch : FlowSyncBatch) (now : UInt64) : FlowSyncRequest :=
  { entries := batch.entries.map fun e => entryToProto e now, deletes := batch.deletes.map keyToProto }

variable (rank : NativeFlowKey → Nat) (now : UInt64) (r : Receiving)

/-- An error of the receiver ends the session. -/
def send (w : Session) : Session :=
  let (batch, pending) := w.pending.takeLimitedBatch rank
  match applyProtoRequest r (requestOf batch now) w.receiver with
  | .error _ => w
  | .ok (receiver, accepted) =>
    if flowAckCoversSent batch.operationCount accepted then
      { w with receiver, pending
               replica := eraseAll (insertAll w.replica (batch.entries.map fun e => (e.1, e.2.lastSeenNs))) batch.deletes }
    else { w with receiver, pending := pending.requeueBatch batch }

def stepSession (w : Session) : SessionEvent → Session
  | .create key value seen =>
    { w with table := w.table.insert key value, ring := if seen then w.ring ++ [.upsert (key, value)] else w.ring
             settled := false }
  | .refresh key now =>
    match w.table.lookup key with
    | none => w
    | some value => { w with table := w.table.insert key (value.refreshed now), settled := false }
  | .remove key seen =>
    { w with table := w.table.erase key, ring := if seen then w.ring ++ [.delete key] else w.ring
             removed := key :: w.removed, settled := false }
  | .drain => { w with pending := w.pending.applyMutations w.ring, ring := [] }
  | .reconcile => { w with pending := reconcilePending w, settled := true }
  | .send rank now r => send rank now r w

/-! ## One key of the session -/

/-- Two values of one flow, whenever it was last seen. -/
def SameFlow (v w : NativeFlowValue) : Prop :=
  v.listenerId = w.listenerId ∧ v.targetId = w.targetId ∧ v.vip = w.vip ∧ v.target = w.target ∧
    v.vipPort = w.vipPort ∧ v.targetPort = w.targetPort ∧ v.timeoutSecs = w.timeoutSecs

instance (v w : NativeFlowValue) : Decidable (SameFlow v w) := by
  unfold SameFlow
  infer_instance

theorem sameFlow_equivalence : Equivalence SameFlow where
  refl _ := ⟨rfl, rfl, rfl, rfl, rfl, rfl, rfl⟩
  symm := by
    rintro v w ⟨h1, h2, h3, h4, h5, h6, h7⟩
    exact ⟨h1.symm, h2.symm, h3.symm, h4.symm, h5.symm, h6.symm, h7.symm⟩
  trans := by
    rintro u v w ⟨h1, h2, h3, h4, h5, h6, h7⟩ ⟨g1, g2, g3, g4, g5, g6, g7⟩
    exact ⟨h1.trans g1, h2.trans g2, h3.trans g3, h4.trans g4, h5.trans g5, h6.trans g6, h7.trans g7⟩

theorem sameFlow_refreshed (v : NativeFlowValue) (now : UInt64) : SameFlow v (v.refreshed now) :=
  ⟨rfl, rfl, rfl, rfl, rfl, rfl, rfl⟩

def stamp (v : NativeFlowValue) : Nat := v.lastSeenNs.toNat

def FlowMutation.key : FlowMutation → NativeFlowKey
  | .upsert entry => entry.1
  | .delete key => key

def FlowMutation.op : FlowMutation → Op NativeFlowValue
  | .upsert entry => some entry.2
  | .delete _ => none

/-- What a mutation does to a key. -/
def opAt (k : NativeFlowKey) (m : FlowMutation) : Option (Op NativeFlowValue) := if m.key = k then some m.op else none

def valueAt {ν : Type} (k : NativeFlowKey) (e : NativeFlowKey × ν) : Option ν := if e.1 = k then some e.2 else none

def cellAt (w : Session) (k : NativeFlowKey) : Cell NativeFlowValue Nat :=
  { source := w.table.lookup k
    events := w.ring.filterMap (opAt k)
    pending := (w.pending.lookup k).map FlowMutation.op
    acked := (w.replica.lookup k).map UInt64.toNat
    remote := w.receiver.lookup k
    removed := decide (k ∈ w.removed)
    settled := w.settled }

/-- The operations are filed under their own keys. -/
def Keyed (pending : PendingFlowBatch) : Prop := ∀ k m, pending.lookup k = some m → m.key = k

namespace PendingFlowBatch

variable (pending : PendingFlowBatch)

/-- The mutation is an upsert older than the upsert pending for its key. -/
def ignores (pending : PendingFlowBatch) : FlowMutation → Bool
  | .upsert entry =>
    match pending.lookup entry.1 with
    | some (.upsert (_, value)) => decide (entry.2.lastSeenNs < value.lastSeenNs)
    | _ => false
  | .delete _ => false

theorem applyMutation_eq (pending : PendingFlowBatch) (m : FlowMutation) :
    pending.applyMutation m = if pending.ignores m then pending else pending.insert m.key m := by
  cases m with
  | delete key => rfl
  | upsert entry =>
    simp only [applyMutation, applyUpsert, ignores, FlowMutation.key]
    rcases Option.eq_none_or_eq_some (pending.lookup entry.1) with hnone | ⟨old, hold⟩
    · simp [hnone]
    · cases old with
      | delete key => simp [hold]
      | upsert old =>
        by_cases hle : old.2.lastSeenNs ≤ entry.2.lastSeenNs
        · simp [hold, hle, UInt64.not_lt.mpr hle]
        · simp [hold, hle, UInt64.not_le.mp hle]

theorem applyMutation_keyed {pending : PendingFlowBatch} (h : Keyed pending) (m : FlowMutation) :
    Keyed (pending.applyMutation m) := by
  rw [applyMutation_eq]
  split
  · exact h
  · intro k x hx
    by_cases hk : k = m.key
    · subst hk
      rw [AList.lookup_insert] at hx
      obtain rfl := Option.some.inj hx
      rfl
    · rw [AList.lookup_insert_ne hk] at hx
      exact h k x hx

theorem applyMutations_keyed {pending : PendingFlowBatch} (h : Keyed pending) (ms : List FlowMutation) :
    Keyed (pending.applyMutations ms) := by
  unfold applyMutations
  induction ms generalizing pending with
  | nil => exact h
  | cons m ms ih => exact ih (applyMutation_keyed h m)

theorem applyMutation_at (m : FlowMutation) (k : NativeFlowKey) :
    ((pending.applyMutation m).lookup k).map FlowMutation.op =
      ((opAt k m).map (Cell.absorb stamp ((pending.lookup k).map FlowMutation.op))).getD
        ((pending.lookup k).map FlowMutation.op) := by
  by_cases hk : m.key = k
  · subst hk
    cases m with
    | delete key => simp [applyMutation, applyDelete, opAt, FlowMutation.key, FlowMutation.op, Cell.absorb]
    | upsert entry =>
      simp only [applyMutation, applyUpsert, opAt, FlowMutation.key, if_true, Option.map_some, Option.getD_some]
      cases hold : pending.lookup entry.1 with
      | none => simp [FlowMutation.op, Cell.absorb]
      | some old =>
        cases old with
        | delete key => simp [FlowMutation.op, Cell.absorb]
        | upsert old =>
          by_cases hle : old.2.lastSeenNs ≤ entry.2.lastSeenNs
          · have hle' : stamp old.2 ≤ stamp entry.2 := UInt64.le_iff_toNat_le.mp hle
            simp [FlowMutation.op, Cell.absorb, hle, hle']
          · have hle' : ¬ stamp old.2 ≤ stamp entry.2 := fun h => hle (UInt64.le_iff_toNat_le.mpr h)
            simp [FlowMutation.op, Cell.absorb, hle, hle', hold]
  · have hother : (pending.applyMutation m).lookup k = pending.lookup k := by
      rw [applyMutation_eq]
      split
      · rfl
      · exact AList.lookup_insert_ne (Ne.symm hk)
    simp [hother, opAt, hk]

theorem applyMutations_at (ms : List FlowMutation) (k : NativeFlowKey) :
    ((pending.applyMutations ms).lookup k).map FlowMutation.op =
      (ms.filterMap (opAt k)).foldl (Cell.absorb stamp) ((pending.lookup k).map FlowMutation.op) :=
  lookup_foldl_at (Option.map FlowMutation.op) applyMutation_at pending ms k

theorem applyDeletes_eq (keys : List NativeFlowKey) :
    pending.applyDeletes keys = pending.applyMutations (keys.map .delete) := by
  simp [applyDeletes, applyMutations, List.foldl_map, applyMutation]

theorem applyEntries_eq (entries : List FlowEntry) :
    pending.applyEntries entries = pending.applyMutations (entries.map .upsert) := by
  simp [applyEntries, applyMutations, List.foldl_map, applyMutation]

end PendingFlowBatch

/-! ## A dump at one key -/

theorem dumpFlows_keys (table : BpfMap NativeFlowKey NativeFlowValue) (k : NativeFlowKey) :
    k ∈ (dumpFlows table).map (·.1) ↔ (table.lookup k).isSome = true := by
  simp only [dumpFlows, List.mem_map, List.mem_filterMap, Option.map_eq_some_iff]
  constructor
  · rintro ⟨e, ⟨x, -, v, hv, rfl⟩, rfl⟩
    simp [hv]
  · intro h
    obtain ⟨v, hv⟩ := Option.isSome_iff_exists.mp h
    exact ⟨(k, v), ⟨k, mem_of_lookup hv, v, hv, rfl⟩, rfl⟩

/-- A key is deleted once, when it was replicated and its flow is gone. -/
theorem staleDeletes_at (w : Session) (k : NativeFlowKey) :
    ((w.replica.keys.filter fun key => key ∉ (dumpFlows w.table).map (·.1)).map FlowMutation.delete).filterMap (opAt k) =
      if k ∈ w.replica.keys ∧ (w.table.lookup k).isSome = false then [none] else [] := by
  rw [List.filterMap_map]
  have hat : opAt k ∘ FlowMutation.delete = fun x => if x = k then some none else none := rfl
  rw [hat, filterMap_at (w.replica.keys_nodup.filter _)]
  simp [List.mem_filter, dumpFlows_keys]

/-- A flow is entered once, when it was seen after it was replicated. -/
theorem newerEntries_at (w : Session) (k : NativeFlowKey) :
    (((dumpFlows w.table).filter fun e =>
        (w.replica.lookup e.1).all fun seen => seen < e.2.lastSeenNs).map FlowMutation.upsert).filterMap (opAt k) =
      ((w.table.lookup k).filter fun u => (w.replica.lookup k).all fun seen => seen < u.lastSeenNs).toList.map some := by
  rw [List.filterMap_map, dumpFlows, List.filter_filterMap, List.filterMap_filterMap]
  have hat : (fun x => (((w.table.lookup x).map fun value => (x, value)).filter fun e =>
        (w.replica.lookup e.1).all fun seen => seen < e.2.lastSeenNs).bind (opAt k ∘ FlowMutation.upsert)) =
      fun x => if x = k then ((w.table.lookup x).filter fun u =>
        (w.replica.lookup x).all fun seen => seen < u.lastSeenNs).map some else none := by
    funext x
    cases w.table.lookup x with
    | none => simp
    | some u =>
      by_cases hx : x = k
      · subst hx
        by_cases hnew : ((w.replica.lookup x).all fun seen => seen < u.lastSeenNs) = true
        · simp [Option.filter, hnew, opAt, FlowMutation.key, FlowMutation.op]
        · simp [Option.filter, hnew]
      · by_cases hnew : ((w.replica.lookup x).all fun seen => seen < u.lastSeenNs) = true
        · simp [Option.filter, hnew, opAt, FlowMutation.key, hx]
        · simp [Option.filter, hnew, hx]
  rw [hat, filterMap_at w.table.keys_nodup]
  cases hu : w.table.lookup k with
  | none => simp
  | some u =>
    rw [if_pos (AList.mem_keys.mp (mem_of_lookup hu))]
    cases (some u).filter _ <;> rfl

theorem reconcile_at (w : Session) (k : NativeFlowKey) :
    ((reconcilePending w).lookup k).map FlowMutation.op = (Cell.dump stamp (cellAt w k)).pending := by
  unfold reconcilePending
  rw [PendingFlowBatch.applyEntries_eq, PendingFlowBatch.applyMutations_at, PendingFlowBatch.applyDeletes_eq,
    PendingFlowBatch.applyMutations_at, staleDeletes_at, newerEntries_at]
  have hacked : (cellAt w k).acked = (w.replica.lookup k).map UInt64.toNat := rfl
  cases hu : w.table.lookup k with
  | some u =>
    have hsource : (cellAt w k).source = some u := hu
    have hnew : ((w.replica.lookup k).all fun seen => seen < u.lastSeenNs) = (cellAt w k).acked.all (· < stamp u) := by
      rw [hacked]
      cases w.replica.lookup k with
      | none => rfl
      | some s => exact decide_eq_decide.mpr UInt64.lt_iff_toNat_lt
    simp only [Cell.dump, hsource, ← hnew]
    by_cases h : ((w.replica.lookup k).all fun seen => seen < u.lastSeenNs) = true
    · simp [Option.filter, h, cellAt]
    · simp [Option.filter, h, cellAt]
  | none =>
    have hsource : (cellAt w k).source = none := hu
    have hmem : k ∈ w.replica.keys ↔ (cellAt w k).acked.isSome = true := by
      rw [hacked, Option.isSome_map]
      exact AList.lookup_isSome.symm
    simp only [Cell.dump, hsource, ← hmem]
    by_cases h : k ∈ w.replica.keys
    · simp [h, Cell.absorb]
    · simp [h, cellAt]

/-! ## A request at one key -/

theorem u16TryFrom_toUInt32 (x : UInt16) (context : String) : u16TryFrom x.toUInt32 context = .ok x := by
  have hlt := x.toNat_lt
  simp [u16TryFrom, hlt]

theorem u8TryFrom_toUInt32 (x : UInt8) (context : String) : u8TryFrom x.toUInt32 context = .ok x := by
  have hlt := x.toNat_lt
  simp [u8TryFrom, hlt]

theorem keyFromProto_keyToProto (k : NativeFlowKey) : keyFromProto (keyToProto k) = .ok k := by
  simp only [keyFromProto, keyToProto, u16TryFrom_toUInt32, u8TryFrom_toUInt32]
  rfl

/-- An entry as the receiver reads it: its age is rebased on the receiver's clock. -/
def arrived (now : UInt64) (r : Receiving) (e : FlowEntry) : FlowEntry :=
  (e.1, e.2.refreshed (localLastSeenNs (flowAgeNs e.2.lastSeenNs now) (r.clock (entryToProto e now))))

theorem entryFromProtoAt_entryToProto (e : FlowEntry) (now t : UInt64) :
    entryFromProtoAt (entryToProto e now) t =
      .ok (e.1, e.2.refreshed (localLastSeenNs (flowAgeNs e.2.lastSeenNs now) t)) := by
  simp only [entryFromProtoAt, entryToProto, required, bind, Except.bind, keyFromProto_keyToProto, valueFromProtoAt,
    u16TryFrom_toUInt32]
  rfl

theorem applyProtoRequest_requestOf (batch : FlowSyncBatch) (now : UInt64) (r : Receiving)
    (flows : BpfMap NativeFlowKey NativeFlowValue) :
    applyProtoRequest r (requestOf batch now) flows = .ok
      (let flows := if r.upsertPinned then upsertFlows (batch.entries.map (arrived now r)) flows else flows
       if r.deletePinned then eraseAll flows batch.deletes else flows,
       (if r.upsertPinned then batch.entries.length else 0) + (if r.deletePinned then batch.deletes.length else 0)) := by
  have hentries := mapM_map_ok (f := fun e => entryToProto e now) (g := fun e => entryFromProtoAt e (r.clock e))
    (h := arrived now r) (fun e => entryFromProtoAt_entryToProto e now _) batch.entries
  have hdeletes := mapM_map_ok (f := keyToProto) (g := keyFromProto) (h := id) keyFromProto_keyToProto batch.deletes
  rw [List.map_id] at hdeletes
  simp only [applyProtoRequest, requestOf, hentries, hdeletes, bind, Except.bind, pure, Except.pure, List.length_map]

theorem upsertFlows_at (entries : List FlowEntry) (flows : BpfMap NativeFlowKey NativeFlowValue) (k : NativeFlowKey) :
    (upsertFlows entries flows).lookup k = (entries.filterMap (valueAt k)).foldl
      (fun old v => if flowApplyApplies old v then some v else old) (flows.lookup k) := by
  refine lookup_foldl_at id (fun m e x => ?_) flows entries k
  by_cases hx : e.1 = x
  · subst hx
    by_cases hnew : flowApplyApplies (m.lookup e.1) e.2 = true
    · simp [valueAt, hnew]
    · simp [valueAt, hnew]
  · simp only [valueAt, hx, if_false, Option.map_none, Option.getD_none, id]
    split
    · exact AList.lookup_insert_ne (Ne.symm hx)
    · rfl

theorem insertAll_at {ν : Type} (m : BpfMap NativeFlowKey ν) (es : List (NativeFlowKey × ν)) (k : NativeFlowKey) :
    (insertAll m es).lookup k = (es.filterMap (valueAt k)).foldl (fun _ v => some v) (m.lookup k) := by
  refine lookup_foldl_at id (fun m e x => ?_) m es k
  by_cases hx : e.1 = x
  · subst hx
    simp [valueAt]
  · simp [valueAt, hx, AList.lookup_insert_ne (Ne.symm hx)]

/-! ## A batch at one key -/

section Batch

variable (rank : NativeFlowKey → Nat) {pending : PendingFlowBatch}

theorem batchKeys_nodup : (pending.batchKeys rank).Nodup := by
  have hwalk : (pending.walk rank).Nodup := (List.perm_insertionSort _ _).nodup_iff.mpr pending.keys_nodup
  refine List.Nodup.append ((hwalk.filter _).sublist (List.take_sublist _ _))
    ((hwalk.filter _).sublist (List.take_sublist _ _)) ?_
  intro k hk hk'
  have hupsert := (List.mem_filter.mp (List.mem_of_mem_take hk)).2
  have hdelete := (List.mem_filter.mp (List.mem_of_mem_take hk')).2
  unfold PendingFlowBatch.upsertAt at hupsert
  unfold PendingFlowBatch.deleteAt at hdelete
  cases hp : pending.lookup k with
  | none => simp [hp] at hupsert
  | some m => cases m <;> simp [hp] at hupsert hdelete

theorem upsertAt_key (hkeyed : Keyed pending) {x : NativeFlowKey} {e : FlowEntry} (h : pending.upsertAt x = some e) :
    e.1 = x := by
  unfold PendingFlowBatch.upsertAt at h
  split at h
  next entry hp =>
    obtain rfl := Option.some.inj h
    exact hkeyed x _ hp
  · cases h

theorem deleteAt_key (hkeyed : Keyed pending) {x y : NativeFlowKey} (h : pending.deleteAt x = some y) : y = x := by
  unfold PendingFlowBatch.deleteAt at h
  split at h
  next key hp =>
    obtain rfl := Option.some.inj h
    exact hkeyed x _ hp
  · cases h

end Batch

/-! ## The operations of a key -/

def ofKey (k : NativeFlowKey) (ms : List FlowMutation) : List FlowMutation := ms.filter fun m => m.key = k

theorem ofKey_append (k : NativeFlowKey) (ms ns : List FlowMutation) : ofKey k (ms ++ ns) = ofKey k ms ++ ofKey k ns :=
  List.filter_append ms ns

theorem ofKey_eq_nil_iff {k : NativeFlowKey} {ms : List FlowMutation} : ofKey k ms = [] ↔ k ∉ ms.map FlowMutation.key := by
  simp [ofKey, List.filter_eq_nil_iff]

theorem nodup_keys_iff {ms : List FlowMutation} : (ms.map FlowMutation.key).Nodup ↔ ∀ k, (ofKey k ms).length ≤ 1 := by
  have hcount : ∀ k, (ms.map FlowMutation.key).count k = (ofKey k ms).length := by
    intro k
    rw [List.count_eq_countP, List.countP_map, List.countP_eq_length_filter]
    rfl
  simp only [List.nodup_iff_count_le_one, hcount]

/-- Operations filed under distinct keys, each under its own. -/
theorem ofKey_filterMap {ks : List NativeFlowKey} (hnodup : ks.Nodup) {f : NativeFlowKey → Option FlowMutation}
    (hf : ∀ x m, f x = some m → m.key = x) (k : NativeFlowKey) :
    ofKey k (ks.filterMap f) = if k ∈ ks then (f k).toList else [] := by
  have hat : (fun x => (f x).filter fun m => m.key = k) = fun x => if x = k then f x else none := by
    funext x
    cases hx : f x with
    | none => simp
    | some m => by_cases hk : x = k <;> simp [Option.filter, hf x m hx, hk]
  rw [ofKey, List.filter_filterMap, hat, filterMap_at hnodup]

/-- The operations of a batch, in the order they are queued again. -/
def FlowSyncBatch.operations (batch : FlowSyncBatch) : List FlowMutation :=
  batch.deletes.map .delete ++ batch.entries.map .upsert

namespace PendingFlowBatch

variable {pending : PendingFlowBatch}

theorem applyMutation_vacant {m : FlowMutation} (h : pending.lookup m.key = none) :
    pending.applyMutation m = pending.insert m.key m := by
  have hnot : pending.ignores m = false := by
    cases m with
    | delete key => rfl
    | upsert entry =>
      rw [FlowMutation.key] at h
      simp [ignores, h]
  rw [applyMutation_eq, hnot]
  rfl

/-- Operations on distinct keys that have none pending are filed as they are. -/
theorem applyMutations_vacant {ms : List FlowMutation} (hnodup : (ms.map FlowMutation.key).Nodup)
    (hvacant : ∀ m ∈ ms, pending.lookup m.key = none) (k : NativeFlowKey) :
    ((pending.applyMutations ms).lookup k).toList = ofKey k ms ++ (pending.lookup k).toList := by
  induction ms generalizing pending with
  | nil => rfl
  | cons m ms ih =>
    rw [List.map_cons, List.nodup_cons] at hnodup
    have hrest : ∀ n ∈ ms, (pending.insert m.key m).lookup n.key = none := by
      intro n hn
      have hne : n.key ≠ m.key := fun heq => hnodup.1 (heq ▸ List.mem_map_of_mem hn)
      rw [AList.lookup_insert_ne hne]
      exact hvacant n (List.mem_cons_of_mem m hn)
    have hfiled : pending.applyMutations (m :: ms) = PendingFlowBatch.applyMutations (pending.insert m.key m) ms := by
      rw [← applyMutation_vacant (hvacant m List.mem_cons_self)]
      rfl
    rw [hfiled, ih hnodup.2 hrest]
    by_cases hk : m.key = k
    · subst hk
      rw [AList.lookup_insert, hvacant m List.mem_cons_self, ofKey_eq_nil_iff.mpr hnodup.1]
      have hself : ofKey m.key (m :: ms) = m :: ofKey m.key ms := List.filter_cons_of_pos (by simp)
      rw [hself, ofKey_eq_nil_iff.mpr hnodup.1]
      rfl
    · have hskip : ofKey k (m :: ms) = ofKey k ms := List.filter_cons_of_neg (by simp [hk])
      rw [AList.lookup_insert_ne (Ne.symm hk), hskip]

theorem requeueBatch_eq (pending : PendingFlowBatch) (batch : FlowSyncBatch) :
    pending.requeueBatch batch = pending.applyMutations batch.operations := by
  rw [requeueBatch, applyDeletes_eq, applyEntries_eq]
  exact List.foldl_append.symm

variable (rank : NativeFlowKey → Nat)

theorem batch_ofKey (hkeyed : Keyed pending) (k : NativeFlowKey) :
    ofKey k (pending.takeLimitedBatch rank).1.operations =
      if k ∈ pending.batchKeys rank then (pending.lookup k).toList else [] := by
  have hdeletes : ∀ x m, (pending.deleteAt x).map FlowMutation.delete = some m → m.key = x := by
    intro x m h
    obtain ⟨y, hy, rfl⟩ := Option.map_eq_some_iff.mp h
    exact deleteAt_key hkeyed hy
  have hupserts : ∀ x m, (pending.upsertAt x).map FlowMutation.upsert = some m → m.key = x := by
    intro x m h
    obtain ⟨e, he, rfl⟩ := Option.map_eq_some_iff.mp h
    exact upsertAt_key hkeyed he
  show ofKey k (((pending.batchKeys rank).filterMap pending.deleteAt).map .delete ++
    ((pending.batchKeys rank).filterMap pending.upsertAt).map .upsert) = _
  rw [ofKey_append, List.map_filterMap, List.map_filterMap, ofKey_filterMap (batchKeys_nodup rank) hdeletes,
    ofKey_filterMap (batchKeys_nodup rank) hupserts]
  split
  · unfold deleteAt upsertAt
    cases hp : pending.lookup k with
    | none => rfl
    | some m => cases m <;> rfl
  · rfl

theorem rest_lookup (pending : PendingFlowBatch) (k : NativeFlowKey) :
    (pending.takeLimitedBatch rank).2.lookup k = if k ∈ pending.batchKeys rank then none else pending.lookup k :=
  lookup_eraseAll_eq ..

section

variable (hkeyed : Keyed pending)
include hkeyed

/-- A take leaves what the queue and the batch have of a key. -/
theorem taken_ofKey (k : NativeFlowKey) :
    ofKey k (pending.takeLimitedBatch rank).1.operations ++ ((pending.takeLimitedBatch rank).2.lookup k).toList =
      (pending.lookup k).toList := by
  rw [batch_ofKey rank hkeyed, rest_lookup]
  split
  · exact List.append_nil _
  · rfl

theorem taken_keyed : Keyed (pending.takeLimitedBatch rank).2 := by
  intro k m h
  exact hkeyed k m (lookup_eraseAll h).2

theorem batch_nodup :
    ((pending.takeLimitedBatch rank).1.operations.map FlowMutation.key).Nodup := by
  rw [nodup_keys_iff]
  intro k
  rw [batch_ofKey rank hkeyed]
  split
  · exact Option.length_toList_le
  · exact Nat.zero_le 1

theorem batch_keys_subset :
    (pending.takeLimitedBatch rank).1.operations.map FlowMutation.key ⊆ pending.batchKeys rank := by
  intro k hk
  by_contra hnot
  have hnil := batch_ofKey rank hkeyed k
  rw [if_neg hnot] at hnil
  exact ofKey_eq_nil_iff.mp hnil hk

theorem batch_vacant {m : FlowMutation} (hm : m ∈ (pending.takeLimitedBatch rank).1.operations) :
    (pending.takeLimitedBatch rank).2.lookup m.key = none := by
  rw [rest_lookup, if_pos (batch_keys_subset rank hkeyed (List.mem_map_of_mem hm))]

/-- A batch that is queued again leaves every key as it was. -/
theorem requeued_lookup (k : NativeFlowKey) :
    ((pending.takeLimitedBatch rank).2.requeueBatch (pending.takeLimitedBatch rank).1).lookup k = pending.lookup k := by
  have hlist := applyMutations_vacant (batch_nodup rank hkeyed) (fun m hm => batch_vacant rank hkeyed hm) k
  rw [← requeueBatch_eq, taken_ofKey rank hkeyed] at hlist
  simpa using congrArg List.head? hlist

end

end PendingFlowBatch

/-! ## A send at one key -/

/-- The acknowledgement covers the batch. -/
def covered (r : Receiving) (w : Session) : Bool :=
  let batch := (w.pending.takeLimitedBatch rank).1
  flowAckCoversSent batch.operationCount
    ((if r.upsertPinned then batch.entries.length else 0) + (if r.deletePinned then batch.deletes.length else 0))

/-- What becomes of the operation of a key in the batch. -/
def fateAt (r : Receiving) (w : Session) (k : NativeFlowKey) : Fate :=
  let pinned := if (w.pending.upsertAt k).isSome then r.upsertPinned else r.deletePinned
  if covered rank r w then .acked else if pinned then .applied else .lost

def arriveAt (now : UInt64) (r : Receiving) (k : NativeFlowKey) (v : NativeFlowValue) : NativeFlowValue :=
  (arrived now r (k, v)).2

/-- The receiver's flow map after the request. -/
def received (w : Session) :
    BpfMap NativeFlowKey NativeFlowValue :=
  let batch := (w.pending.takeLimitedBatch rank).1
  let flows := if r.upsertPinned then upsertFlows (batch.entries.map (arrived now r)) w.receiver else w.receiver
  if r.deletePinned then eraseAll flows batch.deletes else flows

theorem send_eq (w : Session) :
    send rank now r w =
      let batch := (w.pending.takeLimitedBatch rank).1
      let pending := (w.pending.takeLimitedBatch rank).2
      if covered rank r w then
        { w with receiver := received rank now r w, pending
                 replica := eraseAll (insertAll w.replica (batch.entries.map fun e => (e.1, e.2.lastSeenNs))) batch.deletes }
      else { w with receiver := received rank now r w, pending := pending.requeueBatch batch } := by
  simp only [send, applyProtoRequest_requestOf]
  rfl

section SendAt

variable (rank : NativeFlowKey → Nat) (now : UInt64) (r : Receiving) {w : Session} (hkeyed : Keyed w.pending)
  (k : NativeFlowKey)

/-- The entry of a key in the batch. -/
def batchEntry (rank : NativeFlowKey → Nat) (pending : PendingFlowBatch) (k : NativeFlowKey) : Option FlowEntry :=
  if k ∈ pending.batchKeys rank then pending.upsertAt k else none

/-- The batch deletes the key. -/
def batchDeletes (rank : NativeFlowKey → Nat) (pending : PendingFlowBatch) (k : NativeFlowKey) : Bool :=
  k ∈ pending.batchKeys rank && (pending.deleteAt k).isSome

include hkeyed

/-- What a batch holds of a key, whatever is read off its entries. -/
theorem batch_values_at {ν : Type} (f : FlowEntry → ν) :
    (((w.pending.takeLimitedBatch rank).1.entries).map fun e => (e.1, f e)).filterMap (valueAt k) =
      ((batchEntry rank w.pending k).map f).toList := by
  have hat : (fun x => (w.pending.upsertAt x).bind fun e => valueAt k (e.1, f e)) =
      fun x => if x = k then (w.pending.upsertAt x).map f else none := by
    funext x
    cases hx : w.pending.upsertAt x with
    | none => simp
    | some e => simp [valueAt, upsertAt_key hkeyed hx]
  rw [List.filterMap_map, batchEntry]
  show ((w.pending.batchKeys rank).filterMap w.pending.upsertAt).filterMap (fun e => valueAt k (e.1, f e)) = _
  rw [List.filterMap_filterMap, hat, filterMap_at (batchKeys_nodup rank)]
  split
  · rfl
  · rfl

theorem mem_deletes_iff : k ∈ (w.pending.takeLimitedBatch rank).1.deletes ↔ batchDeletes rank w.pending k = true := by
  show k ∈ (w.pending.batchKeys rank).filterMap w.pending.deleteAt ↔ _
  simp only [batchDeletes, Bool.and_eq_true, decide_eq_true_iff, List.mem_filterMap]
  constructor
  · rintro ⟨x, hx, hk⟩
    obtain rfl := deleteAt_key hkeyed hk
    exact ⟨hx, by simp [hk]⟩
  · rintro ⟨hk, hdelete⟩
    obtain ⟨y, hy⟩ := Option.isSome_iff_exists.mp hdelete
    exact ⟨k, hk, by rw [hy, deleteAt_key hkeyed hy]⟩

theorem received_at :
    (received rank now r w).lookup k =
      if r.deletePinned && batchDeletes rank w.pending k then none
      else if r.upsertPinned then ((batchEntry rank w.pending k).map fun e => (arrived now r e).2).toList.foldl
        (fun old v => if flowApplyApplies old v then some v else old) (w.receiver.lookup k)
      else w.receiver.lookup k := by
  have hdelete := mem_deletes_iff rank hkeyed k
  have hupsert : (upsertFlows ((w.pending.takeLimitedBatch rank).1.entries.map (arrived now r)) w.receiver).lookup k =
      ((batchEntry rank w.pending k).map fun e => (arrived now r e).2).toList.foldl
        (fun old v => if flowApplyApplies old v then some v else old) (w.receiver.lookup k) := by
    rw [upsertFlows_at, ← batch_values_at rank hkeyed k]
    rfl
  unfold received
  cases r.deletePinned with
  | true =>
    simp only [if_true, lookup_eraseAll_eq, hdelete, Bool.true_and]
    cases r.upsertPinned with
    | true => simp only [if_true, hupsert]
    | false => simp
  | false =>
    simp only [Bool.false_and, Bool.false_eq_true, if_false]
    cases r.upsertPinned with
    | true => simp only [if_true, hupsert]
    | false => simp

theorem replica_at :
    (eraseAll (insertAll w.replica ((w.pending.takeLimitedBatch rank).1.entries.map fun e => (e.1, e.2.lastSeenNs)))
        (w.pending.takeLimitedBatch rank).1.deletes).lookup k =
      if batchDeletes rank w.pending k then none
      else ((batchEntry rank w.pending k).map fun e => e.2.lastSeenNs).or (w.replica.lookup k) := by
  have hdelete := mem_deletes_iff rank hkeyed k
  rw [lookup_eraseAll_eq, insertAll_at, batch_values_at rank hkeyed k]
  simp only [hdelete]
  cases (batchEntry rank w.pending k) <;> rfl

end SendAt

variable {w : Session}

/-- A full acknowledgement counts the key's operation as applied. -/
theorem pinned_of_covered {r : Receiving} (rank : NativeFlowKey → Nat) (hkeyed : Keyed w.pending)
    (k : NativeFlowKey) (hcovered : covered rank r w = true) :
    ((batchEntry rank w.pending k).isSome = true → r.upsertPinned = true) ∧
      (batchDeletes rank w.pending k = true → r.deletePinned = true) := by
  have hcount := of_decide_eq_true hcovered
  unfold FlowSyncBatch.operationCount at hcount
  constructor
  · intro h
    obtain ⟨e, he⟩ := Option.isSome_iff_exists.mp h
    have hvalues := batch_values_at rank hkeyed k id
    rw [he] at hvalues
    have hne : (w.pending.takeLimitedBatch rank).1.entries ≠ [] := by
      intro hnil
      simp [hnil] at hvalues
    have hpos := List.length_pos_iff.mpr hne
    by_contra hpin
    rw [if_neg hpin] at hcount
    split at hcount <;> omega
  · intro h
    have hne : (w.pending.takeLimitedBatch rank).1.deletes ≠ [] :=
      List.ne_nil_of_mem ((mem_deletes_iff rank hkeyed k).mpr h)
    have hpos := List.length_pos_iff.mpr hne
    by_contra hpin
    rw [if_neg hpin] at hcount
    split at hcount <;> omega

theorem flowApplyApplies_eq (stored : Option NativeFlowValue) (v : NativeFlowValue) :
    flowApplyApplies stored v = Cell.accepts stamp stored v := by
  cases stored with
  | none => rfl
  | some u => exact decide_eq_decide.mpr UInt64.lt_iff_toNat_lt

section

variable {rank : NativeFlowKey → Nat} {r : Receiving} {k : NativeFlowKey} (now : UInt64) (hkeyed : Keyed w.pending)
include hkeyed

/-- A key in the batch is delivered. -/
theorem send_at (hk : k ∈ w.pending.batchKeys rank) :
    cellAt (send rank now r w) k = Cell.deliver stamp (arriveAt now r k) (fateAt rank r w k) (cellAt w k) := by
  have hreceived := received_at rank now r hkeyed k
  have hreplica := replica_at rank hkeyed k
  have htaken := PendingFlowBatch.rest_lookup rank w.pending k
  have hrequeued := PendingFlowBatch.requeued_lookup rank hkeyed k
  have hpins := pinned_of_covered (r := r) rank hkeyed k
  have hentry : batchEntry rank w.pending k = w.pending.upsertAt k := if_pos hk
  have hdeletes : batchDeletes rank w.pending k = (w.pending.deleteAt k).isSome := by simp [batchDeletes, hk]
  rw [hentry, hdeletes] at hreceived hreplica hpins
  rw [if_pos hk] at htaken
  rw [send_eq]
  unfold Cell.deliver fateAt
  unfold PendingFlowBatch.upsertAt PendingFlowBatch.deleteAt at *
  cases hp : w.pending.lookup k with
  | none =>
    have hpending : (cellAt w k).pending = none := by simp [cellAt, hp]
    simp only [hp] at hreceived hreplica hrequeued htaken ⊢
    simp only [hpending]
    by_cases hcovered : covered rank r w = true
    · simp [cellAt, hcovered, hreceived, hreplica, htaken, hp]
    · simp [cellAt, hcovered, hreceived, hrequeued, hp]
  | some m =>
    have hpending : (cellAt w k).pending = some m.op := by simp [cellAt, hp]
    cases m with
    | delete key =>
      simp only [hp] at hreceived hreplica hrequeued htaken hpins ⊢
      simp only [hpending, FlowMutation.op]
      by_cases hcovered : covered rank r w = true
      · have hpin := (hpins hcovered).2 rfl
        simp [cellAt, hcovered, hreceived, hreplica, htaken, hpin]
      · cases hpin : r.deletePinned with
        | true => simp [cellAt, hcovered, hreceived, hrequeued, hpin, hp, FlowMutation.op]
        | false => simp [cellAt, hcovered, hreceived, hrequeued, hpin, hp, FlowMutation.op]
    | upsert e =>
      obtain ⟨x, v⟩ := e
      obtain rfl : x = k := hkeyed k _ hp
      simp only [hp] at hreceived hreplica hrequeued htaken hpins ⊢
      simp only [hpending, FlowMutation.op]
      by_cases hcovered : covered rank r w = true
      · have hpin := (hpins hcovered).1 rfl
        simp [cellAt, hcovered, hreceived, hreplica, htaken, hpin, flowApplyApplies_eq, arriveAt]
        exact ⟨rfl, rfl⟩
      · cases hpin : r.upsertPinned with
        | true => simp [cellAt, hcovered, hreceived, hrequeued, hpin, hp, FlowMutation.op, flowApplyApplies_eq, arriveAt]
        | false => simp [cellAt, hcovered, hreceived, hrequeued, hpin, hp, FlowMutation.op]

theorem send_other (hk : k ∉ w.pending.batchKeys rank) : cellAt (send rank now r w) k = cellAt w k := by
  have hreceived := received_at rank now r hkeyed k
  have hreplica := replica_at rank hkeyed k
  have htaken := PendingFlowBatch.rest_lookup rank w.pending k
  have hrequeued := PendingFlowBatch.requeued_lookup rank hkeyed k
  have hentry : batchEntry rank w.pending k = none := if_neg hk
  have hdeletes : batchDeletes rank w.pending k = false := by simp [batchDeletes, hk]
  rw [hentry, hdeletes] at hreceived hreplica
  rw [if_neg hk] at htaken
  rw [send_eq]
  by_cases hcovered : covered rank r w = true
  · simp [cellAt, hcovered, hreceived, hreplica, htaken]
  · simp [cellAt, hcovered, hreceived, hrequeued]

end

/-! ## The session key by key -/

/-- What an event of the session is to a key. -/
def cellEvent (w : Session) (k : NativeFlowKey) : SessionEvent → CellEvent NativeFlowValue
  | .create key value seen => if key = k then .put value seen else .elsewhere
  | .refresh key now =>
    match w.table.lookup key with
    | none => .idle
    | some value => if key = k then .refresh (value.refreshed now) else .elsewhere
  | .remove key seen => if key = k then .remove seen else .elsewhere
  | .drain => .drain
  | .reconcile => .dump
  | .send rank now r =>
    if k ∈ w.pending.batchKeys rank then .deliver (arriveAt now r k) (fateAt rank r w k) else .idle

theorem stepSession_at (hkeyed : Keyed w.pending) (e : SessionEvent) (k : NativeFlowKey) :
    cellAt (stepSession w e) k = Cell.step stamp (cellAt w k) (cellEvent w k e) := by
  cases e with
  | create key value seen =>
    by_cases hk : key = k
    · subst hk
      cases seen <;> simp [cellEvent, stepSession, cellAt, Cell.step, Cell.emit, opAt, FlowMutation.key, FlowMutation.op]
    · cases seen <;>
        simp [cellEvent, stepSession, cellAt, Cell.step, hk, AList.lookup_insert_ne (Ne.symm hk), opAt, FlowMutation.key]
  | refresh key now =>
    cases hv : w.table.lookup key with
    | none => simp [cellEvent, stepSession, hv, Cell.step]
    | some value =>
      by_cases hk : key = k
      · subst hk
        simp [cellEvent, stepSession, hv, cellAt, Cell.step]
      · simp [cellEvent, stepSession, hv, cellAt, Cell.step, hk, AList.lookup_insert_ne (Ne.symm hk)]
  | remove key seen =>
    by_cases hk : key = k
    · subst hk
      cases seen <;> simp [cellEvent, stepSession, cellAt, Cell.step, Cell.emit, opAt, FlowMutation.key, FlowMutation.op]
    · have hk' : ¬ k = key := fun h => hk h.symm
      cases seen <;>
        simp [cellEvent, stepSession, cellAt, Cell.step, hk, hk', AList.lookup_erase_ne (Ne.symm hk), opAt, FlowMutation.key]
  | drain =>
    have hpending := w.pending.applyMutations_at w.ring k
    simp only [stepSession, cellEvent, Cell.step]
    rw [show cellAt { w with pending := w.pending.applyMutations w.ring, ring := [] } k =
      { cellAt w k with pending := ((w.pending.applyMutations w.ring).lookup k).map FlowMutation.op, events := [] } from rfl,
      hpending]
    rfl
  | reconcile =>
    have hpending := reconcile_at w k
    simp only [stepSession, cellEvent, Cell.step]
    rw [show cellAt { w with pending := reconcilePending w, settled := true } k =
      { cellAt w k with pending := ((reconcilePending w).lookup k).map FlowMutation.op, settled := true } from rfl, hpending]
    rfl
  | send rank now r =>
    by_cases hk : k ∈ w.pending.batchKeys rank
    · simp only [stepSession, cellEvent, hk, if_true]
      exact send_at now hkeyed hk
    · simp only [stepSession, cellEvent, hk, if_false]
      exact send_other now hkeyed hk

theorem stepSession_keyed (hkeyed : Keyed w.pending) (e : SessionEvent) : Keyed (stepSession w e).pending := by
  cases e with
  | create key value seen => exact hkeyed
  | refresh key now =>
    unfold stepSession
    dsimp only
    split <;> exact hkeyed
  | remove key seen => exact hkeyed
  | drain => exact PendingFlowBatch.applyMutations_keyed hkeyed w.ring
  | reconcile =>
    simp only [stepSession, reconcilePending, PendingFlowBatch.applyEntries_eq, PendingFlowBatch.applyDeletes_eq]
    exact PendingFlowBatch.applyMutations_keyed (PendingFlowBatch.applyMutations_keyed hkeyed _) _
  | send rank now r =>
    have htaken := PendingFlowBatch.taken_keyed rank hkeyed
    simp only [stepSession, send_eq]
    split
    · exact htaken
    · rw [PendingFlowBatch.requeueBatch_eq]
      exact PendingFlowBatch.applyMutations_keyed htaken _

/-! ## Convergence -/

/-- After a dump, with no flow changed since and nothing left to acknowledge, the receiver has
    every flow of the table, and no key that was removed during the session. -/
def Converged (w : Session) : Prop :=
  w.settled = true → (∀ k, w.pending.lookup k = none) →
    (∀ k v, w.table.lookup k = some v → ∃ v', w.receiver.lookup k = some v' ∧ SameFlow v v') ∧
      ∀ k ∈ w.removed, w.table.lookup k = none → w.receiver.lookup k = none

/-- Every key's part of the step is sound: no flow event is lost that the next dump cannot make
    good, no removal waits in the ring at a dump, and the receiver's copy of a flow that is sent
    is older on its clock or of the same flow. -/
def SoundStep (w : Session) (e : SessionEvent) : Prop :=
  ∀ k, Cell.Sound stamp SameFlow (cellAt w k) (cellEvent w k e)

structure SessionInv (w : Session) : Prop where
  keyed : Keyed w.pending
  cells : ∀ k, Cell.Inv stamp SameFlow (cellAt w k)

def Session.start (table receiver : BpfMap NativeFlowKey NativeFlowValue) : Session := { table, receiver }

theorem start_sessionInv (table receiver : BpfMap NativeFlowKey NativeFlowValue) :
    SessionInv (Session.start table receiver) where
  keyed := by
    intro k m hm
    simp [Session.start] at hm
  cells k := by
    have h : Cell.Inv stamp SameFlow { source := table.lookup k, remote := receiver.lookup k } := Cell.start_inv ..
    simpa [cellAt, Session.start] using h

theorem stepSession_inv (h : SessionInv w) (e : SessionEvent) (hsound : SoundStep w e) :
    SessionInv (stepSession w e) where
  keyed := stepSession_keyed h.keyed e
  cells k := by
    rw [stepSession_at h.keyed]
    exact Cell.step_inv sameFlow_equivalence (h.cells k) _ (hsound k)

theorem SessionInv.converged (h : SessionInv w) : Converged w := by
  intro hsettled hpending
  have hagrees := fun k => (h.cells k).agrees hsettled (by simp [cellAt, hpending k])
  refine ⟨fun k v hv => (hagrees k).1 v hv, fun k hk hgone => ?_⟩
  exact (hagrees k).2 hgone (by simpa [cellAt] using hk)

theorem session_converges (table receiver : BpfMap NativeFlowKey NativeFlowValue) (es : List SessionEvent)
    (hsound : StepsMeet stepSession SoundStep (Session.start table receiver) es) :
    Converged (run stepSession (Session.start table receiver) es) :=
  (inv_run stepSession (I := SessionInv) (fun _ e h hok => stepSession_inv h e hok) (start_sessionInv table receiver) hsound).converged

/-! A flow is drained, and the sweep removes it before it is sent. -/

def briefKey : NativeFlowKey := { src := 0xc6336407, dst := 0xc000020a, sport := 16540, dport := 36895, proto := 6 }

def briefValue : NativeFlowValue :=
  { listenerId := 1, targetId := 0, vip := 0xc000020a, target := 0xc0000214, vipPort := 36895, targetPort := 9090,
    timeoutSecs := 60, lastSeenNs := 10000000000 }

def fullAck : SessionEvent := .send (fun _ => 0) 11000000000 { clock := fun _ => 30000000000 }

def sweptRun : List SessionEvent := [.create briefKey briefValue true, .drain, .remove briefKey false, .reconcile, fullAck]

/-- The reconcile knows nothing of a key that was never acknowledged, so the upsert pending goes
    out, and the receiver keeps a flow that is gone. -/
theorem swept_flow_stays_on_receiver :
    let w := run stepSession (Session.start ∅ ∅) sweptRun
    w.settled = true ∧ w.pending = ∅ ∧ briefKey ∈ w.removed ∧ w.table.lookup briefKey = none ∧
      (w.receiver.lookup briefKey).isSome = true ∧ ¬ Converged w := by
  intro w
  have hsettled : w.settled = true := by decide
  have hpending : w.pending = ∅ := AList.ext (by decide)
  have hremoved : briefKey ∈ w.removed := by decide
  have hgone : w.table.lookup briefKey = none := by decide
  have hkept : (w.receiver.lookup briefKey).isSome = true := by decide
  refine ⟨hsettled, hpending, hremoved, hgone, hkept, fun hconverged => ?_⟩
  have hnone := (hconverged hsettled (by simp [hpending])).2 briefKey hremoved hgone
  rw [hnone] at hkept
  cases hkept

/-- The same flow is replicated when the sweep comes later. -/
theorem brief_flow_reaches_receiver :
    let es := [SessionEvent.create briefKey briefValue true, .drain, .reconcile, fullAck]
    let w := run stepSession (Session.start ∅ ∅) es
    StepsMeet stepSession SoundStep (Session.start ∅ ∅) es ∧ w.settled = true ∧ Converged w := by
  intro es w
  have hsound : StepsMeet stepSession SoundStep (Session.start ∅ ∅) es := by
    refine ⟨fun k => ?_, fun k => trivial, fun k => ?_, fun k => ?_, trivial⟩
    · by_cases hk : briefKey = k
      · simp [cellEvent, hk, Cell.Sound, cellAt, Session.start]
      · simp [cellEvent, hk, Cell.Sound]
    · simp [cellEvent, Cell.Sound, cellAt, stepSession]
    · simp only [fullAck, cellEvent]
      split
      · intro v hv
        exact ⟨sameFlow_refreshed .., fun _ r hr => by simp [cellAt, stepSession, Session.start] at hr⟩
      · trivial
  exact ⟨hsound, by decide, session_converges ∅ ∅ es hsound⟩

end EdgeLb.Provider
