/-
  EdgeLb.Datapath.Publish — how the agent writes the pinned maps
  (`edge-lb/src/linux/native_dnat.rs`: `stable_listener_assignments`,
  `sync_pinned_datapath` with its three passes, `refresh_target_health`).

  A listener is known to the datapath by a number, hashed from its socket and moved on
  past the numbers already taken. The listener map points at that number, the target and
  bucket maps are keyed by it, and the three maps are written one entry at a time.

  A pass is the list of its single writes, in the source's order, and how it ended; a
  failed pass has made the writes before the failure. Only the agent writes these maps,
  so a pass that lists the existing keys first sees the keys of the map it was started
  on plus its own. Each pass reads the health observations for itself.
-/

import EdgeLb.Datapath.Dnat
import EdgeLb.Provider.Native
import Mathlib.Data.List.Sort

namespace EdgeLb.Datapath

open EdgeLb.Common EdgeLb.Lib EdgeLb.Provider

/-! ## Listener ids -/

/-- `listener_sort_key`: VIP, port and protocol compared in that order, as one number. -/
def listenerSortKey (key : NativeListenerKey) : Nat :=
  (key.vipIp.toNat * 2 ^ 16 + key.vipPort.toNat) * 2 ^ 8 + key.protocol.ipProto.toNat

def keyBytes (key : NativeListenerKey) : List UInt8 :=
  [(key.vipIp >>> 24).toUInt8, (key.vipIp >>> 16).toUInt8, (key.vipIp >>> 8).toUInt8, key.vipIp.toUInt8,
    (key.vipPort >>> 8).toUInt8, key.vipPort.toUInt8, key.protocol.ipProto]

/-- `stable_listener_id`: FNV-1a over the socket, onto the ids `1..=4096`. -/
def stableListenerId (key : NativeListenerKey) : UInt32 :=
  (keyBytes key).foldl (fun hash byte => (hash ^^^ byte.toUInt32) * 0x01000193) 0x811c9dc5
    % NATIVE_LISTENER_ID_CAPACITY + 1

/-- The inner loop of `stable_listener_assignments`: the first free id from `id` on. -/
def probeId (used : List UInt32) : Nat → UInt32 → Option UInt32
  | 0, _ => none
  | fuel + 1, id =>
    if id ∈ used then
      probeId used fuel (if NATIVE_LISTENER_ID_CAPACITY < id + 1 then 1 else id + 1)
    else some id

abbrev Assignments := List (UInt32 × NativeListener)

/-- The outer loop over the sorted listeners; a listener that finds no id is left out. -/
def assignIds : List NativeListener → List UInt32 → Assignments
  | [], _ => []
  | l :: ls, used =>
    match probeId used NATIVE_LISTENER_ID_CAPACITY.toNat (stableListenerId l.key) with
    | some id => (id, l) :: assignIds ls (id :: used)
    | none => assignIds ls used

def sortListeners (listeners : List NativeListener) : List NativeListener :=
  listeners.insertionSort fun a b => listenerSortKey a.key ≤ listenerSortKey b.key

def stableListenerAssignments (listeners : List NativeListener) : Except String Assignments :=
  if NATIVE_LISTENER_ID_CAPACITY.toNat < listeners.length then
    .error s!"native listener count {listeners.length} exceeds id capacity {NATIVE_LISTENER_ID_CAPACITY}"
  else
    let out := assignIds (sortListeners listeners) []
    if out.length ≠ listeners.length then .error "native listener id space exhausted" else .ok out

/-! ## Health -/

structure TargetHealthEntry where
  targetGroup : String
  name : String
  currentState : Option String
  deriving DecidableEq, Repr

variable (observed : Option (List TargetHealthEntry)) (ids : Assignments) (m : Maps)

/-- `observed_target_is_active`: no observation at all counts as healthy. -/
def observedTargetIsActive (group : String) (address : UInt32) (protocol : NativeProtocol) (port : UInt16) : Bool :=
  match observed with
  | none => true
  | some entries =>
    let protocol := match protocol with | .tcp => "tcp" | .udp => "udp"
    (entries.filter fun e =>
      e.targetGroup = group ∧ e.name = s!"{group}:{showIpv4 address}_{protocol}_{port}").all fun e =>
        e.currentState ≠ some "nok" ∧ e.currentState ≠ some "inactive" ∧ e.currentState ≠ some "down"

def nativeTargetIsActive (listener : NativeListener) (target : NativeTarget) : Bool :=
  observedTargetIsActive observed listener.targetGroup target.address listener.key.protocol target.port

/-! ## Single writes -/

inductive MapWrite
  | putListener (key : NativeListenerLookupKey) (value : NativeListenerLookupValue)
  | delListener (key : NativeListenerLookupKey)
  | putTarget (key : NativeTargetKey) (value : NativeTargetValue)
  | delTarget (key : NativeTargetKey)
  | putBucket (key : NativeConsistentHashBucketKey) (value : NativeConsistentHashBucketValue)
  | delBucket (key : NativeConsistentHashBucketKey)
  deriving DecidableEq

def applyWrite (m : Maps) : MapWrite → Maps
  | .putListener k v => { m with listeners := m.listeners.insert k v }
  | .delListener k => { m with listeners := m.listeners.erase k }
  | .putTarget k v => { m with targets := m.targets.insert k v }
  | .delTarget k => { m with targets := m.targets.erase k }
  | .putBucket k v => { m with chashBuckets := m.chashBuckets.insert k v }
  | .delBucket k => { m with chashBuckets := m.chashBuckets.erase k }

/-- The writes a pass made, and how it ended. -/
abbrev Pass := List MapWrite × Except String Unit

/-- The next pass runs only when this one succeeded. -/
def Pass.andThen (a b : Pass) : Pass :=
  match a with
  | (ws, .ok ()) => (ws ++ b.1, b.2)
  | failed => failed

/-! ## The passes -/

def lookupKey (key : NativeListenerKey) : NativeListenerLookupKey :=
  { vip := key.vipIp, port := toBe key.vipPort, proto := key.protocol.ipProto }

def DEFAULT_PERSIST_TIMEOUT_SECS : UInt32 := 3 * 60 * 60

def weightTotal (listener : NativeListener) : UInt32 :=
  ((listener.targets.filter (nativeTargetIsActive observed listener)).map (·.weight)).foldl (· + ·) 0

def lookupValue (id : UInt32) (listener : NativeListener) :
    NativeListenerLookupValue :=
  { listenerId := id
    targetBase := 0
    targetCount := UInt32.ofNat listener.targets.length
    weightTotal := weightTotal observed listener
    select := listener.select
    flags := 1
    timeoutSecs := if listener.select = Config.LbSelect.persist.code then DEFAULT_PERSIST_TIMEOUT_SECS
      else listener.inactiveTimeoutSecs
    dscp := listener.dscp }

def syncListenerMap : Pass :=
  let puts := ids.map fun (id, l) => MapWrite.putListener (lookupKey l.key) (lookupValue observed id l)
  let stale := m.listeners.keys.filter fun k => k ∉ ids.map fun (_, l) => lookupKey l.key
  (puts ++ stale.map .delListener, .ok ())

def targetValue (target : NativeTarget) : NativeTargetValue :=
  { address := target.address
    port := target.port
    weight := (min target.weight 0xffff).toUInt16
    flags := 1 }

/-- The entries a listener's healthy targets get, by position. -/
def targetEntries (id : UInt32) (listener : NativeListener) :
    List (NativeTargetKey × NativeTargetValue) :=
  (listener.targets.zipIdx.filter fun (t, _) => nativeTargetIsActive observed listener t).map
    fun (t, i) => (⟨id, UInt32.ofNat i⟩, targetValue t)

def validateListenerTargetCount (listener : NativeListener) : Except String Unit :=
  if MAX_TARGETS_PER_LISTENER.toNat < listener.targets.length then
    .error s!"listener {listener.key.vipPort} has {listener.targets.length} targets; max {MAX_TARGETS_PER_LISTENER}"
  else .ok ()

/-- The insert loop of `sync_target_map`: a listener with too many targets ends it. -/
def putTargets (observed : Option (List TargetHealthEntry)) : Assignments → Pass
  | [] => ([], .ok ())
  | (id, l) :: ids =>
    Pass.andThen ([], validateListenerTargetCount l) <|
      Pass.andThen ((targetEntries observed id l).map fun (k, v) => .putTarget k v, .ok ()) (putTargets observed ids)

def syncTargetMap : Pass :=
  let desired := ids.flatMap fun (id, l) => (targetEntries observed id l).map (·.1)
  let stale := m.targets.keys.filter fun k => k ∉ desired
  Pass.andThen (putTargets observed ids) (stale.map .delTarget, .ok ())

/-- `choose_consistent_hash_bucket_target`: the first target with the highest score. -/
def chooseConsistentHashBucketTarget (bucket : UInt32) (targets : List (UInt32 × NativeTargetValue)) : Option UInt32 :=
  (targets.foldl (fun best (id, t) =>
    let score := nativeConsistentBucketScore bucket t
    match best with
    | none => some (id, score)
    | some (_, bestScore) => if bestScore < score then some (id, score) else best) none).map (·.1)

def bucketTargets (listener : NativeListener) :
    List (UInt32 × NativeTargetValue) :=
  (listener.targets.zipIdx.filter fun (t, _) => nativeTargetIsActive observed listener t ∧ t.weight ≠ 0).map
    fun (t, i) => (UInt32.ofNat i, targetValue t)

def bucketEntries (id : UInt32) (listener : NativeListener) :
    List (NativeConsistentHashBucketKey × NativeConsistentHashBucketValue) :=
  if listener.select ≠ Config.LbSelect.consistentHash.code then []
  else (List.range NATIVE_CONSISTENT_HASH_BUCKETS.toNat).filterMap fun bucket =>
    (chooseConsistentHashBucketTarget (UInt32.ofNat bucket) (bucketTargets observed listener)).map
      fun targetId => (⟨id, UInt32.ofNat bucket⟩, ⟨targetId⟩)

/-- `desired_consistent_hash_buckets` is computed before the first bucket is written. -/
def syncConsistentHashBucketMap : Pass :=
  match ids.mapM fun (_, l) => validateListenerTargetCount l with
  | .error e => ([], .error e)
  | .ok _ =>
    let desired := ids.flatMap fun (id, l) => bucketEntries observed id l
    let stale := m.chashBuckets.keys.filter fun k => k ∉ desired.map (·.1)
    (desired.map (fun (k, v) => .putBucket k v) ++ stale.map .delBucket, .ok ())

/-- `refresh_listener_weights`: only listeners already in the map are written. -/
def refreshListenerWeights : Pass :=
  (ids.filterMap fun (id, l) => (m.listeners.lookup (lookupKey l.key)).map fun value =>
    .putListener (lookupKey l.key) { value with listenerId := id, weightTotal := weightTotal observed l }, .ok ())

/-- The health observations the passes of one update read, in order. -/
structure Observations where
  first : Option (List TargetHealthEntry)
  second : Option (List TargetHealthEntry)
  third : Option (List TargetHealthEntry)

def syncPinnedDatapath (obs : Observations) (listeners : List NativeListener) (m : Maps) : Pass :=
  match stableListenerAssignments listeners with
  | .error e => ([], .error e)
  | .ok ids =>
    ((syncListenerMap obs.first ids m).andThen (syncTargetMap obs.second ids m)).andThen
      (syncConsistentHashBucketMap obs.third ids m)

/-- The maps once every write of a sync is made. -/
def publish (obs : Observations) (listeners : List NativeListener) (m : Maps) : Maps :=
  run applyWrite m (syncPinnedDatapath obs listeners m).1

def refreshTargetHealth (obs : Observations) (listeners : List NativeListener) (m : Maps) : Pass :=
  match stableListenerAssignments listeners with
  | .error e => ([], .error e)
  | .ok ids =>
    ((syncTargetMap obs.second ids m).andThen (syncConsistentHashBucketMap obs.third ids m)).andThen
      (refreshListenerWeights obs.first ids m)

end EdgeLb.Datapath
