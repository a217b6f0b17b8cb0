/-
  EdgeLb.Datapath.Select — the maps of the native datapath and the choice of a target
  for a new flow (`edge-lb-ebpf/src/main.rs`: `select_target` and the selectors under
  it; `edge-lb-common/src/redirect.rs` and `return_redirect.rs` for the record types).

  `Maps` is everything the classifiers read and write between packets. The hash maps
  are finite maps; `NATIVE_RR_COUNTERS` is an array of 4096 cursors, so a read or a
  bump outside it does nothing and yields 0; `events` is what was handed to the ring
  buffer, oldest first. The per-CPU statistics are left out: no verdict reads them.

  The kernel loops are bounded by `MAX_TARGETS_PER_LISTENER`; here that bound is the
  recursion's fuel, so every selector is total and evaluates. A selector answers a slot
  and the cursors as it leaves them; nothing else changes.
-/

import EdgeLb.Common.Flow

namespace EdgeLb.Datapath

open EdgeLb.Common

/-! ## The maps -/

/-- Six octets of an Ethernet address, first octet on the wire first. -/
abbrev Mac := Vector UInt8 6

structure NativeTargetRoute where
  expiresNs : UInt64
  target : UInt32
  ingressIfindex : UInt32
  ifindex : UInt32
  mtu : UInt32
  targetPort : UInt16
  dscp : UInt8
  pad : UInt8
  sourceMac : Mac
  destinationMac : Mac
  deriving DecidableEq, Repr

structure ReturnLeaseKey where
  ingressIfindex : UInt32
  ifindex : UInt32
  source : UInt32
  deriving DecidableEq, Repr

structure ReturnLease where
  expiresNs : UInt64
  deriving DecidableEq, Repr

structure NativeFlowEvent where
  key : NativeFlowKey
  value : NativeFlowValue
  /-- 1 for a flow opened, 2 for a flow expired. -/
  op : UInt8
  deriving DecidableEq, Repr

structure Maps where
  listeners : BpfMap NativeListenerLookupKey NativeListenerLookupValue := ∅
  targets : BpfMap NativeTargetKey NativeTargetValue := ∅
  chashBuckets : BpfMap NativeConsistentHashBucketKey NativeConsistentHashBucketValue := ∅
  rrCounters : UInt32 → UInt32 := fun _ => 0
  activeFlows : BpfMap NativeTargetLoadKey UInt32 := ∅
  flows : BpfMap NativeFlowKey NativeFlowValue := ∅
  targetRoutes : BpfMap NativeTargetKey NativeTargetRoute := ∅
  localAddrs : BpfMap UInt32 UInt32 := ∅
  returnLeases : BpfMap ReturnLeaseKey ReturnLease := ∅
  events : List NativeFlowEvent := []

/-! ## Usable slots -/

variable (m : Maps) (listener : NativeListenerLookupValue) (count : UInt32)

def targetSlotIsUsable (listenerId targetId : UInt32) : Bool :=
  match m.targets.lookup ⟨listenerId, targetId⟩ with
  | some target => target.usable
  | none => false

/-- The `while` of `first_usable_target` from `index` on. -/
def firstUsableFrom (m : Maps) (listenerId count : UInt32) : Nat → UInt32 → UInt32
  | 0, _ => MAX_TARGETS_PER_LISTENER
  | fuel + 1, index =>
    if count ≤ index then MAX_TARGETS_PER_LISTENER
    else if targetSlotIsUsable m listenerId index then index
    else firstUsableFrom m listenerId count fuel (index + 1)

def firstUsableTarget (listenerId count : UInt32) : UInt32 :=
  firstUsableFrom m listenerId count 64 0

/-! ## Cursors -/

/-- `listener_id.saturating_sub(1)`: listener ids start at one, array indexes at zero. -/
def cursorIndex (listenerId : UInt32) : UInt32 := if listenerId = 0 then 0 else listenerId - 1

/-- The listener's cursor, or 0 outside the array. -/
def cursor (listenerId : UInt32) : UInt32 :=
  if cursorIndex listenerId < NATIVE_LISTENER_ID_CAPACITY then m.rrCounters (cursorIndex listenerId) else 0

/-- The cursors after the listener's one moved on (`wrapping_add`). -/
def bumpCursor (listenerId : UInt32) : UInt32 → UInt32 :=
  if cursorIndex listenerId < NATIVE_LISTENER_ID_CAPACITY then
    Function.update m.rrCounters (cursorIndex listenerId) (m.rrCounters (cursorIndex listenerId) + 1)
  else m.rrCounters

/-! ## Selectors -/

/-- The `while` of `select_weighted_hash`: walk the usable slots, spending their weights. -/
def weightedFrom (m : Maps) (listenerId count : UInt32) : Nat → UInt32 → UInt32 → UInt32
  | 0, _, _ => MAX_TARGETS_PER_LISTENER
  | fuel + 1, index, cursor =>
    if count ≤ index then MAX_TARGETS_PER_LISTENER
    else match m.targets.lookup ⟨listenerId, index⟩ with
      | some target =>
        if target.usable then
          if cursor < target.weight.toUInt32 then index
          else weightedFrom m listenerId count fuel (index + 1) (cursor - target.weight.toUInt32)
        else weightedFrom m listenerId count fuel (index + 1) cursor
      | none => weightedFrom m listenerId count fuel (index + 1) cursor

def selectWeightedHash (hash : UInt32) (listener : NativeListenerLookupValue) (count : UInt32) : UInt32 :=
  if listener.weightTotal = 0 then MAX_TARGETS_PER_LISTENER
  else weightedFrom m listener.listenerId count 64 0 (hash % listener.weightTotal)

def selectHashSlot (hash : UInt32) (listener : NativeListenerLookupValue) (count : UInt32) : UInt32 :=
  if count = 0 then MAX_TARGETS_PER_LISTENER
  else
    let candidate := hash % count
    if targetSlotIsUsable m listener.listenerId candidate then candidate
    else firstUsableTarget m listener.listenerId count

def selectPersistSlot (clientIp : UInt32) (listener : NativeListenerLookupValue) (count : UInt32) : UInt32 :=
  if count = 0 then MAX_TARGETS_PER_LISTENER
  else
    let primary := ((clientIp &&& (0xff : UInt32)) ^^^ ((clientIp >>> 24) &&& (0xff : UInt32))) % count
    if targetSlotIsUsable m listener.listenerId primary then primary
    else
      let secondary := (((clientIp >>> 8) &&& (0xff : UInt32)) ^^^ ((clientIp >>> 16) &&& (0xff : UInt32))) % count
      if targetSlotIsUsable m listener.listenerId secondary then secondary
      else firstUsableTarget m listener.listenerId count

def selectWeightedRoundRobin : UInt32 :=
  selectWeightedHash m (cursor m listener.listenerId) listener count

/-- The `while` of `select_round_robin` from `offset` on. -/
def roundRobinFrom (m : Maps) (listenerId count cursor : UInt32) : Nat → UInt32 → UInt32
  | 0, _ => MAX_TARGETS_PER_LISTENER
  | fuel + 1, offset =>
    if count ≤ offset then MAX_TARGETS_PER_LISTENER
    else
      let candidate := (cursor + offset) % count
      if targetSlotIsUsable m listenerId candidate then candidate
      else roundRobinFrom m listenerId count cursor fuel (offset + 1)

def selectRoundRobin : UInt32 :=
  roundRobinFrom m listener.listenerId count (cursor m listener.listenerId) 64 0

def selectConsistentHash (key : NativeFlowKey) (listener : NativeListenerLookupValue) (count : UInt32) :
    UInt32 :=
  match m.chashBuckets.lookup ⟨listener.listenerId, nativeConsistentFlowBucket key⟩ with
  | some value =>
    if value.targetId < count ∧ targetSlotIsUsable m listener.listenerId value.targetId then value.targetId
    else firstUsableTarget m listener.listenerId count
  | none => firstUsableTarget m listener.listenerId count

theorem selectConsistentHash_of_none {m : Maps} {key : NativeFlowKey} {listener : NativeListenerLookupValue}
    {count : UInt32} (h : m.chashBuckets.lookup ⟨listener.listenerId, nativeConsistentFlowBucket key⟩ = none) :
    selectConsistentHash m key listener count = firstUsableTarget m listener.listenerId count := by
  simp only [selectConsistentHash, h]

theorem selectConsistentHash_of_some {m : Maps} {key : NativeFlowKey} {listener : NativeListenerLookupValue}
    {count : UInt32} (value : NativeConsistentHashBucketValue)
    (h : m.chashBuckets.lookup ⟨listener.listenerId, nativeConsistentFlowBucket key⟩ = some value)
    (hlt : value.targetId < count) (husable : targetSlotIsUsable m listener.listenerId value.targetId = true) :
    selectConsistentHash m key listener count = value.targetId := by
  simp only [selectConsistentHash, h]
  exact if_pos ⟨hlt, husable⟩

/-- The `while` of `select_least_connections`, with the best slot and load so far. -/
def leastConnectionsFrom (m : Maps) (listenerId count cursor : UInt32) : Nat → UInt32 → UInt32 → UInt32 → UInt32
  | 0, _, best, _ => best
  | fuel + 1, index, best, bestLoad =>
    if index < count then
      let candidate := (cursor + index) % count
      if targetSlotIsUsable m listenerId candidate then
        let load := (m.activeFlows.lookup ⟨listenerId, candidate⟩).getD 0
        if load < bestLoad then leastConnectionsFrom m listenerId count cursor fuel (index + 1) candidate load
        else leastConnectionsFrom m listenerId count cursor fuel (index + 1) best bestLoad
      else leastConnectionsFrom m listenerId count cursor fuel (index + 1) best bestLoad
    else leastConnectionsFrom m listenerId count cursor fuel (index + 1) best bestLoad

def selectLeastConnections : UInt32 :=
  leastConnectionsFrom m listener.listenerId count (cursor m listener.listenerId) 64 0
    MAX_TARGETS_PER_LISTENER 0xffffffff

/-- `select_target`: the slot, and the cursors it leaves. -/
def selectTarget (key : NativeFlowKey) (listener : NativeListenerLookupValue) (packetHash : UInt32) :
    UInt32 × (UInt32 → UInt32) :=
  if listener.targetCount = 0 then (MAX_TARGETS_PER_LISTENER, m.rrCounters)
  else
    let count := if listener.targetCount < MAX_TARGETS_PER_LISTENER then listener.targetCount
      else MAX_TARGETS_PER_LISTENER
    if listener.weightTotal = 0 ∨ listener.targetCount = 0 then (MAX_TARGETS_PER_LISTENER, m.rrCounters)
    else if listener.select = NATIVE_SELECT_RR then
      (selectRoundRobin m listener count, bumpCursor m listener.listenerId)
    else if listener.select = NATIVE_SELECT_PRIORITY then
      (selectWeightedRoundRobin m listener count, bumpCursor m listener.listenerId)
    else if listener.select = NATIVE_SELECT_HASH then
      (selectHashSlot m packetHash listener count, m.rrCounters)
    else if listener.select = NATIVE_SELECT_PERSIST then
      (selectPersistSlot m key.src listener count, m.rrCounters)
    else if listener.select = NATIVE_SELECT_CONSISTENT_HASH then
      (selectConsistentHash m key listener count, m.rrCounters)
    else if listener.select = NATIVE_SELECT_LC then
      (selectLeastConnections m listener count, bumpCursor m listener.listenerId)
    -- an unknown selector falls back to round robin
    else (selectRoundRobin m listener count, bumpCursor m listener.listenerId)

end EdgeLb.Datapath
