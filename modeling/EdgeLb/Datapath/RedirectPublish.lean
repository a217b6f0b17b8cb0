/-
  EdgeLb.Datapath.RedirectPublish — planning and publication of the redirect cache
  (`edge-lb/src/linux/redirect/maps.rs`, `reconcile.rs`, `planner.rs`, `return_maps.rs`,
  `return_planner.rs`).

  One lock and one revision guard the two caches and the business maps. A mutation advances the
  revision, clears the caches and keeps the lock until its guard drops. A refresh takes a token
  and the targets under the lock, observes the kernel without it, and publishes under it only if
  the revision and the maps are those of its token.

  Any map operation may fail: a clear that fails has removed some of the entries, a write that
  fails has made some of the writes.

  Proved: the leases of a plan end two seconds after its start (`plan_expires`,
  `planReturns_expires`), and each operation adds to the caches at most the entries it was given
  (`adds_publish`).
-/

import EdgeLb.Datapath.Select
import EdgeLb.Lib.MapSync

namespace EdgeLb.Datapath.Redirect

open EdgeLb.Common EdgeLb.Lib

def LEASE_NS : Nat := 2000000000
def NATIVE_TARGET_ROUTES_CAPACITY : Nat := 16384
def NATIVE_RETURN_LEASES_CAPACITY : Nat := 16384

/-- `checked_add` of a lease to a clock reading. -/
def leaseEnd (startedNs : UInt64) : Option UInt64 :=
  if startedNs.toNat + LEASE_NS < 2 ^ 64 then some (UInt64.ofNat (startedNs.toNat + LEASE_NS)) else none

/-! ## Planning -/

inductive RouteObservationState
  | resolved | nonUnicast | unsupportedRoute | missingDevice | deviceDown | unsupportedDevice | invalidMtu
  | invalidSourceMac | missingNeighbor | unusableNeighbor | invalidDestinationMac
  deriving DecidableEq, Repr

structure TargetRouteObservation where
  target : UInt32
  state : RouteObservationState
  ifindex : Option UInt32
  mtu : Option UInt32
  sourceMac : Option Mac
  destinationMac : Option Mac
  neighborConfirmed : Bool

structure TargetCandidate where
  key : NativeTargetKey
  target : UInt32
  port : UInt16
  dscp : UInt8
  deriving DecidableEq, Repr

/-- The route of one candidate, from the last observation of its address. -/
def planRoute (observations : List TargetRouteObservation) (ingressIfindex : UInt32) (expiresNs : UInt64)
    (target : TargetCandidate) : Option (NativeTargetKey × NativeTargetRoute) := do
  let route ← observations.reverse.find? fun route => route.target = target.target
  guard (route.state = .resolved ∧ route.neighborConfirmed ∧ target.dscp ≤ 63)
  let ifindex ← route.ifindex
  let mtu ← route.mtu
  let sourceMac ← route.sourceMac
  let destinationMac ← route.destinationMac
  return (target.key,
    { expiresNs, target := target.target, targetPort := target.port, ingressIfindex, ifindex, mtu
      dscp := target.dscp, pad := 0, sourceMac, destinationMac })

/-- `planner::plan`. -/
def plan (targets : List TargetCandidate) (observations : List TargetRouteObservation) (ingressIfindex : UInt32)
    (startedNs : UInt64) : Except String (List (NativeTargetKey × NativeTargetRoute)) :=
  if ingressIfindex = 0 then .error "missing ingress interface"
  else match leaseEnd startedNs with
    | none => .error "route lease overflow"
    | some expiresNs =>
      let desired := targets.filterMap (planRoute observations ingressIfindex expiresNs)
      if NATIVE_TARGET_ROUTES_CAPACITY < desired.length then .error "redirect cache capacity exceeded"
      else .ok desired

structure ReturnContext where
  ingress : UInt32
  outputs : List UInt32
  sources : List UInt32

/-- `return_planner::plan`. -/
def planReturns (context : ReturnContext) (started : UInt64) : Except String (List (ReturnLeaseKey × ReturnLease)) :=
  if started = 0 ∨ context.ingress = 0 then .error "invalid return lease context"
  else match leaseEnd started with
    | none => .error "return lease overflow"
    | some expiresNs =>
      if NATIVE_RETURN_LEASES_CAPACITY < context.sources.length * context.outputs.length then
        .error "return lease capacity exceeded"
      else if context.outputs.any fun ifindex => ifindex = 0 || ifindex = context.ingress then
        .error "invalid return output"
      else .ok (context.outputs.flatMap fun ifindex => context.sources.map fun source =>
        ({ ingressIfindex := context.ingress, ifindex, source }, { expiresNs }))

/-- The DSCP of each listener id; an id with two of them is refused. -/
def listenerDscps : List NativeListenerLookupValue → Except String (List (UInt32 × UInt32))
  | [] => .ok []
  | listener :: rest => do
    let dscps ← listenerDscps rest
    if dscps.any fun d => d.1 = listener.listenerId && d.2 ≠ listener.dscp then
      throw "listener ID has conflicting DSCP values"
    return (listener.listenerId, listener.dscp) :: dscps

/-- The targets that `snapshot` reads off the maps. -/
def candidates (listeners : BpfMap NativeListenerLookupKey NativeListenerLookupValue)
    (targets : BpfMap NativeTargetKey NativeTargetValue) : Except String (List TargetCandidate) := do
  let dscps ← listenerDscps (listeners.entries.map (·.2))
  let found ← targets.entries.mapM fun ⟨key, target⟩ =>
    if !target.usable then .ok none
    else match dscps.find? fun d => d.1 = key.listenerId with
      | none => .ok none
      | some (_, dscp) =>
        if 255 < dscp.toNat then .error "out of range integral type conversion attempted"
        else .ok (some { key, target := target.address, port := target.port, dscp := dscp.toUInt8 })
  return found.filterMap id

/-! ## Leases -/

theorem leaseEnd_toNat {startedNs expiresNs : UInt64} (h : leaseEnd startedNs = some expiresNs) :
    expiresNs.toNat = startedNs.toNat + LEASE_NS := by
  unfold leaseEnd at h
  split at h
  next hlt =>
    obtain rfl := Option.some.inj h
    rw [UInt64.toNat_ofNat']
    exact Nat.mod_eq_of_lt hlt
  next => cases h

theorem planRoute_expires {observations : List TargetRouteObservation} {ingress : UInt32} {expiresNs : UInt64}
    {target : TargetCandidate} {entry : NativeTargetKey × NativeTargetRoute}
    (h : planRoute observations ingress expiresNs target = some entry) : entry.2.expiresNs = expiresNs := by
  simp only [planRoute, Option.bind_eq_bind, Option.bind_eq_some_iff, guard, Option.pure_def] at h
  obtain ⟨_, _, _, _, _, _, _, _, _, _, _, _, hentry⟩ := h
  obtain rfl := Option.some.inj hentry
  rfl

theorem plan_expires {targets : List TargetCandidate} {observations : List TargetRouteObservation} {ingress : UInt32}
    {startedNs : UInt64} {desired : List (NativeTargetKey × NativeTargetRoute)}
    (h : plan targets observations ingress startedNs = .ok desired) {k : NativeTargetKey} {r : NativeTargetRoute}
    (hmem : (k, r) ∈ desired) : leaseEnd startedNs = some r.expiresNs := by
  unfold plan at h
  split at h
  · cases h
  split at h
  · cases h
  next expiresNs hlease =>
    simp only at h
    split at h
    · cases h
    obtain rfl := Except.ok.inj h
    obtain ⟨target, _, htarget⟩ := List.mem_filterMap.mp hmem
    rw [hlease, ← planRoute_expires htarget]

theorem planReturns_expires {context : ReturnContext} {started : UInt64} {returns : List (ReturnLeaseKey × ReturnLease)}
    (h : planReturns context started = .ok returns) {k : ReturnLeaseKey} {l : ReturnLease} (hmem : (k, l) ∈ returns) :
    leaseEnd started = some l.expiresNs := by
  unfold planReturns at h
  split at h
  · cases h
  split at h
  · cases h
  next expiresNs hlease =>
    split at h
    · cases h
    split at h
    · cases h
    obtain rfl := Except.ok.inj h
    obtain ⟨ifindex, _, hsources⟩ := List.mem_flatMap.mp hmem
    obtain ⟨source, _, hentry⟩ := List.mem_map.mp hsources
    obtain ⟨_, rfl⟩ := Prod.mk.inj hentry
    exact hlease

/-! ## The caches and their lock -/

structure SnapshotToken where
  revision : UInt64
  mapId : UInt32
  returnMapId : Option UInt32
  deriving DecidableEq, Repr

/-- A refresh between its snapshot and its publication. -/
structure Flight where
  token : SnapshotToken
  targets : List TargetCandidate
  startedNs : UInt64

/-- A pinned map, with the kernel's id of it. -/
structure PinnedMap (κ ν : Type) where
  id : UInt32
  map : BpfMap κ ν

structure Cache where
  revision : UInt64 := 0
  held : Bool := false
  listeners : BpfMap NativeListenerLookupKey NativeListenerLookupValue := ∅
  targets : BpfMap NativeTargetKey NativeTargetValue := ∅
  routes : Option (PinnedMap NativeTargetKey NativeTargetRoute) := none
  leases : Option (PinnedMap ReturnLeaseKey ReturnLease) := none
  localAddrs : BpfMap UInt32 UInt32 := ∅
  flights : List Flight := []

section faults

variable {κ ν : Type} [DecidableEq κ]

/-- A clear, or one that fails when these keys are removed. A pin that is not there is clear. -/
def clearMap (pinned : Option (PinnedMap κ ν)) (fault : Option (List κ)) : Option (PinnedMap κ ν) × Bool :=
  match fault with
  | none => (pinned.map fun p => { p with map := ∅ }, true)
  | some removed => (pinned.map fun p => { p with map := eraseAll p.map removed }, false)

/-- Writes, or writes that fail after so many. -/
def writeEntries (m : BpfMap κ ν) (entries : List (κ × ν)) (fault : Option Nat) : BpfMap κ ν × Bool :=
  match fault with
  | none => (insertAll m entries, true)
  | some n => (insertAll m (entries.take n), false)

end faults

structure ClearFaults where
  leases : Option (List ReturnLeaseKey) := none
  routes : Option (List NativeTargetKey) := none

variable (s : Cache) (faults : ClearFaults)

/-- `clear_pinned`: both directions are tried. -/
def clearPinned : Cache × Bool :=
  let leases := clearMap s.leases faults.leases
  let routes := clearMap s.routes faults.routes
  ({ s with leases := leases.1, routes := routes.1 }, leases.2 && routes.2)

/-- `checked_add(1)` on the revision. -/
def advance : Option Cache :=
  if s.revision.toNat + 1 < 2 ^ 64 then some { s with revision := UInt64.ofNat (s.revision.toNat + 1) } else none

/-- `begin_mutation`; the guard holds the lock if it is returned. -/
def beginMutation : Cache × Bool :=
  match advance s with
  | none => (s, false)
  | some s =>
    let (s, ok) := clearPinned s faults
    if ok then ({ s with held := true }, true) else (s, false)

/-- `invalidate_routes`. -/
def invalidateRoutes : Cache × Bool :=
  match advance s with
  | none => (s, false)
  | some s => clearPinned s faults

/-- `snapshot`; a read that fails gives none. -/
def snapshot (startedNs : UInt64) (reads : Bool) : Option Flight :=
  match s.routes with
  | none => none
  | some p =>
    if !reads then none
    else match candidates s.listeners s.targets with
      | .error _ => none
      | .ok targets => some
          { token := { revision := s.revision, mapId := p.id, returnMapId := s.leases.map (·.id) }
            targets, startedNs }

structure PublishFaults where
  opens : Bool := true
  clear : ClearFaults := {}
  localAddrs : Option Nat := none
  routes : Option Nat := none
  leases : Option Nat := none
  again : ClearFaults := {}

inductive PublishResult
  | stale | unopened | exhausted | expired (cleared : Bool) | failed (cleared : Bool) | written
  deriving DecidableEq, Repr

/-- The writes of `publish`, up to the first that fails. -/
def writeCaches (desired : List (NativeTargetKey × NativeTargetRoute))
    (returns : List (ReturnLeaseKey × ReturnLease)) (localAddresses : List UInt32) (faults : PublishFaults) :
    Cache × Bool :=
  let leases := clearMap s.leases faults.clear.leases
  let s := { s with leases := leases.1 }
  if !leases.2 then (s, false) else
  let routes := clearMap s.routes faults.clear.routes
  let s := { s with routes := routes.1 }
  if !routes.2 then (s, false) else
  let addrs := writeEntries s.localAddrs (localAddresses.map fun address => (address, 1)) faults.localAddrs
  let s := { s with localAddrs := addrs.1 }
  if !addrs.2 then (s, false) else
  match s.routes with
  | none => (s, false)
  | some p =>
    let routes := writeEntries p.map desired faults.routes
    let s := { s with routes := some { p with map := routes.1 } }
    if !routes.2 then (s, false)
    else if returns.isEmpty then (s, true)
    else match s.leases with
      | none => (s, false)
      | some p =>
        let leases := writeEntries p.map returns faults.leases
        ({ s with leases := some { p with map := leases.1 } }, leases.2)

/-- The revision moves on and the caches are cleared, after something went wrong. -/
def withdraw (result : Bool → PublishResult) : Cache × PublishResult :=
  match advance s with
  | none => (s, .exhausted)
  | some s =>
    let (s, cleared) := clearPinned s faults
    (s, result cleared)

/-- `publish`. -/
def publish (s : Cache) (token : SnapshotToken) (desired : List (NativeTargetKey × NativeTargetRoute))
    (returns : List (ReturnLeaseKey × ReturnLease)) (localAddresses : List UInt32) (nowNs : UInt64)
    (faults : PublishFaults) : Cache × PublishResult :=
  if s.revision ≠ token.revision then (s, .stale)
  else match s.routes with
    | none => (s, .unopened)
    | some p =>
      if !faults.opens then (s, .unopened)
      else if p.id ≠ token.mapId ∨ s.leases.map (·.id) ≠ token.returnMapId then (s, .stale)
      else if (desired.any fun e => e.2.expiresNs ≤ nowNs) || (returns.any fun e => e.2.expiresNs ≤ nowNs) then
        withdraw s faults.again .expired
      else
        let (s, ok) := writeCaches s desired returns localAddresses faults
        if !ok then withdraw s faults.again .failed
        else match advance s with
          | none => (s, .exhausted)
          | some s => (s, .written)

/-- What a refresh learns after its snapshot: the kernel's routes and addresses, whether a
    notification is pending, and the clock at its last two readings. -/
structure Observed where
  observations : List TargetRouteObservation
  ingress : UInt32
  context : ReturnContext
  localAddresses : List UInt32
  pending : Bool
  checkedNs : UInt64
  nowNs : UInt64
  faults : PublishFaults := {}

inductive RefreshResult
  | unplanned | invalidated (ok : Bool) | late | publish (result : PublishResult)
  deriving DecidableEq, Repr

/-- `refresh` from its observation on. -/
def finishRefresh (flight : Flight) (seen : Observed) : Cache × RefreshResult :=
  match plan flight.targets seen.observations seen.ingress flight.startedNs,
      planReturns seen.context flight.startedNs with
  | .ok desired, .ok returns =>
    if seen.pending then
      let (s, ok) := invalidateRoutes s seen.faults.again
      (s, .invalidated ok)
    else if flight.startedNs.toNat + LEASE_NS ≤ seen.checkedNs.toNat then (s, .late)
    else
      let (s, result) := publish s flight.token desired returns seen.localAddresses seen.nowNs seen.faults
      (s, .publish result)
  | _, _ => (s, .unplanned)

/-! ## Single operations -/

section maps

variable {κ ν : Type} [DecidableEq κ] {pinned : Option (PinnedMap κ ν)} {k : κ} {v : ν}

/-- A clear adds nothing. -/
theorem lookup_clearMap {fault : Option (List κ)} {p : PinnedMap κ ν} (hp : (clearMap pinned fault).1 = some p)
    (h : p.map.lookup k = some v) : ∃ old, pinned = some old ∧ old.map.lookup k = some v := by
  cases fault with
  | none =>
    obtain ⟨old, hold, rfl⟩ := Option.map_eq_some_iff.mp hp
    cases h
  | some removed =>
    obtain ⟨old, hold, rfl⟩ := Option.map_eq_some_iff.mp hp
    exact ⟨old, hold, (lookup_eraseAll h).2⟩

theorem clearMap_ok {fault : Option (List κ)} (hok : (clearMap pinned fault).2 = true) {p : PinnedMap κ ν}
    (hp : (clearMap pinned fault).1 = some p) : p.map = ∅ := by
  cases fault with
  | none =>
    obtain ⟨old, _, rfl⟩ := Option.map_eq_some_iff.mp hp
    rfl
  | some removed => cases hok

theorem lookup_writeEntries {m : BpfMap κ ν} {entries : List (κ × ν)} {fault : Option Nat}
    (h : (writeEntries m entries fault).1.lookup k = some v) : (k, v) ∈ entries ∨ m.lookup k = some v := by
  cases fault with
  | none =>
    rcases lookup_insertAll h with hmem | ⟨_, hold⟩
    · exact .inl hmem
    · exact .inr hold
  | some n =>
    rcases lookup_insertAll h with hmem | ⟨_, hold⟩
    · exact .inl (List.mem_of_mem_take hmem)
    · exact .inr hold

end maps

/-- From `s` to `s'` the caches gain none but these entries; the business maps, the flights and
    the guard are the same, and the revision does not fall. -/
structure Adds (desired : List (NativeTargetKey × NativeTargetRoute)) (returns : List (ReturnLeaseKey × ReturnLease))
    (s s' : Cache) : Prop where
  listeners : s'.listeners = s.listeners
  targets : s'.targets = s.targets
  flights : s'.flights = s.flights
  held : s'.held = s.held
  revision : s.revision.toNat ≤ s'.revision.toNat
  routes : ∀ {p k r}, s'.routes = some p → p.map.lookup k = some r →
    (k, r) ∈ desired ∨ ∃ old, s.routes = some old ∧ old.map.lookup k = some r
  leases : ∀ {p k l}, s'.leases = some p → p.map.lookup k = some l →
    (k, l) ∈ returns ∨ ∃ old, s.leases = some old ∧ old.map.lookup k = some l

section adds

variable {desired : List (NativeTargetKey × NativeTargetRoute)} {returns : List (ReturnLeaseKey × ReturnLease)}
  {s s' s'' : Cache}

theorem Adds.refl (s : Cache) : Adds desired returns s s :=
  ⟨rfl, rfl, rfl, rfl, Nat.le_refl _, fun hp hk => .inr ⟨_, hp, hk⟩, fun hp hk => .inr ⟨_, hp, hk⟩⟩

theorem Adds.trans (h : Adds desired returns s s') (h' : Adds desired returns s' s'') : Adds desired returns s s'' where
  listeners := h'.listeners.trans h.listeners
  targets := h'.targets.trans h.targets
  flights := h'.flights.trans h.flights
  held := h'.held.trans h.held
  revision := Nat.le_trans h.revision h'.revision
  routes := by
    intro p k r hp hk
    rcases h'.routes hp hk with hmem | ⟨mid, hmid, hk⟩
    · exact .inl hmem
    · exact h.routes hmid hk
  leases := by
    intro p k l hp hk
    rcases h'.leases hp hk with hmem | ⟨mid, hmid, hk⟩
    · exact .inl hmem
    · exact h.leases hmid hk

theorem adds_clearLeases (s : Cache) (fault : Option (List ReturnLeaseKey)) :
    Adds desired returns s { s with leases := (clearMap s.leases fault).1 } :=
  ⟨rfl, rfl, rfl, rfl, Nat.le_refl _, fun hp hk => .inr ⟨_, hp, hk⟩, fun hp hk => .inr (lookup_clearMap hp hk)⟩

theorem adds_clearRoutes (s : Cache) (fault : Option (List NativeTargetKey)) :
    Adds desired returns s { s with routes := (clearMap s.routes fault).1 } :=
  ⟨rfl, rfl, rfl, rfl, Nat.le_refl _, fun hp hk => .inr (lookup_clearMap hp hk), fun hp hk => .inr ⟨_, hp, hk⟩⟩

theorem adds_localAddrs (s : Cache) (localAddrs : BpfMap UInt32 UInt32) :
    Adds desired returns s { s with localAddrs } :=
  ⟨rfl, rfl, rfl, rfl, Nat.le_refl _, fun hp hk => .inr ⟨_, hp, hk⟩, fun hp hk => .inr ⟨_, hp, hk⟩⟩

theorem adds_routes (s : Cache) {p : PinnedMap NativeTargetKey NativeTargetRoute} (hp : s.routes = some p)
    (fault : Option Nat) :
    Adds desired returns s { s with routes := some { p with map := (writeEntries p.map desired fault).1 } } := by
  refine ⟨rfl, rfl, rfl, rfl, Nat.le_refl _, ?_, fun hp hk => .inr ⟨_, hp, hk⟩⟩
  intro p' k r hp' hk
  obtain rfl := Option.some.inj hp'
  rcases lookup_writeEntries hk with hmem | hold
  · exact .inl hmem
  · exact .inr ⟨p, hp, hold⟩

theorem adds_leases (s : Cache) {p : PinnedMap ReturnLeaseKey ReturnLease} (hp : s.leases = some p)
    (fault : Option Nat) :
    Adds desired returns s { s with leases := some { p with map := (writeEntries p.map returns fault).1 } } := by
  refine ⟨rfl, rfl, rfl, rfl, Nat.le_refl _, fun hp hk => .inr ⟨_, hp, hk⟩, ?_⟩
  intro p' k l hp' hk
  obtain rfl := Option.some.inj hp'
  rcases lookup_writeEntries hk with hmem | hold
  · exact .inl hmem
  · exact .inr ⟨p, hp, hold⟩

theorem advance_revision (h : advance s = some s') : s'.revision.toNat = s.revision.toNat + 1 := by
  unfold advance at h
  split at h
  next hlt =>
    obtain rfl := Option.some.inj h
    simp only [UInt64.toNat_ofNat']
    omega
  next => cases h

theorem adds_advance (h : advance s = some s') : Adds desired returns s s' := by
  have hrevision := advance_revision h
  unfold advance at h
  split at h
  · obtain rfl := Option.some.inj h
    refine ⟨rfl, rfl, rfl, rfl, ?_, fun hp hk => .inr ⟨_, hp, hk⟩, fun hp hk => .inr ⟨_, hp, hk⟩⟩
    omega
  · cases h

theorem adds_clearPinned (s : Cache) (faults : ClearFaults) : Adds desired returns s (clearPinned s faults).1 :=
  (adds_clearLeases s faults.leases).trans (adds_clearRoutes _ faults.routes)

theorem clearPinned_ok {faults : ClearFaults} (hok : (clearPinned s faults).2 = true) :
    (∀ p, (clearPinned s faults).1.routes = some p → p.map = ∅) ∧
      ∀ p, (clearPinned s faults).1.leases = some p → p.map = ∅ := by
  obtain ⟨hleases, hroutes⟩ := (Bool.and_eq_true _ _).mp hok
  exact ⟨fun p hp => clearMap_ok hroutes hp, fun p hp => clearMap_ok hleases hp⟩

theorem adds_invalidate (s : Cache) (faults : ClearFaults) : Adds desired returns s (invalidateRoutes s faults).1 := by
  unfold invalidateRoutes
  split
  · exact Adds.refl s
  next s' hs' => exact (adds_advance hs').trans (adds_clearPinned s' faults)

theorem adds_withdraw (s : Cache) (faults : ClearFaults) (result : Bool → PublishResult) :
    Adds desired returns s (withdraw s faults result).1 := by
  unfold withdraw
  split
  · exact Adds.refl s
  next s' hs' => exact (adds_advance hs').trans (adds_clearPinned s' faults)

theorem adds_writeCaches (s : Cache) (localAddresses : List UInt32) (faults : PublishFaults) :
    Adds desired returns s (writeCaches s desired returns localAddresses faults).1 := by
  have h₁ : Adds desired returns s _ := adds_clearLeases s faults.clear.leases
  unfold writeCaches
  simp only
  split
  · exact h₁
  have h₂ := h₁.trans (adds_clearRoutes _ faults.clear.routes)
  split
  · exact h₂
  have h₃ := h₂.trans (adds_localAddrs _
    (writeEntries s.localAddrs (localAddresses.map fun address => (address, 1)) faults.localAddrs).1)
  split
  · exact h₃
  split
  · exact h₃
  next p hp =>
    have h₄ := h₃.trans (adds_routes _ hp faults.routes)
    split
    · exact h₄
    split
    · exact h₄
    split
    · exact h₄
    next q hq => exact h₄.trans (adds_leases _ hq faults.leases)

/-- A publication adds entries of its plan only, and none unless the token is the newest. -/
theorem adds_publish (s : Cache) (token : SnapshotToken) (localAddresses : List UInt32) (nowNs : UInt64)
    (faults : PublishFaults) : Adds desired returns s (publish s token desired returns localAddresses nowNs faults).1 := by
  unfold publish
  split
  · exact Adds.refl s
  split
  · exact Adds.refl s
  split
  · exact Adds.refl s
  split
  · exact Adds.refl s
  split
  · exact adds_withdraw s _ _
  have hwrites : Adds desired returns s _ := adds_writeCaches s localAddresses faults
  simp only
  split
  · exact hwrites.trans (adds_withdraw _ _ _)
  split
  · exact hwrites
  next s' hs' => exact hwrites.trans (adds_advance hs')

end adds

end EdgeLb.Datapath.Redirect
