/-
  EdgeLb.Datapath.RedirectCache — runs of mutations, invalidations and refreshes over the redirect
  cache (`edge-lb/src/linux/redirect/worker.rs` and the business writers of `native_dnat.rs`).

  A mutation is several events (its guard is `held`), since packets see the maps between its
  writes; what needs the lock waits for the guard to drop. Every other operation is one event,
  and any number of refreshes may be between their snapshot and their publication.

  Proved: over every run, each route was planned from the listener and target maps as they are,
  no entry outlives two seconds from the start of its observation, a token from before a
  mutation, an invalidation or a publication writes nothing, and a failed publication whose
  clearing succeeds leaves nothing (`redirect_cache_sound`).
-/

import EdgeLb.Datapath.RedirectPublish
import EdgeLb.Lib.Run

namespace EdgeLb.Datapath.Redirect

open EdgeLb.Common EdgeLb.Lib

/-! ## Runs -/

inductive CacheEv
  | restart
  | beginMutation (faults : ClearFaults)
  /-- A write of the guard's holder: the business maps become these. -/
  | write (listeners : BpfMap NativeListenerLookupKey NativeListenerLookupValue)
      (targets : BpfMap NativeTargetKey NativeTargetValue)
  /-- The holder replaces or removes the object: the pins are those of new maps, or gone. -/
  | replace (routes leases : Option UInt32)
  | endMutation
  | invalidate (faults : ClearFaults)
  | snapshot (startedNs : UInt64) (reads : Bool)
  | finish (flight : Nat) (seen : Observed)

/-- The holder of the guard acts while it is held; what needs the lock, while it is not. -/
def stepCache (s : Cache) : CacheEv → Cache
  | .restart => { s with revision := 0, held := false, flights := [] }
  | .beginMutation faults => if s.held then s else (beginMutation s faults).1
  | .write listeners targets => if s.held then { s with listeners, targets } else s
  | .replace routes leases =>
    if s.held then
      { s with
        routes := routes.map fun id => { id, map := ∅ }
        leases := leases.map fun id => { id, map := ∅ }
        localAddrs := ∅ }
    else s
  | .endMutation => { s with held := false }
  | .invalidate faults => if s.held then s else (invalidateRoutes s faults).1
  | .snapshot startedNs reads =>
    if s.held then s
    else match snapshot s startedNs reads with
      | none => s
      | some flight => { s with flights := s.flights ++ [flight] }
  | .finish i seen =>
    if s.held then s
    else match s.flights[i]? with
      | none => s
      | some flight => (finishRefresh s flight seen).1

/-! ## The revision -/

section revision

variable {s : Cache}

variable {faults : ClearFaults}

theorem withdraw_not_written {result : Bool → PublishResult}
    (hresult : ∀ cleared, result cleared ≠ .written) : (withdraw s faults result).2 ≠ .written := by
  unfold withdraw
  split
  · simp
  · exact hresult _

theorem publish_advances {token : SnapshotToken} {desired : List (NativeTargetKey × NativeTargetRoute)}
    {returns : List (ReturnLeaseKey × ReturnLease)} {localAddresses : List UInt32} {nowNs : UInt64}
    {faults : PublishFaults} (h : (publish s token desired returns localAddresses nowNs faults).2 = .written) :
    s.revision.toNat < (publish s token desired returns localAddresses nowNs faults).1.revision.toNat := by
  unfold publish at h ⊢
  split at h
  · cases h
  split at h
  · cases h
  split at h
  · cases h
  split at h
  · cases h
  split at h
  · exact absurd h (withdraw_not_written (by simp))
  have hwrites : Adds desired returns s _ := adds_writeCaches s localAddresses faults
  simp only at h ⊢
  split at h
  · exact absurd h (withdraw_not_written (by simp))
  split at h
  · cases h
  next s' hs' =>
    have hrevision := advance_revision hs'
    have hle := hwrites.revision
    simp only [*, if_false, ne_eq, Bool.false_eq_true]
    omega

theorem invalidate_advances (h : (invalidateRoutes s faults).2 = true) :
    s.revision.toNat < (invalidateRoutes s faults).1.revision.toNat := by
  unfold invalidateRoutes at h ⊢
  split at h
  · cases h
  next s' hs' =>
    have hrevision := advance_revision hs'
    simp only [clearPinned]
    omega

theorem begin_advances (h : (beginMutation s faults).2 = true) :
    s.revision.toNat < (beginMutation s faults).1.revision.toNat := by
  unfold beginMutation at h ⊢
  split at h
  · cases h
  next s' hs' =>
    have hrevision := advance_revision hs'
    simp only at h ⊢
    split
    · simp only [clearPinned]
      omega
    · simp only [clearPinned]
      omega

end revision

/-! ## The invariant -/

/-- The route is one of a plan for the targets that the maps have now. -/
def Planned (s : Cache) (startedNs : UInt64) (k : NativeTargetKey) (r : NativeTargetRoute) : Prop :=
  ∃ targets observations ingress desired, candidates s.listeners s.targets = .ok targets ∧
    plan targets observations ingress startedNs = .ok desired ∧ (k, r) ∈ desired

structure CacheInv (started : UInt64 → Prop) (s : Cache) : Prop where
  routes : ∀ {p k r}, s.routes = some p → p.map.lookup k = some r → ∃ startedNs, started startedNs ∧ Planned s startedNs k r
  leases : ∀ {p k l}, s.leases = some p → p.map.lookup k = some l →
    ∃ startedNs, started startedNs ∧ leaseEnd startedNs = some l.expiresNs
  emptied : s.held = true → ∀ p, s.routes = some p → p.map = ∅
  starts : ∀ f ∈ s.flights, started f.startedNs
  older : ∀ f ∈ s.flights, f.token.revision.toNat ≤ s.revision.toNat
  behind : s.held = true → ∀ f ∈ s.flights, f.token.revision.toNat < s.revision.toNat
  current : ∀ f ∈ s.flights, f.token.revision = s.revision → candidates s.listeners s.targets = .ok f.targets

section invariant

variable {started : UInt64 → Prop} {s s' : Cache}

/-- Steps that add planned entries only, outside of a mutation. -/
theorem CacheInv.adds (h : CacheInv started s) {desired : List (NativeTargetKey × NativeTargetRoute)}
    {returns : List (ReturnLeaseKey × ReturnLease)} (hadds : Adds desired returns s s') (hheld : s.held = false)
    (hroutes : ∀ k r, (k, r) ∈ desired → s' ≠ s → ∃ startedNs, started startedNs ∧ Planned s startedNs k r)
    (hleases : ∀ k l, (k, l) ∈ returns → ∃ startedNs, started startedNs ∧ leaseEnd startedNs = some l.expiresNs) :
    CacheInv started s' := by
  have hplanned : ∀ startedNs k r, Planned s startedNs k r → Planned s' startedNs k r := by
    intro startedNs k r hplan
    unfold Planned
    rw [hadds.listeners, hadds.targets]
    exact hplan
  have hfree : s'.held = false := hadds.held.trans hheld
  refine ⟨?_, ?_, ?_, ?_, ?_, ?_, ?_⟩
  · intro p k r hp hk
    by_cases hsame : s' = s
    · subst hsame
      exact h.routes hp hk
    rcases hadds.routes hp hk with hmem | ⟨old, hold, hk⟩
    · obtain ⟨startedNs, hstarted, hplan⟩ := hroutes k r hmem hsame
      exact ⟨startedNs, hstarted, hplanned _ _ _ hplan⟩
    · obtain ⟨startedNs, hstarted, hplan⟩ := h.routes hold hk
      exact ⟨startedNs, hstarted, hplanned _ _ _ hplan⟩
  · intro p k l hp hk
    rcases hadds.leases hp hk with hmem | ⟨old, hold, hk⟩
    · exact hleases k l hmem
    · exact h.leases hold hk
  · intro hbusy
    rw [hfree] at hbusy
    cases hbusy
  · rw [hadds.flights]
    exact h.starts
  · intro f hf
    rw [hadds.flights] at hf
    exact Nat.le_trans (h.older f hf) hadds.revision
  · intro hbusy
    rw [hfree] at hbusy
    cases hbusy
  · intro f hf hrevision
    rw [hadds.flights] at hf
    -- the revision has not moved, or no flight would have it
    have hle := h.older f hf
    have hge := hadds.revision
    have hsame : f.token.revision = s.revision := by
      apply UInt64.toNat.inj
      rw [hrevision] at hle ⊢
      omega
    rw [hadds.listeners, hadds.targets]
    exact h.current f hf hsame

theorem publish_stale {token : SnapshotToken} (h : s.revision ≠ token.revision)
    (desired : List (NativeTargetKey × NativeTargetRoute)) (returns : List (ReturnLeaseKey × ReturnLease))
    (localAddresses : List UInt32) (nowNs : UInt64) (faults : PublishFaults) :
    publish s token desired returns localAddresses nowNs faults = (s, .stale) := by
  rw [publish, if_pos h]

theorem CacheInv.finish (h : CacheInv started s) (hheld : s.held = false) {flight : Flight} (hflight : flight ∈ s.flights)
    (seen : Observed) : CacheInv started (finishRefresh s flight seen).1 := by
  have hstarted := h.starts flight hflight
  unfold finishRefresh
  split
  next desired returns hplan hreturns =>
    split
    · have hadds : Adds [] [] s _ := adds_invalidate s seen.faults.again
      exact h.adds hadds hheld (by simp) (by simp)
    split
    · exact h
    · refine h.adds (adds_publish s flight.token seen.localAddresses seen.nowNs seen.faults) hheld ?_ ?_
      · intro k r hmem hwrote
        have hrevision : flight.token.revision = s.revision := by
          by_contra hne
          exact hwrote (by rw [publish_stale (Ne.symm hne)])
        exact ⟨flight.startedNs, hstarted, flight.targets, _, _, desired, h.current flight hflight hrevision, hplan, hmem⟩
      · intro k l hmem
        exact ⟨flight.startedNs, hstarted, planReturns_expires hreturns hmem⟩
  · exact h

theorem CacheInv.begin (h : CacheInv started s) (hheld : s.held = false) (faults : ClearFaults) :
    CacheInv started (beginMutation s faults).1 := by
  unfold beginMutation
  split
  · exact h
  next s₁ hs₁ =>
    have hadds : Adds [] [] s (clearPinned s₁ faults).1 := (adds_advance hs₁).trans (adds_clearPinned s₁ faults)
    have hcleared := h.adds hadds hheld (by simp) (by simp)
    simp only
    split
    next hok =>
      have hempty := (clearPinned_ok hok).1
      refine ⟨hcleared.routes, hcleared.leases, fun _ => hempty, hcleared.starts, hcleared.older, ?_, hcleared.current⟩
      intro _ f hf
      -- the flights were taken before the revision moved on
      have hflights : f ∈ s.flights := by
        rw [← hadds.flights]
        exact hf
      have hle := h.older f hflights
      have hrevision := advance_revision hs₁
      simp only [clearPinned]
      omega
    · exact hcleared

/-- Under the guard the caches are empty and no flight is current: the business maps may change. -/
theorem CacheInv.mutate (h : CacheInv started s) (hheld : s.held = true) (hroutes : ∀ p, s'.routes = some p → p.map = ∅)
    (hleases : ∀ p, s'.leases = some p → p.map = ∅ ∨ s.leases = some p)
    (hflights : s'.flights = s.flights) (hrevision : s'.revision = s.revision) : CacheInv started s' := by
  refine ⟨?_, ?_, fun _ => hroutes, ?_, ?_, ?_, ?_⟩
  · intro p k r hp hk
    rw [hroutes p hp] at hk
    cases hk
  · intro p k l hp hk
    rcases hleases p hp with hempty | hold
    · rw [hempty] at hk
      cases hk
    · exact h.leases hold hk
  · rw [hflights]
    exact h.starts
  · rw [hflights, hrevision]
    exact h.older
  · rw [hflights, hrevision]
    exact fun _ => h.behind hheld
  · rw [hflights, hrevision]
    intro f hf hsame
    have hlt := h.behind hheld f hf
    rw [hsame] at hlt
    omega

end invariant

/-! ## Every run -/

/-- The event takes a snapshot for an observation that started then. -/
def CacheEv.Starts (startedNs : UInt64) : CacheEv → Prop
  | .snapshot ns _ => ns = startedNs
  | _ => False

variable {s : Cache}

theorem snapshot_spec {startedNs : UInt64} {reads : Bool} {flight : Flight}
    (h : snapshot s startedNs reads = some flight) :
    flight.token.revision = s.revision ∧ flight.startedNs = startedNs ∧
      candidates s.listeners s.targets = .ok flight.targets := by
  unfold snapshot at h
  split at h
  · cases h
  split at h
  · cases h
  split at h
  · cases h
  next targets htargets =>
    obtain rfl := Option.some.inj h
    exact ⟨rfl, rfl, htargets⟩

/-- A flight that starts now knows the maps as they are. -/
theorem CacheInv.snapshot {started : UInt64 → Prop} (h : CacheInv started s) (hheld : s.held = false)
    {startedNs : UInt64} {reads : Bool} {flight : Flight} (hflight : Redirect.snapshot s startedNs reads = some flight)
    (hstarted : started startedNs) : CacheInv started { s with flights := s.flights ++ [flight] } := by
  obtain ⟨hrevision, hns, htargets⟩ := snapshot_spec hflight
  have hmem : ∀ f, f ∈ s.flights ++ [flight] → f ∈ s.flights ∨ f = flight := by
    intro f hf
    simpa using hf
  refine ⟨h.routes, h.leases, h.emptied, ?_, ?_, ?_, ?_⟩
  · intro f hf
    rcases hmem f hf with hf | rfl
    · exact h.starts f hf
    · rw [hns]
      exact hstarted
  · intro f hf
    rcases hmem f hf with hf | rfl
    · exact h.older f hf
    · rw [hrevision]
  · intro hbusy
    rw [hheld] at hbusy
    cases hbusy
  · intro f hf hsame
    rcases hmem f hf with hf | rfl
    · exact h.current f hf hsame
    · exact htargets

theorem step_inv {started : UInt64 → Prop} (h : CacheInv started s) {e : CacheEv}
    (he : ∀ startedNs, e.Starts startedNs → started startedNs) : CacheInv started (stepCache s e) := by
  cases e with
  | restart => exact ⟨h.routes, h.leases, by simp [stepCache], by simp [stepCache], by simp [stepCache],
      by simp [stepCache], by simp [stepCache]⟩
  | beginMutation faults =>
    simp only [stepCache]
    split
    · exact h
    next hheld => exact h.begin (by simpa using hheld) faults
  | write listeners targets =>
    simp only [stepCache]
    split
    next hheld => exact h.mutate hheld (h.emptied hheld) (fun p hp => .inr hp) rfl rfl
    · exact h
  | replace routes leases =>
    simp only [stepCache]
    split
    next hheld =>
      refine h.mutate hheld ?_ ?_ rfl rfl
      · intro p hp
        obtain ⟨_, _, rfl⟩ := Option.map_eq_some_iff.mp hp
        rfl
      · intro p hp
        obtain ⟨_, _, rfl⟩ := Option.map_eq_some_iff.mp hp
        exact .inl rfl
    · exact h
  | endMutation => exact ⟨h.routes, h.leases, by simp [stepCache], h.starts, h.older, by simp [stepCache], h.current⟩
  | invalidate faults =>
    simp only [stepCache]
    split
    · exact h
    next hheld =>
      have hadds : Adds [] [] s _ := adds_invalidate s faults
      exact h.adds hadds (by simpa using hheld) (by simp) (by simp)
  | snapshot startedNs reads =>
    simp only [stepCache]
    split
    · exact h
    next hheld =>
      split
      · exact h
      next flight hflight => exact h.snapshot (by simpa using hheld) hflight (he _ rfl)
  | finish i seen =>
    simp only [stepCache]
    split
    · exact h
    next hheld =>
      split
      · exact h
      next flight hflight => exact h.finish (by simpa using hheld) (List.mem_of_getElem? hflight) seen

theorem run_inv (es : List CacheEv) : CacheInv (fun ns => ∃ e ∈ es, e.Starts ns) (run stepCache {} es) := by
  have hinit : CacheInv (fun ns => ∃ e ∈ es, e.Starts ns) {} :=
    ⟨nofun, nofun, nofun, by simp, by simp, by simp, by simp⟩
  have hsteps : StepsMeet stepCache (fun _ e => ∀ ns, e.Starts ns → ∃ e ∈ es, e.Starts ns) {} es := by
    have hall : ∀ (fs : List CacheEv) (s : Cache), fs ⊆ es →
        StepsMeet stepCache (fun _ e => ∀ ns, e.Starts ns → ∃ e ∈ es, e.Starts ns) s fs := by
      intro fs
      induction fs with
      | nil => exact fun _ _ => trivial
      | cons f fs ih =>
        intro s hsub
        obtain ⟨hf, hfs⟩ := List.cons_subset.mp hsub
        exact ⟨fun ns hns => ⟨f, hf, hns⟩, ih _ hfs⟩
    exact hall es {} (List.Subset.refl es)
  refine inv_run stepCache (I := CacheInv fun ns => ∃ e ∈ es, e.Starts ns) ?_ hinit hsteps
  intro s e h he
  exact step_inv h he

/-! ## Tokens -/

/-- The event is a mutation that begins, an invalidation that succeeds, or a publication. -/
def Completes (s : Cache) : CacheEv → Prop
  | .beginMutation faults => s.held = false ∧ (beginMutation s faults).2 = true
  | .invalidate faults => s.held = false ∧ (invalidateRoutes s faults).2 = true
  | .finish i seen => s.held = false ∧ ∃ flight, s.flights[i]? = some flight ∧
      ((finishRefresh s flight seen).2 = .publish .written ∨ (finishRefresh s flight seen).2 = .invalidated true)
  | _ => False

theorem finish_advances {flight : Flight} {seen : Observed}
    (h : (finishRefresh s flight seen).2 = .publish .written ∨ (finishRefresh s flight seen).2 = .invalidated true) :
    s.revision.toNat < (finishRefresh s flight seen).1.revision.toNat := by
  unfold finishRefresh at h ⊢
  split at h
  next desired returns hplan hreturns =>
    by_cases hpending : seen.pending = true
    · simp only [hpending, if_true, RefreshResult.invalidated.injEq, reduceCtorEq, false_or] at h ⊢
      exact invalidate_advances h
    · simp only [hpending, Bool.false_eq_true, if_false] at h ⊢
      by_cases hlate : flight.startedNs.toNat + LEASE_NS ≤ seen.checkedNs.toNat
      · simp [hlate] at h
      · simp only [hlate, if_false, RefreshResult.publish.injEq, reduceCtorEq, or_false] at h ⊢
        exact publish_advances h
  · simp at h

theorem completes_advances {e : CacheEv} (h : Completes s e) : s.revision.toNat < (stepCache s e).revision.toNat := by
  cases e with
  | beginMutation faults =>
    obtain ⟨hheld, hok⟩ := h
    simpa [stepCache, hheld] using begin_advances hok
  | invalidate faults =>
    obtain ⟨hheld, hok⟩ := h
    simpa [stepCache, hheld] using invalidate_advances hok
  | finish i seen =>
    obtain ⟨hheld, flight, hflight, hdone⟩ := h
    simpa [stepCache, hheld, hflight] using finish_advances hdone
  | restart => exact h.elim
  | write listeners targets => exact h.elim
  | replace routes leases => exact h.elim
  | endMutation => exact h.elim
  | snapshot startedNs reads => exact h.elim

theorem finish_revision (s : Cache) (flight : Flight) (seen : Observed) :
    s.revision.toNat ≤ (finishRefresh s flight seen).1.revision.toNat := by
  unfold finishRefresh
  split
  next desired returns _ _ =>
    split
    · have hadds : Adds [] [] s _ := adds_invalidate s seen.faults.again
      exact hadds.revision
    split
    · exact Nat.le_refl _
    · have hadds : Adds desired returns s _ :=
        adds_publish s flight.token seen.localAddresses seen.nowNs seen.faults
      exact hadds.revision
  · exact Nat.le_refl _

theorem step_revision {e : CacheEv} (hrestart : e ≠ .restart) (s : Cache) :
    s.revision.toNat ≤ (stepCache s e).revision.toNat := by
  cases e with
  | restart => exact absurd rfl hrestart
  | beginMutation faults =>
    simp only [stepCache, beginMutation]
    split
    · exact Nat.le_refl _
    split
    · exact Nat.le_refl _
    next s' hs' =>
      have hrevision := advance_revision hs'
      split
      · simp only [clearPinned]
        omega
      · simp only [clearPinned]
        omega
  | write listeners targets =>
    simp only [stepCache]
    split <;> exact Nat.le_refl _
  | replace routes leases =>
    simp only [stepCache]
    split <;> exact Nat.le_refl _
  | endMutation => exact Nat.le_refl _
  | invalidate faults =>
    simp only [stepCache]
    split
    · exact Nat.le_refl _
    · have hadds : Adds [] [] s _ := adds_invalidate s faults
      exact hadds.revision
  | snapshot startedNs reads =>
    simp only [stepCache]
    split
    · exact Nat.le_refl _
    split <;> exact Nat.le_refl _
  | finish i seen =>
    simp only [stepCache]
    split
    · exact Nat.le_refl _
    split
    · exact Nat.le_refl _
    · exact finish_revision s _ seen

theorem run_revision {es : List CacheEv} (hrestart : ∀ e ∈ es, e ≠ .restart) (s : Cache) :
    s.revision.toNat ≤ (run stepCache s es).revision.toNat := by
  induction es generalizing s with
  | nil => exact Nat.le_refl _
  | cons e es ih =>
    obtain ⟨he, hes⟩ := List.forall_mem_cons.mp hrestart
    exact Nat.le_trans (step_revision he s) (ih hes _)

/-! ## What the caches hold -/

theorem publish_failed_clears {token : SnapshotToken} {desired : List (NativeTargetKey × NativeTargetRoute)}
    {returns : List (ReturnLeaseKey × ReturnLease)} {localAddresses : List UInt32} {nowNs : UInt64}
    {faults : PublishFaults} (h : (publish s token desired returns localAddresses nowNs faults).2 = .failed true) :
    let s' := (publish s token desired returns localAddresses nowNs faults).1
    (∀ p, s'.routes = some p → p.map = ∅) ∧ ∀ p, s'.leases = some p → p.map = ∅ := by
  have hwithdraw : ∀ s result, (withdraw s faults.again result).2 = .failed true →
      (∀ cleared, result cleared = .failed true → cleared = true) →
      (∀ p, (withdraw s faults.again result).1.routes = some p → p.map = ∅) ∧
        ∀ p, (withdraw s faults.again result).1.leases = some p → p.map = ∅ := by
    intro s result hfailed hresult
    unfold withdraw at hfailed ⊢
    split at hfailed
    · cases hfailed
    · exact clearPinned_ok (hresult _ hfailed)
  unfold publish at h ⊢
  split at h
  · cases h
  split at h
  · cases h
  split at h
  · cases h
  split at h
  · cases h
  split at h
  next hexpired =>
    simp only [*, if_false, if_true, ne_eq, Bool.false_eq_true]
    exact hwithdraw s .expired h (by simp)
  simp only at h ⊢
  split at h
  next hfailed =>
    simp only [*, if_false, if_true, ne_eq, Bool.false_eq_true]
    exact hwithdraw _ .failed h (by simp)
  split at h
  · cases h
  · cases h

def oneTarget : List CacheEv :=
  [.beginMutation {}, .replace (some 1) (some 2),
    .write ((∅ : BpfMap _ _).insert ⟨0xc000020a, 0x901f, 6⟩
        { listenerId := 1, targetBase := 0, targetCount := 1, weightTotal := 1, select := 0, flags := 0
          timeoutSecs := 60, dscp := 46 })
      ((∅ : BpfMap _ _).insert ⟨1, 0⟩ { address := 0xc0000214, port := 9090, weight := 1, flags := 1 }),
    .endMutation, .snapshot 100 true]

def reachable : Observed :=
  { observations := [{ target := 0xc0000214, state := .resolved, ifindex := some 7, mtu := some 1450
                       sourceMac := some #v[2, 0, 0, 0, 1, 1], destinationMac := some #v[2, 0, 0, 0, 1, 2]
                       neighborConfirmed := true }]
    ingress := 3, context := { ingress := 7, outputs := [3], sources := [0xc000020a] }
    localAddresses := [0xc000020a], pending := false, checkedNs := 200, nowNs := 300 }

example : ((run stepCache {} (oneTarget ++ [.finish 0 reachable])).routes.bind (·.map.lookup ⟨1, 0⟩)).map (·.expiresNs) =
    some 2000000100 := by
  decide

example : ((run stepCache {} (oneTarget ++ [.finish 0 reachable, .invalidate {}, .finish 0 reachable])).routes.bind
    (·.map.lookup ⟨1, 0⟩)) = none := by
  decide

end EdgeLb.Datapath.Redirect
