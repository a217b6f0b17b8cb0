/-
  EdgeLb.Linux.DscpMarker — the DSCP marker's filter, its pinned maps, and the agent that holds
  the attachment.

  A loaded program has maps of its own. Attaching one pins its three maps at fixed paths,
  in place of what was pinned there, and puts it in place of the filter. An attachment that
  is dropped takes its filter along and removes the pins, by path: whose maps are pinned
  there it does not ask. Removals the code makes on a best-effort basis take effect; every
  step whose error it hands on may fail.

  What is pinned next to a filter, if anything, are the maps of that filter's program
  (`Coherent`), in every run: a reload that fails half-way has either not pinned all maps or
  already removed the filter. So an apply that refreshes the maps or loads the marker anew
  leaves the running marker's maps pinned, except in one case: the agent still holds an
  attachment when it loads another. The old one is dropped only once the new one is in its
  place, and takes the new one's pins away (`replaced_marker_unpinned`).
-/

import EdgeLb.Lib.Run
import EdgeLb.Linux.DscpPorts
import Mathlib.Logic.Function.Basic

namespace EdgeLb.Linux

open EdgeLb.Lib EdgeLb.Lib.FaultyMap

abbrev ProgId := Nat

/-- The maps a loaded marker reads. `STATS` it only writes. -/
structure MarkerMaps where
  /-- `max_entries` of `TARGET_PORTS`. -/
  capacity : Nat := DSCP_PORT_MAP_CAPACITY
  targetPorts : PortMap := ∅
  dscpCfg : UInt32 := 0

/-- For each pin the program whose map is pinned. -/
structure Pins where
  targetPorts : Option ProgId := none
  dscpCfg : Option ProgId := none
  stats : Option ProgId := none
  deriving DecidableEq

structure Kernel where
  /-- The filter at the marker's priority. -/
  filter : Option ProgId := none
  /-- The program attached last. -/
  latest : Option ProgId := none
  pins : Pins := {}
  maps : ProgId → MarkerMaps := fun _ => {}
  /-- The next program to be loaded. -/
  next : ProgId := 0

def Pins.all (p : ProgId) : Pins := { targetPorts := some p, dscpCfg := some p, stats := some p }

/-- The pins after the first `n` of the maps. -/
def Pins.first (p : ProgId) (n : Nat) : Pins :=
  { targetPorts := if 0 < n then some p else none
    dscpCfg := if 1 < n then some p else none
    stats := if 2 < n then some p else none }

def Pins.complete (pins : Pins) : Bool := pins.targetPorts.isSome && pins.dscpCfg.isSome && pins.stats.isSome

/-! ## The marker -/

structure SetFaults where
  openPorts : Option String := none
  openCfg : Option String := none
  ports : Nat → Option Nat := fun _ => none
  get : Option String := none
  put : Option String := none

structure AttachFaults where
  /-- Reading or loading the object, or making the pin directory. -/
  load : Option String := none
  ports : Nat → Option Nat := fun _ => none
  dscp : Option String := none
  /-- Which of the three pins fails. -/
  pin : Option (Fin 3 × String) := none
  attach : Option String := none

def osError (errno : Nat) : String := s!"os error {errno}"

variable (k : Kernel)

/-- A dump of the filters that fails shows none. -/
def attached (dumpFails : Bool) : Bool := !dumpFails && k.filter.isSome

def pinnedPorts (fault : Option String) : Except String ProgId :=
  match fault, k.pins.targetPorts with
  | some e, _ => .error e
  | none, none => .error (osError ENOENT)
  | none, some p =>
    if (k.maps p).capacity ≠ DSCP_PORT_MAP_CAPACITY then .error "TARGET_PORTS capacity does not match current ABI"
    else .ok p

def pinnedArray (name : String) (pin : Option ProgId) (fault : Option String) : Except String ProgId :=
  match fault, pin with
  | some e, _ => .error e
  | none, none => .error s!"{name} is not pinned"
  | none, some p => .ok p

def mapsMatchCurrentAbi (fault : Option String) : Bool :=
  (pinnedPorts k fault).isOk && (pinnedArray "DSCP_CFG" k.pins.dscpCfg fault).isOk &&
    (pinnedArray "STATS" k.pins.stats fault).isOk

def Kernel.putPorts (p : ProgId) (ports : PortMap) : Kernel :=
  { k with maps := Function.update k.maps p { k.maps p with targetPorts := ports } }

def Kernel.putDscp (p : ProgId) (dscp : UInt32) : Kernel :=
  { k with maps := Function.update k.maps p { k.maps p with dscpCfg := dscp } }

/-- New ports and mark for the maps that are pinned. -/
def set (f : SetFaults) (dscp : UInt32) (ports : List UInt32) : Except String Unit × Kernel :=
  match validate dscp ports, pinnedPorts k f.openPorts, pinnedArray "DSCP_CFG" k.pins.dscpCfg f.openCfg with
  | .error e, _, _ => (.error e, k)
  | .ok _, .error e, _ => (.error e, k)
  | .ok _, .ok _, .error e => (.error e, k)
  | .ok _, .ok p, .ok q =>
    let written := writePorts ports (opened f.ports (k.maps p).targetPorts)
    let k := k.putPorts p written.2.map
    match written.1, f.get with
    | some errno, _ => (.error (osError errno), k)
    | none, some e => (.error e, k)
    | none, none =>
      if (k.maps q).dscpCfg ≠ dscp then
        match f.put with
        | some e => (.error e, k)
        | none => (.ok (), k.putDscp q dscp)
      else (.ok (), k)

/-- A new program with its ports and mark, pinned, then attached where the old filter was. -/
def attachOwned (f : AttachFaults) (dscp : UInt32) (ports : List UInt32) : Except String ProgId × Kernel :=
  match validate dscp ports, f.load with
  | .error e, _ => (.error e, k)
  | .ok _, some e => (.error e, k)
  | .ok _, none =>
    let p := k.next
    let written := writePorts ports (opened f.ports ∅)
    let k := { k with
      next := p + 1, pins := {},
      maps := Function.update k.maps p { targetPorts := written.2.map } }
    match written.1, f.dscp, f.pin with
    | some errno, _, _ => (.error (osError errno), k)
    | none, some e, _ => (.error e, k)
    | none, none, some (n, e) => (.error e, { k.putDscp p dscp with pins := .first p n })
    | none, none, none =>
      let k := { k.putDscp p dscp with pins := .all p, filter := none }
      match f.attach with
      | some e => (.error e, k)
      | none => (.ok p, { k with filter := some p, latest := some p })

def detach : Kernel := { k with filter := none, pins := {} }

section

-- Whether a link that is dropped takes a filter of another program along that has since come
-- to the same priority and handle.
variable (byPlace : Bool)

/-- `DscpAttachment::drop`. -/
def dropAttachment (p : ProgId) (k : Kernel) : Kernel :=
  { k with filter := if k.filter = some p ∨ byPlace then none else k.filter, pins := {} }

def dropHeld (held : Option ProgId) (k : Kernel) : Kernel :=
  match held with
  | some p => dropAttachment byPlace p k
  | none => k

/-! ## The gateway -/

inductive DscpUpdate where
  | keep
  | replace (p : ProgId)
  | clear
  deriving DecidableEq

structure ApplyFaults where
  /-- The dump of the filters before the apply. -/
  dumpBefore : Bool := false
  /-- Any step before the marker's. -/
  before : Option String := none
  /-- The dump of the filters within. -/
  dump : Bool := false
  abi : Option String := none
  set : SetFaults := {}
  attach : AttachFaults := {}
  save : Option String := none

/-- The listener ports and the mark of the configuration in force. -/
structure Apply where
  dscp : UInt32
  ports : List UInt32
  faults : ApplyFaults := {}

def attachMarker (k : Kernel) (a : Apply) : Except String DscpUpdate × Kernel :=
  match attachOwned k a.faults.attach a.dscp a.ports with
  | (.ok p, k) => (.ok (.replace p), k)
  | (.error e, k) => (.error s!"attaching DSCP marker: {e}", k)

def updateMarker (k : Kernel) (a : Apply) : Except String DscpUpdate × Kernel :=
  if a.ports.isEmpty then (.ok .clear, detach k)
  else if attached k a.faults.dump && mapsMatchCurrentAbi k a.faults.abi then
    match set k a.faults.set a.dscp a.ports with
    | (.ok _, k) => (.ok .keep, k)
    | (.error _, k) => attachMarker k a
  else attachMarker k a

def applyInner (k : Kernel) (a : Apply) : Except String DscpUpdate × Kernel :=
  match a.faults.before with
  | some e => (.error e, k)
  | none =>
    match updateMarker k a, a.faults.save with
    | (.error e, k), _ => (.error e, k)
    | (.ok update, k), none => (.ok update, k)
    -- the update goes out of scope, and an attachment with it
    | (.ok (.replace p), k), some e => (.error e, dropAttachment byPlace p k)
    | (.ok _, k), some e => (.error e, k)

structure Agent where
  kernel : Kernel := {}
  held : Option ProgId := none
  cachedPorts : List UInt32 := []

/-- Before an apply: an attachment whose filter is gone is dropped. -/
def dropLost (s : Agent) (a : Apply) : Agent :=
  if s.held.isSome && !attached s.kernel a.faults.dumpBefore then
    { s with kernel := dropHeld byPlace s.held s.kernel, held := none }
  else s

def applyManaged (s : Agent) (a : Apply) : Except String DscpUpdate × Agent :=
  let s := dropLost byPlace s a
  match applyInner byPlace s.kernel a with
  | (.ok (.replace p), k) =>
    -- the assignment drops the attachment held before
    (.ok (.replace p), { kernel := dropHeld byPlace s.held k, held := some p, cachedPorts := a.ports })
  | (.ok .clear, k) => (.ok .clear, { kernel := dropHeld byPlace s.held k, held := none, cachedPorts := [] })
  | (.ok .keep, k) => (.ok .keep, { s with kernel := k, cachedPorts := a.ports })
  | (.error e, k) => (.error e, { s with kernel := k })

inductive Event where
  | apply (a : Apply)
  | heal (dumpFails : Bool)
  | filterLost

/-- What the drift check does to the marker: without ports none may be attached. -/
def heal (s : Agent) (dumpFails : Bool) : Agent :=
  if s.cachedPorts.isEmpty && attached s.kernel dumpFails then { s with kernel := detach s.kernel } else s

def step (s : Agent) : Event → Agent
  | .apply a => (applyManaged byPlace s a).2
  | .heal dumpFails => heal s dumpFails
  | .filterLost => { s with kernel := { s.kernel with filter := none } }

end

/-! ## Whose maps are pinned -/

/-- The pins beside a filter are its program's, or not all there. -/
def Coherent : Prop :=
  ∀ p, k.filter = some p → k.latest = some p ∧ (k.pins.complete = true → k.pins = .all p)

theorem coherent_of_no_filter {k : Kernel} (h : k.filter = none) : Coherent k := by
  intro p hp
  rw [h] at hp
  cases hp

/-- Refreshing the maps changes neither the filter nor what is pinned. -/
theorem set_frame (f : SetFaults) (dscp : UInt32) (ports : List UInt32) :
    (set k f dscp ports).2.filter = k.filter ∧ (set k f dscp ports).2.latest = k.latest ∧
      (set k f dscp ports).2.pins = k.pins := by
  unfold set
  split
  · exact ⟨rfl, rfl, rfl⟩
  · exact ⟨rfl, rfl, rfl⟩
  · exact ⟨rfl, rfl, rfl⟩
  · dsimp only
    split
    · exact ⟨rfl, rfl, rfl⟩
    · exact ⟨rfl, rfl, rfl⟩
    · split
      · split
        · exact ⟨rfl, rfl, rfl⟩
        · exact ⟨rfl, rfl, rfl⟩
      · exact ⟨rfl, rfl, rfl⟩

theorem first_not_complete (p : ProgId) (n : Fin 3) : (Pins.first p n).complete = false := by
  have hn := n.isLt
  simp only [Pins.complete, Pins.first, if_neg (show ¬ 2 < n.val by omega), Option.isSome_none, Bool.and_false]

/-- How far a reload can get: it changed nothing; it failed before all maps were pinned, with the
    old filter in place; it failed after the filter was gone; or the new program is attached
    and its maps are pinned. -/
theorem attachOwned_cases (f : AttachFaults) (dscp : UInt32) (ports : List UInt32) :
    (∃ e, attachOwned k f dscp ports = (.error e, k)) ∨
    (∃ e k', attachOwned k f dscp ports = (.error e, k') ∧ k'.filter = k.filter ∧ k'.latest = k.latest ∧
      k'.pins.complete = false) ∨
    (∃ e k', attachOwned k f dscp ports = (.error e, k') ∧ k'.filter = none) ∨
    ∃ p k', attachOwned k f dscp ports = (.ok p, k') ∧ k'.filter = some p ∧ k'.latest = some p ∧ k'.pins = .all p := by
  unfold attachOwned
  split
  · exact .inl ⟨_, rfl⟩
  · exact .inl ⟨_, rfl⟩
  · dsimp only
    split
    · exact .inr (.inl ⟨_, _, rfl, rfl, rfl, rfl⟩)
    · exact .inr (.inl ⟨_, _, rfl, rfl, rfl, rfl⟩)
    · exact .inr (.inl ⟨_, _, rfl, rfl, rfl, first_not_complete _ _⟩)
    · split
      · exact .inr (.inr (.inl ⟨_, _, rfl, rfl⟩))
      · exact .inr (.inr (.inr ⟨_, _, rfl, rfl, rfl, rfl⟩))

section

variable {byPlace : Bool} {k : Kernel} {a : Apply}

section

variable (h : Coherent k)
include h

theorem coherent_set (f : SetFaults) (dscp : UInt32) (ports : List UInt32) :
    Coherent (set k f dscp ports).2 := by
  obtain ⟨hfilter, hlatest, hpins⟩ := set_frame k f dscp ports
  intro p hp
  rw [hlatest, hpins]
  rw [hfilter] at hp
  exact h p hp

theorem coherent_attachOwned (f : AttachFaults) (dscp : UInt32) (ports : List UInt32) :
    Coherent (attachOwned k f dscp ports).2 := by
  rcases attachOwned_cases k f dscp ports with
    ⟨e, heq⟩ | ⟨e, k', heq, hfilter, hlatest, hpins⟩ | ⟨e, k', heq, hfilter⟩ | ⟨q, k', heq, hfilter, hlatest, hpins⟩
  · rw [heq]
    exact h
  · rw [heq]
    intro p hp
    rw [hfilter] at hp
    refine ⟨hlatest.trans (h p hp).1, fun hcomplete => ?_⟩
    rw [hpins] at hcomplete
    cases hcomplete
  · rw [heq]
    exact coherent_of_no_filter hfilter
  · rw [heq]
    intro p hp
    rw [hfilter] at hp
    obtain rfl := Option.some.inj hp
    exact ⟨hlatest, fun _ => hpins⟩

theorem coherent_dropAttachment (p : ProgId) : Coherent (dropAttachment byPlace p k) := by
  intro q hq
  simp only [dropAttachment] at hq
  split at hq
  · cases hq
  · refine ⟨(h q hq).1, fun hcomplete => ?_⟩
    cases hcomplete

theorem coherent_dropHeld (held : Option ProgId) : Coherent (dropHeld byPlace held k) := by
  cases held with
  | none => exact h
  | some p => exact coherent_dropAttachment h p

theorem coherent_attachMarker : Coherent (attachMarker k a).2 := by
  have hattach := coherent_attachOwned h a.faults.attach a.dscp a.ports
  unfold attachMarker
  split
  · next heq => rwa [heq] at hattach
  · next heq => rwa [heq] at hattach

theorem coherent_updateMarker : Coherent (updateMarker k a).2 := by
  have hset := coherent_set h a.faults.set a.dscp a.ports
  unfold updateMarker
  split
  · exact coherent_of_no_filter rfl
  · split
    · split
      · next heq => rwa [heq] at hset
      · next heq =>
        rw [heq] at hset
        exact coherent_attachMarker hset
    · exact coherent_attachMarker h

theorem coherent_applyInner : Coherent (applyInner byPlace k a).2 := by
  have hupdate := coherent_updateMarker (a := a) h
  unfold applyInner
  split
  · exact h
  · split
    · next heq => rwa [heq] at hupdate
    · next heq _ => rwa [heq] at hupdate
    · next heq _ =>
      rw [heq] at hupdate
      exact coherent_dropAttachment hupdate _
    · next heq _ => rwa [heq] at hupdate

end

theorem coherent_dropLost {s : Agent} (h : Coherent s.kernel) : Coherent (dropLost byPlace s a).kernel := by
  unfold dropLost
  split
  · exact coherent_dropHeld h s.held
  · exact h

theorem coherent_applyManaged {s : Agent} (h : Coherent s.kernel) : Coherent (applyManaged byPlace s a).2.kernel := by
  have hinner : Coherent (applyInner byPlace (dropLost byPlace s a).kernel a).2 :=
    coherent_applyInner (coherent_dropLost h)
  unfold applyManaged
  dsimp only
  split
  · next heq =>
    rw [heq] at hinner
    exact coherent_dropHeld hinner _
  · next heq =>
    rw [heq] at hinner
    exact coherent_dropHeld hinner _
  · next heq => rwa [heq] at hinner
  · next heq => rwa [heq] at hinner

/-- Every event keeps the pins and the filter together. -/
theorem coherent_step (s : Agent) (e : Event) (h : Coherent s.kernel) : Coherent (step byPlace s e).kernel := by
  cases e with
  | apply a => exact coherent_applyManaged h
  | heal dumpFails =>
    unfold step heal
    dsimp only
    split
    · exact coherent_of_no_filter rfl
    · exact h
  | filterLost => exact coherent_of_no_filter rfl

/-! ## After an apply -/

/-- The maps of the program attached last are pinned, and it is running. -/
def Running (k : Kernel) : Prop := ∃ p, k.latest = some p ∧ k.filter = some p ∧ k.pins = .all p

/-- The running marker puts `dscp` on the packets to `ports`. -/
def Marks (k : Kernel) (dscp : UInt32) (ports : List UInt32) : Prop :=
  ∃ p, k.filter = some p ∧ (k.maps p).dscpCfg = dscp ∧ ∀ port, port ∈ (k.maps p).targetPorts ↔ port ∈ ports

/-- The filter is there, its maps open, and they take the new ports and mark. -/
def Refreshed (k : Kernel) (a : Apply) : Prop :=
  attached k a.faults.dump = true ∧ mapsMatchCurrentAbi k a.faults.abi = true ∧
    (set k a.faults.set a.dscp a.ports).1 = .ok ()

variable {fault : Option String} {k' : Kernel} {u : DscpUpdate}

theorem pins_complete_of_match (h : mapsMatchCurrentAbi k fault = true) : k.pins.complete = true := by
  simp only [mapsMatchCurrentAbi, Bool.and_eq_true] at h
  obtain ⟨⟨hports, hcfg⟩, hstats⟩ := h
  have harray : ∀ {name : String} {pin : Option ProgId}, (pinnedArray name pin fault).isOk = true → pin.isSome = true := by
    intro name pin hok
    unfold pinnedArray at hok
    split at hok
    · cases hok
    · cases hok
    · rfl
  have htarget : k.pins.targetPorts.isSome = true := by
    unfold pinnedPorts at hports
    split at hports
    · cases hports
    · cases hports
    · next heq =>
      rw [heq]
      rfl
  simp only [Pins.complete, htarget, harray hcfg, harray hstats, Bool.and_self]

theorem attachMarker_ok (h : attachMarker k a = (.ok u, k')) :
    ∃ p, u = .replace p ∧ k'.latest = some p ∧ k'.filter = some p ∧ k'.pins = .all p := by
  unfold attachMarker at h
  rcases attachOwned_cases k a.faults.attach a.dscp a.ports with
    ⟨e, heq⟩ | ⟨e, k₁, heq, -⟩ | ⟨e, k₁, heq, -⟩ | ⟨p, k₁, heq, hfilter, hlatest, hpins⟩
  · rw [heq] at h
    cases h
  · rw [heq] at h
    cases h
  · rw [heq] at h
    cases h
  · rw [heq] at h
    cases h
    exact ⟨p, rfl, hlatest, hfilter, hpins⟩

/-- An update with ports keeps the marker when its maps can be refreshed, and loads another
    otherwise. -/
theorem updateMarker_ok (hports : a.ports ≠ []) (h : Coherent k) (hok : updateMarker k a = (.ok u, k')) :
    Running k' ∧ ((Refreshed k a ∧ u = .keep) ∨ (¬ Refreshed k a ∧ ∃ p, u = .replace p)) := by
  unfold updateMarker at hok
  rw [if_neg (by simpa using hports)] at hok
  by_cases hreuse : (attached k a.faults.dump && mapsMatchCurrentAbi k a.faults.abi) = true
  · rw [if_pos hreuse] at hok
    obtain ⟨hattached, hmatch⟩ := Bool.and_eq_true_iff.mp hreuse
    rcases hset : set k a.faults.set a.dscp a.ports with ⟨_ | _, k₁⟩
    · rw [hset] at hok
      obtain ⟨p, rfl, hrunning⟩ := attachMarker_ok hok
      refine ⟨⟨p, hrunning⟩, .inr ⟨fun hrefreshed => ?_, p, rfl⟩⟩
      rw [Refreshed, hset] at hrefreshed
      cases hrefreshed.2.2
    · rw [hset] at hok
      cases hok
      obtain ⟨hfilter, hlatest, hpins⟩ := set_frame k a.faults.set a.dscp a.ports
      obtain ⟨p, hp⟩ := Option.isSome_iff_exists.mp (Bool.and_eq_true_iff.mp hattached).2
      obtain ⟨hlast, hall⟩ := h p hp
      rw [hset] at hfilter hlatest hpins
      refine ⟨⟨p, hlatest.trans hlast, hfilter.trans hp, hpins.trans (hall (pins_complete_of_match hmatch))⟩, .inl ⟨?_, rfl⟩⟩
      exact ⟨hattached, hmatch, by rw [hset]⟩
  · rw [if_neg hreuse] at hok
    obtain ⟨p, rfl, hrunning⟩ := attachMarker_ok hok
    refine ⟨⟨p, hrunning⟩, .inr ⟨fun hrefreshed => hreuse ?_, p, rfl⟩⟩
    rw [hrefreshed.1, hrefreshed.2.1, Bool.and_self]

theorem applyInner_ok (h : applyInner byPlace k a = (.ok u, k')) : updateMarker k a = (.ok u, k') := by
  unfold applyInner at h
  split at h
  · cases h
  · split at h
    · cases h
    · next heq _ => rw [heq, h]
    · cases h
    · cases h

/-- The agent holds no attachment once it has looked for its filter, or the marker it has can
    be refreshed. -/
def FreeOrRefreshed (byPlace : Bool) (s : Agent) (a : Apply) : Prop :=
  (dropLost byPlace s a).held = none ∨ Refreshed (dropLost byPlace s a).kernel a

theorem not_running_of_dropped (p : ProgId) (k : Kernel) : ¬ Running (dropAttachment byPlace p k) := by
  rintro ⟨q, -, -, hpins⟩
  cases hpins

theorem running_after_apply_iff {s : Agent} (h : Coherent s.kernel) (hports : a.ports ≠ [])
    (hok : (applyManaged byPlace s a).1 = .ok u) :
    Running (applyManaged byPlace s a).2.kernel ↔ FreeOrRefreshed byPlace s a := by
  have hlost : Coherent (dropLost byPlace s a).kernel := coherent_dropLost h
  unfold applyManaged at hok ⊢
  unfold FreeOrRefreshed
  generalize dropLost byPlace s a = t at hok hlost ⊢
  dsimp only at hok ⊢
  rcases hinner : applyInner byPlace t.kernel a with ⟨e | u', k'⟩
  · rw [hinner] at hok
    cases hok
  · obtain ⟨hrunning, ⟨hrefreshed, rfl⟩ | ⟨hnot, p, rfl⟩⟩ := updateMarker_ok hports hlost (applyInner_ok hinner)
    · exact iff_of_true hrunning (.inr hrefreshed)
    · cases hheld : t.held with
      | none => exact iff_of_true hrunning (.inl rfl)
      | some q =>
        refine iff_of_false (not_running_of_dropped q k') ?_
        rintro (hfree | hrefreshed)
        · cases hfree
        · exact hnot hrefreshed

theorem pinnedPorts_ok {p : ProgId} (h : pinnedPorts k fault = .ok p) : k.pins.targetPorts = some p := by
  unfold pinnedPorts at h
  split at h
  · cases h
  · cases h
  · next q hpin =>
    split at h
    · cases h
    · rw [hpin, Except.ok.inj h]

theorem pinnedArray_ok {name : String} {pin : Option ProgId} {p : ProgId}
    (h : pinnedArray name pin fault = .ok p) : pin = some p := by
  unfold pinnedArray at h
  split at h
  · cases h
  · cases h
  · rw [Except.ok.inj h]

/-- What a refresh that succeeds has done: the pinned ports were written, and the mark is there
    or was written too. -/
theorem set_ok {f : SetFaults} {dscp : UInt32} {ports : List UInt32} (h : set k f dscp ports = (.ok (), k')) :
    ∃ p q written, k.pins.targetPorts = some p ∧ k.pins.dscpCfg = some q ∧
      (∀ port, port ∈ written ↔ port ∈ ports) ∧
      ((((k.putPorts p written).maps q).dscpCfg = dscp ∧ k' = k.putPorts p written) ∨
        k' = (k.putPorts p written).putDscp q dscp) := by
  unfold set at h
  split at h
  · cases h
  · cases h
  · cases h
  · next p q _ hports hcfg =>
    dsimp only at h
    split at h
    · cases h
    · cases h
    · next hwritten _ =>
      refine ⟨p, q, _, pinnedPorts_ok hports, pinnedArray_ok hcfg, writePorts_done hwritten, ?_⟩
      split at h
      · split at h
        · cases h
        · exact .inr (Prod.mk.inj h).2.symm
      · next hdscp => exact .inl ⟨not_not.mp hdscp, (Prod.mk.inj h).2.symm⟩

/-- With its maps pinned, a refresh that succeeds reaches the running marker. -/
theorem marks_of_set (h : Running k) {f : SetFaults} {dscp : UInt32} {ports : List UInt32}
    (hok : (set k f dscp ports).1 = .ok ()) : Marks (set k f dscp ports).2 dscp ports := by
  obtain ⟨p, -, hfilter, hpins⟩ := h
  have hset : set k f dscp ports = (.ok (), (set k f dscp ports).2) := Prod.ext hok rfl
  obtain ⟨q, q', written, hq, hq', hwritten, hcases⟩ := set_ok hset
  rw [hpins] at hq hq'
  obtain rfl := Option.some.inj hq
  obtain rfl := Option.some.inj hq'
  rcases hcases with ⟨hdscp, heq⟩ | heq
  · rw [heq]
    refine ⟨p, hfilter, hdscp, fun port => ?_⟩
    simp only [Kernel.putPorts, Function.update_self]
    exact hwritten port
  · rw [heq]
    refine ⟨p, hfilter, ?_, fun port => ?_⟩
    · simp only [Kernel.putDscp, Function.update_self]
    · simp only [Kernel.putDscp, Kernel.putPorts, Function.update_self]
      exact hwritten port

end

/-- In every run of applies, drift checks and lost filters, with any steps failing: after an apply
    that succeeds with ports, the program attached last runs with its three maps pinned, and
    every refresh that succeeds from there reaches it, just when the agent held no
    attachment after looking for its filter or could refresh the marker it had. -/
theorem marker_pinned_iff (byPlace : Bool) {s : Agent} (hs : Coherent s.kernel) (es : List Event) (a : Apply)
    (hports : a.ports ≠ []) {u : DscpUpdate} (hok : (applyManaged byPlace (run (step byPlace) s es) a).1 = .ok u) :
    (Running (run (step byPlace) s (es ++ [.apply a])).kernel ∧
      ∀ f dscp ports, (set (run (step byPlace) s (es ++ [.apply a])).kernel f dscp ports).1 = .ok () →
        Marks (set (run (step byPlace) s (es ++ [.apply a])).kernel f dscp ports).2 dscp ports) ↔
    FreeOrRefreshed byPlace (run (step byPlace) s es) a := by
  have hcoherent : Coherent (run (step byPlace) s es).kernel :=
    inv_run_all (I := fun s => Coherent s.kernel) (step byPlace) coherent_step hs es
  rw [← running_after_apply_iff hcoherent hports hok, run_append]
  exact ⟨fun h => h.1, fun h => ⟨h, fun f dscp ports => marks_of_set h⟩⟩

/-- Whatever fails or is lost, a full set of pins beside a running marker is its own. -/
theorem marker_pins_own (byPlace : Bool) (es : List Event) : Coherent (run (step byPlace) {} es).kernel :=
  inv_run_all (I := fun s => Coherent s.kernel) (step byPlace) coherent_step (coherent_of_no_filter rfl) es

/-- Both ports marked, then one more, whose insert fails for want of memory. -/
def firstPorts : Apply := { dscp := 46, ports := [80, 443] }
def morePorts : Apply :=
  { dscp := 46, ports := [80, 443, 8443], faults := { set := { ports := fun n => if n = 1 then some 12 else none } } }

/-- The same insert fails, but the filter was lost before, so the attachment was dropped first. -/
theorem reloaded_after_loss :
    Running (run (step true) {} [.apply firstPorts, .filterLost, .apply morePorts]).kernel := by
  have h := (marker_pinned_iff true (s := {}) (coherent_of_no_filter rfl) [.apply firstPorts, .filterLost] morePorts
    (by decide) (u := .replace 1) (by decide)).mpr (.inl (by decide))
  exact h.1

/-- The refresh fails, so the marker is loaded again; that succeeds, and nothing is pinned,
    whatever a dropped link does to its successor. -/
theorem replaced_marker_unpinned :
    (applyManaged true (step true {} (.apply firstPorts)) morePorts).1 = .ok (.replace 1) ∧
      (run (step true) {} [.apply firstPorts, .apply morePorts]).kernel.latest = some 1 ∧
      (run (step true) {} [.apply firstPorts, .apply morePorts]).kernel.pins = {} ∧
      (run (step false) {} [.apply firstPorts, .apply morePorts]).kernel.filter = some 1 ∧
      (run (step false) {} [.apply firstPorts, .apply morePorts]).kernel.pins = {} := by
  decide

end EdgeLb.Linux
