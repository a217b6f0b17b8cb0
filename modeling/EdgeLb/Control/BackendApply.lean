/-
  EdgeLb.Control.BackendApply — the return path a backend installs from the gateways'
  snapshots (`edge-lb/src/control/backend.rs`, `.../linux/backend_redirect.rs`).

  The latest snapshot of every gateway is combined into one, whose version is compared with
  the version applied last. The same version is acknowledged without an apply. Otherwise
  the return path is applied: an attachment whose map already has the contract stays;
  else the new program is prepared, the old attachment is dropped, and only then the new
  one is built, from routes and neighbours as the kernel has them at that moment. When that
  fails nothing is attached, while the version applied last is still on record.

  `Kernel` has what the machine answers during one apply. `installed` and `failed` are
  history: the version of the contract in force, and whether an apply failed since the last
  one that did not. Merging a snapshot and applying the latest ones are separate steps, as
  two subscriptions may interleave between them.

  Proved: every step of a run is sound exactly when no apply fails after the old attachment
  was dropped and no snapshot goes back to the applied version after a failure
  (`applies_sound_iff`).

  Not modelled: how a snapshot becomes a configuration (`setupOf`), and SHA-256.
-/

import EdgeLb.Common.Flow
import EdgeLb.Config.Validate
import EdgeLb.Lib.Run

namespace EdgeLb.Control

open EdgeLb.Common EdgeLb.Config EdgeLb.Lib

/-! ## The gateways' snapshots -/

namespace Pb

structure Network where
  gatewayIp : String
  overlayCidr : String
  gatewayVxlanDev : String
  vni : UInt32
  vxlanPort : UInt32
  vxlanMtu : UInt32
  dscp : UInt32
  deriving DecidableEq, Repr

structure GatewayNode where
  name : String
  underlayIp : String
  overlayIp : String
  deriving DecidableEq, Repr

structure GatewayReturnPath where
  gateway : String
  gatewayUnderlayIp : String
  gatewayOverlayIp : String
  backendOverlayIp : String
  dscp : UInt32
  mark : UInt32
  routeTableId : UInt32
  deriving DecidableEq, Repr

structure ConfigSnapshot where
  network : Option Network
  gatewayNodes : List GatewayNode
  gatewayReturnPaths : List GatewayReturnPath
  deriving DecidableEq, Repr

structure DiscoveryResponse where
  version : String
  snapshot : Option ConfigSnapshot
  deriving DecidableEq, Repr

end Pb

/-- The combined snapshot, which always has a body. -/
structure Combined where
  version : String
  snapshot : Pb.ConfigSnapshot
  deriving DecidableEq, Repr

/-- Keep the first element of every key. -/
def firstByKey {α κ : Type} [DecidableEq κ] (key : α → κ) (xs : List α) : List α :=
  xs.foldl (fun out x => if key x ∈ out.map key then out else out ++ [x]) []

def snapshotGatewayKey (snapshot : Pb.ConfigSnapshot) : String := (snapshot.network.map (·.gatewayIp)).getD ""

def combineGatewayResponses (sha : String → String) (responses : List Pb.DiscoveryResponse) : Except String Combined :=
  let responses := responses.filterMap fun resp => resp.snapshot.map fun snapshot => (resp.version, snapshot)
  let responses := responses.insertionSort fun a b => snapshotGatewayKey a.2 ≤ snapshotGatewayKey b.2
  match responses with
  | [] => .error "no xDS snapshots available"
  | first :: _ =>
    .ok {
      version := sha (String.join ((responses.map (·.1)).insertionSort (· ≤ ·)))
      snapshot := { first.2 with
        gatewayNodes := firstByKey (fun gateway => (gateway.underlayIp, gateway.name))
          (responses.flatMap (·.2.gatewayNodes))
        gatewayReturnPaths := firstByKey
          (fun path => (path.gatewayUnderlayIp, path.gatewayOverlayIp, path.dscp, path.mark, path.routeTableId))
          (responses.flatMap (·.2.gatewayReturnPaths)) } }

/-! ## The attachment -/

/-- What an apply reads of the configuration made of a snapshot. -/
structure Setup where
  vxlanDev : String
  underlayDev : String
  returnPaths : List GatewayReturnPath
  deriving DecidableEq, Repr

structure BackendReturnDscp where
  flags : UInt32
  returnIfindex : UInt32
  sourceMac : List UInt8
  destinationMac : List UInt8
  deriving DecidableEq, Repr

/-- `BackendRedirectAttachment` with the pinned map of its contract. -/
structure Attachment where
  vxlanDev : String
  underlayDev : String
  dscp : BpfMap UInt32 BackendReturnDscp

structure NodeConflict where
  severity : String
  kind : String
  subject : String
  detail : String
  deriving DecidableEq, Repr

/-- What the machine answers during one apply. `observed` and `contract` are the same
    observation of a gateway's route and neighbour, for the comparison and for the build. -/
structure Kernel where
  conflicts : List NodeConflict := []
  /-- Root, tuning, the VXLAN device. -/
  ready : Except String Unit := .ok ()
  mapReadable : Bool := true
  observed : GatewayReturnPath → Except String BackendReturnDscp
  /-- Loading and verifying the new program. -/
  object : Except String Unit := .ok ()
  contract : GatewayReturnPath → Except String BackendReturnDscp
  insert : GatewayReturnPath → Except String Unit := fun _ => .ok ()
  pin : Except String Unit := .ok ()
  attach : Except String Unit := .ok ()

def Attachment.matchesConfig (a : Attachment) (setup : Setup) : Bool :=
  a.vxlanDev = setup.vxlanDev ∧ a.underlayDev = setup.underlayDev

def mapsMatchContract (k : Kernel) (setup : Setup) (a : Attachment) : Bool :=
  k.mapReadable && a.dscp.keys.all (fun dscp => setup.returnPaths.any fun path => path.dscp = dscp) &&
    setup.returnPaths.all fun path =>
      match k.observed path with
      | .ok expected => a.dscp.lookup path.dscp = some expected
      | .error _ => false

def attachPrepared (k : Kernel) (setup : Setup) : Except String Attachment := do
  bailIf setup.returnPaths.isEmpty "backend Redirect requires at least one return path"
  let dscp ← setup.returnPaths.foldlM (fun dscp path => do
    let contract ← k.contract path
    k.insert path
    return dscp.insert path.dscp contract) (∅ : BpfMap UInt32 BackendReturnDscp)
  k.pin
  k.attach
  return { vxlanDev := setup.vxlanDev, underlayDev := setup.underlayDev, dscp }

/-- The attachment is the one the setup asks for. -/
def upToDate (k : Kernel) (setup : Setup) (current : Option Attachment) : Bool :=
  current.any fun active => active.matchesConfig setup && mapsMatchContract k setup active

/-- `backend_redirect::apply`: the old attachment is dropped between the two fallible halves. -/
def redirectApply (k : Kernel) (setup : Setup) (current : Option Attachment) : Option Attachment × Except String Unit :=
  if upToDate k setup current then (current, .ok ())
  else
    match k.object with
    | .error e => (current, .error e)
    | .ok () =>
      match attachPrepared k setup with
      | .error e => (none, .error e)
      | .ok attachment => (some attachment, .ok ())

/-- `apply_with` and the facade below it. Without a path the attachment is cleaned up. -/
def applyManagedReusing (k : Kernel) (setup : Setup) (current : Option Attachment) :
    Option Attachment × Except String Unit :=
  match (do validateReturnContract setup.returnPaths; k.ready) with
  | .error e => (current, .error e)
  | .ok () => if setup.returnPaths.isEmpty then (none, .ok ()) else redirectApply k setup current

/-! ## The subscription -/

structure AppliedSnapshot where
  version : String
  conflicts : List NodeConflict
  deriving DecidableEq, Repr

def AppliedSnapshot.conflictsFor (applied : AppliedSnapshot) (version : String) : Option (List NodeConflict) :=
  if applied.version = version then some applied.conflicts else none

structure Backend where
  /-- The latest response of each gateway, by its host. -/
  snapshots : AList (fun _ : String => Pb.DiscoveryResponse) := ∅
  applied : Option AppliedSnapshot := none
  /-- The signature of the managed return path; taken out before every apply. -/
  guard : Option Setup := none
  current : Option Attachment := none
  installed : Option String := none
  failed : Bool := false

structure Subscriber where
  sha : String → String
  setupOf : Pb.ConfigSnapshot → Except String Setup
  expectedGateways : Nat

/-- `ran`: an apply came before the acknowledgement. -/
inductive Outcome
  | waiting
  | acked (version : String) (conflicts : List NodeConflict) (ran : Bool)
  | rejected (error : String)
  deriving DecidableEq, Repr

inductive BackendEvent
  | merge (host : String) (resp : Pb.DiscoveryResponse)
  | apply (kernel : Kernel)

variable (P : Subscriber)

def Backend.responses (w : Backend) : List Pb.DiscoveryResponse := w.snapshots.keys.filterMap w.snapshots.lookup

def Backend.complete (w : Backend) : Bool :=
  P.expectedGateways ≤ 1 || P.expectedGateways ≤ w.snapshots.keys.length

/-- The apply of a combined snapshot that is not the one applied last. -/
def applyCombined (k : Kernel) (combined : Combined) (w : Backend) : Backend × Outcome :=
  match P.setupOf combined.snapshot with
  | .error e => ({ w with failed := true }, .rejected e)
  | .ok setup =>
    match applyManagedReusing k setup w.current with
    | (current, .error e) =>
      ({ w with
          guard := none
          current
          installed := if w.current.isSome && current.isNone then none else w.installed
          failed := true }, .rejected e)
    | (current, .ok ()) =>
      ({ w with
          guard := some setup
          current
          applied := some { version := combined.version, conflicts := k.conflicts }
          installed := some combined.version
          failed := false }, .acked combined.version k.conflicts true)

/-- The blocking task of `subscribe_gateway`, after its merge. -/
def applyLatest (k : Kernel) (w : Backend) : Backend × Outcome :=
  if w.complete P then
    match combineGatewayResponses P.sha w.responses with
    | .error e => ({ w with failed := true }, .rejected e)
    | .ok combined =>
      match w.applied.bind (·.conflictsFor combined.version) with
      | some conflicts => (w, .acked combined.version conflicts false)
      | none => applyCombined P k combined w
  else (w, .waiting)

def stepBackend (w : Backend) : BackendEvent → Backend
  | .merge host resp => { w with snapshots := w.snapshots.insert host resp }
  | .apply k => (applyLatest P k w).1

/-! ## Where an apply fails -/

def Fails {α : Type} (x : Except String α) : Prop := ∃ e, x = .error e

/-- A step of building the new attachment fails. -/
def BuildFails (k : Kernel) (setup : Setup) : Prop :=
  (∃ path ∈ setup.returnPaths, Fails (k.contract path) ∨ Fails (k.insert path)) ∨ Fails k.pin ∨ Fails k.attach

/-- The apply drops the attachment and then fails to build the new one. -/
structure TornDown (k : Kernel) (setup : Setup) (current : Option Attachment) : Prop where
  valid : validateReturnContract setup.returnPaths = .ok ()
  ready : k.ready = .ok ()
  paths : setup.returnPaths ≠ []
  changed : upToDate k setup current = false
  object : k.object = .ok ()
  build : BuildFails k setup

theorem fails_pure {α : Type} (a : α) : Fails (pure a : Except String α) ↔ False := by
  simp [Fails, pure, Except.pure]

/-- Whether the rest fails does not depend on what came before. -/
theorem fails_bind {α β : Type} {x : Except String α} {f : α → Except String β} {q : Prop}
    (h : ∀ a, Fails (f a) ↔ q) : Fails (x >>= f) ↔ Fails x ∨ q := by
  cases x with
  | error e => simp [Fails, bind, Except.bind]
  | ok a =>
    rw [show (Except.ok a >>= f) = f a from rfl, h a]
    simp [Fails]

/-- The loop over the paths fails with the first contract or insert that does. -/
theorem fails_contracts (k : Kernel) (paths : List GatewayReturnPath) (m : BpfMap UInt32 BackendReturnDscp) :
    Fails (paths.foldlM (fun dscp path => do
      let contract ← k.contract path
      k.insert path
      return dscp.insert path.dscp contract) m) ↔
      ∃ path ∈ paths, Fails (k.contract path) ∨ Fails (k.insert path) := by
  induction paths generalizing m with
  | nil => simp [Fails, pure, Except.pure]
  | cons path paths ih =>
    have hpath : Fails (do
        let contract ← k.contract path
        k.insert path
        return m.insert path.dscp contract) ↔ Fails (k.contract path) ∨ Fails (k.insert path) := by
      refine fails_bind fun c => ?_
      rw [fails_bind fun _ => fails_pure _, or_false]
    rw [List.foldlM_cons, fails_bind ih, hpath]
    simp

theorem attachPrepared_fails {k : Kernel} {setup : Setup} (hpaths : setup.returnPaths ≠ []) :
    Fails (attachPrepared k setup) ↔ BuildFails k setup := by
  have hnonempty : ¬ Fails (bailIf setup.returnPaths.isEmpty "backend Redirect requires at least one return path") := by
    simp [Fails, bailIf, hpaths]
  refine (fails_bind fun _ => fails_bind fun _ => fails_bind fun _ => fails_bind fun _ => fails_pure _).trans ?_
  rw [or_iff_right hnonempty, fails_contracts, or_false]
  exact Iff.rfl

/-- What an apply does to the attachment: an error leaves it, unless it comes after the drop. -/
theorem applyManagedReusing_cases (k : Kernel) (setup : Setup) (current : Option Attachment) :
    (TornDown k setup current ∧ ∃ e, applyManagedReusing k setup current = (none, .error e)) ∨
      ¬ TornDown k setup current ∧ ((∃ e, applyManagedReusing k setup current = (current, .error e)) ∨
        ∃ next, applyManagedReusing k setup current = (next, .ok ())) := by
  unfold applyManagedReusing
  cases hvalid : validateReturnContract setup.returnPaths with
  | error e =>
    right
    exact ⟨fun h => (nomatch hvalid.symm.trans h.valid), .inl ⟨e, rfl⟩⟩
  | ok =>
    cases hready : k.ready with
    | error e =>
      right
      exact ⟨fun h => (nomatch hready.symm.trans h.ready), .inl ⟨e, rfl⟩⟩
    | ok =>
      by_cases hpaths : setup.returnPaths = []
      · right
        refine ⟨fun h => h.paths hpaths, .inr ⟨none, ?_⟩⟩
        simp [hpaths, bind, Except.bind]
      · have hnonempty : setup.returnPaths.isEmpty = false := by simpa using hpaths
        simp only [bind, Except.bind, hnonempty, Bool.false_eq_true, if_false, redirectApply]
        cases hchanged : upToDate k setup current with
        | true =>
          right
          exact ⟨fun h => (nomatch hchanged.symm.trans h.changed), .inr ⟨current, rfl⟩⟩
        | false =>
          cases hobject : k.object with
          | error e =>
            right
            exact ⟨fun h => (nomatch hobject.symm.trans h.object), .inl ⟨e, rfl⟩⟩
          | ok =>
            cases hattach : attachPrepared k setup with
            | error e =>
              left
              exact ⟨⟨hvalid, hready, hpaths, hchanged, hobject, (attachPrepared_fails hpaths).mp ⟨e, hattach⟩⟩, e, rfl⟩
            | ok a =>
              right
              refine ⟨fun h => ?_, .inr ⟨some a, rfl⟩⟩
              obtain ⟨e, he⟩ := (attachPrepared_fails hpaths).mpr h.build
              rw [hattach] at he
              cases he

/-! ## Sound steps -/

/-- The version acknowledged is the version in force. -/
def Acknowledged (w : Backend) : Prop := w.applied.map (·.version) = w.installed

instance (w : Backend) : Decidable (Acknowledged w) := inferInstanceAs (Decidable (_ = _))

theorem start_acknowledged : Acknowledged {} := rfl

/-- What an outcome promises of the state `w'` after it: an acknowledged version is in force, and
    after a failure an apply came first; a rejected one leaves the contract and the attachment
    that were in force. -/
def OutcomeSound (w w' : Backend) : Outcome → Prop
  | .waiting => True
  | .acked version _ ran => w'.installed = some version ∧ (w.failed = true → ran = true)
  | .rejected _ => w'.installed = w.installed ∧ w'.current = w.current

def StepSound (w : Backend) : BackendEvent → Prop
  | .merge _ _ => True
  | .apply k =>
    let (w', outcome) := applyLatest P k w
    Acknowledged w' ∧ OutcomeSound w w' outcome

/-- The latest snapshots are not the applied ones again after a failure, and their apply does not
    fail once the attachment is dropped. -/
def Spared (w : Backend) : BackendEvent → Prop
  | .merge _ _ => True
  | .apply k => w.complete P = true → ∀ combined, combineGatewayResponses P.sha w.responses = .ok combined →
      if w.applied.map (·.version) = some combined.version then w.failed = false
      else ∀ setup, P.setupOf combined.snapshot = .ok setup → TornDown k setup w.current → w.current = none

theorem conflictsFor_eq_none {w : Backend} {version : String} :
    w.applied.bind (·.conflictsFor version) = none ↔ w.applied.map (·.version) ≠ some version := by
  cases w.applied with
  | none => simp
  | some applied => simp [AppliedSnapshot.conflictsFor]

theorem applyCombined_sound (k : Kernel) (combined : Combined) {w : Backend} (h : Acknowledged w) :
    (Acknowledged (applyCombined P k combined w).1 ∧
      OutcomeSound w (applyCombined P k combined w).1 (applyCombined P k combined w).2) ↔
      ∀ setup, P.setupOf combined.snapshot = .ok setup → TornDown k setup w.current → w.current = none := by
  unfold applyCombined
  cases hsetup : P.setupOf combined.snapshot with
  | error e => exact ⟨fun _ setup hs => (nomatch hs), fun _ => ⟨h, rfl, rfl⟩⟩
  | ok setup =>
    simp only [Except.ok.injEq, forall_eq']
    rcases applyManagedReusing_cases k setup w.current with ⟨htorn, e, happly⟩ | ⟨htorn, ⟨e, happly⟩ | ⟨next, happly⟩⟩
    · rw [happly]
      constructor
      · intro hs _
        exact hs.2.2.symm
      · intro hnone
        have hcurrent := hnone htorn
        refine ⟨?_, ?_, hcurrent.symm⟩
        · simpa [Acknowledged, hcurrent] using h
        · simp [hcurrent]
    · rw [happly]
      refine ⟨fun _ ht => absurd ht htorn, fun _ => ⟨?_, ?_, rfl⟩⟩
      · cases hcurrent : w.current <;> simpa [Acknowledged, hcurrent] using h
      · cases hcurrent : w.current <;> simp
    · rw [happly]
      exact ⟨fun _ ht => absurd ht htorn, fun _ => ⟨rfl, rfl, fun _ => rfl⟩⟩

/-- A step is sound exactly when it is spared. -/
theorem stepSound_iff {w : Backend} (h : Acknowledged w) (e : BackendEvent) : StepSound P w e ↔ Spared P w e := by
  cases e with
  | merge host resp => exact Iff.rfl
  | apply k =>
    show (Acknowledged (applyLatest P k w).1 ∧ OutcomeSound w (applyLatest P k w).1 (applyLatest P k w).2) ↔ _
    unfold Spared applyLatest
    cases hcomplete : w.complete P with
    | false => simp [h, OutcomeSound]
    | true =>
      cases hcombined : combineGatewayResponses P.sha w.responses with
      | error e => exact ⟨fun _ _ _ hc => (nomatch hc), fun _ => ⟨h, rfl, rfl⟩⟩
      | ok combined =>
        simp only [if_true, forall_const, Except.ok.injEq, forall_eq']
        by_cases hsame : w.applied.map (·.version) = some combined.version
        · have hbind : w.applied.bind (·.conflictsFor combined.version) ≠ none :=
            fun hnone => conflictsFor_eq_none.mp hnone hsame
          obtain ⟨conflicts, hconflicts⟩ := Option.ne_none_iff_exists'.mp hbind
          rw [hconflicts, if_pos hsame]
          -- nothing is applied, so the version in force is the acknowledged one as before
          constructor
          · rintro ⟨-, -, hran⟩
            cases hfailed : w.failed with
            | false => rfl
            | true => exact (hran hfailed).symm
          · intro hfailed
            exact ⟨h, h.symm.trans hsame, fun hf => hfailed.symm.trans hf⟩
        · rw [conflictsFor_eq_none.mpr hsame, if_neg hsame]
          exact applyCombined_sound P k combined h

/-- In every run of the backend from its start: every acknowledged version is the one in force and,
    after a failed apply, was applied again; every rejected snapshot leaves the contract and the
    attachment before it in force; exactly when no snapshot goes back to the applied version after a
    failure and no apply fails once the attachment is dropped. -/
theorem applies_sound_iff (es : List BackendEvent) :
    StepsMeet (stepBackend P) (StepSound P) {} es ↔ StepsMeet (stepBackend P) (Spared P) {} es := by
  refine stepsMeet_congr _ (I := Acknowledged) (fun w e h hsound => ?_) (fun w e h => stepSound_iff P h e)
    start_acknowledged es
  cases e with
  | merge host resp => exact h
  | apply k => exact hsound.1

/-! ## One gateway, two versions -/

def sampleResponse (version : String) (dscp : UInt32) : Pb.DiscoveryResponse :=
  { version
    snapshot := some {
      network := some { gatewayIp := "192.0.2.1", overlayCidr := "10.44.0.0/24", gatewayVxlanDev := "edge-hub",
                        vni := 100, vxlanPort := 4789, vxlanMtu := 1450, dscp }
      gatewayNodes := []
      gatewayReturnPaths := [{ gateway := "gateway-a", gatewayUnderlayIp := "192.0.2.1",
                               gatewayOverlayIp := "10.44.0.1", backendOverlayIp := "", dscp, mark := 0x1040 + dscp,
                               routeTableId := 1000 + dscp }] } }

def samplePath (dscp : UInt32) : GatewayReturnPath :=
  { gatewayUnderlayIp := .v4 0xc0000201, gatewayOverlayIp := .v4 0x0a2c0001, dscp, mark := 0x1040 + dscp,
    routeTableId := 1000 + dscp }

def sampleSubscriber : Subscriber :=
  { sha := id
    setupOf := fun snapshot => .ok {
      vxlanDev := "edge-return"
      underlayDev := "eth0"
      returnPaths := snapshot.gatewayReturnPaths.map fun path => samplePath path.dscp }
    expectedGateways := 1 }

def sampleContract : BackendReturnDscp :=
  { flags := 1, returnIfindex := 7, sourceMac := [2, 0, 0, 0, 0, 1], destinationMac := [2, 0, 0, 0, 0, 2] }

def reachable : Kernel := { observed := fun _ => .ok sampleContract, contract := fun _ => .ok sampleContract }

/-- The neighbour entry of the gateway's overlay address is missing. -/
def unreachable : Kernel :=
  { observed := fun _ => .error "gateway overlay route has no destination MAC"
    contract := fun _ => .error "gateway overlay route has no destination MAC" }

/-- The first version is applied, the second fails after the old attachment was dropped, and the
    gateway goes back to the first. -/
def revert : List BackendEvent :=
  [.merge "192.0.2.1" (sampleResponse "v1" 46), .apply reachable,
    .merge "192.0.2.1" (sampleResponse "v2" 40), .apply unreachable,
    .merge "192.0.2.1" (sampleResponse "v1" 46), .apply reachable]

/-- The first version is acknowledged once more, and nothing is attached. -/
theorem reverted_version_acknowledged_without_attachment :
    let w := run (stepBackend sampleSubscriber) {} (revert.take 5)
    (applyLatest sampleSubscriber reachable w).2 = .acked "v1" [] false ∧
      (applyLatest sampleSubscriber reachable w).1.current.isNone = true ∧
      (applyLatest sampleSubscriber reachable w).1.installed = none ∧
      ¬ StepsMeet (stepBackend sampleSubscriber) (StepSound sampleSubscriber) {} revert := by
  refine ⟨by decide, by decide, by decide, fun h => ?_⟩
  -- the failed apply of the second version already leaves nothing in force
  have hfailed : Acknowledged (run (stepBackend sampleSubscriber) {} (revert.take 4)) := h.2.2.2.1.1
  exact absurd hfailed (by decide)

end EdgeLb.Control
