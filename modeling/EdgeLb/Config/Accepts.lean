/-
  EdgeLb.Config.Accepts — what `FileConfig::validate` accepts, as conditions on the
  configuration.

  A gateway's configuration passes when three things hold: it is sound in itself, its
  inventory of nodes is in order, and every backend that a target names is in the
  inventory (`validate_eq_ok`). Only the last two look at the backends.
-/

import EdgeLb.Config.Validate
import Mathlib.Algebra.Order.BigOperators.Group.List
import Mathlib.Algebra.Order.Group.Nat

namespace EdgeLb.Config

open EdgeLb.Lib

/-! ## Target groups -/

def BackendTarget.WellFormed (target : BackendTarget) : Prop := target.weight ≠ 0 ∧ target.address.isUnspecified = false

structure TargetGroup.WellFormed (group : TargetGroup) : Prop where
  name : isBlank group.name = false
  probe : group.monitor = true → validateProbeConfig s!"target group {group.name}" group = .ok ()
  targets : ∀ target ∈ group.targets, target.WellFormed

def TargetGroup.Known (backends : List BackendNode) (group : TargetGroup) : Prop :=
  ∀ target ∈ group.targets, target.known backends = true

variable {backends : List BackendNode} {groups : List TargetGroup}

theorem validateTarget_eq_ok {group : TargetGroup} {idx : Nat} {target : BackendTarget} :
    validateTarget backends group idx target = .ok () ↔ target.WellFormed ∧ target.known backends = true := by
  simp only [validateTarget, seq_eq_ok, bailIf_eq_ok, BackendTarget.WellFormed, beq_eq_false_iff_ne, Bool.not_eq_false']
  tauto

theorem validateTargetGroup_eq_ok {before : List TargetGroup} {group : TargetGroup} :
    validateTargetGroup backends before group = .ok () ↔
      group.WellFormed ∧ group.Known backends ∧ group.name ∉ before.map (·.name) := by
  have htargets : eachIdx (validateTarget backends group) group.targets = .ok () ↔
      ∀ target ∈ group.targets, target.WellFormed ∧ target.known backends = true :=
    eachIdx_const_eq_ok (p := fun target : BackendTarget => target.WellFormed ∧ target.known backends = true)
      fun _ _ => validateTarget_eq_ok
  have hnew : (before.any fun g => g.name == group.name) = false ↔ group.name ∉ before.map (·.name) := by
    simp [List.any_eq_false]
  have hchecks : validateTargetGroup backends before group = .ok () ↔
      isBlank group.name = false ∧ group.name ∉ before.map (·.name) ∧
      (group.monitor = true → validateProbeConfig s!"target group {group.name}" group = .ok ()) ∧
      ∀ target ∈ group.targets, target.WellFormed ∧ target.known backends = true := by
    by_cases hm : group.monitor = true
    · simp only [validateTargetGroup, seq_eq_ok, bailIf_eq_ok, hnew, hm, if_true, htargets, true_implies]
    · simp only [validateTargetGroup, seq_eq_ok, bailIf_eq_ok, hnew, hm, Bool.false_eq_true, if_false, htargets,
        false_implies, true_and]
  rw [hchecks]
  constructor
  · rintro ⟨hname, hbefore, hp, ht⟩
    exact ⟨⟨hname, hp, fun t h => (ht t h).1⟩, fun t h => (ht t h).2, hbefore⟩
  · rintro ⟨⟨hname, hp, hwell⟩, hknown, hbefore⟩
    exact ⟨hname, hbefore, hp, fun t h => ⟨hwell t h, hknown t h⟩⟩

theorem validateTargetGroups_eq_ok :
    eachAfter (validateTargetGroup backends) [] groups = .ok () ↔
      (∀ group ∈ groups, group.WellFormed ∧ group.Known backends) ∧ (groups.map (·.name)).Nodup :=
  eachAfter_nodup fun before group => by rw [validateTargetGroup_eq_ok, and_assoc]

/-! ## Listeners -/

/-- What is checked of a listener that the API's own checks leave out. -/
structure Listener.Clean (listener : Listener) : Prop where
  timeout : listener.inactiveTimeout ≠ some 0
  specified : ∀ vip ∈ listener.vipIps, vip.isUnspecified = false
  vips : listener.vipIps.Nodup

/-- What is checked of a listener alone. -/
structure Listener.WellFormed (groups : List TargetGroup) (listener : Listener) : Prop extends listener.Clean where
  name : isBlank listener.name = false
  port : listener.port ≠ 0
  targetPort : listener.targetPort ≠ 0
  group : listener.targetGroup ∈ groups.map (·.name)
  protocol : listener.protocols ≠ []
  protocols : listener.protocols.Nodup

/-- No name and no socket in common. -/
def Listener.Apart (a b : Listener) : Prop := a.name ≠ b.name ∧ ∀ socket ∈ b.sockets, socket ∉ a.sockets

theorem Listener.Apart.symm {a b : Listener} (h : a.Apart b) : b.Apart a :=
  ⟨h.1.symm, fun socket ha hb => h.2 socket hb ha⟩

theorem validateSockets_eq_ok {before : List Listener} {listener : Listener} :
    eachAfter (fun seen protocol =>
        bailIf (decide ((listener.port, protocol) ∈
          before.flatMap Listener.sockets ++ seen.map fun p => (listener.port, p)))
          s!"duplicate listener port/protocol {protocol.asStr}:{listener.port}") [] listener.protocols = .ok () ↔
      (∀ item ∈ before, ∀ socket ∈ listener.sockets, socket ∉ item.sockets) ∧ listener.protocols.Nodup := by
  have hstep : ∀ (seen : List Protocol) (protocol : Protocol),
      bailIf (decide ((listener.port, protocol) ∈
          before.flatMap Listener.sockets ++ seen.map fun p => (listener.port, p)))
          s!"duplicate listener port/protocol {protocol.asStr}:{listener.port}" = .ok () ↔
        (∀ item ∈ before, (listener.port, protocol) ∉ item.sockets) ∧ ∀ p ∈ seen, p ≠ protocol := fun seen protocol => by
    have hseen : protocol ∉ seen ↔ ∀ p ∈ seen, p ≠ protocol :=
      ⟨fun hnot p hp heq => hnot (heq ▸ hp), fun hne hp => hne protocol hp rfl⟩
    simp [List.mem_flatMap, hseen]
  rw [eachAfter_pairwise hstep]
  refine and_congr ⟨fun h item hitem socket hsocket => ?_, fun h protocol hp item hitem => ?_⟩ Iff.rfl
  · obtain ⟨protocol, hp, rfl⟩ := List.mem_map.mp hsocket
    exact h protocol hp item hitem
  · exact h item hitem _ (List.mem_map_of_mem hp)

theorem validateListener_eq_ok {before : List Listener} {listener : Listener} :
    validateListener groups before listener = .ok () ↔
      listener.WellFormed groups ∧ ∀ item ∈ before, item.Apart listener := by
  have hbefore : (before.any fun l => l.name == listener.name) = false ↔ ∀ item ∈ before, item.name ≠ listener.name := by
    simp [List.any_eq_false]
  have hgroup : (!groups.any fun g => g.name == listener.targetGroup) = false ↔
      listener.targetGroup ∈ groups.map (·.name) := by
    simp
  have hvips : (listener.vipIps.any (·.isUnspecified)) = false ↔ ∀ vip ∈ listener.vipIps, vip.isUnspecified = false := by
    simp [List.any_eq_false]
  simp only [validateListener, validateNativeListener, seq_eq_ok, bailIf_eq_ok, validateSockets_eq_ok, hbefore, hgroup,
    hvips, beq_eq_false_iff_ne, Bool.not_eq_false', decide_eq_true_eq, List.isEmpty_eq_false_iff]
  constructor
  · rintro ⟨hname, hnew, hport, htarget, htimeout, hspec, hnodup, hgroup, hprotocol, hsockets, hprotocols⟩
    exact ⟨⟨⟨htimeout, hspec, hnodup⟩, hname, hport, htarget, hgroup, hprotocol, hprotocols⟩,
      fun item hitem => ⟨hnew item hitem, hsockets item hitem⟩⟩
  · rintro ⟨h, hapart⟩
    exact ⟨h.name, fun item hitem => (hapart item hitem).1, h.port, h.targetPort, h.timeout, h.specified, h.vips, h.group,
      h.protocol, fun item hitem => (hapart item hitem).2, h.protocols⟩

theorem validateListeners_eq_ok {listeners : List Listener} :
    eachAfter (validateListener groups) [] listeners = .ok () ↔
      (∀ listener ∈ listeners, listener.WellFormed groups) ∧ listeners.Pairwise Listener.Apart :=
  eachAfter_pairwise (f := validateListener groups) (p := Listener.WellFormed groups) (r := Listener.Apart)
    fun _ _ => validateListener_eq_ok

/-- A listener's check looks at the groups' names only. -/
theorem validateListeners_mono {groups groups' : List TargetGroup}
    (hnames : ∀ name ∈ groups.map (·.name), name ∈ groups'.map (·.name)) {listeners : List Listener}
    (h : eachAfter (validateListener groups) [] listeners = .ok ()) :
    eachAfter (validateListener groups') [] listeners = .ok () := by
  obtain ⟨hwell, hapart⟩ := validateListeners_eq_ok.mp h
  refine validateListeners_eq_ok.mpr ⟨fun listener hl => ?_, hapart⟩
  have hl := hwell listener hl
  exact { hl with group := hnames _ hl.group }

def Listener.isConsistentHash (listener : Listener) : Bool := listener.select = .consistentHash

theorem validateCapacity_eq_ok {file : FileConfig} {expansionCount : FileConfig → Listener → Except String Nat} :
    validateConsistentHashListenerCapacity file expansionCount = .ok () ↔
      (∀ listener ∈ file.listeners.filter Listener.isConsistentHash, ∃ n, expansionCount file listener = .ok n) ∧
      ((file.listeners.filter Listener.isConsistentHash).map fun l => counted (expansionCount file l)).sum ≤
        maxConsistentHashDatapathListeners := by
  rw [validateConsistentHashListenerCapacity, bind_eq_ok]
  constructor
  · rintro ⟨expanded, hexpanded, hfits⟩
    obtain ⟨hall, hsum⟩ := foldlM_add_eq_ok.mp hexpanded
    refine ⟨hall, ?_⟩
    have hle : ¬ maxConsistentHashDatapathListeners < expanded := by simpa using bailIf_eq_ok.mp hfits
    rw [← hsum, Nat.zero_add] at hle
    exact not_lt.mp hle
  · rintro ⟨hall, hsum⟩
    refine ⟨_, foldlM_add_eq_ok.mpr ⟨hall, rfl⟩, bailIf_eq_ok.mpr (decide_eq_false ?_)⟩
    rw [Nat.zero_add]
    exact not_lt.mpr hsum

/-- Fewer listeners need no more room. -/
theorem validateCapacity_sublist {file file' : FileConfig} {expansionCount : FileConfig → Listener → Except String Nat}
    (hsub : file'.listeners.Sublist file.listeners)
    (h : validateConsistentHashListenerCapacity file expansionCount = .ok ())
    (hcount : expansionCount file' = expansionCount file) :
    validateConsistentHashListenerCapacity file' expansionCount = .ok () := by
  obtain ⟨hall, hsum⟩ := validateCapacity_eq_ok.mp h
  have hsub := hsub.filter Listener.isConsistentHash
  rw [validateCapacity_eq_ok, hcount]
  exact ⟨fun listener hl => hall listener (hsub.subset hl), ((hsub.map _).sum_le_sum fun _ _ => Nat.zero_le _).trans hsum⟩

/-! ## The whole -/

/-- What is checked without a look at the inventory of nodes. -/
structure FileConfig.Sound (file : FileConfig) : Prop where
  settings : validateSettings file = .ok ()
  endpoints : validateEndpoints file = .ok ()
  groups : ∀ group ∈ file.targetGroups, group.WellFormed
  names : (file.targetGroups.map (·.name)).Nodup
  listeners : eachAfter (validateListener file.targetGroups) [] file.listeners = .ok ()
  capacity : validateConsistentHashListenerCapacity file configuredListenerExpansionCount = .ok ()

theorem validate_eq_ok {file : FileConfig} (hrole : file.nodeRole = .gateway) :
    file.validate = .ok () ↔ file.Sound ∧ validateInventory file = .ok () ∧
      ∀ group ∈ file.targetGroups, group.Known file.backendNodesEffective := by
  simp only [FileConfig.validate, validateProxy, hrole, if_true, seq_eq_ok, validateTargetGroups_eq_ok]
  constructor
  · rintro ⟨hsettings, hinventory, ⟨⟨hgroups, hnames⟩, hlisteners, hcapacity⟩, hendpoints⟩
    exact ⟨⟨hsettings, hendpoints, fun g h => (hgroups g h).1, hnames, hlisteners, hcapacity⟩, hinventory,
      fun g h => (hgroups g h).2⟩
  · rintro ⟨h, hinventory, hknown⟩
    exact ⟨h.settings, hinventory, ⟨⟨fun g hg => ⟨h.groups g hg, hknown g hg⟩, h.names⟩, h.listeners, h.capacity⟩,
      h.endpoints⟩

end EdgeLb.Config
