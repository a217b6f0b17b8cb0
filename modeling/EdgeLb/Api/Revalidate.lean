/-
  EdgeLb.Api.Revalidate — whether what the API commits still passes `FileConfig::validate`.

  A write of target groups ends with the whole validation, so it commits nothing that fails
  it. A write of listeners has checks of its own (`validate_listener_config`, and the bucket
  capacity over the effective VIPs), and nothing validates the whole afterwards. Those checks
  cover the validator's except three: a zero timeout, an unspecified VIP and a VIP listed twice
  (`Listener.Clean`). That no two listeners share a socket follows from the conflict check,
  since every listener answers on the gateway's own address.

  Proved: from a valid configuration every configuration committed is valid exactly when every
  listener of an accepted write is clean (`writes_stay_valid_iff`). A configuration that has
  become invalid refuses the writes of target groups from then on
  (`zero_timeout_blocks_target_groups`).
-/

import EdgeLb.Api.Commits
import Mathlib.Data.List.Dedup

namespace EdgeLb.Api

open EdgeLb.Config EdgeLb.Lib EdgeLb.Storage EdgeLb.Provider

section

variable {B : Type} {J : Json B} {cfg : FileConfig} {ha : Option GatewayHaRuntimeConfig} {state state' : ProxyConfig}

/-- The node's configuration with this one in it passes the validator. -/
def Valid (cfg : FileConfig) (state : ProxyConfig) : Prop := (withProxy cfg state).validate = .ok ()

instance (cfg : FileConfig) (state : ProxyConfig) : Decidable (Valid cfg state) :=
  inferInstanceAs (Decidable (_ = _))

theorem valid_iff (hrole : cfg.nodeRole = .gateway) :
    Valid cfg state ↔ (withProxy cfg state).Sound ∧ InventoryFits cfg state.targetGroups :=
  @validate_eq_ok (withProxy cfg state) hrole

/-! ## What the listener checks cover -/

/-- Two listeners with a socket in common conflict: both answer on the gateway's address. -/
theorem sockets_apart {a b : Listener} (h : listenerResourceConflicts cfg ha (.ofListener a) (.ofListener b) = .ok false) :
    ∀ socket ∈ b.sockets, socket ∉ a.sockets := by
  intro socket hb ha'
  obtain ⟨p, hp, rfl⟩ := List.mem_map.mp hb
  obtain ⟨q, hq, heq⟩ := List.mem_map.mp ha'
  obtain ⟨hport, rfl⟩ := Prod.mk.inj heq
  unfold listenerResourceConflicts at h
  split at h
  · next hne => exact hne hport
  · split at h
    · next hnone =>
      have hshared : (a.protocols.any fun x => decide (x ∈ b.protocols)) = true :=
        List.any_eq_true.mpr ⟨q, hq, decide_eq_true hp⟩
      have hnone : (a.protocols.any fun x => decide (x ∈ b.protocols)) = false := (Bool.not_eq_true' _).mp hnone
      rw [hshared] at hnone
      cases hnone
    · obtain ⟨existing, hexisting, h⟩ := bind_eq_ok.mp h
      obtain ⟨want, hwant, h⟩ := bind_eq_ok.mp h
      obtain ⟨v, hv, hgateway⟩ := (effectiveVipIps_mem hexisting).1
      obtain ⟨w, hw, hgateway'⟩ := (effectiveVipIps_mem hwant).1
      obtain rfl : v = w := Except.ok.inj (hgateway.symm.trans hgateway')
      have hany : (existing.any fun x => decide (x ∈ want)) = true := List.any_eq_true.mpr ⟨v, hv, decide_eq_true hw⟩
      rw [hany] at h
      cases h

/-- A listener that passed the checks: in order alone but for what is not looked at, and apart
    from every other listener but the one it replaces. -/
structure Passed (cfg : FileConfig) (listener : Listener) (oldName : Option String) (state : ProxyConfig) : Prop where
  name : isBlank listener.name = false
  port : listener.port ≠ 0
  targetPort : listener.targetPort ≠ 0
  group : listener.targetGroup ∈ state.targetGroups.map (·.name)
  protocol : listener.protocols ≠ []
  apart : ∀ item ∈ state.listeners, oldName = some item.name ∨ item.Apart listener

variable {listener : Listener}

theorem passed_of_checked {oldName : Option String}
    (h : validateListenerConfig cfg ha listener oldName state.listeners state.targetGroups = .ok ()) :
    Passed cfg listener oldName state := by
  simp only [validateListenerConfig, seq_eq_ok, bailIf_eq_ok] at h
  obtain ⟨hname, hport, htarget, hprotocol, hgroup, hitems⟩ := h
  refine ⟨hname, by simpa using hport, by simpa using htarget, by simpa using hgroup, by simpa using hprotocol, ?_⟩
  intro item hitem
  obtain ⟨l, r, hsplit⟩ := List.append_of_mem hitem
  have hcheck := eachIdx_eq_ok.mp hitems l item r hsplit
  split at hcheck
  · next hold => exact .inl hold
  · refine .inr ?_
    split at hcheck
    · cases hcheck
    · next hne =>
      obtain ⟨conflicts, hconflicts, hbail⟩ := bind_eq_ok.mp hcheck
      obtain rfl := bailIf_eq_ok.mp hbail
      exact ⟨hne, sockets_apart hconflicts⟩

/-! ## The bucket capacity, counted the validator's way -/

theorem configured_le_effective {vips : List UInt32} (h : effectiveVipIps cfg ha listener.vipIps = .ok vips) :
    1 + (listener.vipIps.filter (· ≠ cfg.network.gatewayIp)).dedup.length ≤ vips.length := by
  obtain ⟨⟨gateway, hgateway, hip⟩, hlisted⟩ := effectiveVipIps_mem h
  let others := (listener.vipIps.filter (· ≠ cfg.network.gatewayIp)).dedup
  have hothers : ∀ ip ∈ others, ip ∈ listener.vipIps ∧ ip ≠ cfg.network.gatewayIp := by
    intro ip hmem
    simpa using List.mem_dedup.mp hmem
  have hnodup : (cfg.network.gatewayIp :: others).Nodup :=
    List.nodup_cons.mpr ⟨fun hmem => (hothers _ hmem).2 rfl, List.nodup_dedup _⟩
  have hsub : cfg.network.gatewayIp :: others ⊆ vips.map IpAddr.v4 := by
    intro ip hmem
    rcases List.mem_cons.mp hmem with rfl | hmem
    · rw [ipv4Addr_eq_ok hip]
      exact List.mem_map_of_mem hgateway
    · obtain ⟨v, hv, hip⟩ := hlisted ip (hothers ip hmem).1
      rw [ipv4Addr_eq_ok hip]
      exact List.mem_map_of_mem hv
  have hle := (List.subperm_of_subset hnodup hsub).length_le
  rw [List.length_cons, List.length_map] at hle
  show 1 + others.length ≤ vips.length
  omega

/-- The API counts the shared VIP as well, so what passes its count passes the validator's. -/
theorem capacity_configured (h : validateListenerCapacity cfg ha state.listeners = .ok ()) :
    validateConsistentHashListenerCapacity (withProxy cfg state) configuredListenerExpansionCount = .ok () := by
  obtain ⟨hall, hsum⟩ := validateCapacity_eq_ok.mp h
  refine validateCapacity_eq_ok.mpr ⟨fun listener _ => ⟨_, rfl⟩, le_trans (List.sum_le_sum fun listener hl => ?_) hsum⟩
  obtain ⟨n, hn⟩ := hall listener hl
  obtain ⟨vips, hvips, hcount⟩ := bind_eq_ok.mp hn
  obtain rfl := Except.ok.inj hcount
  rw [hn]
  exact Nat.mul_le_mul_right _ (configured_le_effective hvips)

/-! ## Single changes -/

section

variable (hrole : cfg.nodeRole = .gateway)
include hrole

theorem puts_valid {oldName : Option String} (hclean : listener.Clean) (hprotocols : listener.protocols.Nodup)
    (hputs : Puts cfg ha listener oldName state state') (h : Valid cfg state) : Valid cfg state' := by
  obtain ⟨hsound, hinventory⟩ := (valid_iff hrole).mp h
  have hpassed := passed_of_checked hputs.checked
  have hcapacity := capacity_configured hputs.fits
  obtain ⟨hwell, hapart⟩ := validateListeners_eq_ok.mp hsound.listeners
  have hresult := hputs.result
  subst hresult
  refine (valid_iff hrole).mpr ⟨⟨hsound.settings, hsound.endpoints, hsound.groups, hsound.names, ?_, hcapacity⟩, hinventory⟩
  refine validateListeners_eq_ok.mpr ⟨fun item hitem => ?_, pairwise_upsert ?_ hapart fun item hitem hkept => ?_⟩
  · rcases mem_of_mem_upsert hitem with rfl | hitem
    · exact ⟨hclean, hpassed.name, hpassed.port, hpassed.targetPort, hpassed.group, hpassed.protocol, hprotocols⟩
    · exact hwell item hitem
  · -- the name that is replaced belongs to one listener
    refine hapart.imp fun {a b} hab => ?_
    rintro ⟨hA, hB⟩
    exact hab.1 (Option.some.inj ((of_decide_eq_true hA).trans (of_decide_eq_true hB).symm))
  · have hother : item.Apart listener := by
      rcases hpassed.apart item hitem with hold | hother
      · exact absurd hold.symm (of_decide_eq_false hkept)
      · exact hother
    exact ⟨hother.symm, hother⟩

theorem removeListener_valid (name : String) (h : Valid cfg state) :
    Valid cfg (removeListener name state) := by
  obtain ⟨hsound, hinventory⟩ := (valid_iff hrole).mp h
  obtain ⟨hwell, hapart⟩ := validateListeners_eq_ok.mp hsound.listeners
  have hsub : (withProxy cfg (removeListener name state)).listeners.Sublist (withProxy cfg state).listeners :=
    List.filter_sublist
  refine (valid_iff hrole).mpr ⟨⟨hsound.settings, hsound.endpoints, hsound.groups, hsound.names, ?_, ?_⟩, hinventory⟩
  · exact validateListeners_eq_ok.mpr ⟨fun item hitem => hwell item (hsub.subset hitem), hapart.sublist hsub⟩
  · exact validateCapacity_sublist hsub hsound.capacity rfl

theorem removeGroup_valid {name : String}
    (hunused : ∀ listener ∈ state.listeners, listener.targetGroup ≠ name) (h : Valid cfg state) :
    Valid cfg (removeGroup name state) := by
  obtain ⟨hsound, hinventory, hknown⟩ := (valid_iff hrole).mp h
  obtain ⟨hwell, hapart⟩ := validateListeners_eq_ok.mp hsound.listeners
  have hsub : (removeGroup name state).targetGroups.Sublist state.targetGroups := List.filter_sublist
  refine (valid_iff hrole).mpr ⟨⟨hsound.settings, hsound.endpoints, ?_, ?_, ?_, hsound.capacity⟩, hinventory, ?_⟩
  · exact fun group hgroup => hsound.groups group (hsub.subset hgroup)
  · exact hsound.names.sublist (hsub.map _)
  · refine validateListeners_eq_ok.mpr ⟨fun item hitem => ?_, hapart⟩
    have hitem' := hwell item hitem
    obtain ⟨group, hgroup, hname⟩ := List.mem_map.mp hitem'.group
    have hkept : group ∈ (removeGroup name state).targetGroups :=
      List.mem_filter.mpr ⟨hgroup, decide_eq_true (hname ▸ hunused item hitem)⟩
    exact { hitem' with group := hname ▸ List.mem_map_of_mem hkept }
  · exact fun group hgroup => hknown group (hsub.subset hgroup)

theorem change_valid {written : List Listener}
    (hwritten : ∀ listener ∈ written, listener.Clean ∧ listener.protocols.Nodup) (h : Valid cfg state)
    (hchange : Change cfg ha written state state') : Valid cfg state' := by
  cases hchange with
  | put hmem hputs =>
    obtain ⟨hclean, hprotocols⟩ := hwritten _ hmem
    exact puts_valid hrole hclean hprotocols hputs h
  | dropListener name => exact removeListener_valid hrole name h
  | setGroups groups valid => exact valid
  | dropGroup name unused => exact removeGroup_valid hrole unused h

end

/-! ## Runs of writes -/

/-- An accepted write has only clean listeners. -/
def WritesClean (J : Json B) (cfg : FileConfig) (ha : Option GatewayHaRuntimeConfig) (state : ProxyConfig)
    (op : ProxyConfigOperation B) : Prop :=
  (committed J cfg ha op state).isSome = true → ∀ listener ∈ listenersOf J op, listener.Clean

theorem commit_valid_iff (hrole : cfg.nodeRole = .gateway) (h : Valid cfg state) (op : ProxyConfigOperation B) :
    Valid cfg (commit J cfg ha state op) ↔ WritesClean J cfg ha state op := by
  unfold WritesClean
  cases hc : committed J cfg ha op state with
  | none =>
    rw [commit_of_rejected hc]
    exact ⟨fun _ hsome => (nomatch hsome), fun _ => h⟩
  | some next =>
    rw [commit_of_committed hc]
    have hcommits := commits_of_committed hc
    constructor
    · intro hvalid _ listener hl
      obtain ⟨hwell, -⟩ := validateListeners_eq_ok.mp ((valid_iff hrole).mp hvalid).1.listeners
      exact (hwell listener (hcommits.written listener hl)).toClean
    · intro hclean
      refine hcommits.changes.keep (fun _ _ hs hchange => change_valid hrole (fun listener hl => ?_) hs hchange) h
      exact ⟨hclean rfl listener hl, listenersOf_protocols_nodup hl⟩

end

/-- From a valid configuration every configuration committed is valid exactly when the
    listeners of the accepted writes have no zero timeout and no unspecified or repeated VIP. -/
theorem writes_stay_valid_iff {B : Type} (J : Json B) {cfg : FileConfig} (hrole : cfg.nodeRole = .gateway)
    (ha : Option GatewayHaRuntimeConfig) {state : ProxyConfig} (h : Valid cfg state) (ops : List (ProxyConfigOperation B)) :
    StepsMeet (commit J cfg ha) (fun state op => Valid cfg (commit J cfg ha state op)) state ops ↔
      StepsMeet (commit J cfg ha) (WritesClean J cfg ha) state ops :=
  stepsMeet_congr (commit J cfg ha) (I := Valid cfg) (fun _ _ _ hvalid => hvalid)
    (fun _ op hs => commit_valid_iff hrole hs op) h ops

/-! ## A listener with a zero timeout -/

def webGroup : TargetGroup := { name := "web", targets := [{ address := .v4 0xc6336401 }] }

def zeroTimeout : ListenerConfigResource :=
  { vipIps := [], port := 80, targetPort := 8080, protocols := [.tcp], targetGroup := "web", select := .rr
    inactiveTimeout := some 0 }

def halfMinute : ListenerConfigResource :=
  { zeroTimeout with inactiveTimeout := some 30, vipIps := [.v4 0xc0000264, .v4 0xc0000265] }

theorem clean_listener_stays_valid :
    soloGateway.nodeRole = .gateway ∧ Valid soloGateway {} ∧
      StepsMeet (commit valueJson soloGateway none)
        (fun state op => Valid soloGateway (commit valueJson soloGateway none state op)) {}
        [.targetGroupCreate (.targetGroup webGroup), .listenerCreate (.listener halfMinute)] := by
  have hvalid : Valid soloGateway {} := by decide
  refine ⟨rfl, hvalid, (writes_stay_valid_iff valueJson rfl none hvalid _).mpr ⟨?_, ?_, trivial⟩⟩
  · intro _ listener hl
    cases hl
  · intro _ listener hl
    obtain rfl : listener = halfMinute.toListener := List.mem_singleton.mp hl
    exact ⟨by decide, by decide, by decide⟩

/-- The listener is accepted, the configuration is no longer valid, and another target group,
    accepted before, is refused. -/
theorem zero_timeout_blocks_target_groups :
    let ops := [.targetGroupCreate (.targetGroup webGroup), .listenerCreate (.listener zeroTimeout)]
    let other := .targetGroupCreate (.targetGroup { webGroup with name := "api" })
    Valid soloGateway {} ∧
    StepsMeet (commit valueJson soloGateway none)
      (fun state op => (committed valueJson soloGateway none op state).isSome = true) {} ops ∧
    ¬ Valid soloGateway (run (commit valueJson soloGateway none) {} ops) ∧
    (committed valueJson soloGateway none other {}).isSome = true ∧
    committed valueJson soloGateway none other (run (commit valueJson soloGateway none) {} ops) = none := by
  decide

end EdgeLb.Api
