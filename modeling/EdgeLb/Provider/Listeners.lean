/-
  EdgeLb.Provider.Listeners — which native listeners an accepted configuration becomes
  (`listeners_from_config` of `edge-lb/src/provider/native/model.rs`).

  A listener is expanded over its effective VIPs and its protocols. `validate` lets no two
  listeners of a gateway have a port and a protocol in common, whatever their VIPs are, so that
  the expansions cannot meet. It does not look at address families, and it looks at listeners
  on a gateway only. The datapath takes IPv4 alone: an address of the other family ends the
  expansion of the whole configuration. A listener whose target group is empty is left out.

  Proved: a gateway's accepted configuration is expanded exactly when everything that would
  reach the datapath is IPv4, no two native listeners then have one key, and each protocol of a
  listener with targets has one native listener on each of its effective VIPs
  (`listeners_expanded_once`).
-/

import EdgeLb.Config.Accepts
import EdgeLb.Provider.Native
import Mathlib.Data.List.Flatten

namespace EdgeLb.Provider

open EdgeLb.Lib EdgeLb.Config

section

variable (cfg : FileConfig) (ha : Option GatewayHaRuntimeConfig)

/-! ## One listener -/

/-- The body of the loop of `listeners_from_config`. -/
def expandListener (listener : Listener) : Except String (List NativeListener) :=
  match cfg.targetGroups.find? fun group => group.name = listener.targetGroup with
  | none => .error s!"listener {listener.name} references missing target group {listener.targetGroup}"
  | some group => listenerFromTargetGroup cfg ha listener group

/-- What the datapath could not take of a listener, and of the group it names. -/
structure Ipv4Only (listener : Listener) (group : TargetGroup) : Prop where
  targets : ∀ target ∈ group.targets, ∃ v, ipv4Addr (cfg.resolveBackendTargetAddress target) = .ok v
  gateway : group.targets ≠ [] → ∃ v, ipv4Addr cfg.network.gatewayIp = .ok v
  vips : group.targets ≠ [] → ∀ vip ∈ listener.vipIps, ∃ v, ipv4Addr vip = .ok v

/-- The addresses a listener answers on: the gateway's, its own, and the shared one. -/
def EffectiveVip (listener : Listener) (v : UInt32) : Prop :=
  ipv4Addr cfg.network.gatewayIp = .ok v ∨ (∃ vip ∈ listener.vipIps, ipv4Addr vip = .ok v) ∨ sharedVip ha = some v

end

variable {cfg : FileConfig} {ha : Option GatewayHaRuntimeConfig} {listener : Listener} {group : TargetGroup}

theorem exists_effectiveVipIps {configured : List IpAddr} (hgateway : ∃ v, ipv4Addr cfg.network.gatewayIp = .ok v)
    (hvips : ∀ vip ∈ configured, ∃ v, ipv4Addr vip = .ok v) : ∃ vips, effectiveVipIps cfg ha configured = .ok vips := by
  obtain ⟨gateway, hgateway⟩ := hgateway
  have hmerge (start : List UInt32) : ∃ values,
      configured.foldlM (fun values vip => do return pushNew values (← ipv4Addr vip)) start = .ok values := by
    induction configured generalizing start with
    | nil => exact ⟨start, rfl⟩
    | cons vip rest ih =>
      obtain ⟨v, hv⟩ := hvips vip List.mem_cons_self
      obtain ⟨values, hvalues⟩ := ih (fun ip hip => hvips ip (List.mem_cons_of_mem vip hip)) (pushNew start v)
      refine ⟨values, ?_⟩
      rw [List.foldlM_cons, hv]
      exact hvalues
  obtain ⟨values, hvalues⟩ := hmerge [gateway]
  exact ⟨_, bind_eq_ok.mpr ⟨gateway, mapError_eq_ok.mpr hgateway, bind_eq_ok.mpr ⟨values, hvalues, rfl⟩⟩⟩

/-- What one listener becomes. -/
structure Expands (cfg : FileConfig) (ha : Option GatewayHaRuntimeConfig) (listener : Listener) (group : TargetGroup)
    (out : List NativeListener) : Prop where
  name : ∀ n ∈ out, n.name = listener.name
  nodup : listener.protocols.Nodup → (out.map (·.key)).Nodup
  keys : ∀ key, key ∈ out.map (·.key) ↔ group.targets ≠ [] ∧ EffectiveVip cfg ha listener key.vipIp ∧
    key.vipPort = listener.port ∧ ∃ p ∈ listener.protocols, key.protocol = .ofProtocol p

theorem ofProtocol_injective : Function.Injective NativeProtocol.ofProtocol := by
  intro p q h
  cases p <;> cases q <;> first | rfl | cases h

section sockets

variable {vips : List UInt32} {protocols : List Protocol} {port : UInt16} {native : UInt32 → Protocol → NativeListener}
  (hkey : ∀ v p, (native v p).key = ⟨v, port, .ofProtocol p⟩)
include hkey

theorem sockets_nodup (hvips : vips.Nodup) (hprotocols : protocols.Nodup) :
    ((vips.flatMap fun v => protocols.map (native v)).map (·.key)).Nodup := by
  rw [List.map_flatMap, List.nodup_flatMap]
  refine ⟨fun v _ => ?_, hvips.imp fun {v w} hne => ?_⟩
  · rw [List.map_map]
    refine hprotocols.map fun p q hpq => ?_
    simp only [Function.comp_apply, hkey] at hpq
    exact ofProtocol_injective (congrArg NativeListenerKey.protocol hpq)
  · intro key hv hw
    simp only [List.map_map, List.mem_map, Function.comp_apply, hkey] at hv hw
    obtain ⟨p, -, rfl⟩ := hv
    obtain ⟨q, -, hkey⟩ := hw
    exact hne (congrArg NativeListenerKey.vipIp hkey).symm

theorem mem_sockets {key : NativeListenerKey} :
    key ∈ (vips.flatMap fun v => protocols.map (native v)).map (·.key) ↔
      key.vipIp ∈ vips ∧ key.vipPort = port ∧ ∃ p ∈ protocols, key.protocol = .ofProtocol p := by
  simp only [List.map_flatMap, List.mem_flatMap, List.map_map, List.mem_map, Function.comp_apply, hkey]
  constructor
  · rintro ⟨v, hv, p, hp, rfl⟩
    exact ⟨hv, rfl, p, hp, rfl⟩
  · rintro ⟨hv, hport, p, hp, hprotocol⟩
    refine ⟨key.vipIp, hv, p, hp, ?_⟩
    rw [← hport, ← hprotocol]

end sockets

theorem listenerFromTargetGroup_expands {out : List NativeListener}
    (h : listenerFromTargetGroup cfg ha listener group = .ok out) :
    Ipv4Only cfg listener group ∧ Expands cfg ha listener group out := by
  obtain ⟨targets, htargets, h⟩ := bind_eq_ok.mp h
  have hresolved : ∀ target ∈ group.targets, ∃ v, ipv4Addr (cfg.resolveBackendTargetAddress target) = .ok v := by
    intro target ht
    obtain ⟨_, -, hstep⟩ := mapM_ok_of_mem htargets ht
    obtain ⟨v, hv, -⟩ := bind_eq_ok.mp hstep
    exact ⟨v, hv⟩
  have hempty : targets = [] ↔ group.targets = [] := mapM_ok_nil_iff htargets
  by_cases hnil : targets = []
  · rw [if_pos (by simp [hnil])] at h
    obtain rfl := Except.ok.inj h
    have hgroup := hempty.mp hnil
    refine ⟨⟨hresolved, fun hne => absurd hgroup hne, fun hne => absurd hgroup hne⟩, ⟨by simp, fun _ => List.nodup_nil, ?_⟩⟩
    intro key
    simp [hgroup]
  · rw [if_neg (by simp [hnil])] at h
    obtain ⟨vips, hvips, h⟩ := bind_eq_ok.mp h
    obtain rfl := Except.ok.inj h
    have hgroup : group.targets ≠ [] := fun hg => hnil (hempty.mpr hg)
    obtain ⟨hnodup, hmem, hgateway, hall⟩ := effectiveVipIps_spec hvips
    refine ⟨⟨hresolved, fun _ => hgateway, fun _ => hall⟩, ⟨?_, ?_, ?_⟩⟩
    · intro n hn
      obtain ⟨v, -, hn⟩ := List.mem_flatMap.mp hn
      obtain ⟨p, -, rfl⟩ := List.mem_map.mp hn
      rfl
    · exact sockets_nodup (fun _ _ => rfl) hnodup
    · intro key
      rw [mem_sockets fun _ _ => rfl, hmem]
      exact (and_iff_right hgroup).symm

/-- IPv4 throughout is all it takes. -/
theorem exists_listenerFromTargetGroup (h : Ipv4Only cfg listener group) :
    ∃ out, listenerFromTargetGroup cfg ha listener group = .ok out := by
  have hmap : ∃ targets, group.targets.mapM (fun target => do
      let address ← ipv4Addr (cfg.resolveBackendTargetAddress target)
      return ({ address, port := listener.targetPort, weight := target.weight } : NativeTarget)) = .ok targets := by
    apply exists_mapM_eq_ok
    intro target ht
    obtain ⟨v, hv⟩ := h.targets target ht
    exact ⟨_, bind_eq_ok.mpr ⟨v, hv, rfl⟩⟩
  obtain ⟨targets, htargets⟩ := hmap
  by_cases hnil : group.targets = []
  · rw [hnil] at htargets
    obtain rfl := Except.ok.inj htargets
    refine ⟨[], bind_eq_ok.mpr ⟨[], ?_, rfl⟩⟩
    rw [hnil]
    rfl
  · obtain ⟨vips, hvips⟩ : ∃ vips, effectiveVipIps cfg ha listener.vipIps = .ok vips :=
      exists_effectiveVipIps (h.gateway hnil) (h.vips hnil)
    have hne : targets ≠ [] := fun hempty => hnil ((mapM_ok_nil_iff htargets).mp hempty)
    refine exists_bind_eq_ok ⟨targets, htargets, ?_⟩
    rw [if_neg (by simp [hne])]
    exact exists_bind_eq_ok ⟨vips, hvips, _, rfl⟩

/-! ## The whole configuration -/

/-- The group a listener of an accepted configuration names. -/
theorem exists_group (h : listener.targetGroup ∈ cfg.targetGroups.map (·.name)) :
    ∃ group, cfg.targetGroups.find? (fun group => group.name = listener.targetGroup) = some group := by
  obtain ⟨group, hgroup, hname⟩ := List.mem_map.mp h
  rw [← Option.isSome_iff_exists, List.find?_isSome]
  exact ⟨group, hgroup, by simp [hname]⟩

theorem expandListener_of_group
    (hgroup : cfg.targetGroups.find? (fun group => group.name = listener.targetGroup) = some group) :
    expandListener cfg ha listener = listenerFromTargetGroup cfg ha listener group := by
  rw [expandListener, hgroup]

theorem listenersFromConfig_eq_ok {out : List NativeListener} (h : listenersFromConfig cfg ha = .ok out) :
    (∀ listener ∈ cfg.listeners, ∃ part, expandListener cfg ha listener = .ok part) ∧
      out = cfg.listeners.flatMap fun listener => (expandListener cfg ha listener).toOption.getD [] := by
  obtain ⟨parts, hparts, h⟩ := bind_eq_ok.mp h
  obtain rfl := Except.ok.inj h
  refine ⟨fun listener hl => ?_, ?_⟩
  · obtain ⟨part, -, hpart⟩ := mapM_ok_of_mem hparts hl
    exact ⟨part, hpart⟩
  · rw [← flatMap_of_mapM_eq_ok hparts]
    rfl

/-- An element whose key no other has is the only one of its key, whatever else is asked. -/
theorem countP_eq_one {α κ : Type} {key : α → κ} {xs : List α} (hnodup : (xs.map key).Nodup) {x : α} (hx : x ∈ xs)
    {p : α → Bool} (hp : p x = true) (hkey : ∀ y ∈ xs, p y = true → key y = key x) : xs.countP p = 1 := by
  induction xs with
  | nil => cases hx
  | cons y ys ih =>
    obtain ⟨hy, hys⟩ := List.nodup_cons.mp hnodup
    have hrest (heq : key y = key x) : ys.countP p = 0 := by
      rw [List.countP_eq_zero]
      intro z hz hpz
      exact hy (List.mem_map.mpr ⟨z, hz, (hkey z (List.mem_cons_of_mem y hz) hpz).trans heq.symm⟩)
    rcases List.mem_cons.mp hx with rfl | hmem
    · rw [List.countP_cons_of_pos hp, hrest rfl]
    · have hnot : p y ≠ true := by
        intro hpy
        exact hy (List.mem_map.mpr ⟨x, hmem, (hkey y List.mem_cons_self hpy).symm⟩)
      rw [List.countP_cons_of_neg hnot]
      exact ih hys hmem fun z hz => hkey z (List.mem_cons_of_mem y hz)

theorem eq_of_name {listeners : List Listener} (hapart : listeners.Pairwise Listener.Apart) {a b : Listener} (ha : a ∈ listeners)
    (hb : b ∈ listeners) (hname : a.name = b.name) : a = b := by
  have hnames : (listeners.map (·.name)).Nodup := List.pairwise_map.mpr (hapart.imp And.left)
  exact List.inj_on_of_nodup_map hnames ha hb hname

section accepted

variable (hrole : cfg.nodeRole = .gateway) (hvalid : cfg.validate = .ok ())
include hrole hvalid

theorem accepted_listeners :
    (∀ listener ∈ cfg.listeners, listener.WellFormed cfg.targetGroups) ∧ cfg.listeners.Pairwise Listener.Apart :=
  validateListeners_eq_ok.mp ((validate_eq_ok hrole).mp hvalid).1.listeners

section

variable {out : List NativeListener} (hout : listenersFromConfig cfg ha = .ok out)
include hout

/-- A native listener is of the part of the configured one it is named after. -/
theorem expansion_cases (hl : listener ∈ cfg.listeners) :
    ∃ group part, cfg.targetGroups.find? (fun group => group.name = listener.targetGroup) = some group ∧
      Ipv4Only cfg listener group ∧ Expands cfg ha listener group part ∧
      (expandListener cfg ha listener).toOption.getD [] = part := by
  obtain ⟨group, hgroup⟩ := exists_group ((accepted_listeners hrole hvalid).1 listener hl).group
  obtain ⟨part, hpart⟩ := (listenersFromConfig_eq_ok hout).1 listener hl
  have hexpands := listenerFromTargetGroup_expands ((expandListener_of_group hgroup).symm.trans hpart)
  exact ⟨group, part, hgroup, hexpands.1, hexpands.2, by rw [hpart]; rfl⟩

theorem native_keys_nodup :
    (out.map (·.key)).Nodup := by
  obtain ⟨hwell, hapart⟩ := accepted_listeners hrole hvalid
  rw [(listenersFromConfig_eq_ok hout).2, List.map_flatMap, List.nodup_flatMap]
  refine ⟨fun listener hl => ?_, hapart.imp_of_mem fun {a b} ha' hb hab => ?_⟩
  · obtain ⟨group, part, -, -, hexpands, heq⟩ := expansion_cases hrole hvalid hout hl
    rw [heq]
    exact hexpands.nodup (hwell listener hl).protocols
  · -- a key both had would be a port and a protocol both have
    intro key hkeyA hkeyB
    obtain ⟨_, partA, -, -, hexpandsA, heqA⟩ := expansion_cases hrole hvalid hout ha'
    obtain ⟨_, partB, -, -, hexpandsB, heqB⟩ := expansion_cases hrole hvalid hout hb
    replace hkeyA : key ∈ partA.map (·.key) := heqA ▸ hkeyA
    replace hkeyB : key ∈ partB.map (·.key) := heqB ▸ hkeyB
    obtain ⟨-, -, hportA, p, hp, hprotoA⟩ := (hexpandsA.keys key).mp hkeyA
    obtain ⟨-, -, hportB, q, hq, hprotoB⟩ := (hexpandsB.keys key).mp hkeyB
    obtain rfl : p = q := ofProtocol_injective (hprotoA.symm.trans hprotoB)
    refine hab.2 (b.port, p) (List.mem_map_of_mem hq) ?_
    rw [← hportB, hportA]
    exact List.mem_map_of_mem hp

end

end accepted

/-- A gateway's accepted configuration is expanded exactly when what would reach the datapath is
    IPv4. No two native listeners then have one key, and every protocol of a listener has one on
    each effective VIP, or none at all when the listener's group has no target. -/
theorem listeners_expanded_once (cfg : FileConfig) (ha : Option GatewayHaRuntimeConfig) (hrole : cfg.nodeRole = .gateway)
    (hvalid : cfg.validate = .ok ()) :
    ((∃ out, listenersFromConfig cfg ha = .ok out) ↔ ∀ listener ∈ cfg.listeners, ∃ group,
      cfg.targetGroups.find? (fun group => group.name = listener.targetGroup) = some group ∧ Ipv4Only cfg listener group) ∧
    ∀ out, listenersFromConfig cfg ha = .ok out → (out.map (·.key)).Nodup ∧
      ∀ listener ∈ cfg.listeners, ∃ group,
        cfg.targetGroups.find? (fun group => group.name = listener.targetGroup) = some group ∧
        ∀ p ∈ listener.protocols, ∀ v, EffectiveVip cfg ha listener v →
          out.countP (fun n => n.name = listener.name ∧ n.key = ⟨v, listener.port, .ofProtocol p⟩) =
            if group.targets = [] then 0 else 1 := by
  refine ⟨⟨?_, ?_⟩, ?_⟩
  · intro ⟨out, hout⟩ listener hl
    obtain ⟨group, -, hgroup, hipv4, -⟩ := expansion_cases hrole hvalid hout hl
    exact ⟨group, hgroup, hipv4⟩
  · intro hall
    have hparts : ∃ parts, cfg.listeners.mapM (expandListener cfg ha) = .ok parts := by
      apply exists_mapM_eq_ok
      intro listener hl
      obtain ⟨group, hgroup, hipv4⟩ := hall listener hl
      obtain ⟨part, hpart⟩ : ∃ part, listenerFromTargetGroup cfg ha listener group = .ok part :=
        exists_listenerFromTargetGroup hipv4
      exact ⟨part, (expandListener_of_group hgroup).trans hpart⟩
    obtain ⟨parts, hparts⟩ := hparts
    exact ⟨parts.flatten, bind_eq_ok.mpr ⟨parts, hparts, rfl⟩⟩
  · intro out hout
    have hnodup := native_keys_nodup hrole hvalid hout
    have heq := (listenersFromConfig_eq_ok hout).2
    refine ⟨hnodup, fun listener hl => ?_⟩
    obtain ⟨group, part, hgroup, -, hexpands, hpart⟩ := expansion_cases hrole hvalid hout hl
    refine ⟨group, hgroup, fun p hp v hv => ?_⟩
    by_cases hempty : group.targets = []
    · rw [if_pos hempty, List.countP_eq_zero]
      intro n hn hcounted
      obtain ⟨hname, -⟩ := of_decide_eq_true hcounted
      rw [heq] at hn
      obtain ⟨other, ho, hn⟩ := List.mem_flatMap.mp hn
      obtain ⟨group', part', hgroup', -, hexpands', hpart'⟩ := expansion_cases hrole hvalid hout ho
      rw [hpart'] at hn
      obtain rfl : other = listener := by
        refine eq_of_name (accepted_listeners hrole hvalid).2 ho hl ?_
        rw [← hexpands'.name n hn, hname]
      obtain rfl : group' = group := Option.some.inj (hgroup'.symm.trans hgroup)
      exact ((hexpands'.keys n.key).mp (List.mem_map_of_mem hn)).1 hempty
    · rw [if_neg hempty]
      have hkey : (⟨v, listener.port, .ofProtocol p⟩ : NativeListenerKey) ∈ part.map (·.key) :=
        (hexpands.keys _).mpr ⟨hempty, hv, rfl, p, hp, rfl⟩
      obtain ⟨n, hn, hkey⟩ := List.mem_map.mp hkey
      have hmem : n ∈ out := by
        rw [heq]
        exact List.mem_flatMap.mpr ⟨listener, hl, by rw [hpart]; exact hn⟩
      refine countP_eq_one hnodup hmem (decide_eq_true ⟨hexpands.name n hn, hkey⟩) ?_
      intro y _ hy
      exact (of_decide_eq_true hy).2.trans hkey.symm

def gatewayWith (targetGroups : List TargetGroup) (listeners : List Listener) : FileConfig :=
  { nodeRole := .gateway, nodeName := "gateway-a", publicIp := .v4 0xc000020b, underlayIp := .v4 0xc000020b
    network := { gatewayPublicIp := .v4 0xc000020b, gatewayIp := .v4 0xc000020b, vxlanDev := "edge-hub" }
    gatewayNodes := [⟨"gateway-a", .v4 0xc000020b, .v4 0xc000020b, "10.255.255.1/24"⟩]
    targetGroups, listeners }

def webTargets (targets : List BackendTarget) : TargetGroup := { name := "web", targets }

/-- The gateway's own address is among the VIPs of the listener. -/
def webListener : Listener :=
  { name := "web", port := 80, targetPort := 8080, targetGroup := "web", protocols := [.tcp, .udp]
    vipIps := [.v4 0xc0000232, .v4 0xc000020b] }

def sharedHa : GatewayHaRuntimeConfig :=
  { enabled := true, vip := { provider := .l2, privateVip := some "192.0.2.60" } }

/-- Three VIPs and two protocols. -/
theorem three_vips_expanded :
    let cfg := gatewayWith [webTargets [{ address := .v4 0x0a000001 }]] [webListener]
    cfg.nodeRole = .gateway ∧ cfg.validate = .ok () ∧
      (listenersFromConfig cfg (some sharedHa)).toOption.map List.length = some 6 ∧
      ∀ out, listenersFromConfig cfg (some sharedHa) = .ok out → (out.map (·.key)).Nodup :=
  ⟨rfl, by decide, by decide, fun out hout =>
    ((listeners_expanded_once _ (some sharedHa) rfl (by decide)).2 out hout).1⟩

def noTargets : FileConfig := gatewayWith [webTargets []] [webListener]

def ipv6Target : FileConfig :=
  gatewayWith [webTargets [{ address := .v6 #v[0x2001, 0xdb8, 0, 0, 0, 0, 0, 1] }]] [webListener]

def backendTwice : FileConfig :=
  { gatewayWith [webTargets [{ address := .v4 0x0a000001 }]] [webListener, webListener] with nodeRole := .backend }

/-- No target and no native listener; an IPv6 target and no expansion at all; and on a backend,
    whose listeners are not checked, two listeners of one key. -/
theorem not_every_listener_expanded :
    (noTargets.validate = .ok () ∧ listenersFromConfig noTargets none = .ok []) ∧
    (ipv6Target.validate = .ok () ∧ (listenersFromConfig ipv6Target none).toOption = none) ∧
    backendTwice.validate = .ok () ∧
      (listenersFromConfig backendTwice none).toOption.map (fun out => decide (out.map (·.key)).Nodup) = some false := by
  refine ⟨⟨?_, ?_⟩, ⟨?_, ?_⟩, ?_, ?_⟩ <;> decide

end EdgeLb.Provider
