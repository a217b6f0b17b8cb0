/-
  EdgeLb.Provider.Native — from the configuration to the listeners of the native
  datapath (`edge-lb/src/provider/native/model.rs`).

  Each configured listener becomes one native listener per effective VIP and protocol:
  the gateway's own address, the listener's explicit VIPs, and the shared L2 VIP of the
  HA configuration, each once, in that order. Only IPv4 reaches the datapath. A listener
  whose group has no target is left out of the datapath, not an error.

  `ha` is the stored HA configuration. A store that cannot be read counts as no shared
  VIP, as in the source.
-/

import EdgeLb.Config.Model
import EdgeLb.Config.Ha
import EdgeLb.Lib.Check

namespace EdgeLb.Provider

open EdgeLb.Common EdgeLb.Lib EdgeLb.Config

inductive NativeProtocol
  | tcp | udp
  deriving DecidableEq, Repr

def NativeProtocol.ipProto : NativeProtocol → UInt8
  | .tcp => 6
  | .udp => 17

def NativeProtocol.ofProtocol : Protocol → NativeProtocol
  | .tcp => .tcp
  | .udp => .udp

structure NativeListenerKey where
  vipIp : UInt32
  vipPort : UInt16
  protocol : NativeProtocol
  deriving DecidableEq, Repr

/-- A target is always built `Active`; the state is the observation's, not the config's. -/
structure NativeTarget where
  address : UInt32
  port : UInt16
  weight : UInt32
  deriving DecidableEq, Repr

structure NativeListener where
  name : String
  targetGroup : String
  key : NativeListenerKey
  select : UInt32
  inactiveTimeoutSecs : UInt32
  dscp : UInt32
  targets : List NativeTarget
  deriving DecidableEq, Repr

def ipv4Addr : IpAddr → Except String UInt32
  | .v4 bits => if bits == 0 then .error "IP address must not be 0.0.0.0" else .ok bits
  | .v6 groups => .error s!"native datapath does not support IPv6 yet: {showIpv6 groups}"

/-- The shared VIP, when HA is on with an L2 VIP that parses as a usable IPv4 address. -/
def sharedVip (ha : Option GatewayHaRuntimeConfig) : Option UInt32 :=
  match ha with
  | none => none
  | some ha =>
    if ha.enabled ∧ ha.vip.provider = .l2 then
      (ha.vip.privateVip.bind parseIp).bind fun vip => (ipv4Addr vip).toOption
    else none

def pushNew (values : List UInt32) (vip : UInt32) : List UInt32 :=
  if vip ∈ values then values else values ++ [vip]

def mergeVipIps (gateway : UInt32) (configured : List IpAddr) (shared : Option UInt32) :
    Except String (List UInt32) := do
  let values ← configured.foldlM (fun values vip => do return pushNew values (← ipv4Addr vip)) [gateway]
  return match shared with
    | none => values
    | some vip => pushNew values vip

def effectiveVipIps (cfg : FileConfig) (ha : Option GatewayHaRuntimeConfig) (configured : List IpAddr) :
    Except String (List UInt32) := do
  let gateway ← (ipv4Addr cfg.network.gatewayIp).mapError fun _ => "native datapath needs an IPv4 gateway address"
  mergeVipIps gateway configured (sharedVip ha)

theorem mem_pushNew {values : List UInt32} {vip v : UInt32} : v ∈ pushNew values vip ↔ v ∈ values ∨ v = vip := by
  unfold pushNew
  split
  · next hmem => exact ⟨.inl, fun h => h.elim id fun h => h ▸ hmem⟩
  · simp

theorem nodup_pushNew {values : List UInt32} (h : values.Nodup) (vip : UInt32) : (pushNew values vip).Nodup := by
  unfold pushNew
  split
  next => exact h
  next hnew =>
    rw [List.nodup_append]
    refine ⟨h, List.nodup_singleton vip, ?_⟩
    intro v hv w hw heq
    rw [List.mem_singleton] at hw
    exact hnew (hw ▸ heq ▸ hv)

variable {configured : List IpAddr}

/-- The merge keeps what is there and adds every address it is given, once. -/
theorem mergeVips_spec {start values : List UInt32}
    (h : configured.foldlM (fun values vip => do return pushNew values (← ipv4Addr vip)) start = .ok values) :
    (start.Nodup → values.Nodup) ∧ (∀ v, v ∈ values ↔ v ∈ start ∨ ∃ vip ∈ configured, ipv4Addr vip = .ok v) ∧
      ∀ vip ∈ configured, ∃ v, ipv4Addr vip = .ok v := by
  induction configured generalizing start with
  | nil =>
    obtain rfl := Except.ok.inj h
    exact ⟨id, by simp, by simp⟩
  | cons vip rest ih =>
    rw [List.foldlM_cons] at h
    obtain ⟨next, hnext, hrest⟩ := bind_eq_ok.mp h
    obtain ⟨v, hv, hpush⟩ := bind_eq_ok.mp hnext
    obtain rfl := Except.ok.inj hpush
    obtain ⟨hnodup, hmem, hall⟩ := ih hrest
    refine ⟨fun hstart => hnodup (nodup_pushNew hstart v), fun w => ?_, List.forall_mem_cons.mpr ⟨⟨v, hv⟩, hall⟩⟩
    rw [hmem, mem_pushNew, or_assoc]
    refine or_congr_right ⟨?_, ?_⟩
    · intro h
      rcases h with rfl | ⟨ip, hip, hw⟩
      · exact ⟨vip, List.mem_cons_self, hv⟩
      · exact ⟨ip, List.mem_cons_of_mem vip hip, hw⟩
    · intro ⟨ip, hip, hw⟩
      rcases List.mem_cons.mp hip with rfl | hip
      · exact .inl (Except.ok.inj (hw.symm.trans hv))
      · exact .inr ⟨ip, hip, hw⟩

section

variable {cfg : FileConfig} {ha : Option GatewayHaRuntimeConfig} {vips : List UInt32}
  (h : effectiveVipIps cfg ha configured = .ok vips)
include h

/-- Every listener answers on the gateway's own address, on each address it lists and on the
    shared one, once on each and on no other. -/
theorem effectiveVipIps_spec :
    vips.Nodup ∧ (∀ v, v ∈ vips ↔ ipv4Addr cfg.network.gatewayIp = .ok v ∨ (∃ vip ∈ configured, ipv4Addr vip = .ok v) ∨
      sharedVip ha = some v) ∧ (∃ v, ipv4Addr cfg.network.gatewayIp = .ok v) ∧ ∀ vip ∈ configured, ∃ v, ipv4Addr vip = .ok v := by
  obtain ⟨gateway, hgateway, h⟩ := bind_eq_ok.mp h
  obtain ⟨values, hvalues, h⟩ := bind_eq_ok.mp h
  have hgateway := mapError_eq_ok.mp hgateway
  obtain ⟨hnodup, hmem, hall⟩ := mergeVips_spec hvalues
  have hnodup := hnodup (List.nodup_singleton gateway)
  have hmem : ∀ v, v ∈ values ↔ ipv4Addr cfg.network.gatewayIp = .ok v ∨ ∃ vip ∈ configured, ipv4Addr vip = .ok v := by
    intro v
    rw [hmem, hgateway, List.mem_singleton, Except.ok.injEq, eq_comm]
  obtain rfl := Except.ok.inj h
  cases hshared : sharedVip ha with
  | none =>
    refine ⟨hnodup, fun v => ?_, ⟨gateway, hgateway⟩, hall⟩
    rw [hmem]
    simp
  | some shared =>
    refine ⟨nodup_pushNew hnodup shared, fun v => ?_, ⟨gateway, hgateway⟩, hall⟩
    rw [mem_pushNew, hmem, or_assoc, Option.some.injEq, eq_comm (a := shared)]

theorem effectiveVipIps_mem :
    (∃ v ∈ vips, ipv4Addr cfg.network.gatewayIp = .ok v) ∧ ∀ vip ∈ configured, ∃ v ∈ vips, ipv4Addr vip = .ok v := by
  obtain ⟨-, hmem, ⟨gateway, hgateway⟩, hall⟩ := effectiveVipIps_spec h
  refine ⟨⟨gateway, (hmem gateway).mpr (.inl hgateway), hgateway⟩, fun vip hvip => ?_⟩
  obtain ⟨v, hv⟩ := hall vip hvip
  exact ⟨v, (hmem v).mpr (.inr (.inl ⟨vip, hvip, hv⟩)), hv⟩

end

theorem ipv4Addr_eq_ok {ip : IpAddr} {bits : UInt32} (h : ipv4Addr ip = .ok bits) : ip = .v4 bits := by
  cases ip with
  | v6 groups => cases h
  | v4 given =>
    simp only [ipv4Addr] at h
    split at h
    · cases h
    · rw [Except.ok.inj h]

def listenerFromTargetGroup (cfg : FileConfig) (ha : Option GatewayHaRuntimeConfig) (listener : Listener) (group : TargetGroup) :
    Except String (List NativeListener) := do
  let targets ← group.targets.mapM fun target => do
    let address ← ipv4Addr (cfg.resolveBackendTargetAddress target)
    return ({ address, port := listener.targetPort, weight := target.weight } : NativeTarget)
  if targets.isEmpty then return []
  let vips ← effectiveVipIps cfg ha listener.vipIps
  return vips.flatMap fun vipIp => listener.protocols.map fun protocol =>
    { name := listener.name
      targetGroup := group.name
      key := { vipIp, vipPort := listener.port, protocol := .ofProtocol protocol }
      select := listener.select.code
      inactiveTimeoutSecs := listener.inactiveTimeout.getD 240
      dscp := cfg.network.dscp
      targets }

def listenersFromConfig (cfg : FileConfig) (ha : Option GatewayHaRuntimeConfig) : Except String (List NativeListener) := do
  let out ← cfg.listeners.mapM fun listener =>
    match cfg.targetGroups.find? fun group => group.name = listener.targetGroup with
    | none => .error s!"listener {listener.name} references missing target group {listener.targetGroup}"
    | some group => listenerFromTargetGroup cfg ha listener group
  return out.flatten

end EdgeLb.Provider
