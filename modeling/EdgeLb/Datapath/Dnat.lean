/-
  EdgeLb.Datapath.Dnat — the two DNAT classifiers (`edge-lb-ebpf/src/main.rs`:
  `try_native_dnat_ingress`, `try_native_dnat_return`, `adjust_active_flows`,
  `emit_flow_event`) and the filter chain of the underlay device
  (`edge-lb/src/linux/native_dnat.rs`: `attach_prepared` attaches the ingress program
  at `pref + 10` and the return program at `pref + 11`; a PIPE falls through).

  A program maps the maps, a packet and the clock it reads to the maps it leaves, the
  packet it leaves and its verdict. Map helpers succeed and the flow map never evicts.
  The ingress program is cut where the source falls through from an expired entry to the
  listener lookup: `openFlow` is that second half, `pick` the part of it that decides.

  The step lemmas say what one program run does to the flow map. Everything about whole
  runs of packets is derived from them.
-/

import EdgeLb.Datapath.Packet
import EdgeLb.Lib.PairMap
import EdgeLb.Lib.Run

namespace EdgeLb.Datapath

open EdgeLb.Common EdgeLb.Lib

/-! ## Bookkeeping of a flow -/

def emitFlowEvent (m : Maps) (key : NativeFlowKey) (value : NativeFlowValue) (op : UInt8) : Maps :=
  { m with events := m.events ++ [{ key, value, op }] }

/-- `u32::saturating_add` and `u32::saturating_sub` by a signed amount. -/
def adjusted (current : UInt32) (delta : Int) : UInt32 :=
  UInt32.ofNat (min (current.toNat + delta).toNat (2 ^ 32 - 1))

def adjustActiveFlows (m : Maps) (listenerId targetId : UInt32) (delta : Int) : Maps :=
  let key : NativeTargetLoadKey := ⟨listenerId, targetId⟩
  let next := adjusted ((m.activeFlows.lookup key).getD 0) delta
  if next = 0 then { m with activeFlows := m.activeFlows.erase key }
  else { m with activeFlows := m.activeFlows.insert key next }

/-- Both entries of a flow seen again at `now`. -/
def refreshFlow (m : Maps) (key other : NativeFlowKey) (value : NativeFlowValue) (now : UInt64) : Maps :=
  { m with flows := (m.flows.insert key (value.refreshed now)).insert other (value.refreshed now) }

/-- Both entries of an expired flow removed, its load and its events accounted. -/
def dropFlow (m : Maps) (key other : NativeFlowKey) (value : NativeFlowValue) : Maps :=
  let m := { m with flows := (m.flows.erase key).erase other }
  let m := adjustActiveFlows m value.listenerId value.targetId (-1)
  emitFlowEvent (emitFlowEvent m key value 2) other value 2

/-- Both entries of a new flow written, its load and its events accounted. -/
def insertFlow (m : Maps) (key other : NativeFlowKey) (value : NativeFlowValue) : Maps :=
  let m := { m with flows := (m.flows.insert key value).insert other value }
  let m := adjustActiveFlows m value.listenerId value.targetId 1
  emitFlowEvent (emitFlowEvent m key value 1) other value 1

@[simp] theorem adjustActiveFlows_flows (m : Maps) (l t : UInt32) (d : Int) :
    (adjustActiveFlows m l t d).flows = m.flows := by
  unfold adjustActiveFlows; dsimp only; split <;> rfl

@[simp] theorem refreshFlow_flows (m : Maps) (k o : NativeFlowKey) (v : NativeFlowValue) (now : UInt64) :
    (refreshFlow m k o v now).flows = insertPair m.flows k o (v.refreshed now) := rfl

@[simp] theorem dropFlow_flows (m : Maps) (k o : NativeFlowKey) (v : NativeFlowValue) :
    (dropFlow m k o v).flows = erasePair m.flows k o := by
  unfold dropFlow emitFlowEvent; simp [erasePair]

@[simp] theorem insertFlow_flows (m : Maps) (k o : NativeFlowKey) (v : NativeFlowValue) :
    (insertFlow m k o v).flows = insertPair m.flows k o v := by
  unfold insertFlow emitFlowEvent; simp [insertPair]

section dropFlow

variable (m : Maps) (k o : NativeFlowKey) (v : NativeFlowValue)

@[simp] theorem dropFlow_listeners : (dropFlow m k o v).listeners = m.listeners := by
  unfold dropFlow emitFlowEvent adjustActiveFlows; dsimp only; split <;> rfl

@[simp] theorem dropFlow_targets : (dropFlow m k o v).targets = m.targets := by
  unfold dropFlow emitFlowEvent adjustActiveFlows; dsimp only; split <;> rfl

end dropFlow

/-- `k ↦ v` is keyed by the tuple the client sends: it carries the VIP the value names. -/
def IsForward (k : NativeFlowKey) (v : NativeFlowValue) : Prop := k.dst = v.vip ∧ k.dport = v.vipPort

instance (k : NativeFlowKey) (v : NativeFlowValue) : Decidable (IsForward k v) := inferInstanceAs (Decidable (_ ∧ _))

/-! ## The ingress program -/

/-- Where a new flow goes: its listener and the target chosen for it. -/
structure Opening where
  listener : NativeListenerLookupValue
  targetId : UInt32
  target : NativeTargetValue
  deriving DecidableEq

def listenerKey (p : Skb) : NativeListenerLookupKey := { vip := p.dst, port := toBe p.dport, proto := p.proto }

/-- The skb hash is read for the `hash` selector only. -/
def packetHash (p : Skb) (listener : NativeListenerLookupValue) : UInt32 :=
  if listener.select = NATIVE_SELECT_HASH then p.hash else 0

/-- The listener lookup, the selection and the target lookup of a packet that matched no
    live flow, and the cursors they leave. -/
def pick (m : Maps) (p : Skb) : Option Opening × (UInt32 → UInt32) :=
  match m.listeners.lookup (listenerKey p) with
  | none => (none, m.rrCounters)
  | some listener =>
    if listener.targetCount = 0 then (none, m.rrCounters)
    else
      let (targetId, cursors) := selectTarget m (flowKey p) listener (packetHash p listener)
      if MAX_TARGETS_PER_LISTENER ≤ targetId then (none, cursors)
      else match m.targets.lookup ⟨listener.listenerId, targetId⟩ with
        | none => (none, cursors)
        | some target =>
          if target.usable then (some { listener, targetId, target }, cursors)
          else (none, cursors)

/-- The value of the flow an opening starts for packet `p`. -/
def Opening.value (o : Opening) (p : Skb) (now : UInt64) : NativeFlowValue :=
  { listenerId := o.listener.listenerId
    targetId := o.targetId
    vip := p.dst
    target := o.target.address
    vipPort := toBe p.dport
    targetPort := o.target.port
    timeoutSecs := o.listener.timeoutSecs
    lastSeenNs := now }

/-- Rewrite, then redirect: a failed rewrite is a SHOT, never a fall through. -/
def rewriteForward (K : Kernel) (m : Maps) (p : Skb) (rewrite : Rewrite) (key : NativeTargetKey) (now : UInt64) :
    Skb × Verdict :=
  match rewrite.write K .destination p with
  | (p, false) => (p, .shot)
  | (p, true) => forward K m p key now

/-- The second half of `try_native_dnat_ingress`. -/
def openFlow (K : Kernel) (m : Maps) (p : Skb) (now : UInt64) : Maps × Skb × Verdict :=
  let (opening, cursors) := pick m p
  let m := { m with rrCounters := cursors }
  match opening with
  | none => (m, p, .pipe)
  | some o =>
    let reverseKey := makeFlowKey o.target.address p.src o.target.port p.sport p.proto
    let m := insertFlow m (flowKey p) reverseKey (o.value p now)
    let rewrite : Rewrite :=
      { oldAddress := p.dst, newAddress := o.target.address, oldPort := p.dport, newPort := o.target.port
        preserveZeroUdpChecksum := p.preserveZeroUdpChecksum }
    (m, rewriteForward K m p rewrite ⟨o.listener.listenerId, o.targetId⟩ now)

/-- `try_native_dnat_ingress`. -/
def nativeDnatIngress (K : Kernel) (m : Maps) (p : Skb) (now : UInt64) : Maps × Skb × Verdict :=
  if !p.parses then (m, p, .pipe)
  else match m.flows.lookup (flowKey p) with
    | none => openFlow K m p now
    | some existing =>
      let reverseKey := (flowKey p).reverseFor existing
      if !existing.expired now then
        let m := refreshFlow m (flowKey p) reverseKey existing now
        -- the old address is taken to be the flow's VIP, whatever the packet carries
        let rewrite : Rewrite :=
          { oldAddress := existing.vip, newAddress := existing.target, oldPort := p.dport
            newPort := existing.targetPort, preserveZeroUdpChecksum := p.preserveZeroUdpChecksum }
        (m, rewriteForward K m p rewrite ⟨existing.listenerId, existing.targetId⟩ now)
      else openFlow K (dropFlow m (flowKey p) reverseKey existing) p now

/-! ## The return program -/

/-- `try_native_dnat_return`. -/
def nativeDnatReturn (K : Kernel) (m : Maps) (p : Skb) (now : UInt64) : Maps × Skb × Verdict :=
  if !p.parses then (m, p, .pipe)
  else match m.flows.lookup (flowKey p) with
    | none => (m, p, .pipe)
    | some flow =>
      let forwardKey := (flowKey p).forwardFor flow
      if flow.expired now then (dropFlow m (flowKey p) forwardKey flow, p, .pipe)
      else
        let m := refreshFlow m (flowKey p) forwardKey flow now
        let rewrite : Rewrite :=
          { oldAddress := flow.target, newAddress := flow.vip, oldPort := p.sport
            newPort := toBe flow.vipPort, preserveZeroUdpChecksum := p.preserveZeroUdpChecksum }
        match rewrite.write K .source p with
        | (p, false) => (m, p, .shot)
        | (p, true) => (m, returnForward K m p now)

/-- The underlay device: the return program runs on what the ingress program piped. Each
    program reads the clock for itself. -/
def underlayChain (K : Kernel) (m : Maps) (p : Skb) (now₁ now₂ : UInt64) : Maps × Skb × Verdict :=
  match nativeDnatIngress K m p now₁ with
  | (m, p, .pipe) => nativeDnatReturn K m p now₂
  | done => done

/-! ## Runs of packets -/

/-- One program run on one packet, at the clock it reads. -/
inductive Ev
  | ingress (p : Skb) (now : UInt64)
  | ret (p : Skb) (now : UInt64)

def stepEv (K : Kernel) (m : Maps) : Ev → Maps
  | .ingress p now => (nativeDnatIngress K m p now).1
  | .ret p now => (nativeDnatReturn K m p now).1

/-! ## Step lemmas -/

theorem flowKey_applied_destination (K : Kernel) (r : Rewrite) (p : Skb) :
    flowKey (r.applied K .destination p) = { flowKey p with dst := r.newAddress, dport := toBe r.newPort } := by
  simp [flowKey, makeFlowKey]

theorem flowKey_applied_source (K : Kernel) (r : Rewrite) (p : Skb) :
    flowKey (r.applied K .source p) = { flowKey p with src := r.newAddress, sport := toBe r.newPort } := by
  simp [flowKey, makeFlowKey]

/-- The packet `redirect::forward` is asked to send on when a packet hits a live flow. -/
def rewritten (K : Kernel) (p : Skb) (v : NativeFlowValue) : Skb :=
  Rewrite.applied K { oldAddress := v.vip, newAddress := v.target, oldPort := p.dport, newPort := v.targetPort,
                      preserveZeroUdpChecksum := p.preserveZeroUdpChecksum } .destination p

@[simp] theorem flowKey_rewritten (K : Kernel) (p : Skb) (v : NativeFlowValue) :
    flowKey (rewritten K p v) = (flowKey p).toTarget v := flowKey_applied_destination ..

@[simp] theorem rewritten_parses (K : Kernel) (p : Skb) (v : NativeFlowValue) : (rewritten K p v).parses = p.parses :=
  applied_parses ..

section helpers

variable {K : Kernel} (hK : K.HelpersSucceed)
include hK

theorem transmit_of_ok (p : Skb) (ifindex : UInt32) (smac dmac : Mac) :
    (transmit K p ifindex smac dmac).2 = .redirect ifindex ∧
      flowKey (transmit K p ifindex smac dmac).1 = flowKey p := by
  simp only [transmit, hK _, Bool.not_true, Bool.false_eq_true, if_false, if_true]
  exact ⟨trivial, rfl⟩

/-- A redirect leaves the tuple alone; a refusal leaves the packet alone. -/
theorem forward_of_ok (m : Maps) (p : Skb) (key : NativeTargetKey) (now : UInt64) :
    ((∃ e, forwardRoute m p key now = .error e) ∧ forward K m p key now = (p, .pipe)) ∨
      (∃ route, forwardRoute m p key now = .ok route ∧ (forward K m p key now).2 = .redirect route.ifindex ∧
        flowKey (forward K m p key now).1 = flowKey p) := by
  unfold forward
  cases h : forwardRoute m p key now with
  | error e => exact .inl ⟨⟨e, rfl⟩, rfl⟩
  | ok route => exact .inr ⟨route, rfl, transmit_of_ok hK ..⟩

theorem forward_flowKey (m : Maps) (p : Skb) (key : NativeTargetKey) (now : UInt64) :
    flowKey (forward K m p key now).1 = flowKey p := by
  rcases forward_of_ok hK m p key now with ⟨-, h⟩ | ⟨_, -, -, h⟩
  · rw [h]
  · exact h

theorem returnForward_flowKey (m : Maps) (p : Skb) (now : UInt64) :
    flowKey (returnForward K m p now).1 = flowKey p ∧ (returnForward K m p now).2 ≠ .shot := by
  unfold returnForward
  cases returnHop K m p now with
  | none => exact ⟨rfl, by simp⟩
  | some hop =>
    obtain ⟨hv, hk⟩ := transmit_of_ok hK p hop.ifindex hop.smac hop.dmac
    exact ⟨hk, by rw [hv]; simp⟩

theorem rewriteForward_of_ok (m : Maps) (p : Skb) (r : Rewrite) (key : NativeTargetKey) (now : UInt64) :
    rewriteForward K m p r key now = forward K m (r.applied K .destination p) key now := by
  simp [rewriteForward, Rewrite.write_of_ok hK]

section

variable {m : Maps} {p : Skb} {now : UInt64} {v : NativeFlowValue} (hp : p.parses = true)
  (hv : m.flows.lookup (flowKey p) = some v) (hlive : v.expired now = false)
include hp hv hlive

/-- The ingress program on a packet of a live flow. -/
theorem ingress_live :
    nativeDnatIngress K m p now =
      (refreshFlow m (flowKey p) ((flowKey p).reverseFor v) v now,
        forward K (refreshFlow m (flowKey p) ((flowKey p).reverseFor v) v now) (rewritten K p v)
          ⟨v.listenerId, v.targetId⟩ now) := by
  simp only [nativeDnatIngress, hp, hv, hlive, Bool.not_true, Bool.not_false, Bool.false_eq_true, if_false,
    if_true, rewriteForward_of_ok hK]
  rfl

/-- The return program on a packet of a live flow: the tuple's source becomes the flow's VIP. -/
theorem return_live :
    (nativeDnatReturn K m p now).1 = refreshFlow m (flowKey p) ((flowKey p).forwardFor v) v now ∧
      flowKey (nativeDnatReturn K m p now).2.1 = (flowKey p).fromVip v ∧
      (nativeDnatReturn K m p now).2.2 ≠ .shot := by
  simp only [nativeDnatReturn, hp, hv, hlive, Bool.not_true, Bool.false_eq_true, if_false, Rewrite.write_of_ok hK]
  refine ⟨trivial, ?_, (returnForward_flowKey hK ..).2⟩
  rw [(returnForward_flowKey hK ..).1, flowKey_applied_source]
  simp [NativeFlowKey.fromVip]

end

end helpers

variable {K : Kernel} {m : Maps} {now : UInt64} {p : Skb}

theorem return_miss (hv : m.flows.lookup (flowKey p) = none) : nativeDnatReturn K m p now = (m, p, .pipe) := by
  unfold nativeDnatReturn
  split
  · rfl
  · simp [hv]

theorem return_expired {v : NativeFlowValue}
    (hp : p.parses = true) (hv : m.flows.lookup (flowKey p) = some v) (hexp : v.expired now = true) :
    nativeDnatReturn K m p now = (dropFlow m (flowKey p) ((flowKey p).forwardFor v) v, p, .pipe) := by
  simp [nativeDnatReturn, hp, hv, hexp]

theorem ingress_miss (hp : p.parses = true)
    (hv : m.flows.lookup (flowKey p) = none) : nativeDnatIngress K m p now = openFlow K m p now := by
  simp [nativeDnatIngress, hp, hv]

theorem ingress_expired {v : NativeFlowValue}
    (hp : p.parses = true) (hv : m.flows.lookup (flowKey p) = some v) (hexp : v.expired now = true) :
    nativeDnatIngress K m p now =
      openFlow K (dropFlow m (flowKey p) ((flowKey p).reverseFor v) v) p now := by
  simp [nativeDnatIngress, hp, hv, hexp]

/-- An opening is a usable target of the listener the packet addresses, in the maps as they are. -/
theorem pick_some {o : Opening} (h : (pick m p).1 = some o) :
    m.listeners.lookup (listenerKey p) = some o.listener ∧
      m.targets.lookup ⟨o.listener.listenerId, o.targetId⟩ = some o.target ∧
      o.target.usable = true := by
  unfold pick at h
  split at h
  · cases h
  rename_i listener hl
  split at h
  · cases h
  dsimp only at h
  split at h
  · cases h
  split at h
  · cases h
  rename_i target ht
  split at h
  · rename_i hu
    injection h with h
    subst h
    exact ⟨hl, ht, hu⟩
  · cases h

/-- No opening: only a cursor may have moved, and the packet is piped as it is. -/
theorem openFlow_none (h : (pick m p).1 = none) :
    openFlow K m p now = ({ m with rrCounters := (pick m p).2 }, p, .pipe) := by
  simp [openFlow, h]

/-- An opening writes one value at the packet's tuple and at its reply tuple. -/
theorem openFlow_some (hK : K.HelpersSucceed) (now : UInt64) {o : Opening} (h : (pick m p).1 = some o) :
    (openFlow K m p now).1.flows =
        insertPair m.flows (flowKey p) ((flowKey p).reverseFor (o.value p now)) (o.value p now) ∧
      flowKey (openFlow K m p now).2.1 = (flowKey p).toTarget (o.value p now) := by
  simp only [openFlow, h, rewriteForward_of_ok hK, insertFlow_flows]
  refine ⟨rfl, ?_⟩
  rw [forward_flowKey hK, flowKey_applied_destination]
  rfl

/-! ### The programs leave the agent's maps alone -/

theorem openFlow_config (K : Kernel) (m : Maps) (p : Skb) (now : UInt64) :
    (openFlow K m p now).1.listeners = m.listeners ∧ (openFlow K m p now).1.targets = m.targets := by
  cases h : (pick m p).1 with
  | none => rw [openFlow_none h]; exact ⟨rfl, rfl⟩
  | some o =>
    simp only [openFlow, h, insertFlow, emitFlowEvent, adjustActiveFlows]
    split <;> exact ⟨rfl, rfl⟩

theorem stepEv_config (K : Kernel) (m : Maps) (e : Ev) :
    (stepEv K m e).listeners = m.listeners ∧ (stepEv K m e).targets = m.targets := by
  cases e with
  | ingress p now =>
    show (nativeDnatIngress K m p now).1.listeners = _ ∧ (nativeDnatIngress K m p now).1.targets = _
    unfold nativeDnatIngress
    split
    · exact ⟨rfl, rfl⟩
    split
    · exact openFlow_config K m p now
    dsimp only
    split
    · exact ⟨rfl, rfl⟩
    · have h := openFlow_config K (dropFlow m (flowKey p) ((flowKey p).reverseFor ‹_›) ‹_›) p now
      exact ⟨h.1.trans (dropFlow_listeners ..), h.2.trans (dropFlow_targets ..)⟩
  | ret p now =>
    show (nativeDnatReturn K m p now).1.listeners = _ ∧ (nativeDnatReturn K m p now).1.targets = _
    unfold nativeDnatReturn
    split
    · exact ⟨rfl, rfl⟩
    split
    · exact ⟨rfl, rfl⟩
    dsimp only
    split
    · exact ⟨dropFlow_listeners .., dropFlow_targets ..⟩
    · split <;> exact ⟨rfl, rfl⟩

/-! ## What concrete runs are made of -/

/-- A kernel whose helpers succeed, with no FIB entry and checksums left alone. -/
def quietKernel : Kernel :=
  { ok := fun _ => true, l3CsumReplace := fun c _ _ _ => c, l4CsumReplace := fun c _ _ _ => c
    fibLookup := fun _ => none }

theorem quietKernel_ok : quietKernel.HelpersSucceed := fun _ => rfl

def tcpPacket (src : UInt32) (sport : UInt16) (dst : UInt32) (dport : UInt16) : Skb :=
  { dstMac := #v[2, 0, 0, 0, 0, 1], srcMac := #v[2, 0, 0, 0, 0, 2], etherType := 0x0800, versionIhl := 0x45
    tos := 0, totLen := 40, id := 0, frag := 0, ttl := 64, proto := PROTO_TCP, check := 0, src, dst, sport, dport
    l4Check := 0, len := 54, mark := 0, pktType := 0, vlanPresent := 0, gsoSegs := 0, gsoSize := 0
    ingressIfindex := 2, ifindex := 2, hash := 0 }

end EdgeLb.Datapath
