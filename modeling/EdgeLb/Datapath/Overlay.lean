/-
  EdgeLb.Datapath.Overlay — client packets through the ingress program and replies
  through the return program on the overlay device: to which VIP a reply is restored.

  Every flow has two entries, the client's tuple and the reply tuple. `reverseFor` drops
  the VIP, so two flows of one client socket to one backend through different VIPs meet
  in one reply slot, and the later one takes it. `FlowPairs` is the invariant such a
  collision breaks: every entry is a client's or a reply's, and the other entry of its
  flow holds the same value. A run keeps it while its steps are `Clean`: what the ingress
  program sees are client tuples, what the return program sees are reply tuples, and a
  flow is opened only when no other flow of the client socket holds the reply slot of a
  target it may be sent to.
-/

import EdgeLb.Datapath.Publish

namespace EdgeLb.Datapath

open EdgeLb.Common EdgeLb.Lib EdgeLb.Provider EdgeLb.Config

/-! ## The two entries of a flow -/

/-- Source and destination socket coincide. -/
def SelfAddressed (k : NativeFlowKey) : Prop := k.src = k.dst ∧ k.sport = k.dport

instance (k : NativeFlowKey) : Decidable (SelfAddressed k) := inferInstanceAs (Decidable (_ ∧ _))

/-- `k ↦ v` is keyed by the tuple the backend answers with. -/
def IsReply (k : NativeFlowKey) (v : NativeFlowValue) : Prop := k.src = v.target ∧ k.sport = toBe v.targetPort

instance (k : NativeFlowKey) (v : NativeFlowValue) : Decidable (IsReply k v) := inferInstanceAs (Decidable (_ ∧ _))

variable {k : NativeFlowKey} {v : NativeFlowValue}

theorem forwardFor_reverseFor (h : IsForward k v) : (k.reverseFor v).forwardFor v = k := by
  cases k
  simp_all [NativeFlowKey.reverseFor, NativeFlowKey.forwardFor, IsForward]

theorem reverseFor_forwardFor (h : IsReply k v) : (k.forwardFor v).reverseFor v = k := by
  cases k
  simp_all [NativeFlowKey.reverseFor, NativeFlowKey.forwardFor, IsReply]

theorem isForward_forwardFor (k : NativeFlowKey) (v : NativeFlowValue) : IsForward (k.forwardFor v) v := ⟨rfl, rfl⟩

theorem isReply_reverseFor (k : NativeFlowKey) (v : NativeFlowValue) : IsReply (k.reverseFor v) v := ⟨rfl, rfl⟩

/-- The reply tuple is a client tuple of the same flow only for a self-addressed client. -/
theorem not_isForward_reverseFor (h : IsForward k v) (hself : ¬ SelfAddressed k) : ¬ IsForward (k.reverseFor v) v := by
  rintro ⟨h1, h2⟩
  exact hself ⟨h1.trans h.1.symm, h2.trans h.2.symm⟩

theorem not_selfAddressed_forwardFor (h : ¬ IsForward k v) : ¬ SelfAddressed (k.forwardFor v) := by
  rintro ⟨h1, h2⟩
  exact h ⟨h1, h2⟩

/-- A client's entry is paired with its reply entry and the other way round. -/
def flowPairing : Pairing NativeFlowKey NativeFlowValue where
  mate k v := if IsForward k v then k.reverseFor v else k.forwardFor v
  good k v := if IsForward k v then ¬ SelfAddressed k else IsReply k v
  good_mate := by
    intro k v h
    by_cases hf : IsForward k v
    · rw [if_pos hf] at h
      rw [if_pos hf, if_neg (not_isForward_reverseFor hf h)]
      exact isReply_reverseFor k v
    · rw [if_neg hf, if_pos (isForward_forwardFor k v)]
      exact not_selfAddressed_forwardFor hf
  mate_mate := by
    intro k v h
    by_cases hf : IsForward k v
    · rw [if_pos hf] at h
      rw [if_pos hf, if_neg (not_isForward_reverseFor hf h)]
      exact forwardFor_reverseFor hf
    · rw [if_neg hf] at h
      rw [if_neg hf, if_pos (isForward_forwardFor k v)]
      exact reverseFor_forwardFor h

theorem mate_of_forward (h : IsForward k v) : flowPairing.mate k v = k.reverseFor v := if_pos h

theorem mate_of_not_forward (h : ¬ IsForward k v) : flowPairing.mate k v = k.forwardFor v := if_neg h

/-- The invariant of the flow map. -/
abbrev FlowPairs (m : Maps) : Prop := flowPairing.Paired m.flows

/-! ## Clean steps -/

/-- The reply tuple of packet `p` once it is sent to `target`. -/
def replyKey (p : Skb) (target : NativeTargetValue) : NativeFlowKey :=
  makeFlowKey target.address p.src target.port p.sport p.proto

/-- The usable targets of the listener the packet addresses. -/
def usableTargets (m : Maps) (p : Skb) : List NativeTargetValue :=
  match m.listeners.lookup (listenerKey p) with
  | none => []
  | some listener =>
    ((m.targets.entries.filter fun e => e.1.listenerId = listener.listenerId).map (·.2)).filter (·.usable)

/-- The packet hits no live entry, so that it opens a flow if it can. -/
def HitsNoLive (m : Maps) (p : Skb) (now : UInt64) : Prop :=
  ∀ w ∈ m.flows.lookup (flowKey p), w.expired now = true

/-- The steps that keep flows apart. -/
def Clean (m : Maps) : Ev → Prop
  | .ingress p now =>
    (∀ w ∈ m.flows.lookup (flowKey p), IsForward (flowKey p) w) ∧ ¬ SelfAddressed (flowKey p) ∧
      (HitsNoLive m p now → ∀ t ∈ usableTargets m p, ∀ w ∈ m.flows.lookup (replyKey p t),
        (replyKey p t).forwardFor w = flowKey p)
  | .ret p _ => ∀ w ∈ m.flows.lookup (flowKey p), ¬ IsForward (flowKey p) w

instance (m : Maps) (p : Skb) (now : UInt64) : Decidable (HitsNoLive m p now) :=
  inferInstanceAs (Decidable (∀ w ∈ _, _))

instance (m : Maps) : ∀ e, Decidable (Clean m e)
  | .ingress _ _ => inferInstanceAs (Decidable (_ ∧ _ ∧ _))
  | .ret _ _ => inferInstanceAs (Decidable (∀ w ∈ _, _))

theorem pick_mem_usableTargets {m : Maps} {p : Skb} {o : Opening} (h : (pick m p).1 = some o) :
    o.target ∈ usableTargets m p := by
  obtain ⟨hl, ht, hu⟩ := pick_some h
  have hmem := AList.mem_lookup_iff.mp (Option.mem_def.mpr ht)
  simp only [usableTargets, hl, List.mem_filter, List.mem_map, decide_eq_true_eq]
  exact ⟨⟨_, ⟨hmem, rfl⟩, rfl⟩, hu⟩

/-! ## The step lemma -/

section step

variable {K : Kernel} {m : Maps}

/-- Opening a flow at a free tuple keeps flows paired when the reply slots it may take are free. -/
theorem openFlow_pairs (hK : K.HelpersSucceed) {p : Skb} {now : UInt64} (hm : FlowPairs m)
    (hself : ¬ SelfAddressed (flowKey p)) (hfree : m.flows.lookup (flowKey p) = none)
    (hslot : ∀ t ∈ usableTargets m p, m.flows.lookup (replyKey p t) = none) :
    FlowPairs (openFlow K m p now).1 := by
  cases h : (pick m p).1 with
  | none => rw [openFlow_none h]; exact hm
  | some o =>
    have hfwd : IsForward (flowKey p) (o.value p now) := ⟨rfl, rfl⟩
    have hgood : flowPairing.good (flowKey p) (o.value p now) := by
      show if _ then _ else _
      rw [if_pos hfwd]; exact hself
    unfold FlowPairs
    rw [(openFlow_some hK _ h).1, ← mate_of_forward hfwd]
    refine hm.insert hgood hfree ?_
    rw [mate_of_forward hfwd]
    exact hslot o.target (pick_mem_usableTargets h)

/-- A reply slot held by an entry of this very client tuple is the tuple's own pair. -/
theorem slot_of_forwardFor {k ρ : NativeFlowKey} {w : NativeFlowValue} (hm : FlowPairs m)
    (hself : ¬ SelfAddressed k) (hw : m.flows.lookup ρ = some w) (h : ρ.forwardFor w = k) :
    m.flows.lookup k = some w ∧ ρ = k.reverseFor w := by
  obtain ⟨hgood, hmate⟩ := hm ρ w hw
  by_cases hf : IsForward ρ w
  · exfalso
    apply hself
    rw [← h]
    exact ⟨hf.1, hf.2⟩
  · rw [mate_of_not_forward hf, h] at hmate
    have hr : IsReply ρ w := by
      have : if _ then _ else _ := hgood
      rwa [if_neg hf] at this
    exact ⟨hmate, by rw [← h, reverseFor_forwardFor hr]⟩

theorem step_pairs (hK : K.HelpersSucceed) (e : Ev) (hm : FlowPairs m) (hclean : Clean m e) :
    FlowPairs (stepEv K m e) := by
  cases e with
  | ingress p now =>
    obtain ⟨hclient, hself, hslots⟩ := hclean
    cases hp : p.parses with
    | false => simpa [stepEv, nativeDnatIngress, hp] using hm
    | true =>
      show FlowPairs (nativeDnatIngress K m p now).1
      cases hv : m.flows.lookup (flowKey p) with
      | none =>
        rw [ingress_miss hp hv]
        refine openFlow_pairs hK hm hself hv ?_
        intro t ht
        by_contra hne
        obtain ⟨w, hw⟩ := Option.ne_none_iff_exists'.mp hne
        have hfwd := hslots (by simp [HitsNoLive, hv]) t ht w hw
        have := (slot_of_forwardFor hm hself hw hfwd).1
        rw [hv] at this
        cases this
      | some v =>
        have hf : IsForward (flowKey p) v := hclient v hv
        cases hexp : v.expired now with
        | false =>
          rw [ingress_live hK hp hv hexp]
          unfold FlowPairs
          rw [refreshFlow_flows, ← mate_of_forward hf]
          exact hm.replace hv (fun _ => rfl) (fun _ h => h)
        | true =>
          rw [ingress_expired hp hv hexp]
          have hdrop : FlowPairs (dropFlow m (flowKey p) ((flowKey p).reverseFor v) v) := by
            unfold FlowPairs
            rw [dropFlow_flows, ← mate_of_forward hf]
            exact hm.erase hv
          refine openFlow_pairs hK hdrop hself (by simp) ?_
          intro t ht
          have htargets : usableTargets (dropFlow m (flowKey p) ((flowKey p).reverseFor v) v) p =
              usableTargets m p := by simp [usableTargets]
          rw [htargets] at ht
          by_contra hne
          obtain ⟨w, hw⟩ := Option.ne_none_iff_exists'.mp hne
          rw [dropFlow_flows, lookup_erasePair] at hw
          split at hw
          · cases hw
          rename_i hkept
          have hfwd := hslots (by simp [HitsNoLive, hv, hexp]) t ht w hw
          obtain ⟨h1, h2⟩ := slot_of_forwardFor hm hself hw hfwd
          rw [hv] at h1
          rw [← Option.some.inj h1] at h2
          exact hkept (.inr h2)
  | ret p now =>
    cases hp : p.parses with
    | false => simpa [stepEv, nativeDnatReturn, hp] using hm
    | true =>
      show FlowPairs (nativeDnatReturn K m p now).1
      cases hv : m.flows.lookup (flowKey p) with
      | none => rw [return_miss hv]; exact hm
      | some v =>
        have hf : ¬ IsForward (flowKey p) v := hclean v hv
        unfold FlowPairs
        cases hexp : v.expired now with
        | true =>
          rw [return_expired hp hv hexp, dropFlow_flows, ← mate_of_not_forward hf]
          exact hm.erase hv
        | false =>
          rw [(return_live hK hp hv hexp).1, refreshFlow_flows, ← mate_of_not_forward hf]
          exact hm.replace hv (fun _ => rfl) (fun _ h => h)

end step

/-! ## Replies -/

/-- In a paired flow map the reply of a live client entry is restored to the VIP the
    client addressed. -/
theorem reply_of_pairs {K : Kernel} (hK : K.HelpersSucceed) {m : Maps} (hm : FlowPairs m) {p : Skb} {now : UInt64}
    (hk : m.flows.lookup k = some v) (hf : IsForward k v)
    (hlive : v.expired now = false) (hp : p.parses = true) (hreply : flowKey p = k.reverseFor v) :
    flowKey (nativeDnatReturn K m p now).2.1 = k.mirror := by
  have hmate := (hm k v hk).2
  rw [mate_of_forward hf, ← hreply] at hmate
  rw [(return_live hK hp hmate hlive).2.1, hreply]
  simp [NativeFlowKey.fromVip, NativeFlowKey.reverseFor, NativeFlowKey.mirror, hf.1, hf.2]

/-- Every run of clean steps from an empty flow map, with any listener and target maps: the
    reply to a live client entry leaves the return program from the VIP and port the client
    addressed, for the client. -/
theorem reply_restored_to_addressed_vip {K : Kernel} (hK : K.HelpersSucceed) {m₀ : Maps} (h₀ : m₀.flows = ∅)
    {es : List Ev} (hclean : StepsMeet (stepEv K) Clean m₀ es) {p : Skb} {now : UInt64} {k : NativeFlowKey}
    {v : NativeFlowValue} (hk : (run (stepEv K) m₀ es).flows.lookup k = some v) (hf : IsForward k v)
    (hlive : v.expired now = false) (hp : p.parses = true) (hreply : flowKey p = k.reverseFor v) :
    flowKey (nativeDnatReturn K (run (stepEv K) m₀ es) p now).2.1 = k.mirror := by
  have hpairs : FlowPairs (run (stepEv K) m₀ es) :=
    inv_run (stepEv K) (fun _ e hm he => step_pairs hK e hm he)
      (by unfold FlowPairs; rw [h₀]; exact flowPairing.paired_empty) hclean
  exact reply_of_pairs hK hpairs hk hf hlive hp hreply

/-! ## Two VIPs, one backend

A listener on the gateway 192.0.2.10 with the explicit VIP 192.0.2.30, and one target. -/

def twoVips : FileConfig :=
  { nodeRole := .gateway
    network := { gatewayIp := .v4 0xc000020a }
    targetGroups := [{ name := "service", targets := [{ address := .v4 0xc0000214 }] }]
    listeners := [{ name := "service", port := 8080, targetPort := 9090, targetGroup := "service"
                    vipIps := [.v4 0xc000021e] }] }

def twoVipListeners : List NativeListener := (listenersFromConfig twoVips none).toOption.getD []

def twoVipMaps : Maps := publish ⟨none, none, none⟩ twoVipListeners {}

/-- The client 198.51.100.7:40000 to one of the VIPs. -/
def toVip (vip : UInt32) : Skb := tcpPacket 0xc6336407 40000 vip 8080

def replyToClient : Skb := tcpPacket 0xc0000214 9090 0xc6336407 40000

/-- One client socket uses both VIPs: the second flow takes the first one's reply slot, and
    the reply to the first, live, is sent from the VIP it never addressed. -/
theorem reply_sent_from_other_vip :
    (listenersFromConfig twoVips none).toOption.isSome = true ∧
      (syncPinnedDatapath ⟨none, none, none⟩ twoVipListeners {}).2 = .ok () ∧
      let s := run (stepEv quietKernel) twoVipMaps
        [.ingress (toVip 0xc000020a) 1000, .ingress (toVip 0xc000021e) 2000]
      let k := flowKey (toVip 0xc000020a)
      ∃ v, s.flows.lookup k = some v ∧ IsForward k v ∧ v.expired 3000 = false ∧
        replyToClient.parses = true ∧ flowKey replyToClient = k.reverseFor v ∧
        (nativeDnatReturn quietKernel s replyToClient 3000).2.1.src = 0xc000021e ∧
        flowKey (nativeDnatReturn quietKernel s replyToClient 3000).2.1 ≠ k.mirror := by
  refine ⟨by decide, by decide, ?_⟩
  refine ⟨{ listenerId := 2277, targetId := 0, vip := 0xc000020a, target := 0xc0000214, vipPort := toBe 8080
            targetPort := 9090, timeoutSecs := 240, lastSeenNs := 1000 }, ?_⟩
  decide

/-- One VIP at a time: the same client's reply goes back to the VIP it used. -/
theorem reply_restored_for_one_vip :
    let s := run (stepEv quietKernel) twoVipMaps [.ingress (toVip 0xc000021e) 1000, .ret replyToClient 2000]
    flowKey (nativeDnatReturn quietKernel s replyToClient 3000).2.1 = (flowKey (toVip 0xc000021e)).mirror := by
  exact reply_restored_to_addressed_vip quietKernel_ok rfl (by decide)
    (v := { listenerId := 1185, targetId := 0, vip := 0xc000021e, target := 0xc0000214, vipPort := toBe 8080
            targetPort := 9090, timeoutSecs := 240, lastSeenNs := 2000 })
    (by decide) (by decide) (by decide) (by decide) (by decide)

end EdgeLb.Datapath
