/-
  EdgeLb.Datapath.FlowNames — the name of a flow (`canonical_flow_pair` of
  `edge-lb/src/linux/native_dnat.rs`), under which a sweep counts it once and a snapshot
  saves its two entries together.

  A name is made of one entry alone. Whether the entry is the client's or the reply's is
  guessed: the reply's is one whose source is the value's target. The client's entry passes
  for a reply when the client is its own target's socket (a hairpin), and is then paired
  with the VIP's tuple to itself, which is no entry at all.

  Proved: the two entries of a flow have one name exactly when the flow is no hairpin, and
  of two flows that are none only crossed ones share theirs (`flows_named_apart_iff`). Flows
  are crossed when each client tuple is the other's reply tuple: two VIP sockets that are
  their own targets and connect to each other.
-/

import EdgeLb.Datapath.Turns

namespace EdgeLb.Datapath

open EdgeLb.Common EdgeLb.Provider EdgeLb.Config

/-- A flow that the ingress program opens, by the client's tuple and the value of both entries. -/
inductive Opened : NativeFlowKey → NativeFlowValue → Prop
  | opened {m m' : Maps} {p : Skb} {now : UInt64} {o : Opening} (hopens : opensOn m p now = some m')
      (hpick : (pick m' p).1 = some o) : Opened (flowKey p) (o.value p now)

variable {v : NativeFlowValue}

theorem Opened.isForward {k : NativeFlowKey} (h : Opened k v) : IsForward k v := by
  cases h with
  | opened hopens hpick => exact ⟨rfl, rfl⟩

/-! ## One flow -/

/-- The client is the target's own socket, and the VIP is another. -/
def FromTarget (k : NativeFlowKey) (v : NativeFlowValue) : Prop :=
  IsReply k v ∧ ¬ (v.target = v.vip ∧ toBe v.targetPort = v.vipPort)

instance (k : NativeFlowKey) (v : NativeFlowValue) : Decidable (FromTarget k v) := inferInstanceAs (Decidable (_ ∧ _))

/-- Both entries of a flow have one name. -/
def OneName (k : NativeFlowKey) (v : NativeFlowValue) : Prop :=
  canonicalFlowPair k v = canonicalFlowPair (k.reverseFor v) v

section one

variable {k : NativeFlowKey} {v : NativeFlowValue} (hfwd : IsForward k v)
include hfwd

/-- The reply's entry is never mistaken. -/
theorem name_of_reply : canonicalFlowPair (k.reverseFor v) v = ordered k (k.reverseFor v) := by
  rw [canonicalFlowPair_eq, partner_of_reply (isReply_reverseFor k v), forwardFor_reverseFor hfwd, ordered_comm]

theorem name_of_client (hclient : ¬ FromTarget k v) : canonicalFlowPair k v = ordered k (k.reverseFor v) := by
  by_cases hreply : IsReply k v
  · -- client, VIP and target are one socket, and the flow's two tuples are one
    have hsame : v.target = v.vip ∧ toBe v.targetPort = v.vipPort := by
      by_contra hne
      exact hclient ⟨hreply, hne⟩
    have hself : k.forwardFor v = k.reverseFor v := by
      simp only [NativeFlowKey.forwardFor, NativeFlowKey.reverseFor, NativeFlowKey.mk.injEq, and_true]
      refine ⟨hfwd.1.trans hsame.1.symm, ?_, hfwd.2.trans hsame.2.symm, ?_⟩
      · rw [hreply.1, hsame.1]
      · rw [hreply.2, hsame.2]
    rw [canonicalFlowPair_eq, partner_of_reply hreply, hself]
  · rw [canonicalFlowPair_eq, partner_of_not_reply hreply]

/-- Whichever entry of the flow it is made of. -/
theorem name_of_entry (hclient : ¬ FromTarget k v) :
    ∀ e ∈ [k, k.reverseFor v], canonicalFlowPair e v = ordered k (k.reverseFor v) := by
  intro e he
  rcases List.mem_cons.mp he with rfl | he
  · exact name_of_client hfwd hclient
  · rw [List.mem_singleton.mp he]
    exact name_of_reply hfwd

theorem oneName_iff : OneName k v ↔ ¬ FromTarget k v := by
  constructor
  · rintro hname ⟨hreply, hne⟩
    rw [OneName, name_of_reply hfwd, canonicalFlowPair_eq, partner_of_reply hreply, ordered_eq_iff, Sym2.congr_right] at hname
    -- the VIP's tuple to itself is not the reply tuple
    have hsrc : k.dst = v.target := congrArg NativeFlowKey.src hname
    have hsport : k.dport = toBe v.targetPort := congrArg NativeFlowKey.sport hname
    exact hne ⟨hsrc.symm.trans hfwd.1, hsport.symm.trans hfwd.2⟩
  · intro hclient
    rw [OneName, name_of_client hfwd hclient, name_of_reply hfwd]

end one

/-! ## Two flows -/

/-- One client's tuple to one target. -/
def OneFlow (k : NativeFlowKey) (v : NativeFlowValue) (k' : NativeFlowKey) (v' : NativeFlowValue) : Prop :=
  k = k' ∧ k.reverseFor v = k'.reverseFor v'

/-- No entry of the one has the name of an entry of the other. -/
def NamedApart (k : NativeFlowKey) (v : NativeFlowValue) (k' : NativeFlowKey) (v' : NativeFlowValue) : Prop :=
  ∀ e ∈ [k, k.reverseFor v], ∀ e' ∈ [k', k'.reverseFor v'], canonicalFlowPair e v ≠ canonicalFlowPair e' v'

/-- Each client's tuple is the other flow's reply tuple. -/
def Crossed (k : NativeFlowKey) (v : NativeFlowValue) (k' : NativeFlowKey) (v' : NativeFlowValue) : Prop :=
  k = k'.reverseFor v' ∧ k' = k.reverseFor v

instance (k : NativeFlowKey) (v : NativeFlowValue) (k' : NativeFlowKey) (v' : NativeFlowValue) :
    Decidable (OneFlow k v k' v') := inferInstanceAs (Decidable (_ ∧ _))

instance (k : NativeFlowKey) (v : NativeFlowValue) (k' : NativeFlowKey) (v' : NativeFlowValue) :
    Decidable (Crossed k v k' v') := inferInstanceAs (Decidable (_ ∧ _))

/-- A name is given to the flow and, crossed, to its mirror. -/
theorem ordered_eq_iff_flow {k k' : NativeFlowKey} {v v' : NativeFlowValue} :
    ordered k (k.reverseFor v) = ordered k' (k'.reverseFor v') ↔ OneFlow k v k' v' ∨ Crossed k v k' v' := by
  rw [ordered_eq_iff, Sym2.eq_iff, OneFlow, Crossed]
  constructor
  · rintro (h | ⟨h, h'⟩)
    · exact .inl h
    · exact .inr ⟨h, h'.symm⟩
  · rintro (h | ⟨h, h'⟩)
    · exact .inl h
    · exact .inr ⟨h, h'.symm⟩

theorem namedApart_iff {k k' : NativeFlowKey} {v v' : NativeFlowValue} (hfwd : IsForward k v) (hfwd' : IsForward k' v')
    (hclient : ¬ FromTarget k v) (hclient' : ¬ FromTarget k' v') (hne : ¬ OneFlow k v k' v') :
    NamedApart k v k' v' ↔ ¬ Crossed k v k' v' := by
  have hname := name_of_entry hfwd hclient
  have hname' := name_of_entry hfwd' hclient'
  constructor
  · intro hapart hcrossed
    apply hapart k List.mem_cons_self k' List.mem_cons_self
    rw [hname k List.mem_cons_self, hname' k' List.mem_cons_self]
    exact ordered_eq_iff_flow.mpr (.inr hcrossed)
  · intro hcrossed e he e' he' heq
    rw [hname e he, hname' e' he'] at heq
    rcases ordered_eq_iff_flow.mp heq with hsame | hcross
    · exact hne hsame
    · exact hcrossed hcross

/-- Two flows as the ingress program opens them, whatever the maps: each has one name, and they
    have different ones unless they are one flow, exactly when neither is a hairpin and they are
    not crossed. -/
theorem flows_named_apart_iff {k k' : NativeFlowKey} {v v' : NativeFlowValue} (h : Opened k v) (h' : Opened k' v') :
    (OneName k v ∧ OneName k' v' ∧ (¬ OneFlow k v k' v' → NamedApart k v k' v')) ↔
      (¬ FromTarget k v ∧ ¬ FromTarget k' v' ∧ (¬ OneFlow k v k' v' → ¬ Crossed k v k' v')) := by
  have hfwd := h.isForward
  have hfwd' := h'.isForward
  rw [oneName_iff hfwd, oneName_iff hfwd']
  constructor
  · rintro ⟨hclient, hclient', hapart⟩
    exact ⟨hclient, hclient', fun hne => (namedApart_iff hfwd hfwd' hclient hclient' hne).mp (hapart hne)⟩
  · rintro ⟨hclient, hclient', hcrossed⟩
    exact ⟨hclient, hclient', fun hne => (namedApart_iff hfwd hfwd' hclient hclient' hne).mpr (hcrossed hne)⟩

/-! ## The listener of two VIPs -/

/-- What a packet to the published listener opens. -/
def openedBy (p : Skb) (now : UInt64) : Option NativeFlowValue :=
  ((opensOn twoVipMaps p now).bind fun m => (pick m p).1).map fun o => o.value p now

theorem opened_of_openedBy {p : Skb} {now : UInt64} (h : openedBy p now = some v) : Opened (flowKey p) v := by
  obtain ⟨o, ho, rfl⟩ := Option.map_eq_some_iff.mp h
  obtain ⟨m, hopens, hpick⟩ := Option.bind_eq_some_iff.mp ho
  exact .opened hopens hpick

/-- The value of a flow to one of the VIPs, under the listener's id there. -/
def vipFlow (listenerId vip : UInt32) : NativeFlowValue :=
  { listenerId, targetId := 0, vip, target := 0xc0000214, vipPort := toBe 8080, targetPort := 9090, timeoutSecs := 240
    lastSeenNs := 1000 }

/-- One client socket to both VIPs. -/
theorem two_vip_flows_named :
    let k := flowKey (toVip 0xc000020a)
    let k' := flowKey (toVip 0xc000021e)
    let v := vipFlow 2277 0xc000020a
    let v' := vipFlow 1185 0xc000021e
    ¬ OneFlow k v k' v' ∧ OneName k v ∧ OneName k' v' ∧ NamedApart k v k' v' := by
  have hne : ¬ OneFlow (flowKey (toVip 0xc000020a)) (vipFlow 2277 0xc000020a) (flowKey (toVip 0xc000021e))
      (vipFlow 1185 0xc000021e) := by decide
  have hopened : openedBy (toVip 0xc000020a) 1000 = some (vipFlow 2277 0xc000020a) := by decide
  have hopened' : openedBy (toVip 0xc000021e) 1000 = some (vipFlow 1185 0xc000021e) := by decide
  have hnamed := (flows_named_apart_iff (opened_of_openedBy hopened) (opened_of_openedBy hopened')).mpr
    ⟨by decide, by decide, fun _ => by decide⟩
  exact ⟨hne, hnamed.1, hnamed.2.1, hnamed.2.2 hne⟩

/-- The backend 192.0.2.20 connects to the VIP from the port it serves, and is sent to itself:
    the program leaves two entries of one flow under two names. -/
theorem hairpin_named_twice :
    let p := tcpPacket 0xc0000214 9090 0xc000020a 8080
    let k := flowKey p
    let v := vipFlow 2277 0xc000020a
    (listenersFromConfig twoVips none).toOption.isSome = true ∧ openedBy p 1000 = some v ∧
      (nativeDnatIngress quietKernel twoVipMaps p 1000).1.flows.lookup k = some v ∧
      (nativeDnatIngress quietKernel twoVipMaps p 1000).1.flows.lookup (k.reverseFor v) = some v ∧
      canonicalFlowPair k v ≠ canonicalFlowPair (k.reverseFor v) v := by
  decide

end EdgeLb.Datapath
