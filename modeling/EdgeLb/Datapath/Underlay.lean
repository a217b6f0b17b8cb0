/-
  EdgeLb.Datapath.Underlay — a backend's reply that enters on the underlay device, where
  both DNAT programs are attached (`edge-lb/src/linux/native_dnat.rs`, `attach_prepared`).

  A forward entry `k ↦ v` is keyed by the client's tuple. The reply to it carries the
  tuple `k.reverseFor v`; it should leave the chain with the tuple `k.mirror`, VIP to
  client, without the flow map gaining a key. But both directions share one map with keys
  of one shape, and the ingress program runs first: it takes the reply tuple's entry for
  a client's, redirects the packet at the backend it came from and inserts a key of its
  own (`reply_loops_back_to_backend`).

  In any state of the maps the reply is restored all the same for a hairpin flow only, whose
  client is the backend socket itself, so that the ingress rewrite changes nothing and its
  second key is known already.
-/

import EdgeLb.Datapath.Dnat

namespace EdgeLb.Datapath

open EdgeLb.Common EdgeLb.Lib

/-- What the chain of the underlay device should do to the reply `p` of the flow of `k`. -/
structure Restored (K : Kernel) (s : Maps) (p : Skb) (k : NativeFlowKey) (now₁ now₂ : UInt64) : Prop where
  /-- The packet leaves from the VIP the client addressed, to the client. -/
  tuple : flowKey (underlayChain K s p now₁ now₂).2.1 = k.mirror
  delivered : (underlayChain K s p now₁ now₂).2.2 ≠ .shot
  noNewKey : ∀ κ, κ ∈ (underlayChain K s p now₁ now₂).1.flows → κ ∈ s.flows

/-- The reply's own tuple is a live entry `w` that sends the client's packets back to the
    client, under the VIP of `k`; the ingress program writes no key that is not there, and
    `redirect::forward` has no route it may take for the packet. -/
structure Hairpin (K : Kernel) (s : Maps) (p : Skb) (k : NativeFlowKey) (now₁ now₂ : UInt64)
    (w : NativeFlowValue) : Prop where
  found : s.flows.lookup (flowKey p) = some w
  live : w.expired now₁ = false
  stays : (w.refreshed now₁).expired now₂ = false
  vip : w.vip = k.dst ∧ w.vipPort = k.dport
  client : w.target = k.src ∧ toBe w.targetPort = k.sport
  known : (flowKey p).reverseFor w ∈ s.flows
  refused : ∃ e, forwardRoute s (rewritten K p w) ⟨w.listenerId, w.targetId⟩ now₁ = .error e

/-! ## What the two programs leave -/

section chain

variable {K : Kernel} (hK : K.HelpersSucceed) {s : Maps} {p : Skb} {now₁ : UInt64} (now₂ : UInt64)
include hK

/-- The return program restores a live entry's VIP and otherwise leaves the tuple alone. -/
theorem return_tuple (s : Maps) (p : Skb) :
    flowKey (nativeDnatReturn K s p now₂).2.1 = flowKey p ∨
      ∃ v, s.flows.lookup (flowKey p) = some v ∧ v.expired now₂ = false ∧ p.parses = true ∧
        flowKey (nativeDnatReturn K s p now₂).2.1 = (flowKey p).fromVip v := by
  cases hp : p.parses with
  | false => exact .inl (by simp [nativeDnatReturn, hp])
  | true =>
    cases hv : s.flows.lookup (flowKey p) with
    | none => exact .inl (by rw [return_miss hv])
    | some v =>
      cases he : v.expired now₂ with
      | true => exact .inl (by rw [return_expired hp hv he])
      | false => exact .inr ⟨v, rfl, he, rfl, (return_live hK hp hv he).2.1⟩

/-- The chain on a packet whose tuple has a live entry. -/
theorem chain_live {w : NativeFlowValue} (hp : p.parses = true) (hw : s.flows.lookup (flowKey p) = some w)
    (hlive : w.expired now₁ = false) :
    ((∃ e, forwardRoute s (rewritten K p w) ⟨w.listenerId, w.targetId⟩ now₁ = .error e) ∧
      underlayChain K s p now₁ now₂ =
        nativeDnatReturn K (refreshFlow s (flowKey p) ((flowKey p).reverseFor w) w now₁) (rewritten K p w) now₂) ∨
    (∃ route, forwardRoute s (rewritten K p w) ⟨w.listenerId, w.targetId⟩ now₁ = .ok route) ∧
      flowKey (underlayChain K s p now₁ now₂).2.1 = (flowKey p).toTarget w := by
  unfold underlayChain
  rw [ingress_live hK hp hw hlive]
  -- the route lookup reads neither of the entries just refreshed
  rcases forward_of_ok hK (refreshFlow s (flowKey p) ((flowKey p).reverseFor w) w now₁) (rewritten K p w)
    ⟨w.listenerId, w.targetId⟩ now₁ with ⟨he, hf⟩ | ⟨route, hroute, hv, hk⟩
  · exact .inl ⟨he, by rw [hf]⟩
  · refine .inr ⟨⟨route, hroute⟩, ?_⟩
    rw [flowKey_rewritten] at hk
    rw [← hk]
    split
    · rename_i heq
      rw [Prod.mk.injEq] at heq
      rw [heq.2] at hv
      cases hv
    · rfl

/-- The chain on a packet that hit no live entry: its source is left alone, or its
    destination is not, or its source becomes the socket it was addressed to. -/
theorem chain_open {m : Maps} (hm : nativeDnatIngress K s p now₁ = openFlow K m p now₁)
    (hmiss : m.flows.lookup (flowKey p) = none) {out : NativeFlowKey}
    (hout : flowKey (underlayChain K s p now₁ now₂).2.1 = out) :
    (out.src = (flowKey p).src ∧ out.sport = (flowKey p).sport) ∨
      ¬ (out.dst = (flowKey p).dst ∧ out.dport = (flowKey p).dport) ∨
      (out.src = (flowKey p).dst ∧ out.sport = (flowKey p).dport) := by
  unfold underlayChain at hout
  rw [hm] at hout
  cases h : (pick m p).1 with
  | none =>
    rw [openFlow_none h] at hout
    dsimp only at hout
    rw [return_miss (by exact hmiss)] at hout
    exact .inl (by rw [← hout]; exact ⟨rfl, rfl⟩)
  | some o =>
    obtain ⟨hflows, htuple⟩ := openFlow_some hK now₁ h
    generalize openFlow K m p now₁ = res at hout hflows htuple
    obtain ⟨m₁, q, verdict⟩ := res
    dsimp only at hout hflows htuple
    have hkeep : verdict ≠ .pipe → out = (flowKey p).toTarget (o.value p now₁) := by
      intro hv
      cases verdict with
      | pipe => exact absurd rfl hv
      | shot => rw [← hout, ← htuple]
      | redirect => rw [← hout, ← htuple]
    by_cases hv : verdict = .pipe
    · subst hv
      dsimp only at hout
      rcases return_tuple hK now₂ m₁ q with hr | ⟨v, hlookup, -, -, hr⟩
      · left; rw [← hout, hr, htuple]; exact ⟨rfl, rfl⟩
      · by_cases heq : flowKey q = flowKey p
        -- the return program finds the entry the ingress program just wrote
        · rw [heq, hflows, lookup_insertPair_left] at hlookup
          right; right
          rw [← hout, hr, ← Option.some.inj hlookup]
          exact ⟨rfl, rfl⟩
        · right; left
          rintro ⟨h1, h2⟩
          rw [← hout, hr, htuple] at h1 h2
          exact heq (htuple.trans (toTarget_eq_self h1 h2))
    · left; rw [hkeep hv]; exact ⟨rfl, rfl⟩

end chain

/-! ## When the reply is restored -/

section restored

variable {K : Kernel} (hK : K.HelpersSucceed) {s : Maps} {p : Skb} {k : NativeFlowKey} {v : NativeFlowValue}
  {now₁ now₂ : UInt64} (hp : p.parses = true) (hreply : flowKey p = k.reverseFor v)
include hK hp hreply

/-- A hairpin flow's reply is restored: both rewrites hit the same live entry. -/
theorem restored_of_hairpin {w : NativeFlowValue} (hk : k ∈ s.flows) (h : Hairpin K s p k now₁ now₂ w) :
    Restored K s p k now₁ now₂ := by
  have hsame : (flowKey p).toTarget w = flowKey p :=
    toTarget_eq_self (by rw [hreply]; exact h.client.1) (by rw [hreply]; exact h.client.2)
  have hfwd : (flowKey p).forwardFor w = k := by
    simp [hreply, NativeFlowKey.forwardFor, NativeFlowKey.reverseFor, h.vip]
  have hmirror : (flowKey p).fromVip w = k.mirror := by
    simp [hreply, NativeFlowKey.fromVip, NativeFlowKey.reverseFor, NativeFlowKey.mirror, h.vip]
  obtain ⟨e, hrefused⟩ := h.refused
  rcases chain_live hK now₂ hp h.found h.live with ⟨-, hchain⟩ | ⟨⟨route, hroute⟩, -⟩
  swap
  · rw [hrefused] at hroute; cases hroute
  have hq : flowKey (rewritten K p w) = flowKey p := by rw [flowKey_rewritten, hsame]
  have hlookup : (refreshFlow s (flowKey p) ((flowKey p).reverseFor w) w now₁).flows.lookup
      (flowKey (rewritten K p w)) = some (w.refreshed now₁) := by
    rw [hq, refreshFlow_flows, lookup_insertPair_left]
  obtain ⟨hmaps, htuple, hshot⟩ := return_live hK (by rw [rewritten_parses, hp]) hlookup h.stays
  refine ⟨?_, by rw [hchain]; exact hshot, ?_⟩
  · rw [hchain, htuple, hq, ← hmirror]; rfl
  · intro κ hκ
    rw [hchain, hmaps, hq, refreshFlow_flows, mem_insertPair, refreshFlow_flows, mem_insertPair] at hκ
    rw [forwardFor_refreshed, hfwd] at hκ
    have hself : flowKey p ∈ s.flows := mem_of_lookup h.found
    rcases hκ with rfl | rfl | rfl | rfl | hκ
    · exact hself
    · exact hk
    · exact hself
    · exact h.known
    · exact hκ

/-- A restored reply is a hairpin flow's, unless there was nothing to translate. -/
theorem hairpin_of_restored (hclient : ¬ (k.src = k.dst ∧ k.sport = k.dport))
    (htarget : ¬ (v.target = k.dst ∧ toBe v.targetPort = k.dport)) (h : Restored K s p k now₁ now₂) :
    ∃ w, Hairpin K s p k now₁ now₂ w := by
  have hr1 : (flowKey p).src = v.target := by rw [hreply]; rfl
  have hr2 : (flowKey p).sport = toBe v.targetPort := by rw [hreply]; rfl
  have hr3 : (flowKey p).dst = k.src := by rw [hreply]; rfl
  have hr4 : (flowKey p).dport = k.sport := by rw [hreply]; rfl
  -- a packet that hits no live entry is never restored
  have hopen : ∀ m, nativeDnatIngress K s p now₁ = openFlow K m p now₁ →
      m.flows.lookup (flowKey p) = none → False := by
    intro m hm hmiss
    rcases chain_open hK now₂ hm hmiss h.tuple with h1 | h1 | h1
    · exact htarget ⟨hr1.symm.trans h1.1.symm, hr2.symm.trans h1.2.symm⟩
    · exact h1 ⟨hr3.symm, hr4.symm⟩
    · exact hclient ⟨hr3.symm.trans h1.1.symm, hr4.symm.trans h1.2.symm⟩
  cases hw : s.flows.lookup (flowKey p) with
  | none => exact (hopen s (ingress_miss hp hw) hw).elim
  | some w =>
    cases hlive : w.expired now₁ with
    | true => exact (hopen _ (ingress_expired hp hw hlive) (by simp)).elim
    | false =>
      rcases chain_live hK now₂ hp hw hlive with ⟨hrefused, hchain⟩ | ⟨-, hsent⟩
      swap
      · rw [h.tuple] at hsent
        have h1 : k.dst = (flowKey p).src := congrArg NativeFlowKey.src hsent
        have h2 : k.dport = (flowKey p).sport := congrArg NativeFlowKey.sport hsent
        exact (htarget ⟨hr1.symm.trans h1.symm, hr2.symm.trans h2.symm⟩).elim
      have htuple := h.tuple
      rw [hchain] at htuple
      rcases return_tuple hK now₂ (refreshFlow s (flowKey p) ((flowKey p).reverseFor w) w now₁)
        (rewritten K p w) with hkeep | ⟨u, hu, hulive, -, hvip⟩
      · rw [htuple, flowKey_rewritten] at hkeep
        have h1 : k.dst = (flowKey p).src := congrArg NativeFlowKey.src hkeep
        have h2 : k.dport = (flowKey p).sport := congrArg NativeFlowKey.sport hkeep
        exact (htarget ⟨hr1.symm.trans h1.symm, hr2.symm.trans h2.symm⟩).elim
      · rw [htuple, flowKey_rewritten] at hvip
        have h1 : k.src = w.target := congrArg NativeFlowKey.dst hvip
        have h2 : k.sport = toBe w.targetPort := congrArg NativeFlowKey.dport hvip
        -- the reply keeps its tuple, so the return program finds the entry just refreshed
        have hsame : (flowKey p).toTarget w = flowKey p :=
          toTarget_eq_self (h1.symm.trans hr3.symm) (h2.symm.trans hr4.symm)
        rw [flowKey_rewritten, hsame, refreshFlow_flows, lookup_insertPair_left] at hu
        obtain rfl := Option.some.inj hu
        refine ⟨w, hw, hlive, hulive, ⟨(congrArg NativeFlowKey.src hvip).symm, (congrArg NativeFlowKey.sport hvip).symm⟩,
          ⟨h1.symm, h2.symm⟩, ?_, hrefused⟩
        apply h.noNewKey
        have hlookup : (refreshFlow s (flowKey p) ((flowKey p).reverseFor w) w now₁).flows.lookup
            (flowKey (rewritten K p w)) = some (w.refreshed now₁) := by
          rw [flowKey_rewritten, hsame, refreshFlow_flows, lookup_insertPair_left]
        rw [hchain, (return_live hK (by rw [rewritten_parses, hp]) hlookup hulive).1, refreshFlow_flows,
          mem_insertPair, refreshFlow_flows, mem_insertPair]
        exact .inr (.inr (.inr (.inl rfl)))

end restored

/-- For every state of the maps and every entry `k ↦ v` in it: the reply to `k` is restored
    by the underlay chain if it is a hairpin flow's, and, where there is something to
    translate (neither the client's nor the backend's socket is the VIP's), only then. -/
theorem reply_restored_iff_hairpin {K : Kernel} (hK : K.HelpersSucceed) {s : Maps} {p : Skb} {k : NativeFlowKey}
    {v : NativeFlowValue} {now₁ now₂ : UInt64} (hk : s.flows.lookup k = some v) (hp : p.parses = true)
    (hreply : flowKey p = k.reverseFor v) :
    ((∃ w, Hairpin K s p k now₁ now₂ w) → Restored K s p k now₁ now₂) ∧
      (¬ (k.src = k.dst ∧ k.sport = k.dport) → ¬ (v.target = k.dst ∧ toBe v.targetPort = k.dport) →
        Restored K s p k now₁ now₂ → ∃ w, Hairpin K s p k now₁ now₂ w) := by
  refine ⟨?_, fun h1 h2 => hairpin_of_restored hK hp hreply h1 h2⟩
  rintro ⟨w, hw⟩
  exact restored_of_hairpin hK hp hreply (mem_of_lookup hk) hw

/-! ## Two runs

One listener, 192.0.2.10:8080 over TCP, with the one target 192.0.2.20:9090. -/

def vipAddr : UInt32 := 0xc000020a
def backendAddr : UInt32 := 0xc0000214
def clientAddr : UInt32 := 0xc6336407

def oneListener : Maps :=
  { listeners := (∅ : BpfMap _ _).insert ⟨vipAddr, toBe 8080, PROTO_TCP⟩
      { listenerId := 1, targetBase := 0, targetCount := 1, weightTotal := 1, select := NATIVE_SELECT_RR
        flags := 0, timeoutSecs := 60, dscp := 46 }
    targets := (∅ : BpfMap _ _).insert ⟨1, 0⟩ { address := backendAddr, port := 9090, weight := 1, flags := 1 } }

/-- The entry the request of `src:sport` opens at time 1000. -/
def openedKey (src : UInt32) (sport : UInt16) : NativeFlowKey := makeFlowKey src vipAddr sport 8080 PROTO_TCP

def openedValue : NativeFlowValue :=
  { listenerId := 1, targetId := 0, vip := vipAddr, target := backendAddr, vipPort := toBe 8080
    targetPort := 9090, timeoutSecs := 60, lastSeenNs := 1000 }

def afterRequest (src : UInt32) (sport : UInt16) : Maps :=
  run (stepEv quietKernel) oneListener [.ingress (tcpPacket src sport vipAddr 8080) 1000]

/-- An ordinary client's reply on the underlay: the chain leaves it addressed to the backend
    it came from, and the flow map gains the key backend-to-backend. -/
theorem reply_loops_back_to_backend :
    let s := afterRequest clientAddr 40000
    let k := openedKey clientAddr 40000
    let reply := tcpPacket backendAddr 9090 clientAddr 40000
    let junk := makeFlowKey backendAddr backendAddr 9090 9090 PROTO_TCP
    s.flows.lookup k = some openedValue ∧ IsForward k openedValue ∧ openedValue.expired 2000 = false ∧
      reply.parses = true ∧ flowKey reply = k.reverseFor openedValue ∧
      (underlayChain quietKernel s reply 2000 2000).2.1.dst = backendAddr ∧
      junk ∈ (underlayChain quietKernel s reply 2000 2000).1.flows ∧ junk ∉ s.flows ∧
      ¬ Restored quietKernel s reply k 2000 2000 := by
  refine ⟨by decide, by decide, by decide, by decide, by decide, by decide, by decide, by decide, fun h => ?_⟩
  exact absurd h.tuple (by decide)

/-- The backend socket itself as the client: its reply is restored. -/
theorem reply_restored_at_hairpin :
    Restored quietKernel (afterRequest backendAddr 9090) (tcpPacket backendAddr 9090 backendAddr 9090)
      (openedKey backendAddr 9090) 2000 2000 :=
  (reply_restored_iff_hairpin (v := openedValue) quietKernel_ok (by decide) (by decide) (by decide)).1
    ⟨openedValue, by decide, by decide, by decide, by decide, by decide, by decide, ⟨none, by decide⟩⟩

end EdgeLb.Datapath
