/-
  EdgeLb.Datapath.BackendReturn — the return path of a backend
  (`edge-lb-ebpf/src/backend_redirect.rs`: `parse`, `ingress`, `egress`;
  `edge-lb-common/src/backend_redirect.rs`).

  The ingress program learns from requests: a request whose DSCP has a contract enters the tuple
  of its replies into a table, with the interface and the MACs of that contract and a time to
  live. The egress program sends a reply that finds its tuple there back with them, and forgets
  an entry that it finds expired. Both look at IPv4 TCP and UDP without options and fragments
  only, in frames that hold exactly their datagram.

  The contracts never change in place: `attach_prepared` of `edge-lb/src/linux/backend_redirect.rs`
  loads a new object for new ones, with an empty table.

  Proved: over every run of attachments, requests and replies under a clock that does not go back,
  what the table has for a tuple is what the latest classified request said (`run_learned`), so a
  reply goes back the way of that request, or passes as it is (`reply_follows_latest_request`).
-/

import EdgeLb.Datapath.Dnat
import Mathlib.Data.List.Induction

namespace EdgeLb.Datapath

open EdgeLb.Common EdgeLb.Lib

def BACKEND_RETURN_FLOW_TTL_NS : UInt64 := 3 * 60 * 60 * 1000000000

structure BackendReturnDscp where
  flags : UInt32
  returnIfindex : UInt32
  sourceMac : Mac
  destinationMac : Mac
  deriving DecidableEq, Repr

structure BackendReturnFlowKey where
  src : UInt32
  dst : UInt32
  sport : UInt16
  dport : UInt16
  proto : UInt8
  deriving DecidableEq, Repr

structure BackendReturnFlow where
  expiresNs : UInt64
  returnIfindex : UInt32
  sourceMac : Mac
  destinationMac : Mac
  deriving DecidableEq, Repr

structure BackendMaps where
  dscp : BpfMap UInt32 BackendReturnDscp := ∅
  flows : BpfMap BackendReturnFlowKey BackendReturnFlow := ∅

/-! ## The programs -/

/-- `parse`. -/
def Skb.backendParses (p : Skb) : Bool :=
  34 ≤ p.len.toNat && p.etherType == 0x0800 && !(p.versionIhl != 0x45 || p.frag &&& 0xbfff != 0) &&
    p.lengthAdmitted && 38 ≤ p.len.toNat

/-- The tuple of the packet itself. -/
def backendKey (p : Skb) : BackendReturnFlowKey :=
  { src := p.src, dst := p.dst, sport := p.sport, dport := p.dport, proto := p.proto }

/-- The tuple of the replies to the packet. -/
def backendReplyKey (p : Skb) : BackendReturnFlowKey :=
  { src := p.dst, dst := p.src, sport := p.dport, dport := p.sport, proto := p.proto }

variable (contract : BackendReturnDscp)

def BackendReturnDscp.usable : Bool :=
  !(contract.returnIfindex == 0 || !unicastMac contract.sourceMac || !unicastMac contract.destinationMac)

def BackendReturnFlow.usable (flow : BackendReturnFlow) : Bool :=
  !(flow.returnIfindex == 0 || !unicastMac flow.sourceMac || !unicastMac flow.destinationMac)

/-- `now_ns.saturating_add(BACKEND_RETURN_FLOW_TTL_NS)`. -/
def flowDeadline (now : UInt64) : UInt64 :=
  if now.toNat + BACKEND_RETURN_FLOW_TTL_NS.toNat < 2 ^ 64 then now + BACKEND_RETURN_FLOW_TTL_NS
  else 0xffffffffffffffff

def BackendReturnDscp.flow (now : UInt64) : BackendReturnFlow :=
  { expiresNs := flowDeadline now, returnIfindex := contract.returnIfindex, sourceMac := contract.sourceMac
    destinationMac := contract.destinationMac }

theorem BackendReturnDscp.flow_expiresNs (now : UInt64) :
    (contract.flow now).expiresNs = flowDeadline now := by
  simp only [BackendReturnDscp.flow]

/-- The contract that the ingress program learns from a packet. -/
def classify (dscp : BpfMap UInt32 BackendReturnDscp) (p : Skb) : Option BackendReturnDscp :=
  if !p.backendParses then none
  else match dscp.lookup (p.tos >>> 2).toUInt32 with
    | none => none
    | some contract => if contract.usable then some contract else none

/-- `backend_redirect::ingress`. -/
def backendIngress (m : BackendMaps) (p : Skb) (now : UInt64) : BackendMaps × Skb × Verdict :=
  match classify m.dscp p with
  | none => (m, p, .pipe)
  | some contract => ({ m with flows := m.flows.insert (backendReplyKey p) (contract.flow now) }, p, .pipe)

/-- The packet sent out of an interface between two MACs. One that is leaving there already is
    passed on. -/
def sendBack (K : Kernel) (p : Skb) (ifindex : UInt32) (sourceMac destinationMac : Mac) : Skb × Verdict :=
  if !K.ok .storeMacs then (p, .shot) else
  let p := { p with dstMac := destinationMac, srcMac := sourceMac }
  if p.ifindex = ifindex then (p, .pipe)
  else if K.ok .redirect then (p, .redirect ifindex)
  else (p, .shot)

/-- `backend_redirect::egress`. -/
def backendEgress (K : Kernel) (m : BackendMaps) (p : Skb) (now : UInt64) : BackendMaps × Skb × Verdict :=
  if !p.backendParses then (m, p, .pipe)
  else match m.flows.lookup (backendKey p) with
    | none => (m, p, .pipe)
    | some flow =>
      if flow.expiresNs ≤ now then ({ m with flows := m.flows.erase (backendKey p) }, p, .pipe)
      else if !flow.usable then (m, p, .pipe)
      else (m, sendBack K p flow.returnIfindex flow.sourceMac flow.destinationMac)

/-! ## Runs -/

inductive BackendEv
  | attach (dscp : BpfMap UInt32 BackendReturnDscp)
  | request (p : Skb) (now : UInt64)
  | reply (p : Skb) (now : UInt64)

def stepBackendEv (K : Kernel) (m : BackendMaps) : BackendEv → BackendMaps
  | .attach dscp => { dscp }
  | .request p now => (backendIngress m p now).1
  | .reply p now => (backendEgress K m p now).1

def BackendEv.time : BackendEv → Option UInt64
  | .attach _ => none
  | .request _ now => some now
  | .reply _ now => some now

/-- The contracts of the last attachment. -/
def contractsAfter (es : List BackendEv) : BpfMap UInt32 BackendReturnDscp :=
  es.foldl (fun dscp e => match e with | .attach new => new | _ => dscp) ∅

/-- After the events `es`, the latest request of the current attachment that was classified and
    whose replies have the tuple `k` came at `t` under `contract`. -/
def Latest (es : List BackendEv) (k : BackendReturnFlowKey) (contract : BackendReturnDscp) (t : UInt64) : Prop :=
  ∃ before p after, es = before ++ .request p t :: after ∧ backendReplyKey p = k ∧
    classify (contractsAfter before) p = some contract ∧
    (∀ dscp, BackendEv.attach dscp ∉ after) ∧
    ∀ q now, BackendEv.request q now ∈ after → backendReplyKey q = k → classify (contractsAfter before) q = none

/-! ## The latest request, event by event -/

section latest

variable {es : List BackendEv} {k : BackendReturnFlowKey} {contract : BackendReturnDscp} {t : UInt64}

theorem contractsAfter_snoc (es : List BackendEv) (e : BackendEv) :
    contractsAfter (es ++ [e]) = match e with | .attach new => new | _ => contractsAfter es := by
  simp [contractsAfter, List.foldl_append]

theorem contractsAfter_append {before after : List BackendEv} (h : ∀ dscp, BackendEv.attach dscp ∉ after) :
    contractsAfter (before ++ after) = contractsAfter before := by
  induction after using List.reverseRecOn with
  | nil => rw [List.append_nil]
  | append_singleton after e ih =>
    have hafter : ∀ dscp, BackendEv.attach dscp ∉ after := fun dscp hmem => h dscp (by simp [hmem])
    rw [← List.append_assoc, contractsAfter_snoc]
    cases e with
    | attach dscp => exact absurd (by simp) (h dscp)
    | request q now => exact ih hafter
    | reply q now => exact ih hafter

/-- Where the latest request stands when one more event has come. -/
theorem latest_snoc {e : BackendEv} (h : Latest (es ++ [e]) k contract t) :
    (∃ p, e = .request p t ∧ backendReplyKey p = k ∧ classify (contractsAfter es) p = some contract) ∨
      (Latest es k contract t ∧ (∀ dscp, e ≠ .attach dscp) ∧
        ∀ q now, e = .request q now → backendReplyKey q = k → classify (contractsAfter es) q = none) := by
  obtain ⟨before, p, after, heq, hkey, hclass, hattach, hafter⟩ := h
  induction after using List.reverseRecOn with
  | nil =>
    obtain ⟨rfl, hlast⟩ := List.append_inj' heq rfl
    left
    exact ⟨p, List.singleton_inj.mp hlast, hkey, hclass⟩
  | append_singleton after e' _ =>
    have heq' : es ++ [e] = (before ++ .request p t :: after) ++ [e'] := by
      rw [heq]
      simp
    obtain ⟨rfl, hlast⟩ := List.append_inj' heq' rfl
    obtain rfl := List.singleton_inj.mp hlast
    have hcontracts : contractsAfter (before ++ .request p t :: after) = contractsAfter before := by
      apply contractsAfter_append
      intro dscp hmem
      rcases List.mem_cons.mp hmem with hmem | hmem
      · cases hmem
      · exact hattach dscp (by simp [hmem])
    right
    refine ⟨⟨before, p, after, rfl, hkey, hclass, fun dscp hmem => hattach dscp (by simp [hmem]),
      fun q now hmem => hafter q now (by simp [hmem])⟩, ?_, ?_⟩
    · intro dscp hdscp
      exact hattach dscp (by simp [hdscp])
    · intro q now hq hqkey
      rw [hcontracts]
      exact hafter q now (by simp [hq]) hqkey

theorem latest_request {p : Skb} (hclass : classify (contractsAfter es) p = some contract) :
    Latest (es ++ [.request p t]) (backendReplyKey p) contract t :=
  ⟨es, p, [], rfl, rfl, hclass, by simp, by simp⟩

/-- Any other event leaves it the latest. -/
theorem Latest.keep (h : Latest es k contract t) {e : BackendEv} (hattach : ∀ dscp, e ≠ .attach dscp)
    (hother : ∀ q now, e = .request q now → backendReplyKey q = k → classify (contractsAfter es) q = none) :
    Latest (es ++ [e]) k contract t := by
  obtain ⟨before, p, after, rfl, hkey, hclass, hnone, hafter⟩ := h
  have hcontracts : contractsAfter (before ++ .request p t :: after) = contractsAfter before := by
    apply contractsAfter_append
    intro dscp hmem
    rcases List.mem_cons.mp hmem with hmem | hmem
    · cases hmem
    · exact hnone dscp hmem
  refine ⟨before, p, after ++ [e], by simp, hkey, hclass, ?_, ?_⟩
  · intro dscp hmem
    rcases List.mem_append.mp hmem with hmem | hmem
    · exact hnone dscp hmem
    · exact hattach dscp (List.mem_singleton.mp hmem).symm
  · intro q now hmem hqkey
    rcases List.mem_append.mp hmem with hmem | hmem
    · exact hafter q now hmem hqkey
    · rw [← hcontracts]
      exact hother q now (List.mem_singleton.mp hmem).symm hqkey

theorem Latest.usable (h : Latest es k contract t) : contract.usable = true := by
  obtain ⟨_, p, _, _, _, hclass, _, _⟩ := h
  unfold classify at hclass
  split at hclass
  · cases hclass
  split at hclass
  · cases hclass
  split at hclass
  · cases hclass
    assumption
  · cases hclass

end latest

/-! ## What the table has learned -/

/-- The table against the events so far: an entry is what the latest classified request of its
    tuple said, and the latest request has its entry, unless a reply has come after its deadline
    and removed it. -/
structure Learned (m : BackendMaps) (es : List BackendEv) : Prop where
  contracts : m.dscp = contractsAfter es
  sound : ∀ {k flow}, m.flows.lookup k = some flow → ∃ contract t, Latest es k contract t ∧ flow = contract.flow t
  kept : ∀ {k contract t}, Latest es k contract t → m.flows.lookup k = some (contract.flow t) ∨
    m.flows.lookup k = none ∧ ∃ e ∈ es, ∃ now, e.time = some now ∧ flowDeadline t ≤ now

theorem learned_attach (es : List BackendEv) (dscp : BpfMap UInt32 BackendReturnDscp) :
    Learned { dscp } (es ++ [.attach dscp]) where
  contracts := by rw [contractsAfter_snoc]
  sound := by
    intro k flow h
    cases h
  kept := by
    intro k contract t h
    rcases latest_snoc h with ⟨p, hp, _⟩ | ⟨_, hattach, _⟩
    · cases hp
    · exact absurd rfl (hattach dscp)

variable {es : List BackendEv} {m : BackendMaps}

/-- A step that leaves the maps alone keeps what is learned, if its event was classified as
    nothing. -/
theorem Learned.idle (h : Learned m es) {e : BackendEv} (hattach : ∀ dscp, e ≠ .attach dscp)
    (hother : ∀ q now, e = .request q now → classify (contractsAfter es) q = none) : Learned m (es ++ [e]) where
  contracts := by
    rw [h.contracts, contractsAfter_snoc]
    cases e with
    | attach dscp => exact absurd rfl (hattach dscp)
    | request q now => rfl
    | reply q now => rfl
  sound := by
    intro k flow hflow
    obtain ⟨contract, t, hlatest, rfl⟩ := h.sound hflow
    exact ⟨contract, t, hlatest.keep hattach fun q now hq _ => hother q now hq, rfl⟩
  kept := by
    intro k contract t hlatest
    rcases latest_snoc hlatest with ⟨p, hp, _, hclass⟩ | ⟨hold, _, _⟩
    · rw [hother p t hp] at hclass
      cases hclass
    rcases h.kept hold with hentry | ⟨hnone, e', hmem, late⟩
    · exact .inl hentry
    · exact .inr ⟨hnone, e', by simp [hmem], late⟩

theorem Learned.request (h : Learned m es) (p : Skb) (now : UInt64) :
    Learned (backendIngress m p now).1 (es ++ [.request p now]) := by
  unfold backendIngress
  cases hclass : classify m.dscp p with
  | none =>
    rw [h.contracts] at hclass
    refine h.idle (by simp) fun q now' hq => ?_
    cases hq
    exact hclass
  | some contract =>
    rw [h.contracts] at hclass
    refine ⟨?_, ?_, ?_⟩
    · rw [contractsAfter_snoc]
      exact h.contracts
    · intro k flow hflow
      by_cases hk : k = backendReplyKey p
      · subst hk
        obtain rfl := Option.some.inj ((AList.lookup_insert _).symm.trans hflow)
        exact ⟨contract, now, latest_request hclass, rfl⟩
      · rw [AList.lookup_insert_ne hk] at hflow
        obtain ⟨old, t, hlatest, rfl⟩ := h.sound hflow
        refine ⟨old, t, hlatest.keep (by simp) fun q now' hq hqkey => ?_, rfl⟩
        cases hq
        exact absurd hqkey.symm hk
    · intro k old t hlatest
      rcases latest_snoc hlatest with ⟨q, hq, rfl, hqclass⟩ | ⟨hold, _, hother⟩
      · cases hq
        obtain rfl := Option.some.inj (hclass.symm.trans hqclass)
        left
        exact AList.lookup_insert _
      · have hk : k ≠ backendReplyKey p := by
          intro hk
          have hnone := hother p now rfl hk.symm
          rw [hclass] at hnone
          cases hnone
        rw [AList.lookup_insert_ne hk]
        rcases h.kept hold with hentry | ⟨hnone, e', hmem, late⟩
        · exact .inl hentry
        · exact .inr ⟨hnone, e', by simp [hmem], late⟩

theorem Learned.expire (h : Learned m es) {p : Skb} {now : UInt64}
    {flow : BackendReturnFlow} (hflow : m.flows.lookup (backendKey p) = some flow) (hlate : flow.expiresNs ≤ now) :
    Learned { m with flows := m.flows.erase (backendKey p) } (es ++ [.reply p now]) := by
  have hidle : Learned m (es ++ [.reply p now]) := h.idle (by simp) (by simp)
  refine ⟨hidle.contracts, ?_, ?_⟩
  · intro k flow' hflow'
    by_cases hk : k = backendKey p
    · subst hk
      rw [AList.lookup_erase] at hflow'
      cases hflow'
    · rw [AList.lookup_erase_ne hk] at hflow'
      exact hidle.sound hflow'
  · intro k contract t hlatest
    by_cases hk : k = backendKey p
    · subst hk
      right
      refine ⟨AList.lookup_erase _ _, ?_⟩
      rcases hidle.kept hlatest with hentry | ⟨_, late⟩
      · obtain rfl := Option.some.inj (hflow.symm.trans hentry)
        rw [contract.flow_expiresNs t] at hlate
        exact ⟨.reply p now, by simp, now, rfl, hlate⟩
      · exact late
    · rw [AList.lookup_erase_ne hk]
      exact hidle.kept hlatest

theorem Learned.reply {K : Kernel} (h : Learned m es) (p : Skb)
    (now : UInt64) : Learned (backendEgress K m p now).1 (es ++ [.reply p now]) := by
  have hidle : Learned m (es ++ [.reply p now]) := h.idle (by simp) (by simp)
  unfold backendEgress
  split
  · exact hidle
  split
  · exact hidle
  next flow hflow =>
    split
    next hlate => exact h.expire hflow hlate
    split
    · exact hidle
    · exact hidle

theorem run_learned (K : Kernel) (es : List BackendEv) : Learned (es.foldl (stepBackendEv K) {}) es := by
  induction es using List.reverseRecOn with
  | nil => exact ⟨rfl, nofun, fun h => by simp [Latest] at h⟩
  | append_singleton es e ih =>
    rw [List.foldl_append]
    cases e with
    | attach dscp => exact learned_attach es dscp
    | request p now => exact ih.request p now
    | reply p now => exact ih.reply p now

/-! ## Where a reply goes -/

/-- The program parses the packet, and the latest classified request of its tuple came under
    `contract` less than the time to live ago. -/
def Owed (es : List BackendEv) (p : Skb) (now : UInt64) (contract : BackendReturnDscp) : Prop :=
  p.backendParses = true ∧ ∃ t, Latest es (backendKey p) contract t ∧ now < flowDeadline t

theorem usable_flow (t : UInt64) : (contract.flow t).usable = contract.usable := by
  simp only [BackendReturnFlow.usable, BackendReturnDscp.usable, BackendReturnDscp.flow]

theorem egress_known {K : Kernel} {p : Skb} {now t : UInt64} {contract : BackendReturnDscp}
    (hparses : p.backendParses = true) (hflow : m.flows.lookup (backendKey p) = some (contract.flow t))
    (husable : contract.usable = true) (hlive : now < flowDeadline t) :
    (backendEgress K m p now).2 = sendBack K p contract.returnIfindex contract.sourceMac contract.destinationMac := by
  have hnot : ¬ (contract.flow t).expiresNs ≤ now := by
    rw [contract.flow_expiresNs t]
    exact UInt64.not_le.mpr hlive
  simp only [backendEgress, hparses, hflow, hnot, usable_flow, husable, Bool.not_true, Bool.false_eq_true, if_false]
  simp only [BackendReturnDscp.flow]

theorem egress_passes {K : Kernel} {p : Skb} {now : UInt64}
    (h : p.backendParses = true → ∀ flow, m.flows.lookup (backendKey p) = some flow → flow.expiresNs ≤ now) :
    (backendEgress K m p now).2 = (p, .pipe) := by
  unfold backendEgress
  split
  · rfl
  next hparses =>
    cases hflow : m.flows.lookup (backendKey p) with
    | none => rfl
    | some flow =>
      have hlate := h (by simpa using hparses) flow hflow
      simp only [hlate, if_true]

/-- A reply goes back with the interface and the MACs of the contract of the latest classified
    request of its tuple. Where there is none within the time to live, it passes as it is. -/
theorem reply_follows_latest_request (K : Kernel) (es : List BackendEv) (p : Skb) (now : UInt64)
    (hclock : ∀ e ∈ es, ∀ t, e.time = some t → t ≤ now) :
    let out := (backendEgress K (es.foldl (stepBackendEv K) {}) p now).2
    (∀ contract, Owed es p now contract →
      out = sendBack K p contract.returnIfindex contract.sourceMac contract.destinationMac) ∧
    ((∀ contract, ¬ Owed es p now contract) → out = (p, .pipe)) := by
  have hlearned := run_learned K es
  refine ⟨?_, ?_⟩
  · intro contract ⟨hparses, t, hlatest, hlive⟩
    rcases hlearned.kept hlatest with hflow | ⟨_, e, hmem, late, htime, hlate⟩
    · exact egress_known hparses hflow hlatest.usable hlive
    · -- the entry was removed by a reply after its deadline, and the clock has not gone back
      have hnow := hclock e hmem late htime
      exact absurd (UInt64.le_trans hlate hnow) (UInt64.not_le.mpr hlive)
  · intro hnone
    apply egress_passes
    intro hparses flow hflow
    obtain ⟨contract, t, hlatest, rfl⟩ := hlearned.sound hflow
    rw [contract.flow_expiresNs t]
    exact UInt64.not_lt.mp fun hlive => hnone contract ⟨hparses, t, hlatest, hlive⟩

def gatewayContract : BackendReturnDscp :=
  { flags := 0, returnIfindex := 7, sourceMac := #v[2, 0, 0, 0, 0, 7], destinationMac := #v[2, 0, 0, 0, 0, 8] }

def markedRequest : Skb := { tcpPacket 0xc6336407 40000 0xc0000214 9090 with tos := 184 }

def backendReply : Skb := tcpPacket 0xc0000214 9090 0xc6336407 40000

def oneRequest : List BackendEv :=
  [.attach ((∅ : BpfMap _ _).insert 46 gatewayContract), .request markedRequest 1000]

theorem oneRequest_latest : Latest oneRequest (backendKey backendReply) gatewayContract 1000 :=
  ⟨[.attach ((∅ : BpfMap _ _).insert 46 gatewayContract)], markedRequest, [], rfl, by decide, by decide,
    by simp, by simp⟩

theorem reply_redirected_to_gateway :
    (backendEgress quietKernel (oneRequest.foldl (stepBackendEv quietKernel) {}) backendReply 2000).2 =
      ({ backendReply with srcMac := #v[2, 0, 0, 0, 0, 7], dstMac := #v[2, 0, 0, 0, 0, 8] }, .redirect 7) := by
  have hclock : ∀ e ∈ oneRequest, ∀ t, e.time = some t → t ≤ 2000 := by
    intro e hmem t ht
    simp only [oneRequest, List.mem_cons, List.not_mem_nil, or_false] at hmem
    rcases hmem with rfl | rfl
    · cases ht
    · cases ht
      decide
  rw [(reply_follows_latest_request quietKernel oneRequest backendReply 2000 hclock).1 gatewayContract
    ⟨by decide, 1000, oneRequest_latest, by decide⟩]
  rfl

/-- With the same request seen: the first fragment of a reply passes unmodified, a reply on the
    return interface is passed and not redirected, one whose store fails is dropped, and after
    another attachment the reply passes unmodified. -/
theorem owed_reply_not_redirected :
    let m := oneRequest.foldl (stepBackendEv quietKernel) {}
    let fragment := { backendReply with frag := 0x2000 }
    let leaving := { backendReply with ifindex := 7 }
    let attached := (oneRequest ++ [BackendEv.attach ((∅ : BpfMap _ _).insert 46 gatewayContract)]).foldl
      (stepBackendEv quietKernel) {}
    Latest oneRequest (backendKey fragment) gatewayContract 1000 ∧ 2000 < flowDeadline 1000 ∧
      (backendEgress quietKernel m fragment 2000).2 = (fragment, .pipe) ∧
      (backendEgress quietKernel m leaving 2000).2.2 = .pipe ∧
      (backendEgress { quietKernel with ok := fun _ => false } m backendReply 2000).2.2 = .shot ∧
      (backendEgress quietKernel attached backendReply 2000).2 = (backendReply, .pipe) := by
  refine ⟨oneRequest_latest, by decide, by decide, by decide, by decide,
    by decide⟩

end EdgeLb.Datapath
