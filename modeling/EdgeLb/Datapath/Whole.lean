/-
  EdgeLb.Datapath.Whole — which packets leave the programs of the underlay device whole
  (`edge-lb-ebpf/src/main.rs`: `try_dscp_mark`, `try_native_dnat_ingress`,
  `try_native_dnat_return`; `nat.rs`: `Rewrite`; `redirect_packet.rs`: `transmit`).

  A packet that is passed on is whole when it is the one received, or when everything that
  goes with the change was changed: the address and the port of one flow, both checksums by
  what the words under them changed by, and TTL and MACs together or not at all. Checksums
  are compared modulo 65535, as sums of the words they cover, so a packet that came with a
  wrong one leaves with one that is as wrong. The two checksum helpers of the kernel are
  parameters, of which only that is assumed (`Kernel.Sums`).

  The DNAT programs answer SHOT to every failed call. Two things go wrong all the same.
  `dscp_mark` stores the TOS byte first and the checksum after it, and a failure of the second
  store is passed on like a parse error, as PIPE (`half_marked_packet_passes`). And a packet
  of a known flow has its checksums updated from the address that the flow's value names,
  which is not the one in the packet when a reply meets the ingress program. A packet is whole
  exactly when neither happens (`passed_whole_iff`).
-/

import EdgeLb.Datapath.Underlay
import EdgeLb.Lib.OnesComplement

namespace EdgeLb.Datapath

open EdgeLb.Common EdgeLb.Lib

/-! ## The DSCP marker -/

/-- The maps of `dscp_mark`. -/
structure MarkMaps where
  targetPorts : BpfMap UInt32 UInt32
  dscpCfg : Option UInt32

/-- The two stores of `dscp_mark`. -/
inductive MarkCall
  | storeTos | storeCheck
  deriving DecidableEq, Repr

variable (p : Skb) (newTos : UInt8)

/-- What `dscp_mark` parses; fragments are marked too. -/
def Skb.markable : Bool :=
  34 ≤ p.len.toNat && p.etherType == 0x0800 && !(p.version ≠ 4 ∨ p.ihl < 20) &&
    !(p.proto ≠ PROTO_TCP ∧ p.proto ≠ PROTO_UDP) && 14 + p.ihl.toNat + p.l4HeaderLen ≤ p.len.toNat

def portMatches (t : MarkMaps) (dport : UInt32) : Bool := (t.targetPorts.lookup dport).isSome

/-- The configured codepoint, when it is one. -/
def MarkMaps.dscp (t : MarkMaps) : UInt32 :=
  match t.dscpCfg with
  | some v => if v < 64 then v else DEFAULT_DSCP
  | none => DEFAULT_DSCP

/-- The TOS byte with the codepoint in it; the ECN bits stay. -/
def MarkMaps.tos (t : MarkMaps) (oldTos : UInt8) : UInt8 := (t.dscp <<< 2).toUInt8 ||| (oldTos &&& 0x03)

/-- The packet is to be marked, and is not marked so already. -/
def Skb.marked (t : MarkMaps) (p : Skb) : Bool :=
  p.markable && portMatches t p.dport.toUInt32 && p.tos != t.tos p.tos

/-- The checksum for the new TOS byte. -/
def markCheck : UInt16 :=
  let vihlWords := (p.version <<< 4) ||| (p.ihl >>> 2)
  let oldHalf := (vihlWords.toUInt16 <<< 8) ||| p.tos.toUInt16
  let newHalf := (oldHalf &&& 0xff00) ||| newTos.toUInt16
  incrementalCsum p.check oldHalf newHalf

/-- `try_dscp_mark`: a store that fails ends the program like a failed load does, with PIPE. -/
def dscpMark (ok : MarkCall → Bool) (t : MarkMaps) (p : Skb) : Skb × Verdict :=
  if !p.marked t then (p, .pipe) else
  let check := markCheck p (t.tos p.tos)
  if !ok .storeTos then (p, .pipe) else
  let p := { p with tos := t.tos p.tos }
  if !ok .storeCheck then (p, .pipe) else
  ({ p with check }, .pipe)

/-! ## What is meant by whole -/

/-- The words under the IPv4 checksum and the checksum, added up. Options are not counted:
    no program writes them. -/
def Skb.ipSum : Nat := (p.ipWords.map (·.toNat)).sum

/-- The words under the TCP or UDP checksum that a program can write, and the checksum. -/
def Skb.l4Sum : Nat :=
  halves p.src.toNat + halves p.dst.toNat + p.sport.toNat + p.dport.toNat + p.l4Check.toNat

/-- The checksums of `q` are as right as those of `p`; a UDP packet without one has none. -/
structure Consistent (p q : Skb) : Prop where
  ip : q.ipSum ≡ p.ipSum [MOD 65535]
  l4 : if p.preserveZeroUdpChecksum then q.l4Check = 0 else q.l4Sum ≡ p.l4Sum [MOD 65535]

/-- Where a redirect sends a packet, and between which MACs. -/
structure Hop where
  ifindex : UInt32
  smac : Mac
  dmac : Mac

/-- A piped packet keeps its TTL and MACs. A redirected one has lived one hop, between the two
    MACs of the hop it is sent to. -/
inductive Leaves (hops : Hop → Prop) (p q : Skb) : Verdict → Prop
  | piped (ttl : q.ttl = p.ttl) (dstMac : q.dstMac = p.dstMac) (srcMac : q.srcMac = p.srcMac) : Leaves hops p q .pipe
  | redirected (hop : Hop) (offered : hops hop) (ttl : q.ttl.toNat + 1 = p.ttl.toNat) (dstMac : q.dstMac = hop.dmac)
      (srcMac : q.srcMac = hop.smac) : Leaves hops p q (.redirect hop.ifindex)

/-- A packet with a new TOS byte and nothing else but the checksum for it. -/
structure Marked (t : MarkMaps) (p q : Skb) : Prop where
  frame : q = { p with tos := t.tos p.tos, check := q.check }
  consistent : Consistent p q

/-- A packet sent to the backend of the flow that `m` has under its tuple. -/
structure SentToBackend (m : Maps) (p q : Skb) (v : Verdict) (flow : NativeFlowValue) : Prop where
  flow_of : m.flows.lookup (flowKey p) = some flow
  frame : q = { p with
    dst := flow.target, dport := flow.targetPort, check := q.check, l4Check := q.l4Check
    ttl := q.ttl, dstMac := q.dstMac, srcMac := q.srcMac }
  consistent : Consistent p q
  leaves : Leaves (fun hop => ∃ route, m.targetRoutes.lookup ⟨flow.listenerId, flow.targetId⟩ = some route ∧
    hop = ⟨route.ifindex, route.sourceMac, route.destinationMac⟩) p q v

/-- A packet sent from the VIP of the flow that `m` has under its tuple. -/
structure SentFromVip (K : Kernel) (m : Maps) (p q : Skb) (v : Verdict) (flow : NativeFlowValue) : Prop where
  flow_of : m.flows.lookup (flowKey p) = some flow
  frame : q = { p with
    src := flow.vip, sport := toBe flow.vipPort, check := q.check, l4Check := q.l4Check
    ttl := q.ttl, dstMac := q.dstMac, srcMac := q.srcMac }
  consistent : Consistent p q
  leaves : Leaves (fun hop => ∃ params fib, K.fibLookup params = some fib ∧ hop = ⟨fib.ifindex, fib.smac, fib.dmac⟩) p q v

inductive Program
  | mark | ingress | ret
  deriving DecidableEq, Repr

section programs

variable (K : Kernel) (ok : MarkCall → Bool) (t : MarkMaps) (m : Maps) (p : Skb) (now : UInt64)

def Program.run : Program → Maps × Skb × Verdict
  | .mark => (m, dscpMark ok t p)
  | .ingress => nativeDnatIngress K m p now
  | .ret => nativeDnatReturn K m p now

/-- The packet a program passes on is the one it received or completely rewritten. -/
def Program.Whole (prog : Program) : Prop :=
  let out := prog.run K ok t m p now
  out.2.1 = p ∨
    match prog with
    | .mark => Marked t p out.2.1
    | .ingress => ∃ flow, SentToBackend out.1 p out.2.1 out.2.2 flow
    | .ret => ∃ flow, SentFromVip K out.1 p out.2.1 out.2.2 flow

/-- `dscp_mark` does not store the TOS byte without its checksum. The DNAT programs find no
    live flow whose value names another old address than the packet's, by its checksum. -/
def Program.Meets : Program → Prop
  | .mark => p.marked t = true → ok .storeTos = true → ok .storeCheck = true
  | .ingress => ∀ flow, p.parses = true → m.flows.lookup (flowKey p) = some flow → flow.expired now = false →
      halves flow.vip.toNat ≡ halves p.dst.toNat [MOD 65535]
  | .ret => ∀ flow, p.parses = true → m.flows.lookup (flowKey p) = some flow → flow.expired now = false →
      halves flow.target.toNat ≡ halves p.src.toNat [MOD 65535]

end programs

/-! ## Words as numbers -/

theorem toBe_toNat (x : UInt16) : (toBe x).toNat = swap16 x.toNat := by
  have hx := x.toNat_lt
  have hleft : (x <<< 8).toNat = x.toNat % 256 * 2 ^ 8 := by
    rw [UInt16.toNat_shiftLeft]
    show x.toNat <<< 8 % 2 ^ 16 = _
    rw [Nat.shiftLeft_eq]
    omega
  have hright : (x >>> 8).toNat = x.toNat / 256 := by
    rw [UInt16.toNat_shiftRight]
    exact Nat.shiftRight_eq_div_pow x.toNat 8
  rw [toBe, UInt16.toNat_or, hleft, hright, or_below _ (by omega)]
  rfl

theorem toBe32_toNat (x : UInt32) : (toBe32 x).toNat =
    ((x.toNat % 256 * 256 + x.toNat / 256 % 256) * 256 + x.toNat / 65536 % 256) * 256 + x.toNat / 16777216 := by
  have hx := x.toNat_lt
  have h3 : (x <<< 24).toNat = x.toNat % 256 * 2 ^ 24 := by
    rw [UInt32.toNat_shiftLeft]
    show x.toNat <<< 24 % 2 ^ 32 = _
    rw [Nat.shiftLeft_eq]
    omega
  have h2 : ((x &&& (0xff00 : UInt32)) <<< 8).toNat = x.toNat / 256 % 256 * 2 ^ 16 := by
    rw [UInt32.toNat_shiftLeft, UInt32.toNat_and]
    show (x.toNat &&& 0xff00) <<< 8 % 2 ^ 32 = _
    rw [and_ff00, Nat.shiftLeft_eq]
    omega
  have h1 : ((x >>> 8) &&& (0xff00 : UInt32)).toNat = x.toNat / 65536 % 256 * 2 ^ 8 := by
    rw [UInt32.toNat_and, UInt32.toNat_shiftRight]
    show x.toNat >>> 8 &&& 0xff00 = _
    rw [and_ff00, Nat.shiftRight_eq_div_pow]
    omega
  have h0 : (x >>> 24).toNat = x.toNat / 16777216 := by
    rw [UInt32.toNat_shiftRight]
    exact Nat.shiftRight_eq_div_pow x.toNat 24
  rw [toBe32, UInt32.toNat_or, UInt32.toNat_or, UInt32.toNat_or, h3, h2, h1, h0, or_below _ (by omega),
    show x.toNat % 256 * 2 ^ 24 + x.toNat / 256 % 256 * 2 ^ 16 =
      (x.toNat % 256 * 256 + x.toNat / 256 % 256) * 2 ^ 16 by omega, or_below _ (by omega),
    show (x.toNat % 256 * 256 + x.toNat / 256 % 256) * 2 ^ 16 + x.toNat / 65536 % 256 * 2 ^ 8 =
      ((x.toNat % 256 * 256 + x.toNat / 256 % 256) * 256 + x.toNat / 65536 % 256) * 2 ^ 8 by omega,
    or_below _ (by omega)]
  rfl

/-- The halves change places, each with its bytes the other way round. -/
theorem halves_swapped (x : UInt32) :
    halves (toBe32 x).toNat = swap16 (x.toNat % 65536) + swap16 (x.toNat / 65536) := by
  have hx := x.toNat_lt
  have h2 : x.toNat / 65536 = x.toNat / 256 / 256 := by omega
  have h3 : x.toNat / 16777216 = x.toNat / 256 / 256 / 256 := by omega
  have h0 : x.toNat % 65536 % 256 = x.toNat % 256 := by omega
  have h1 : x.toNat % 65536 / 256 = x.toNat / 256 % 256 := by omega
  have hhigh : (toBe32 x).toNat / 65536 = swap16 (x.toNat % 65536) := by
    rw [toBe32_toNat, swap16, h0, h1, h2, h3]
    omega
  have hlow : (toBe32 x).toNat % 65536 = swap16 (x.toNat / 65536) := by
    rw [toBe32_toNat, swap16, h2, h3]
    omega
  rw [halves, hhigh, hlow]

theorem halves_toBe32 (x : UInt32) : halves (toBe32 x).toNat ≡ 256 * halves x.toNat [MOD 65535] := by
  rw [halves_swapped, halves, Nat.mul_add, Nat.add_comm (256 * _)]
  exact (swap16_modEq _).add (swap16_modEq _)

theorem bytes_toNat (a b : UInt8) : ((a.toUInt32 <<< 8) ||| b.toUInt32).toNat = a.toNat * 256 + b.toNat := by
  have ha := a.toNat_lt
  have hshift : (a.toUInt32 <<< 8).toNat = a.toNat * 2 ^ 8 := by
    rw [UInt32.toNat_shiftLeft]
    show a.toNat <<< 8 % 2 ^ 32 = _
    rw [Nat.shiftLeft_eq]
    omega
  rw [UInt32.toNat_or, hshift]
  exact or_below a.toNat b.toNat_lt

theorem bytes16_toNat (a b : UInt8) : ((a.toUInt16 <<< 8) ||| b.toUInt16).toNat = a.toNat * 256 + b.toNat := by
  have ha := a.toNat_lt
  have hshift : (a.toUInt16 <<< 8).toNat = a.toNat * 2 ^ 8 := by
    rw [UInt16.toNat_shiftLeft]
    show a.toNat <<< 8 % 2 ^ 16 = _
    rw [Nat.shiftLeft_eq]
    omega
  rw [UInt16.toNat_or, hshift]
  exact or_below a.toNat b.toNat_lt

theorem low_half (s : UInt32) : (s &&& (0xffff : UInt32)).toNat = s.toNat % 65536 := by
  rw [UInt32.toNat_and]
  exact Nat.and_two_pow_sub_one_eq_mod s.toNat 16

theorem high_half (s : UInt32) : (s >>> 16).toNat = s.toNat / 65536 := by
  rw [UInt32.toNat_shiftRight]
  exact Nat.shiftRight_eq_div_pow s.toNat 16

theorem foldSum_toNat (s : UInt32) : (foldSum s).toNat = s.toNat % 65536 + s.toNat / 65536 := by
  have hs := s.toNat_lt
  rw [foldSum, UInt32.toNat_add, low_half, high_half]
  omega

/-- The sum `incremental_csum` folds. -/
def csumSum (c old new : UInt16) : UInt32 :=
  ((~~~c).toUInt32 &&& (0xffff : UInt32)) + ((~~~old).toUInt32 &&& (0xffff : UInt32)) + new.toUInt32

theorem csumSum_toNat (c old new : UInt16) :
    (csumSum c old new).toNat = (65535 - c.toNat) + (65535 - old.toNat) + new.toNat := by
  have hc := c.toNat_lt
  have ho := old.toNat_lt
  have hn := new.toNat_lt
  rw [csumSum]
  simp only [UInt32.toNat_add, low_half, UInt16.toNat_toUInt32, UInt16.toNat_not, UInt16.size]
  omega

/-- Two folds are enough for three words. -/
theorem fold_csumSum_lt (c old new : UInt16) : (foldSum (foldSum (csumSum c old new))).toNat < 65536 := by
  have hn := new.toNat_lt
  simp only [foldSum_toNat, csumSum_toNat]
  omega

theorem incrementalCsum_toNat (c old new : UInt16) :
    (incrementalCsum c old new).toNat = 65535 - (foldSum (foldSum (csumSum c old new))).toNat := by
  have hfold := fold_csumSum_lt c old new
  show (~~~(foldSum (foldSum (csumSum c old new))).toUInt16).toNat = _
  rw [UInt16.toNat_not, UInt32.toNat_toUInt16, UInt16.size]
  omega

theorem incrementalCsum_updates (c old new : UInt16) :
    Updates c.toNat (incrementalCsum c old new).toNat old.toNat new.toNat := by
  have hc := c.toNat_lt
  have ho := old.toNat_lt
  have hn := new.toNat_lt
  unfold Updates Nat.ModEq
  rw [incrementalCsum_toNat]
  simp only [foldSum_toNat, csumSum_toNat]
  omega

theorem ipSum_eq : p.ipSum = (p.versionIhl.toNat * 256 + p.tos.toNat) + p.totLen.toNat + p.id.toNat +
    p.frag.toNat + (p.ttl.toNat * 256 + p.proto.toNat) + p.check.toNat + halves p.src.toNat + halves p.dst.toNat := by
  simp only [Skb.ipSum, Skb.ipWords, List.map_cons, List.map_nil, List.sum_cons, List.sum_nil, bytes_toNat,
    high_half, low_half, UInt16.toNat_toUInt32, halves]
  omega

/-! ## The checksum helpers of the kernel -/

/-- `bpf_l3_csum_replace` and `bpf_l4_csum_replace` on words as they lie in memory: each makes
    the checksum up for the word that is replaced. -/
structure Kernel.Sums (K : Kernel) : Prop where
  l3 : ∀ (c : UInt16) (a b : UInt32),
    Updates c.toNat (K.l3CsumReplace c a.toUInt64 b.toUInt64 4).toNat (halves a.toNat) (halves b.toNat)
  l4Address : ∀ (c : UInt16) (a b : UInt32),
    Updates c.toNat (K.l4CsumReplace c a.toUInt64 b.toUInt64 (4 ||| BPF_F_PSEUDO_HDR)).toNat (halves a.toNat)
      (halves b.toNat)
  l4Port : ∀ c a b : UInt16, Updates c.toNat (K.l4CsumReplace c a.toUInt64 b.toUInt64 2).toNat a.toNat b.toNat

def Skb.address : Side → UInt32
  | .destination => p.dst
  | .source => p.src

def Skb.port : Side → UInt16
  | .destination => p.dport
  | .source => p.sport

section rewrite

variable {K : Kernel} (hK : K.Sums) (r : Rewrite) (side : Side) (p : Skb)
include hK

theorem l3_updates : Updates p.check.toNat (r.l3 K p).check.toNat (halves r.oldAddress.toNat)
    (halves r.newAddress.toNat) := by
  have h := hK.l3 (toBe p.check) (toBe32 r.oldAddress) (toBe32 r.newAddress)
  rw [← toBe_toBe (K.l3CsumReplace ..), toBe_toNat p.check, toBe_toNat] at h
  exact h.of_swapped (halves_toBe32 _) (halves_toBe32 _)

theorem l4Address_updates : Updates p.l4Check.toNat (r.l4Address K p).l4Check.toNat (halves r.oldAddress.toNat)
    (halves r.newAddress.toNat) := by
  have h := hK.l4Address (toBe p.l4Check) (toBe32 r.oldAddress) (toBe32 r.newAddress)
  rw [← toBe_toBe (K.l4CsumReplace ..), toBe_toNat p.l4Check, toBe_toNat] at h
  exact h.of_swapped (halves_toBe32 _) (halves_toBe32 _)

theorem l4Port_updates : Updates p.l4Check.toNat (r.l4Port K p).l4Check.toNat r.oldPort.toNat r.newPort.toNat := by
  have h := hK.l4Port (toBe p.l4Check) (toBe r.oldPort) (toBe r.newPort)
  rw [← toBe_toBe (K.l4CsumReplace ..), toBe_toNat p.l4Check, toBe_toNat (toBe _), toBe_toNat r.oldPort,
    toBe_toNat r.newPort] at h
  exact h.of_swapped (swap16_modEq _) (swap16_modEq _)

end rewrite

/-! ## A rewrite that went through -/

theorem write_cases (K : Kernel) (r : Rewrite) (side : Side) (p : Skb) :
    (r.write K side p).2 = false ∨ r.write K side p = (r.applied K side p, true) := by
  unfold Rewrite.write Rewrite.applied
  dsimp only
  repeat' split
  all_goals simp_all

section applied

variable (K : Kernel) (r : Rewrite) (p : Skb)

/-- The transport checksum a rewrite leaves. -/
def Rewrite.l4CheckAfter : UInt16 :=
  if r.preserveZeroUdpChecksum then 0 else (r.l4Port K (r.l4Address K p)).l4Check

theorem applied_destination_eq : r.applied K .destination p = { p with
    dst := r.newAddress, dport := r.newPort, check := (r.l3 K p).check, l4Check := r.l4CheckAfter K p } := by
  simp only [Rewrite.applied, Rewrite.l4CheckAfter, Rewrite.l4Port, Rewrite.l4Address, Rewrite.l3, Skb.setAddress,
    Skb.setPort, Skb.setCheck, Skb.setL4Check]
  split <;> rfl

theorem applied_source_eq : r.applied K .source p = { p with
    src := r.newAddress, sport := r.newPort, check := (r.l3 K p).check, l4Check := r.l4CheckAfter K p } := by
  simp only [Rewrite.applied, Rewrite.l4CheckAfter, Rewrite.l4Port, Rewrite.l4Address, Rewrite.l3, Skb.setAddress,
    Skb.setPort, Skb.setCheck, Skb.setL4Check]
  split <;> rfl

variable {K} (hK : K.Sums) (side : Side)
include hK

/-- The IPv4 sum is off by the old address that the rewrite was told and the one it replaced. -/
theorem applied_ipSum : (r.applied K side p).ipSum + halves (p.address side).toNat ≡
    p.ipSum + halves r.oldAddress.toNat [MOD 65535] := by
  have hcheck := l3_updates hK r p
  unfold Updates Nat.ModEq at hcheck
  cases side with
  | destination =>
    rw [applied_destination_eq, ipSum_eq, ipSum_eq p]
    dsimp only [Skb.address]
    unfold Nat.ModEq
    omega
  | source =>
    rw [applied_source_eq, ipSum_eq, ipSum_eq p]
    dsimp only [Skb.address]
    unfold Nat.ModEq
    omega

theorem applied_l4Sum (hzero : r.preserveZeroUdpChecksum = false) (hport : r.oldPort = p.port side) :
    (r.applied K side p).l4Sum + halves (p.address side).toNat ≡
      p.l4Sum + halves r.oldAddress.toNat [MOD 65535] := by
  have hcheck := (l4Address_updates hK r p).trans (l4Port_updates hK r (r.l4Address K p))
  have hl4 : r.l4CheckAfter K p = (r.l4Port K (r.l4Address K p)).l4Check := by
    rw [Rewrite.l4CheckAfter, hzero, if_neg Bool.false_ne_true]
  rw [← hl4, hport] at hcheck
  unfold Updates Nat.ModEq at hcheck
  cases side with
  | destination =>
    rw [applied_destination_eq]
    dsimp only [Skb.l4Sum, Skb.address, Skb.port] at hcheck ⊢
    unfold Nat.ModEq
    omega
  | source =>
    rw [applied_source_eq]
    dsimp only [Skb.l4Sum, Skb.address, Skb.port] at hcheck ⊢
    unfold Nat.ModEq
    omega

/-- A rewrite that is told the old port and address of the packet leaves consistent checksums. -/
theorem consistent_applied (hzero : r.preserveZeroUdpChecksum = p.preserveZeroUdpChecksum)
    (hport : r.oldPort = p.port side) (haddr : halves r.oldAddress.toNat ≡ halves (p.address side).toNat [MOD 65535]) :
    Consistent p (r.applied K side p) := by
  refine ⟨haddr.symm.add_right_cancel (applied_ipSum r p hK side), ?_⟩
  by_cases hpres : p.preserveZeroUdpChecksum = true
  · rw [if_pos hpres]
    have hafter : r.l4CheckAfter K p = 0 := by
      rw [Rewrite.l4CheckAfter, hzero, if_pos hpres]
    cases side with
    | destination => rw [applied_destination_eq, hafter]
    | source => rw [applied_source_eq, hafter]
  · rw [if_neg hpres]
    have hfalse : r.preserveZeroUdpChecksum = false := by
      rw [hzero]
      exact Bool.eq_false_iff.mpr hpres
    exact haddr.symm.add_right_cancel (applied_l4Sum r p hK side hfalse hport)

end applied

/-! ## A packet sent on -/

/-- The packet that `transmit` redirects. -/
def Skb.transmitted (hop : Hop) : Skb :=
  { p with
    ttl := p.ttl - 1
    check := incrementalCsum p.check ((p.ttl.toUInt16 <<< 8) ||| p.proto.toUInt16)
      (((p.ttl - 1).toUInt16 <<< 8) ||| p.proto.toUInt16)
    dstMac := hop.dmac
    srcMac := hop.smac }

theorem transmit_cases (K : Kernel) (p : Skb) (hop : Hop) :
    (transmit K p hop.ifindex hop.smac hop.dmac).2 = .shot ∨
      transmit K p hop.ifindex hop.smac hop.dmac = (p.transmitted hop, .redirect hop.ifindex) := by
  unfold transmit
  dsimp only
  by_cases hip : K.ok .storeIp = true
  · by_cases hmacs : K.ok .storeMacs = true
    · by_cases hredirect : K.ok .redirect = true
      · right
        simp only [hip, hmacs, hredirect, Bool.not_true, Bool.false_eq_true, if_false, if_true]
        rfl
      · left
        simp [hip, hmacs, hredirect]
    · left
      simp [hip, hmacs]
  · left
    simp [hip]

theorem transmitted_ttl {p : Skb} (h : 1 < p.ttl) (hop : Hop) : (p.transmitted hop).ttl.toNat + 1 = p.ttl.toNat := by
  have hlt : 1 < p.ttl.toNat := UInt8.lt_iff_toNat_lt.mp h
  have hle : (1 : UInt8) ≤ p.ttl := UInt8.le_iff_toNat_le.mpr (Nat.le_of_lt hlt)
  show (p.ttl - 1).toNat + 1 = p.ttl.toNat
  rw [UInt8.toNat_sub_of_le _ _ hle]
  show p.ttl.toNat - 1 + 1 = p.ttl.toNat
  omega

theorem transmitted_ipSum (hop : Hop) : (p.transmitted hop).ipSum ≡ p.ipSum [MOD 65535] := by
  have hcheck := incrementalCsum_updates p.check ((p.ttl.toUInt16 <<< 8) ||| p.proto.toUInt16)
    (((p.ttl - 1).toUInt16 <<< 8) ||| p.proto.toUInt16)
  rw [bytes16_toNat, bytes16_toNat] at hcheck
  rw [ipSum_eq, ipSum_eq p]
  unfold Updates Nat.ModEq at hcheck
  unfold Nat.ModEq
  dsimp only [Skb.transmitted]
  omega

/-- What a redirect stage answers for the packet it is given: the packet as it is, the packet
    moved on by one hop, or SHOT. -/
inductive Sent (hops : Hop → Prop) (a : Skb) : Skb × Verdict → Prop
  | kept : Sent hops a (a, .pipe)
  | moved (hop : Hop) (offered : hops hop) (alive : 1 < a.ttl) : Sent hops a (a.transmitted hop, .redirect hop.ifindex)
  | shot (q : Skb) : Sent hops a (q, .shot)

theorem transmit_sent {hops : Hop → Prop} (K : Kernel) {a : Skb} (hop : Hop) (offered : hops hop) (alive : 1 < a.ttl) :
    Sent hops a (transmit K a hop.ifindex hop.smac hop.dmac) := by
  rcases transmit_cases K a hop with h | h
  · have hpair : transmit K a hop.ifindex hop.smac hop.dmac =
        ((transmit K a hop.ifindex hop.smac hop.dmac).1, .shot) := Prod.ext rfl h
    rw [hpair]
    exact .shot _
  · rw [h]
    exact .moved hop offered alive

theorem forwardRoute_ok {m : Maps} {p : Skb} {key : NativeTargetKey} {now : UInt64} {route : NativeTargetRoute}
    (h : forwardRoute m p key now = .ok route) : m.targetRoutes.lookup key = some route ∧ 1 < p.ttl := by
  unfold forwardRoute at h
  cases hroute : m.targetRoutes.lookup key with
  | none => simp [hroute] at h
  | some r =>
    simp only [hroute] at h
    split at h
    · cases h
    split at h
    · cases h
    split at h
    · cases h
    split at h
    · cases h
    rename_i hvalid
    split at h
    · injection h with h
      refine ⟨congrArg some h, ?_⟩
      unfold NativeTargetRoute.validate at hvalid
      by_cases httl : p.ttl ≤ 1
      · simp only [httl, if_true] at hvalid
        repeat' split at hvalid
        all_goals cases hvalid
      · exact UInt8.not_le.mp httl
    · cases h

theorem forward_sent (K : Kernel) (m : Maps) (p : Skb) (key : NativeTargetKey) (now : UInt64) :
    Sent (fun hop => ∃ route, m.targetRoutes.lookup key = some route ∧
      hop = ⟨route.ifindex, route.sourceMac, route.destinationMac⟩) p (forward K m p key now) := by
  unfold forward
  cases h : forwardRoute m p key now with
  | error e => exact .kept
  | ok route =>
    obtain ⟨hroute, httl⟩ := forwardRoute_ok h
    exact transmit_sent K ⟨route.ifindex, route.sourceMac, route.destinationMac⟩ ⟨route, hroute, rfl⟩ httl

theorem returnHop_some {K : Kernel} {m : Maps} {p : Skb} {now : UInt64} {fib : FibHop}
    (h : returnHop K m p now = some fib) : (∃ params, K.fibLookup params = some fib) ∧ 1 < p.ttl := by
  unfold returnHop at h
  split at h
  · cases h
  split at h
  · cases h
  rename_i httl
  split at h
  · cases h
  split at h
  · cases h
  split at h
  · cases h
  rename_i hop hfib
  split at h
  · cases h
  split at h
  · cases h
  split at h
  · cases h
  injection h with h
  exact ⟨⟨_, h ▸ hfib⟩, UInt8.not_le.mp httl⟩

theorem returnForward_sent (K : Kernel) (m : Maps) (p : Skb) (now : UInt64) :
    Sent (fun hop => ∃ params fib, K.fibLookup params = some fib ∧ hop = ⟨fib.ifindex, fib.smac, fib.dmac⟩) p
      (returnForward K m p now) := by
  unfold returnForward
  cases h : returnHop K m p now with
  | none => exact .kept
  | some fib =>
    obtain ⟨⟨params, hfib⟩, httl⟩ := returnHop_some h
    exact transmit_sent K ⟨fib.ifindex, fib.smac, fib.dmac⟩ ⟨params, fib, hfib, rfl⟩ httl

section sent

variable {hops : Hop → Prop} {a : Skb} {out : Skb × Verdict} (h : Sent hops a out) (hpass : out.2 ≠ .shot)
include h hpass

theorem sent_ipSum : out.1.ipSum ≡ a.ipSum [MOD 65535] := by
  cases h with
  | kept => rfl
  | moved hop _ _ => exact transmitted_ipSum a hop
  | shot => exact absurd rfl hpass

theorem sent_frame : out.1 = { a with
    check := out.1.check, ttl := out.1.ttl, dstMac := out.1.dstMac, srcMac := out.1.srcMac } := by
  cases h with
  | kept => rfl
  | moved => rfl
  | shot => exact absurd rfl hpass

theorem sent_leaves : Leaves hops a out.1 out.2 := by
  cases h with
  | kept => exact .piped rfl rfl rfl
  | moved hop offered alive => exact .redirected hop offered (transmitted_ttl alive hop) rfl rfl
  | shot => exact absurd rfl hpass

/-- Sending a packet on keeps its checksums as right as they were. -/
theorem sent_consistent {p : Skb} (hp : Consistent p a) : Consistent p out.1 := by
  have hframe := sent_frame h hpass
  have hl4 : out.1.l4Check = a.l4Check := by rw [hframe]
  have hsum : out.1.l4Sum = a.l4Sum := by rw [hframe]; rfl
  refine ⟨(sent_ipSum h hpass).trans hp.ip, ?_⟩
  rw [hl4, hsum]
  exact hp.l4

end sent

theorem Leaves.of_applied {hops : Hop → Prop} {K : Kernel} {r : Rewrite} {side : Side} {p q : Skb} {v : Verdict}
    (h : Leaves hops (r.applied K side p) q v) : Leaves hops p q v := by
  have httl : (r.applied K side p).ttl = p.ttl := by
    cases side with
    | destination => rw [applied_destination_eq]
    | source => rw [applied_source_eq]
  have hdst : (r.applied K side p).dstMac = p.dstMac := by
    cases side with
    | destination => rw [applied_destination_eq]
    | source => rw [applied_source_eq]
  have hsrc : (r.applied K side p).srcMac = p.srcMac := by
    cases side with
    | destination => rw [applied_destination_eq]
    | source => rw [applied_source_eq]
  cases h with
  | piped ttl dstMac srcMac => exact .piped (ttl.trans httl) (dstMac.trans hdst) (srcMac.trans hsrc)
  | redirected hop offered ttl dstMac srcMac => exact .redirected hop offered (httl ▸ ttl) dstMac srcMac

/-! ## The DNAT programs -/

theorem rewriteForward_sent (K : Kernel) (m : Maps) (p : Skb) (r : Rewrite) (key : NativeTargetKey) (now : UInt64)
    (hpass : (rewriteForward K m p r key now).2 ≠ .shot) :
    Sent (fun hop => ∃ route, m.targetRoutes.lookup key = some route ∧
      hop = ⟨route.ifindex, route.sourceMac, route.destinationMac⟩) (r.applied K .destination p)
      (rewriteForward K m p r key now) := by
  unfold rewriteForward at hpass ⊢
  rcases write_cases K r .destination p with h | h
  · have hpair : r.write K .destination p = ((r.write K .destination p).1, false) := Prod.ext rfl h
    rw [hpair] at hpass
    exact absurd rfl hpass
  · rw [h]
    exact forward_sent K m _ key now

section dnat

variable {K : Kernel} (hK : K.Sums) {r : Rewrite} {m : Maps} {p : Skb} {flow : NativeFlowValue} {out : Skb × Verdict}
  {hops : Hop → Prop}
include hK

/-- The packet sent on sums up as the packet received exactly when the rewrite was told the
    address it replaced. -/
theorem kept_ipSum_iff {side : Side} (hsent : Sent hops (r.applied K side p) out) (hpass : out.2 ≠ .shot) :
    out.1.ipSum ≡ p.ipSum [MOD 65535] ↔ halves r.oldAddress.toNat ≡ halves (p.address side).toNat [MOD 65535] := by
  have hsum := applied_ipSum r p hK side
  have hout := sent_ipSum hsent hpass
  constructor
  · intro hkept
    exact ((hout.symm.trans hkept).add_left_cancel hsum).symm
  · intro haddr
    exact hout.trans (haddr.symm.add_right_cancel hsum)

theorem backend_whole_iff (hflow : m.flows.lookup (flowKey p) = some flow) (haddress : r.newAddress = flow.target)
    (hnewPort : r.newPort = flow.targetPort) (hport : r.oldPort = p.dport)
    (hzero : r.preserveZeroUdpChecksum = p.preserveZeroUdpChecksum)
    (hsent : Sent (fun hop => ∃ route, m.targetRoutes.lookup ⟨flow.listenerId, flow.targetId⟩ = some route ∧
      hop = ⟨route.ifindex, route.sourceMac, route.destinationMac⟩) (r.applied K .destination p) out)
    (hpass : out.2 ≠ .shot) :
    (out.1 = p ∨ ∃ flow, SentToBackend m p out.1 out.2 flow) ↔
      halves r.oldAddress.toNat ≡ halves p.dst.toNat [MOD 65535] := by
  constructor
  · intro h
    apply (kept_ipSum_iff hK hsent hpass).mp
    rcases h with h | ⟨_, h⟩
    · rw [h]
    · exact h.consistent.ip
  · intro haddr
    refine .inr ⟨flow, hflow, ?_, sent_consistent hsent hpass (consistent_applied r p hK .destination hzero hport haddr),
      (sent_leaves hsent hpass).of_applied⟩
    have hframe := sent_frame hsent hpass
    rw [applied_destination_eq, haddress, hnewPort] at hframe
    have hl4 : out.1.l4Check = r.l4CheckAfter K p := by rw [hframe]
    rw [hl4]
    exact hframe

theorem vip_whole_iff (hflow : m.flows.lookup (flowKey p) = some flow) (haddress : r.newAddress = flow.vip)
    (hnewPort : r.newPort = toBe flow.vipPort) (hport : r.oldPort = p.sport)
    (hzero : r.preserveZeroUdpChecksum = p.preserveZeroUdpChecksum)
    (hsent : Sent (fun hop => ∃ params fib, K.fibLookup params = some fib ∧ hop = ⟨fib.ifindex, fib.smac, fib.dmac⟩)
      (r.applied K .source p) out) (hpass : out.2 ≠ .shot) :
    (out.1 = p ∨ ∃ flow, SentFromVip K m p out.1 out.2 flow) ↔
      halves r.oldAddress.toNat ≡ halves p.src.toNat [MOD 65535] := by
  constructor
  · intro h
    apply (kept_ipSum_iff hK hsent hpass).mp
    rcases h with h | ⟨_, h⟩
    · rw [h]
    · exact h.consistent.ip
  · intro haddr
    refine .inr ⟨flow, hflow, ?_, sent_consistent hsent hpass (consistent_applied r p hK .source hzero hport haddr),
      (sent_leaves hsent hpass).of_applied⟩
    have hframe := sent_frame hsent hpass
    rw [applied_source_eq, haddress, hnewPort] at hframe
    have hl4 : out.1.l4Check = r.l4CheckAfter K p := by rw [hframe]
    rw [hl4]
    exact hframe

/-- A new flow is opened with the address and port of the packet itself. -/
theorem openFlow_whole (now : UInt64) (hpass : (openFlow K m p now).2.2 ≠ .shot) :
    (openFlow K m p now).2.1 = p ∨
      ∃ flow, SentToBackend (openFlow K m p now).1 p (openFlow K m p now).2.1 (openFlow K m p now).2.2 flow := by
  cases ho : (pick m p).1 with
  | none =>
    left
    rw [openFlow_none ho]
  | some o =>
    simp only [openFlow, ho] at hpass ⊢
    have hsent := rewriteForward_sent K _ p _ _ now hpass
    have hflow : (insertFlow { m with rrCounters := (pick m p).2 } (flowKey p)
        (makeFlowKey o.target.address p.src o.target.port p.sport p.proto) (o.value p now)).flows.lookup (flowKey p) =
          some (o.value p now) := by
      rw [insertFlow_flows, lookup_insertPair_left]
    exact (backend_whole_iff hK hflow rfl rfl rfl rfl hsent hpass).mpr rfl

theorem ingress_whole_iff (now : UInt64) (hpass : (nativeDnatIngress K m p now).2.2 ≠ .shot) :
    ((nativeDnatIngress K m p now).2.1 = p ∨ ∃ flow, SentToBackend (nativeDnatIngress K m p now).1 p
        (nativeDnatIngress K m p now).2.1 (nativeDnatIngress K m p now).2.2 flow) ↔
      ∀ flow, p.parses = true → m.flows.lookup (flowKey p) = some flow → flow.expired now = false →
        halves flow.vip.toNat ≡ halves p.dst.toNat [MOD 65535] := by
  by_cases hp : p.parses = true
  · cases hv : m.flows.lookup (flowKey p) with
    | none =>
      rw [ingress_miss hp hv] at hpass ⊢
      exact ⟨fun _ flow _ h => (by cases h), fun _ => openFlow_whole hK now hpass⟩
    | some v =>
      by_cases hexp : v.expired now = true
      · rw [ingress_expired hp hv hexp] at hpass ⊢
        refine ⟨fun _ flow _ h hlive => ?_, fun _ => openFlow_whole hK now hpass⟩
        cases h
        rw [hexp] at hlive
        cases hlive
      · have hlive : v.expired now = false := Bool.eq_false_iff.mpr hexp
        simp only [nativeDnatIngress, hp, hv, hlive, Bool.not_true, Bool.not_false, Bool.false_eq_true, if_false,
          if_true] at hpass ⊢
        have hsent := rewriteForward_sent K _ p _ _ now hpass
        have hflow : (refreshFlow m (flowKey p) ((flowKey p).reverseFor v) v now).flows.lookup (flowKey p) =
            some (v.refreshed now) := by
          rw [refreshFlow_flows, lookup_insertPair_left]
        have hiff := backend_whole_iff hK hflow rfl rfl rfl rfl hsent hpass
        refine hiff.trans ⟨fun h flow _ hflow _ => ?_, fun h => h v trivial rfl hlive⟩
        cases hflow
        exact h
  · have hout : nativeDnatIngress K m p now = (m, p, .pipe) := by simp [nativeDnatIngress, hp]
    rw [hout]
    exact ⟨fun _ flow h => absurd h hp, fun _ => .inl rfl⟩

theorem return_whole_iff (now : UInt64) (hpass : (nativeDnatReturn K m p now).2.2 ≠ .shot) :
    ((nativeDnatReturn K m p now).2.1 = p ∨ ∃ flow, SentFromVip K (nativeDnatReturn K m p now).1 p
        (nativeDnatReturn K m p now).2.1 (nativeDnatReturn K m p now).2.2 flow) ↔
      ∀ flow, p.parses = true → m.flows.lookup (flowKey p) = some flow → flow.expired now = false →
        halves flow.target.toNat ≡ halves p.src.toNat [MOD 65535] := by
  by_cases hp : p.parses = true
  · cases hv : m.flows.lookup (flowKey p) with
    | none =>
      rw [return_miss hv]
      exact ⟨fun _ flow _ h => (by cases h), fun _ => .inl rfl⟩
    | some v =>
      by_cases hexp : v.expired now = true
      · rw [return_expired hp hv hexp]
        refine ⟨fun _ flow _ h hlive => ?_, fun _ => .inl rfl⟩
        cases h
        rw [hexp] at hlive
        cases hlive
      · have hlive : v.expired now = false := Bool.eq_false_iff.mpr hexp
        simp only [nativeDnatReturn, hp, hv, hlive, Bool.not_true, Bool.false_eq_true, if_false] at hpass ⊢
        set r : Rewrite := { oldAddress := v.target, newAddress := v.vip, oldPort := p.sport, newPort := toBe v.vipPort,
                             preserveZeroUdpChecksum := p.preserveZeroUdpChecksum }
        rcases write_cases K r .source p with h | h
        · have hpair : r.write K .source p = ((r.write K .source p).1, false) := Prod.ext rfl h
          rw [hpair] at hpass
          exact absurd rfl hpass
        · rw [h] at hpass ⊢
          have hflow : (refreshFlow m (flowKey p) ((flowKey p).forwardFor v) v now).flows.lookup (flowKey p) =
              some (v.refreshed now) := by
            rw [refreshFlow_flows, lookup_insertPair_left]
          have hiff := vip_whole_iff hK (r := r) hflow rfl rfl rfl rfl (returnForward_sent K _ _ now) hpass
          refine hiff.trans ⟨fun h flow _ hflow _ => ?_, fun h => h v trivial rfl hlive⟩
          cases hflow
          exact h
  · have hout : nativeDnatReturn K m p now = (m, p, .pipe) := by simp [nativeDnatReturn, hp]
    rw [hout]
    exact ⟨fun _ flow h => absurd h hp, fun _ => .inl rfl⟩

end dnat

/-! ## The marker -/

theorem markCheck_updates :
    Updates p.check.toNat (markCheck p newTos).toNat p.tos.toNat newTos.toNat := by
  set vihl : UInt8 := (p.version <<< 4) ||| (p.ihl >>> 2) with hvihl
  have hlt := vihl.toNat_lt
  have htos := p.tos.toNat_lt
  set old : UInt16 := (vihl.toUInt16 <<< 8) ||| p.tos.toUInt16 with hold
  have hnat : old.toNat = vihl.toNat * 256 + p.tos.toNat := bytes16_toNat vihl p.tos
  have hhigh : (old &&& 0xff00).toNat = vihl.toNat * 2 ^ 8 := by
    rw [UInt16.toNat_and]
    show old.toNat &&& 0xff00 = _
    rw [and_ff00, hnat]
    omega
  have hnew : ((old &&& 0xff00) ||| newTos.toUInt16).toNat = vihl.toNat * 256 + newTos.toNat := by
    rw [UInt16.toNat_or, hhigh]
    exact or_below vihl.toNat newTos.toNat_lt
  have h := incrementalCsum_updates p.check old ((old &&& 0xff00) ||| newTos.toUInt16)
  rw [hnat, hnew] at h
  show Updates p.check.toNat (incrementalCsum p.check old ((old &&& 0xff00) ||| newTos.toUInt16)).toNat _ _
  unfold Updates Nat.ModEq at h ⊢
  omega

theorem marked_ipSum :
    { p with tos := newTos, check := markCheck p newTos }.ipSum ≡ p.ipSum [MOD 65535] := by
  have hupd := markCheck_updates p newTos
  rw [ipSum_eq, ipSum_eq p]
  unfold Updates Nat.ModEq at hupd
  unfold Nat.ModEq
  dsimp only
  omega

/-- The TOS byte without its checksum: no checksum is right for both. -/
theorem half_marked {p : Skb} {tos : UInt8} (hne : p.tos ≠ tos) : ¬ { p with tos }.ipSum ≡ p.ipSum [MOD 65535] := by
  have hlt := p.tos.toNat_lt
  have hlt' := tos.toNat_lt
  have hneq : p.tos.toNat ≠ tos.toNat := fun h => hne (UInt8.toNat_inj.mp h)
  rw [ipSum_eq, ipSum_eq p]
  unfold Nat.ModEq
  dsimp only
  omega

theorem mark_whole_iff (ok : MarkCall → Bool) (t : MarkMaps) (p : Skb) :
    ((dscpMark ok t p).1 = p ∨ Marked t p (dscpMark ok t p).1) ↔
      (p.marked t = true → ok .storeTos = true → ok .storeCheck = true) := by
  unfold dscpMark
  by_cases hmarked : p.marked t = true
  · have hne : p.tos ≠ t.tos p.tos := by
      have := hmarked
      simp only [Skb.marked, Bool.and_eq_true, bne_iff_ne, ne_eq] at this
      exact this.2
    by_cases htos : ok .storeTos = true
    · by_cases hcheck : ok .storeCheck = true
      · simp only [hmarked, htos, hcheck, Bool.not_true, Bool.false_eq_true, if_false, forall_const, iff_true]
        right
        refine ⟨rfl, marked_ipSum p (t.tos p.tos), ?_⟩
        · by_cases hzero : p.preserveZeroUdpChecksum = true
          · rw [if_pos hzero]
            simp only [Skb.preserveZeroUdpChecksum, Bool.and_eq_true, beq_iff_eq] at hzero
            exact hzero.2
          · rw [if_neg hzero]
            rfl
      · simp only [hmarked, htos, hcheck, Bool.not_true, Bool.not_false, Bool.false_eq_true, if_false, if_true,
          forall_const, iff_false]
        intro h
        rcases h with h | h
        · exact hne (congrArg Skb.tos h).symm
        · exact half_marked hne h.consistent.ip
    · simp [hmarked, htos]
  · simp [hmarked]

/-- Whatever helper calls fail: a packet that is passed on is the one received or completely
    rewritten, exactly when `dscp_mark` did not get stuck between its two stores and the DNAT
    programs replaced the address that the flow's value names. -/
theorem passed_whole_iff {K : Kernel} (hK : K.Sums) (ok : MarkCall → Bool) (t : MarkMaps) (m : Maps) (p : Skb)
    (now : UInt64) (prog : Program) (hpass : (prog.run K ok t m p now).2.2 ≠ .shot) :
    prog.Whole K ok t m p now ↔ prog.Meets ok t m p now := by
  cases prog with
  | mark => exact mark_whole_iff ok t p
  | ingress => exact ingress_whole_iff hK now hpass
  | ret => exact return_whole_iff hK now hpass

/-! ## Concrete packets -/

/-- What the kernel's helpers compute for words of two or four bytes. -/
def replaceWord (c : UInt16) (a b : UInt64) : UInt16 :=
  incrementalCsum (incrementalCsum c (a >>> 16).toUInt16 (b >>> 16).toUInt16) a.toUInt16 b.toUInt16

def summingKernel : Kernel :=
  { ok := fun _ => true, l3CsumReplace := fun c a b _ => replaceWord c a b, l4CsumReplace := fun c a b _ => replaceWord c a b
    fibLookup := fun _ => none }

theorem replaceWord_updates (c : UInt16) (a b : UInt64) (ha : a.toNat < 2 ^ 32) (hb : b.toNat < 2 ^ 32) :
    Updates c.toNat (replaceWord c a b).toNat (halves a.toNat) (halves b.toNat) := by
  have hhigh (x : UInt64) (hx : x.toNat < 2 ^ 32) : (x >>> 16).toUInt16.toNat = x.toNat / 65536 := by
    rw [UInt64.toNat_toUInt16, UInt64.toNat_shiftRight]
    show x.toNat >>> 16 % 2 ^ 16 = _
    rw [Nat.shiftRight_eq_div_pow]
    omega
  have hlow (x : UInt64) : x.toUInt16.toNat = x.toNat % 65536 := UInt64.toNat_toUInt16 x
  have h := (incrementalCsum_updates c (a >>> 16).toUInt16 (b >>> 16).toUInt16).trans
    (incrementalCsum_updates _ a.toUInt16 b.toUInt16)
  rw [hhigh a ha, hhigh b hb, hlow, hlow] at h
  exact h

theorem halves_word (x : UInt16) : halves x.toNat = x.toNat := by
  have hx := x.toNat_lt
  unfold halves
  omega

theorem summingKernel_sums : summingKernel.Sums where
  l3 c a b := replaceWord_updates c _ _ a.toNat_lt b.toNat_lt
  l4Address c a b := replaceWord_updates c _ _ a.toNat_lt b.toNat_lt
  l4Port c a b := by
    have h := replaceWord_updates c a.toUInt64 b.toUInt64 (Nat.lt_of_lt_of_le a.toNat_lt (by decide))
      (Nat.lt_of_lt_of_le b.toNat_lt (by decide))
    rw [UInt16.toNat_toUInt64, UInt16.toNat_toUInt64, halves_word, halves_word] at h
    exact h

/-- A request to the listener, with a valid header checksum. -/
def webRequest : Skb := { tcpPacket clientAddr 40000 vipAddr 8080 with check := 0x8e8b }

/-- A flow of the listener that is known, and the way to its backend. -/
def knownFlow : Maps :=
  { oneListener with
    flows := (∅ : BpfMap _ _).insert (openedKey clientAddr 40000) openedValue
    targetRoutes := (∅ : BpfMap _ _).insert ⟨1, 0⟩
      { expiresNs := 1000000, target := backendAddr, ingressIfindex := 2, ifindex := 7, mtu := 1500, targetPort := 9090
        dscp := 0, pad := 0, sourceMac := #v[2, 0, 0, 0, 2, 7], destinationMac := #v[2, 0, 0, 0, 2, 8] } }

def markWeb : MarkMaps := { targetPorts := (∅ : BpfMap _ _).insert 8080 1, dscpCfg := some 46 }

/-- The request goes to the backend's route, completely rewritten. -/
theorem request_redirected_whole :
    (Program.ingress.run summingKernel (fun _ => true) markWeb knownFlow webRequest 2000).2.2 = .redirect 7 ∧
      Program.ingress.Whole summingKernel (fun _ => true) markWeb knownFlow webRequest 2000 := by
  have hverdict : (Program.ingress.run summingKernel (fun _ => true) markWeb knownFlow webRequest 2000).2.2 =
      .redirect 7 := by decide
  refine ⟨hverdict, (passed_whole_iff summingKernel_sums _ _ _ _ _ .ingress (by rw [hverdict]; decide)).mpr ?_⟩
  intro flow _ hflow _
  have hknown : knownFlow.flows.lookup (flowKey webRequest) = some openedValue := by decide
  rw [hknown] at hflow
  cases hflow
  decide

/-- The store of the checksum fails after that of the TOS byte: the packet is passed on with the
    new byte and the old checksum. -/
theorem half_marked_packet_passes :
    let out := Program.mark.run summingKernel (fun call => call = .storeTos) markWeb knownFlow webRequest 2000
    out.2.2 = .pipe ∧ out.2.1.tos = 0xb8 ∧ webRequest.headerSumValid = true ∧ out.2.1.headerSumValid = false ∧
      ¬ Program.mark.Whole summingKernel (fun call => call = .storeTos) markWeb knownFlow webRequest 2000 := by
  refine ⟨by decide, by decide, by decide, by decide, fun h => ?_⟩
  rcases h with h | h
  · exact absurd (congrArg Skb.tos h) (by decide)
  · have hip := h.consistent.ip
    revert hip
    decide

end EdgeLb.Datapath
