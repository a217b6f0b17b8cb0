/-
  EdgeLb.Datapath.Checksums — the checksums of the packets that leave, as a receiver checks them
  (`edge-lb-ebpf/src/main.rs`: `incremental_csum`, `dscp_mark`; `redirect_packet.rs`:
  `transmit`; `nat.rs`: `Rewrite`).

  Modulo 65535 an update keeps a sum what it was (`EdgeLb.Datapath.Whole`). Zero has two
  representations there, 0x0000 and 0xffff, and a receiver tells them apart: a header is valid
  when its sum folds to 0xffff, and a UDP checksum of 0x0000 stands for no checksum.

  An IPv4 header never sums to nothing, so that a valid one stays valid whatever the two
  incremental updates do (`header_sum_kept`). The UDP checksum is left to the kernel's helper,
  which has a flag for this case, BPF_F_MARK_MANGLED_0; the rewrite does not pass it. Where the
  words of the rewritten packet sum to zero the checksum comes out as 0x0000, and the packet
  leaves without one (`udp_checksum_kept_iff`, `udp_checksum_lost`).
-/

import EdgeLb.Datapath.Whole

namespace EdgeLb.Datapath

open EdgeLb.Common EdgeLb.Lib

/-! ## The IPv4 header -/

/-- Ten words of 16 bits. -/
theorem ipSum_le (p : Skb) : p.ipSum ≤ 10 * 65535 := by
  have hihl := p.versionIhl.toNat_lt
  have htos := p.tos.toNat_lt
  have hlen := p.totLen.toNat_lt
  have hid := p.id.toNat_lt
  have hfrag := p.frag.toNat_lt
  have httl := p.ttl.toNat_lt
  have hproto := p.proto.toNat_lt
  have hcheck := p.check.toNat_lt
  have hsrc := p.src.toNat_lt
  have hdst := p.dst.toNat_lt
  rw [ipSum_eq]
  unfold halves
  omega

/-- A header is valid when its words add up to a multiple of 65535 that is not zero. -/
theorem headerSumValid_iff (p : Skb) : p.headerSumValid = true ↔ 0 < p.ipSum ∧ p.ipSum % 65535 = 0 := by
  have hle := ipSum_le p
  have hsum : (p.ipWords.foldl (· + ·) 0).toNat = p.ipSum := by
    rw [foldl_add_toNat]
    show (0 + p.ipSum) % 2 ^ 32 = p.ipSum
    omega
  rw [Skb.headerSumValid, beq_iff_eq, ← UInt32.toNat_inj, foldSum_toNat, foldSum_toNat, hsum]
  show _ = 65535 ↔ _
  omega

/-- What `incremental_csum` computes in 32 bits is what it would compute without a bound, and its
    result fits 16 bits. -/
structure ExactSums (c old new : UInt16) : Prop where
  sum : (csumSum c old new).toNat = (65535 - c.toNat) + (65535 - old.toNat) + new.toNat
  first : (foldSum (csumSum c old new)).toNat = (csumSum c old new).toNat % 65536 + (csumSum c old new).toNat / 65536
  second : (foldSum (foldSum (csumSum c old new))).toNat =
    (foldSum (csumSum c old new)).toNat % 65536 + (foldSum (csumSum c old new)).toNat / 65536
  fits : (foldSum (foldSum (csumSum c old new))).toNat < 65536

theorem exactSums (c old new : UInt16) : ExactSums c old new :=
  ⟨csumSum_toNat c old new, foldSum_toNat _, foldSum_toNat _, fold_csumSum_lt c old new⟩

theorem headerSumValid_of_modEq {p q : Skb} (hvalid : p.headerSumValid = true) (hsum : q.ipSum ≡ p.ipSum [MOD 65535])
    (hpos : 0 < q.ipSum) : q.headerSumValid = true := by
  have hzero := ((headerSumValid_iff p).mp hvalid).2
  refine (headerSumValid_iff q).mpr ⟨hpos, ?_⟩
  unfold Nat.ModEq at hsum
  omega

/-- Whatever fails after it, `transmit` has stored the new header. -/
theorem transmit_header {K : Kernel} {p : Skb} (hstore : K.ok .storeIp = true) (ifindex : UInt32) (smac dmac : Mac) :
    ∃ d s, (transmit K p ifindex smac dmac).1 = { p.transmitted ⟨ifindex, smac, dmac⟩ with dstMac := d, srcMac := s } := by
  unfold transmit
  dsimp only
  rw [if_neg (by simp [hstore])]
  split
  · exact ⟨p.dstMac, p.srcMac, rfl⟩
  · split
    · exact ⟨dmac, smac, rfl⟩
    · exact ⟨dmac, smac, rfl⟩

/-- A valid IPv4 header is valid again after `dscp_mark` has written a new TOS byte into it and
    after `transmit` has taken one hop off a TTL above one, and no sum overflows on the way. -/
theorem header_sum_kept (p : Skb) (hvalid : p.headerSumValid = true) :
    (∀ (ok : MarkCall → Bool) (t : MarkMaps), p.marked t = true → ok .storeTos = true → ok .storeCheck = true →
      (dscpMark ok t p).1.tos = t.tos p.tos ∧ (dscpMark ok t p).1.headerSumValid = true) ∧
    (∀ (K : Kernel) (ifindex : UInt32) (smac dmac : Mac), 1 < p.ttl → K.ok .storeIp = true →
      (transmit K p ifindex smac dmac).1.ttl.toNat = p.ttl.toNat - 1 ∧ 0 < (transmit K p ifindex smac dmac).1.ttl.toNat ∧
        (transmit K p ifindex smac dmac).1.headerSumValid = true) ∧
    ∀ c old new, ExactSums c old new := by
  refine ⟨?_, ?_, exactSums⟩
  · intro ok t hmarked htos hcheck
    have hout : (dscpMark ok t p).1 = { p with tos := t.tos p.tos, check := markCheck p (t.tos p.tos) } := by
      simp [dscpMark, hmarked, htos, hcheck]
    -- what is marked is of version 4
    have hversion : p.versionIhl.toNat ≠ 0 := by
      intro hzero
      have hihl : p.versionIhl = 0 := UInt8.toNat_inj.mp hzero
      simp [Skb.marked, Skb.markable, Skb.version, hihl] at hmarked
    rw [hout]
    refine ⟨rfl, headerSumValid_of_modEq hvalid (marked_ipSum p _) ?_⟩
    rw [ipSum_eq]
    dsimp only
    omega
  · intro K ifindex smac dmac httl hstore
    obtain ⟨d, s, hout⟩ := transmit_header hstore ifindex smac dmac
    have hone : 1 < p.ttl.toNat := UInt8.lt_iff_toNat_lt.mp httl
    have hdown : (p.transmitted ⟨ifindex, smac, dmac⟩).ttl.toNat + 1 = p.ttl.toNat := transmitted_ttl httl _
    rw [hout]
    refine ⟨?_, ?_, headerSumValid_of_modEq hvalid (transmitted_ipSum p ⟨ifindex, smac, dmac⟩) ?_⟩
    · show (p.transmitted ⟨ifindex, smac, dmac⟩).ttl.toNat = _
      omega
    · show 0 < (p.transmitted ⟨ifindex, smac, dmac⟩).ttl.toNat
      omega
    · rw [ipSum_eq]
      dsimp only
      omega

theorem marked_request_valid :
    webRequest.headerSumValid = true ∧ (dscpMark (fun _ => true) markWeb webRequest).1.headerSumValid = true ∧
      (transmit summingKernel webRequest 7 #v[2, 0, 0, 0, 0, 7] #v[2, 0, 0, 0, 0, 8]).1.headerSumValid = true := by
  have hvalid : webRequest.headerSumValid = true := by decide
  obtain ⟨hmark, htransmit, -⟩ := header_sum_kept webRequest hvalid
  exact ⟨hvalid, (hmark _ markWeb (by decide) rfl rfl).2, (htransmit summingKernel 7 _ _ (by decide) rfl).2.2⟩

/-! ## The UDP checksum -/

def BPF_F_HDR_FIELD_MASK : UInt64 := 15

def BPF_F_MARK_MANGLED_0 : UInt64 := 32

/-- What `bpf_l4_csum_replace` is documented to do with the checksum in memory: the update of
    RFC 1624 for a word of two or four bytes. With BPF_F_MARK_MANGLED_0 it leaves no checksum
    alone and writes all ones for zero. -/
def l4CsumReplaced (c : UInt16) (old new flags : UInt64) : UInt16 :=
  let updated := UInt16.ofNat
    (rfc1624 ((flags &&& BPF_F_HDR_FIELD_MASK).toNat / 2) c.toNat (halves old.toNat) (halves new.toNat))
  if flags &&& BPF_F_MARK_MANGLED_0 = 0 then updated
  else if c = 0 then 0
  else if updated = 0 then 0xffff
  else updated

/-- The helpers perform the update with the flags they are passed. -/
structure Kernel.Rfc1624 (K : Kernel) : Prop where
  l3 : ∀ (c : UInt16) (old new : UInt32), K.l3CsumReplace c old.toUInt64 new.toUInt64 4 =
    UInt16.ofNat (rfc1624 2 c.toNat (halves old.toNat) (halves new.toNat))
  l4 : ∀ c old new flags, K.l4CsumReplace c old new flags = l4CsumReplaced c old new flags

theorem halves_le (x : UInt32) : halves x.toNat ≤ 2 * 65535 := by
  have hx := x.toNat_lt
  unfold halves
  omega

section kernel

variable {K : Kernel} (hK : K.Rfc1624) (c : UInt16)
include hK

theorem l4Address_toNat (a b : UInt32) :
    (K.l4CsumReplace c a.toUInt64 b.toUInt64 (4 ||| BPF_F_PSEUDO_HDR)).toNat =
      rfc1624 2 c.toNat (halves a.toNat) (halves b.toNat) := by
  have hle : rfc1624 2 c.toNat (halves a.toNat) (halves b.toNat) ≤ 65535 := rfc1624_le _
  rw [hK.l4]
  show (UInt16.ofNat (rfc1624 2 c.toNat (halves a.toNat) (halves b.toNat))).toNat = _
  exact UInt16.toNat_ofNat_of_lt' (show _ < 2 ^ 16 by omega)

theorem l4Port_toNat (a b : UInt16) :
    (K.l4CsumReplace c a.toUInt64 b.toUInt64 2).toNat = rfc1624 1 c.toNat a.toNat b.toNat := by
  have hle : rfc1624 1 c.toNat a.toNat b.toNat ≤ 65535 := rfc1624_le _
  rw [hK.l4]
  show (UInt16.ofNat (rfc1624 1 c.toNat (halves a.toNat) (halves b.toNat))).toNat = _
  rw [halves_word, halves_word]
  exact UInt16.toNat_ofNat_of_lt' (show _ < 2 ^ 16 by omega)

omit c in
theorem Kernel.Rfc1624.sums : K.Sums where
  l3 c a b := by
    have hle : rfc1624 2 c.toNat (halves a.toNat) (halves b.toNat) ≤ 65535 := rfc1624_le _
    rw [hK.l3, UInt16.toNat_ofNat_of_lt' (show _ < 2 ^ 16 by omega)]
    exact rfc1624_updates _ (Nat.le_of_lt_succ c.toNat_lt) (halves_le a)
  l4Address c a b := by
    rw [l4Address_toNat hK]
    exact rfc1624_updates _ (Nat.le_of_lt_succ c.toNat_lt) (halves_le a)
  l4Port c a b := by
    have ha := a.toNat_lt
    rw [l4Port_toNat hK]
    exact rfc1624_updates _ (Nat.le_of_lt_succ c.toNat_lt) (by omega)

end kernel

/-- The words under the UDP checksum that a rewrite can change. -/
def Skb.l4Words (p : Skb) : Nat := halves p.src.toNat + halves p.dst.toNat + p.sport.toNat + p.dport.toNat

/-- The UDP checksum is right for a packet whose other words, the protocol, the lengths and the
    payload, add up to `rest`. -/
def Skb.UdpValid (rest : Nat) (p : Skb) : Prop := (p.l4Words + p.l4Check.toNat + rest) % 65535 = 0

instance (rest : Nat) (p : Skb) : Decidable (p.UdpValid rest) := inferInstanceAs (Decidable (_ = _))

/-- There is nothing but zeros to add up: the one case in which the update writes all ones. -/
structure Rewrite.OnesToZeros (r : Rewrite) (p : Skb) : Prop where
  check : p.l4Check = 0xffff
  oldAddress : r.oldAddress = 0xffffffff
  newAddress : r.newAddress = 0
  oldPort : r.oldPort = 0xffff
  newPort : r.newPort = 0

section udp

variable {K : Kernel} (hK : K.Rfc1624) (r : Rewrite) (p : Skb)

theorem toBe_ones_iff {x : UInt16} : (toBe x).toNat = 65535 ↔ x = 0xffff := by
  have hx := x.toNat_lt
  rw [toBe_toNat, swap16, ← UInt16.toNat_inj]
  show _ ↔ x.toNat = 65535
  omega

theorem toBe_zero_iff {x : UInt16} : (toBe x).toNat = 0 ↔ x = 0 := by
  have hx := x.toNat_lt
  rw [toBe_toNat, swap16, ← UInt16.toNat_inj]
  show _ ↔ x.toNat = 0
  omega

theorem halves_ones_iff {x : UInt32} : halves (toBe32 x).toNat = 2 * 65535 ↔ x = 0xffffffff := by
  have hx := x.toNat_lt
  rw [halves_swapped, swap16, swap16, ← UInt32.toNat_inj]
  show _ ↔ x.toNat = 4294967295
  omega

theorem halves_zero_iff {x : UInt32} : halves (toBe32 x).toNat = 0 ↔ x = 0 := by
  rw [halves_swapped, swap16, swap16, ← UInt32.toNat_inj]
  show _ ↔ x.toNat = 0
  omega

include hK

theorem l4CheckAfter_ones_iff (hkept : r.preserveZeroUdpChecksum = false) :
    r.l4CheckAfter K p = 0xffff ↔ r.OnesToZeros p := by
  have hcheck := (toBe p.l4Check).toNat_lt
  have hport := (toBe r.oldPort).toNat_lt
  have hafter : r.l4CheckAfter K p = toBe (K.l4CsumReplace (toBe (r.l4Address K p).l4Check) (toBe r.oldPort).toUInt64
      (toBe r.newPort).toUInt64 2) := by
    rw [Rewrite.l4CheckAfter, hkept, if_neg Bool.false_ne_true]
    rfl
  have haddress : toBe (r.l4Address K p).l4Check = K.l4CsumReplace (toBe p.l4Check) (toBe32 r.oldAddress).toUInt64
      (toBe32 r.newAddress).toUInt64 (4 ||| BPF_F_PSEUDO_HDR) := toBe_toBe _
  have hmiddle := (K.l4CsumReplace (toBe p.l4Check) (toBe32 r.oldAddress).toUInt64 (toBe32 r.newAddress).toUInt64
    (4 ||| BPF_F_PSEUDO_HDR)).toNat_lt
  rw [← toBe_ones_iff, hafter, toBe_toBe, l4Port_toNat hK, haddress, rfc1624_ones_iff _ (by omega) (by omega),
    l4Address_toNat hK, rfc1624_ones_iff _ (by omega) (halves_le _), Nat.one_mul, toBe_ones_iff, halves_ones_iff,
    halves_zero_iff, toBe_ones_iff, toBe_zero_iff]
  constructor
  · rintro ⟨⟨hc, ho, hn⟩, hop, hnp⟩
    exact ⟨hc, ho, hn, hop, hnp⟩
  · intro h
    exact ⟨⟨h.check, h.oldAddress, h.newAddress⟩, h.oldPort, h.newPort⟩

end udp

/-- A rewrite of a UDP packet that went through keeps a checksum that is there and right exactly
    when the address it was told is the packet's, as far as a checksum can tell, and the words of
    the rewritten packet do not sum to zero; a checksum that is not there it never adds. -/
theorem udp_checksum_kept_iff (K : Kernel) (hK : K.Rfc1624) (p : Skb) (hudp : p.proto = PROTO_UDP) (rest : Nat) (side : Side)
    (r : Rewrite) (hport : r.oldPort = p.port side) (hzero : r.preserveZeroUdpChecksum = p.preserveZeroUdpChecksum) (q : Skb)
    (hq : r.write K side p = (q, true)) :
    ((p.l4Check ≠ 0 → p.UdpValid rest → q.l4Check ≠ 0 ∧ q.UdpValid rest) ∧ (p.l4Check = 0 → q.l4Check = 0)) ↔
      (p.l4Check ≠ 0 → p.UdpValid rest → halves r.oldAddress.toNat ≡ halves (p.address side).toNat [MOD 65535] ∧
        ((((p.setAddress side r.newAddress).setPort side r.newPort).l4Words + rest) % 65535 ≠ 0 ∨ r.OnesToZeros p)) := by
  obtain rfl : q = r.applied K side p := by
    rcases write_cases K r side p with h | h
    · rw [hq] at h
      cases h
    · exact congrArg Prod.fst (hq.symm.trans h)
  have hl4Check : (r.applied K side p).l4Check = r.l4CheckAfter K p := by
    cases side with
    | destination => rw [applied_destination_eq]
    | source => rw [applied_source_eq]
  have hwords : (r.applied K side p).l4Words = ((p.setAddress side r.newAddress).setPort side r.newPort).l4Words := by
    cases side with
    | destination => rw [applied_destination_eq]; rfl
    | source => rw [applied_source_eq]; rfl
  by_cases hnone : p.l4Check = 0
  · -- no checksum before and none after
    have hkept : r.preserveZeroUdpChecksum = true := by
      rw [hzero, Skb.preserveZeroUdpChecksum, hudp, hnone]
      rfl
    refine iff_of_true ⟨fun h => absurd hnone h, fun _ => ?_⟩ fun h => absurd hnone h
    rw [hl4Check, Rewrite.l4CheckAfter, if_pos hkept]
  · have hkept : r.preserveZeroUdpChecksum = false := by
      rw [hzero, Skb.preserveZeroUdpChecksum, Bool.and_eq_false_iff]
      exact .inr (beq_eq_false_iff_ne.mpr hnone)
    rw [and_iff_left fun h => absurd h hnone, forall_prop_of_true hnone, forall_prop_of_true hnone]
    refine forall_congr' fun hvalid => ?_
    have hsum := applied_l4Sum r p hK.sums side hkept hport
    have hones := l4CheckAfter_ones_iff hK r p hkept
    have hlt := (r.l4CheckAfter K p).toNat_lt
    rw [← UInt16.toNat_inj] at hones
    change _ = 65535 ↔ _ at hones
    have hafter : (r.applied K side p).l4Sum = (r.applied K side p).l4Words + (r.l4CheckAfter K p).toNat := by
      rw [← hl4Check]
      rfl
    have hbefore : p.l4Sum = p.l4Words + p.l4Check.toNat := rfl
    rw [hafter, hbefore] at hsum
    rw [← hones, hl4Check, ← hwords, Ne, ← UInt16.toNat_inj]
    unfold Skb.UdpValid at hvalid ⊢
    unfold Nat.ModEq at hsum ⊢
    rw [hl4Check]
    change ¬ _ = 0 ∧ _ ↔ _
    omega

def rfcKernel : Kernel :=
  { ok := fun _ => true
    l3CsumReplace := fun c old new _ => UInt16.ofNat (rfc1624 2 c.toNat (halves old.toNat) (halves new.toNat))
    l4CsumReplace := l4CsumReplaced
    fibLookup := fun _ => none }

theorem rfcKernel_rfc1624 : rfcKernel.Rfc1624 := ⟨fun _ _ _ => rfl, fun _ _ _ _ => rfl⟩

/-- An empty datagram from the port to a SIP listener: its other words are the protocol and twice
    the length of the UDP header, 33 in all. -/
def sipDatagram (sport l4Check : UInt16) : Skb :=
  { tcpPacket 0xcb007105 sport 0xc000020a 5060 with proto := PROTO_UDP, totLen := 28, len := 42, l4Check }

/-- The rewrite to the server. -/
def toSipServer : Rewrite :=
  { oldAddress := 0xc000020a, newAddress := 0x0a000001, oldPort := 5060, newPort := 5060, preserveZeroUdpChecksum := false }

theorem sip_checksum_kept :
    (sipDatagram 40000 20937).UdpValid 33 ∧ (toSipServer.applied rfcKernel .destination (sipDatagram 40000 20937)).l4Check ≠ 0 ∧
      (toSipServer.applied rfcKernel .destination (sipDatagram 40000 20937)).UdpValid 33 := by
  have hvalid : (sipDatagram 40000 20937).UdpValid 33 := by decide
  have hkept := (udp_checksum_kept_iff rfcKernel rfcKernel_rfc1624 (sipDatagram 40000 20937) rfl 33 .destination toSipServer
    rfl (by decide) _ rfl).mpr fun _ _ => ⟨rfl, .inl (by decide)⟩
  exact ⟨hvalid, hkept.1 (by decide) hvalid⟩

/-- The rewritten words sum to twice 65535: the server gets a datagram without a checksum. With
    BPF_F_MARK_MANGLED_0 the address's update would have written all ones. -/
theorem udp_checksum_lost :
    (sipDatagram 42515 18422).UdpValid 33 ∧
      toSipServer.write rfcKernel .destination (sipDatagram 42515 18422) =
        (toSipServer.applied rfcKernel .destination (sipDatagram 42515 18422), true) ∧
      (toSipServer.applied rfcKernel .destination (sipDatagram 42515 18422)).l4Check = 0 ∧
      l4CsumReplaced (toBe 18422) (toBe32 0xc000020a).toUInt64 (toBe32 0x0a000001).toUInt64
        (4 ||| BPF_F_PSEUDO_HDR ||| BPF_F_MARK_MANGLED_0) = 0xffff := by
  refine ⟨?_, ?_, ?_, ?_⟩
  · decide
  · decide
  · decide
  · decide

end EdgeLb.Datapath
