/-
  EdgeLb.Datapath.Packet — what the classifiers do to a packet once its translation is
  decided (`edge-lb-ebpf/src/nat.rs`: `Rewrite`; `redirect.rs`: `forward`;
  `redirect_packet.rs`: `read`, `transmit`; `return_redirect.rs`: `forward`;
  `edge-lb-common/src/redirect.rs`: `NativeTargetRoute::validate`).

  `Skb` is the packet as the programs read it: the Ethernet header, the IPv4 header
  (its options are never read), the part of the TCP or UDP header they touch, and the
  `__sk_buff` fields. Multi-byte header fields are held as the numbers their wire bytes
  spell. Payload bytes are never read or written. A load past `len` fails; the fields
  of a header that does not fit are never read.

  The kernel is a parameter: which skb helper calls succeed, the two checksum helpers
  as functions of the checksum word in memory, and the FIB lookup. A failed store or
  checksum update leaves the packet as the calls before it left it.
-/

import EdgeLb.Datapath.Select

namespace EdgeLb.Datapath

open EdgeLb.Common

structure Skb where
  -- Ethernet header
  dstMac : Mac
  srcMac : Mac
  etherType : UInt16
  -- IPv4 header
  versionIhl : UInt8
  tos : UInt8
  totLen : UInt16
  id : UInt16
  frag : UInt16
  ttl : UInt8
  proto : UInt8
  check : UInt16
  src : UInt32
  dst : UInt32
  -- TCP or UDP header
  sport : UInt16
  dport : UInt16
  l4Check : UInt16
  -- `__sk_buff`
  len : UInt32
  mark : UInt32
  pktType : UInt32
  vlanPresent : UInt32
  gsoSegs : UInt32
  gsoSize : UInt32
  ingressIfindex : UInt32
  ifindex : UInt32
  hash : UInt32
  deriving DecidableEq, Repr

inductive Verdict
  | pipe
  | shot
  | redirect (ifindex : UInt32)
  deriving DecidableEq, Repr

/-- The skb helper calls that can fail after parsing, by call site. -/
inductive Call
  | storeAddress | l3Csum | l4CsumAddress | storePort | l4CsumPort | storeZeroCsum
  | storeIp | storeMacs | redirect
  deriving DecidableEq, Repr

structure FibParams where
  l4Protocol : UInt8
  sport : UInt16
  dport : UInt16
  ifindex : UInt32
  totLen : UInt16
  tos : UInt8
  src : UInt32
  dst : UInt32

/-- What a successful `bpf_fib_lookup` leaves in its argument. -/
structure FibHop where
  ifindex : UInt32
  smac : Mac
  dmac : Mac
  vlanProto : UInt16

structure Kernel where
  ok : Call → Bool
  /-- `bpf_l3_csum_replace` on the checksum word in memory: old value, new value, flags. -/
  l3CsumReplace : UInt16 → UInt64 → UInt64 → UInt64 → UInt16
  l4CsumReplace : UInt16 → UInt64 → UInt64 → UInt64 → UInt16
  fibLookup : FibParams → Option FibHop

/-- Every skb helper call succeeds. -/
def Kernel.HelpersSucceed (K : Kernel) : Prop := ∀ c, K.ok c = true

/-! ## Reading -/

variable (p : Skb)

def Skb.version : UInt8 := p.versionIhl >>> 4

/-- The header length in bytes. -/
def Skb.ihl : UInt8 := (p.versionIhl &&& 0xf) <<< 2

def Skb.fragOffset : UInt16 := p.frag &&& 0x1fff

def Skb.moreFragments : Bool := (p.frag >>> 13) &&& 0x1 != 0

def PROTO_TCP : UInt8 := 6
def PROTO_UDP : UInt8 := 17

def ipv4L4Supported : Bool :=
  if p.version ≠ 4 ∨ p.ihl < 20 ∨ (p.proto ≠ PROTO_TCP ∧ p.proto ≠ PROTO_UDP) then false
  else if p.fragOffset ≠ 0 then false
  else !p.moreFragments

/-- Bytes of the transport header the programs load. -/
def Skb.l4HeaderLen : Nat := if p.proto = PROTO_TCP then 20 else 8

/-- Both DNAT programs parse alike: on `false` they PIPE without touching a map. -/
def Skb.parses : Bool :=
  34 ≤ p.len.toNat && p.etherType == 0x0800 && ipv4L4Supported p &&
    14 + p.ihl.toNat + p.l4HeaderLen ≤ p.len.toNat

def makeFlowKey (src dst : UInt32) (sport dport : UInt16) (proto : UInt8) : NativeFlowKey :=
  { src, dst, sport := toBe sport, dport := toBe dport, proto }

def flowKey : NativeFlowKey := makeFlowKey p.src p.dst p.sport p.dport p.proto

/-- A UDP packet without a checksum keeps none. -/
def Skb.preserveZeroUdpChecksum : Bool := p.proto == PROTO_UDP && p.l4Check == 0

/-! ## `nat::Rewrite` -/

/-- `u32::to_be` on a little-endian machine. -/
def toBe32 (x : UInt32) : UInt32 :=
  (x <<< 24) ||| ((x &&& (0xff00 : UInt32)) <<< 8) ||| ((x >>> 8) &&& (0xff00 : UInt32)) ||| (x >>> 24)

def BPF_F_PSEUDO_HDR : UInt64 := 16

structure Rewrite where
  oldAddress : UInt32
  newAddress : UInt32
  oldPort : UInt16
  newPort : UInt16
  preserveZeroUdpChecksum : Bool

/-- Which address and port a rewrite stores into. -/
inductive Side
  | destination | source
  deriving DecidableEq

def Skb.setAddress : Side → UInt32 → Skb
  | .destination, a => { p with dst := a }
  | .source, a => { p with src := a }

def Skb.setPort : Side → UInt16 → Skb
  | .destination, port => { p with dport := port }
  | .source, port => { p with sport := port }

def Skb.setCheck (check : UInt16) : Skb := { p with check }

def Skb.setL4Check (l4Check : UInt16) : Skb := { p with l4Check }

/-- The IPv4 checksum after the kernel replaced one address in it. -/
def Rewrite.l3 (K : Kernel) (r : Rewrite) (p : Skb) : Skb :=
  p.setCheck (toBe (K.l3CsumReplace (toBe p.check) (toBe32 r.oldAddress).toUInt64
    (toBe32 r.newAddress).toUInt64 4))

def Rewrite.l4Address (K : Kernel) (r : Rewrite) (p : Skb) : Skb :=
  p.setL4Check (toBe (K.l4CsumReplace (toBe p.l4Check) (toBe32 r.oldAddress).toUInt64
    (toBe32 r.newAddress).toUInt64 (4 ||| BPF_F_PSEUDO_HDR)))

def Rewrite.l4Port (K : Kernel) (r : Rewrite) (p : Skb) : Skb :=
  p.setL4Check (toBe (K.l4CsumReplace (toBe p.l4Check) (toBe r.oldPort).toUInt64
    (toBe r.newPort).toUInt64 2))

/-- `Rewrite::write` (with `apply`): the packet as left, and whether every call succeeded. -/
def Rewrite.write (K : Kernel) (r : Rewrite) (side : Side) (p : Skb) : Skb × Bool :=
  if !K.ok .storeAddress then (p, false) else
  let p := p.setAddress side r.newAddress
  if !K.ok .l3Csum then (p, false) else
  let p := r.l3 K p
  if !K.ok .l4CsumAddress then (p, false) else
  let p := r.l4Address K p
  if !K.ok .storePort then (p, false) else
  let p := p.setPort side r.newPort
  if !K.ok .l4CsumPort then (p, false) else
  let p := r.l4Port K p
  if r.preserveZeroUdpChecksum then
    if !K.ok .storeZeroCsum then (p, false) else (p.setL4Check 0, true)
  else (p, true)

/-- The packet a rewrite leaves when no helper fails. -/
def Rewrite.applied (K : Kernel) (r : Rewrite) (side : Side) (p : Skb) : Skb :=
  let p := r.l4Port K ((r.l4Address K (r.l3 K (p.setAddress side r.newAddress))).setPort side r.newPort)
  if r.preserveZeroUdpChecksum then p.setL4Check 0 else p

theorem Rewrite.write_of_ok {K : Kernel} (hK : K.HelpersSucceed) (r : Rewrite) (side : Side) (p : Skb) :
    r.write K side p = (r.applied K side p, true) := by
  simp only [Rewrite.write, Rewrite.applied, hK _, Bool.not_true, Bool.false_eq_true, if_false]
  split <;> rfl

/-- A field that every store of a rewrite leaves alone is left alone by the rewrite. -/
theorem applied_field {α : Type} (f : Skb → α) (K : Kernel) (r : Rewrite) (side : Side) (p : Skb)
    (haddr : ∀ q, f (q.setAddress side r.newAddress) = f q) (hport : ∀ q, f (q.setPort side r.newPort) = f q)
    (hcheck : ∀ q c, f (Skb.setCheck q c) = f q) (hl4 : ∀ q c, f (Skb.setL4Check q c) = f q) :
    f (r.applied K side p) = f p := by
  unfold Rewrite.applied Rewrite.l4Port Rewrite.l4Address Rewrite.l3
  dsimp only
  split <;> simp only [haddr, hport, hcheck, hl4]

section applied

variable (K : Kernel) (r : Rewrite) (p : Skb)

@[simp] theorem applied_destination_src : (r.applied K .destination p).src = p.src :=
  applied_field Skb.src K r _ p (fun _ => rfl) (fun _ => rfl) (fun _ _ => rfl) (fun _ _ => rfl)

@[simp] theorem applied_destination_sport : (r.applied K .destination p).sport = p.sport :=
  applied_field Skb.sport K r _ p (fun _ => rfl) (fun _ => rfl) (fun _ _ => rfl) (fun _ _ => rfl)

@[simp] theorem applied_source_dst : (r.applied K .source p).dst = p.dst :=
  applied_field Skb.dst K r _ p (fun _ => rfl) (fun _ => rfl) (fun _ _ => rfl) (fun _ _ => rfl)

@[simp] theorem applied_source_dport : (r.applied K .source p).dport = p.dport :=
  applied_field Skb.dport K r _ p (fun _ => rfl) (fun _ => rfl) (fun _ _ => rfl) (fun _ _ => rfl)

@[simp] theorem applied_proto (side : Side) : (r.applied K side p).proto = p.proto := by
  cases side <;>
  exact applied_field Skb.proto K r _ p (fun _ => rfl) (fun _ => rfl) (fun _ _ => rfl) (fun _ _ => rfl)

/-- A rewrite moves no header and changes no length: the packet parses as before. -/
@[simp] theorem applied_parses (side : Side) : (r.applied K side p).parses = p.parses := by
  cases side <;>
  exact applied_field Skb.parses K r _ p (fun _ => rfl) (fun _ => rfl) (fun _ _ => rfl) (fun _ _ => rfl)

@[simp] theorem applied_destination_dst : (r.applied K .destination p).dst = r.newAddress := by
  unfold Rewrite.applied; dsimp only; split <;> rfl

@[simp] theorem applied_destination_dport : (r.applied K .destination p).dport = r.newPort := by
  unfold Rewrite.applied; dsimp only; split <;> rfl

@[simp] theorem applied_source_src : (r.applied K .source p).src = r.newAddress := by
  unfold Rewrite.applied; dsimp only; split <;> rfl

@[simp] theorem applied_source_sport : (r.applied K .source p).sport = r.newPort := by
  unfold Rewrite.applied; dsimp only; split <;> rfl

end applied

/-! ## Redirecting -/

/-- The ten 16-bit words of the IPv4 header without options. -/
def Skb.ipWords : List UInt32 :=
  [(p.versionIhl.toUInt32 <<< 8) ||| p.tos.toUInt32, p.totLen.toUInt32, p.id.toUInt32, p.frag.toUInt32,
    (p.ttl.toUInt32 <<< 8) ||| p.proto.toUInt32, p.check.toUInt32, p.src >>> 16, p.src &&& (0xffff : UInt32),
    p.dst >>> 16, p.dst &&& (0xffff : UInt32)]

def foldSum (sum : UInt32) : UInt32 := (sum &&& (0xffff : UInt32)) + (sum >>> 16)

/-- The ones-complement sum of the header is the all-ones word. -/
def Skb.headerSumValid : Bool := foldSum (foldSum (p.ipWords.foldl (· + ·) 0)) == 0xffff

def incrementalCsum (oldCheck oldHalf newHalf : UInt16) : UInt16 :=
  let sum := ((~~~oldCheck).toUInt32 &&& (0xffff : UInt32)) + ((~~~oldHalf).toUInt32 &&& (0xffff : UInt32)) +
    newHalf.toUInt32
  ~~~(foldSum (foldSum sum)).toUInt16

def octet (a : UInt32) (i : UInt32) : UInt32 := (a >>> (24 - 8 * i)) &&& (0xff : UInt32)

def unicastAddress (ip : UInt32) : Bool :=
  octet ip 0 != 0 && octet ip 0 != 127 && octet ip 0 < 224 && !(octet ip 0 == 169 && octet ip 1 == 254)

def unicastMac (mac : Mac) : Bool := mac != Vector.replicate 6 0 && mac.get 0 &&& 1 == 0

/-- Packets that still need the kernel: options, fragments, marks, VLANs, offloads. -/
def Skb.needsKernel : Bool :=
  p.versionIhl != 0x45 || p.frag &&& 0xbfff != 0 || p.mark != 0 || p.pktType != 0 || p.vlanPresent != 0 ||
    p.gsoSegs > 1 || p.gsoSize != 0

/-- The least total length `forward` and `read` admit for the protocol. -/
def minIpLen (proto : UInt8) : Option Nat :=
  if proto = PROTO_TCP then some 40 else if proto = PROTO_UDP then some 28 else none

/-- The length test: the packet is exactly its IPv4 datagram, long enough for its header. -/
def Skb.lengthAdmitted : Bool :=
  p.totLen.toNat + 14 == p.len.toNat && (minIpLen p.proto).any (· ≤ p.totLen.toNat)

/-- `transmit`: TTL down, checksum with it, new MACs, redirect. Any failure is a SHOT. -/
def transmit (K : Kernel) (p : Skb) (ifindex : UInt32) (sourceMac destinationMac : Mac) : Skb × Verdict :=
  let word (ttl : UInt8) : UInt16 := (ttl.toUInt16 <<< 8) ||| p.proto.toUInt16
  let ttl := p.ttl - 1
  if !K.ok .storeIp then (p, .shot) else
  let p := { p with ttl, check := incrementalCsum p.check (word p.ttl) (word ttl) }
  if !K.ok .storeMacs then (p, .shot) else
  let p := { p with dstMac := destinationMac, srcMac := sourceMac }
  if K.ok .redirect then (p, .redirect ifindex) else (p, .shot)

inductive RedirectFallback
  | invalidRoute | expired | targetChanged | ttl | mtu | unsupported
  deriving DecidableEq, Repr

structure RedirectPacket where
  target : UInt32
  targetPort : UInt16
  ingressIfindex : UInt32
  ipLen : UInt32
  ttl : UInt8
  dscp : UInt8

/-- `NativeTargetRoute::validate`: the first reason not to use the route. -/
def NativeTargetRoute.validate (self : NativeTargetRoute) (packet : RedirectPacket) (nowNs : UInt64) :
    Except RedirectFallback Unit :=
  if self.ifindex = 0 ∨ self.ingressIfindex = 0 ∨ self.mtu < 68 ∨ 63 < self.dscp ∨ self.pad ≠ 0 ∨
      !unicastMac self.sourceMac ∨ !unicastMac self.destinationMac then .error .invalidRoute
  else if self.expiresNs ≤ nowNs then .error .expired
  else if self.target ≠ packet.target ∨ self.targetPort ≠ packet.targetPort then .error .targetChanged
  else if self.ingressIfindex ≠ packet.ingressIfindex ∨ self.dscp ≠ packet.dscp then .error .unsupported
  else if packet.ttl ≤ 1 then .error .ttl
  else if self.mtu < packet.ipLen then .error .mtu
  else .ok ()

/-- `redirect::forward` up to `transmit`: the route to send the packet on, or why not. -/
def forwardRoute (m : Maps) (p : Skb) (key : NativeTargetKey) (nowNs : UInt64) :
    Except (Option RedirectFallback) NativeTargetRoute :=
  match m.targetRoutes.lookup key with
  | none => .error none
  | some route =>
    if p.len.toNat < 34 ∨ p.needsKernel then .error (some .unsupported)
    else if !unicastAddress p.src ∨ (m.localAddrs.lookup p.src).isSome then .error (some .unsupported)
    else if !p.lengthAdmitted ∨ p.len.toNat < 38 then .error (some .unsupported)
    else match route.validate { target := p.dst, targetPort := p.dport, ingressIfindex := p.ingressIfindex
                                ipLen := p.totLen.toUInt32, ttl := p.ttl, dscp := p.tos >>> 2 } nowNs with
      | .error reason => .error (some reason)
      | .ok () => if p.headerSumValid then .ok route else .error (some .unsupported)

/-- `redirect::forward`: every refusal is a PIPE of the packet as it is. -/
def forward (K : Kernel) (m : Maps) (p : Skb) (key : NativeTargetKey) (nowNs : UInt64) : Skb × Verdict :=
  match forwardRoute m p key nowNs with
  | .error _ => (p, .pipe)
  | .ok route => transmit K p route.ifindex route.sourceMac route.destinationMac

/-- `redirect_packet::read`. -/
def readIp : Bool :=
  34 ≤ p.len.toNat && !p.needsKernel && p.lengthAdmitted && p.headerSumValid

/-- `return_redirect::forward` up to `transmit`: the hop to send the reply on. -/
def returnHop (K : Kernel) (m : Maps) (p : Skb) (nowNs : UInt64) : Option FibHop :=
  if !readIp p then none
  else if p.ttl ≤ 1 then none
  else if !unicastAddress p.src ∨ !unicastAddress p.dst then none
  else if p.len.toNat < 38 then none
  else match K.fibLookup { l4Protocol := p.proto, sport := toBe p.sport, dport := toBe p.dport
                           ifindex := p.ifindex, totLen := p.totLen, tos := p.tos
                           src := toBe32 p.src, dst := toBe32 p.dst } with
    | none => none
    | some hop =>
      match m.returnLeases.lookup { ingressIfindex := p.ifindex, ifindex := hop.ifindex, source := p.src } with
      | none => none
      | some lease =>
        if lease.expiresNs ≤ nowNs then none
        else if hop.ifindex = 0 ∨ hop.ifindex = p.ifindex ∨ !unicastMac hop.smac ∨ !unicastMac hop.dmac ∨
            hop.vlanProto ≠ 0 then none
        else some hop

/-- `return_redirect::forward`. -/
def returnForward (K : Kernel) (m : Maps) (p : Skb) (nowNs : UInt64) : Skb × Verdict :=
  match returnHop K m p nowNs with
  | none => (p, .pipe)
  | some hop => transmit K p hop.ifindex hop.smac hop.dmac

end EdgeLb.Datapath
