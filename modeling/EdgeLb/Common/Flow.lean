/-
  EdgeLb.Common.Flow — the map keys and values shared by the eBPF datapath and the
  agent (`edge-lb-common/src/lib.rs`), and the expiry test both sides apply to a flow
  (`flow_expired` in `edge-lb-ebpf/src/main.rs` and `edge-lb/src/linux/native_dnat.rs`).

  Addresses are the host-order numbers both sides store. Ports in keys and `vipPort`
  are network order, `targetPort` is host order, as in the source; `toBe` is
  `u16::to_be` (and `u16::from_be`) on the little-endian targets the datapath is built
  for. The all-zero padding fields of the `repr(C)` records are left out, except
  `NativeTargetRoute._pad`, which `validate` reads.

  A forward entry of the flow table is keyed by the client's tuple, its reverse entry
  by the backend's reply tuple; both hold one value. `reverseFor` and `forwardFor` go
  from one key to the other with the help of that value.
-/

import Mathlib.Data.List.AList
import Mathlib.Algebra.Group.Nat.Defs

namespace EdgeLb.Common

/-- A BPF hash map: the kernel's contract is that of a finite map. -/
abbrev BpfMap (K V : Type) := AList (fun _ : K => V)

/-- `u16::to_be` and `u16::from_be` on a little-endian machine. -/
def toBe (x : UInt16) : UInt16 := (x <<< 8) ||| (x >>> 8)

@[simp] theorem toBe_toBe (x : UInt16) : toBe (toBe x) = x := by
  apply UInt16.toBitVec_inj.mp
  unfold toBe
  ext i hi
  simp [BitVec.getElem_or, BitVec.getElem_shiftLeft]
  grind

theorem toBe_inj {x y : UInt16} : toBe x = toBe y ↔ x = y :=
  ⟨fun h => by simpa using congrArg toBe h, congrArg toBe⟩

/-! ## Constants -/

def NATIVE_SELECT_RR : UInt32 := 0
def NATIVE_SELECT_HASH : UInt32 := 1
def NATIVE_SELECT_PRIORITY : UInt32 := 2
def NATIVE_SELECT_PERSIST : UInt32 := 3
def NATIVE_SELECT_LC : UInt32 := 4
def NATIVE_SELECT_CONSISTENT_HASH : UInt32 := 5

def MAX_TARGETS_PER_LISTENER : UInt32 := 64
def NATIVE_CONSISTENT_HASH_BUCKETS : UInt32 := 1024
def NATIVE_LISTENER_ID_CAPACITY : UInt32 := 4096
def DEFAULT_DSCP : UInt32 := 46

/-! ## Keys and values -/

structure NativeListenerLookupKey where
  vip : UInt32
  port : UInt16
  proto : UInt8
  deriving DecidableEq, Repr

structure NativeListenerLookupValue where
  listenerId : UInt32
  targetBase : UInt32
  targetCount : UInt32
  weightTotal : UInt32
  select : UInt32
  flags : UInt32
  timeoutSecs : UInt32
  dscp : UInt32
  deriving DecidableEq, Repr

structure NativeTargetKey where
  listenerId : UInt32
  targetId : UInt32
  deriving DecidableEq, Repr

structure NativeTargetValue where
  address : UInt32
  port : UInt16
  weight : UInt16
  flags : UInt32
  deriving DecidableEq, Repr

/-- The test every datapath path applies to a target before using it. -/
def NativeTargetValue.usable (target : NativeTargetValue) : Bool :=
  target.flags &&& 1 != 0 && target.weight > 0

structure NativeTargetLoadKey where
  listenerId : UInt32
  targetId : UInt32
  deriving DecidableEq, Repr

structure NativeConsistentHashBucketKey where
  listenerId : UInt32
  bucket : UInt32
  deriving DecidableEq, Repr

structure NativeConsistentHashBucketValue where
  targetId : UInt32
  deriving DecidableEq, Repr

structure NativeFlowKey where
  src : UInt32
  dst : UInt32
  sport : UInt16
  dport : UInt16
  proto : UInt8
  deriving DecidableEq, Repr

structure NativeFlowValue where
  listenerId : UInt32
  targetId : UInt32
  vip : UInt32
  target : UInt32
  vipPort : UInt16
  targetPort : UInt16
  timeoutSecs : UInt32
  lastSeenNs : UInt64
  deriving DecidableEq, Repr

/-- The tuple of the backend's replies to the flow keyed by `self`. -/
def NativeFlowKey.reverseFor (self : NativeFlowKey) (value : NativeFlowValue) : NativeFlowKey :=
  { src := value.target
    dst := self.src
    sport := toBe value.targetPort
    dport := self.sport
    proto := self.proto }

/-- The client's tuple of the flow whose replies are keyed by `self`. -/
def NativeFlowKey.forwardFor (self : NativeFlowKey) (value : NativeFlowValue) : NativeFlowKey :=
  { src := self.dst
    dst := value.vip
    sport := self.dport
    dport := value.vipPort
    proto := self.proto }

variable (k : NativeFlowKey) (v : NativeFlowValue)

/-- The tuple with its destination replaced by the flow's backend. -/
def NativeFlowKey.toTarget : NativeFlowKey :=
  { k with dst := v.target, dport := toBe v.targetPort }

theorem toTarget_eq_self {k : NativeFlowKey} {v : NativeFlowValue} (h1 : v.target = k.dst)
    (h2 : toBe v.targetPort = k.dport) : k.toTarget v = k := by
  cases k
  simp_all [NativeFlowKey.toTarget]

/-- The tuple with its source replaced by the flow's VIP. -/
def NativeFlowKey.fromVip : NativeFlowKey :=
  { k with src := v.vip, sport := v.vipPort }

/-- The same tuple seen from the other end. -/
def NativeFlowKey.mirror : NativeFlowKey :=
  { src := k.dst, dst := k.src, sport := k.dport, dport := k.sport, proto := k.proto }

/-- A flow value seen again: only `lastSeenNs` moves. -/
def NativeFlowValue.refreshed (value : NativeFlowValue) (now : UInt64) : NativeFlowValue :=
  { value with lastSeenNs := now }

@[simp] theorem forwardFor_refreshed (now : UInt64) :
    k.forwardFor (v.refreshed now) = k.forwardFor v := rfl

/-! ## Hashes of the `consistent_hash` selector -/

def mix32 (value : UInt32) : UInt32 :=
  let value := value ^^^ (value >>> 16)
  let value := value * 0x7feb352d
  let value := value ^^^ (value >>> 15)
  let value := value * 0x846ca68b
  value ^^^ (value >>> 16)

def mix64 (value : UInt64) : UInt64 :=
  let value := value ^^^ (value >>> 30)
  let value := value * 0xbf58476d1ce4e5b9
  let value := value ^^^ (value >>> 27)
  let value := value * 0x94d049bb133111eb
  value ^^^ (value >>> 31)

def hashStep (hash value : UInt32) : UInt32 := (hash * 0x01000193) ^^^ value

def hashStep64 (hash value : UInt64) : UInt64 := (hash * 0x00000100000001b3) ^^^ value

def nativeConsistentFlowHash (key : NativeFlowKey) : UInt32 :=
  let hash := hashStep 0x811c9dc5 key.src
  let hash := hashStep hash ((key.sport.toUInt32 <<< 16) ||| key.dport.toUInt32)
  let hash := hashStep hash key.proto.toUInt32
  mix32 hash

def nativeConsistentFlowBucket (key : NativeFlowKey) : UInt32 :=
  nativeConsistentFlowHash key &&& (NATIVE_CONSISTENT_HASH_BUCKETS - 1)

def nativeConsistentBucketScore (bucket : UInt32) (target : NativeTargetValue) : UInt64 :=
  let hash := hashStep64 0xcbf29ce484222325 bucket.toUInt64
  let hash := hashStep64 hash target.address.toUInt64
  let hash := hashStep64 hash target.port.toUInt64
  mix64 hash

/-! ## Expiry -/

/-- `u64::saturating_sub`. -/
def saturatingSub (a b : UInt64) : UInt64 := if b ≤ a then a - b else 0

theorem saturatingSub_toNat (a b : UInt64) : (saturatingSub a b).toNat = a.toNat - b.toNat := by
  unfold saturatingSub
  split
  · rename_i h
    exact UInt64.toNat_sub_of_le _ _ h
  · rename_i h
    have : a.toNat < b.toNat := by simpa [UInt64.le_iff_toNat_le] using h
    simp only [UInt64.toNat_zero]
    omega

/-- `flow_expired`: a value never seen, or without an idle timeout, never expires. -/
def flowExpired (lastSeenNs : UInt64) (timeoutSecs : UInt32) (nowNs : UInt64) : Bool :=
  if lastSeenNs = 0 ∨ timeoutSecs = 0 then false
  else decide (timeoutSecs.toUInt64 * 1000000000 < saturatingSub nowNs lastSeenNs)

/-- The 32-bit timeout in nanoseconds fits 64 bits. -/
theorem timeout_ns_toNat (t : UInt32) : (t.toUInt64 * 1000000000).toNat = t.toNat * 1000000000 := by
  have ht := t.toNat_lt
  rw [UInt64.toNat_mul]
  simp only [UInt32.toNat_toUInt64, UInt64.reduceToNat]
  omega

theorem flowExpired_iff (last : UInt64) (timeout : UInt32) (now : UInt64) :
    flowExpired last timeout now = true ↔
      last ≠ 0 ∧ timeout ≠ 0 ∧ timeout.toNat * 1000000000 < now.toNat - last.toNat := by
  unfold flowExpired
  split
  · rename_i h
    simp only [Bool.false_eq_true, false_iff]
    tauto
  · rename_i h
    simp only [not_or] at h
    rw [decide_eq_true_iff, UInt64.lt_iff_toNat_lt, timeout_ns_toNat, saturatingSub_toNat]
    tauto

def NativeFlowValue.expired (value : NativeFlowValue) (now : UInt64) : Bool :=
  flowExpired value.lastSeenNs value.timeoutSecs now

end EdgeLb.Common
