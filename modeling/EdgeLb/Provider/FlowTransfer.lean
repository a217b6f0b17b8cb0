/-
  EdgeLb.Provider.FlowTransfer — flow entries that move to another clock
  (`edge-lb/src/provider/native/xsync.rs`, `.../flow_persistence.rs`).

  `last_seen_ns` counts from the boot of the machine that wrote it, so neither the xSync
  stream nor the snapshot file carries it: both carry the entry's age, and the receiver
  rebases it as `now - age`, saturating at 0. The datapath reads `last_seen_ns = 0` as
  "no time known" and never expires such an entry.

  Proved: an entry keeps ageing on the receiver's clock as it would have on the sender's
  exactly when it is younger than the receiver's uptime (`ages_on_iff_younger_than_uptime`).
  An older one is rebased to 0 and stays for ever (`rebased_to_zero_never_expires`).

  `monotonic_now_ns` is read once per xSync entry and once per restored pair; both readings
  are arguments. The groups of `collect_restore_pairs` come out of a hash map; here they
  come in the order of their first entry.
-/

import EdgeLb.Datapath.Publish

namespace EdgeLb.Provider

open EdgeLb.Common EdgeLb.Datapath EdgeLb.Lib

abbrev FlowEntry := NativeFlowKey × NativeFlowValue

/-! ## Ages -/

/-- `flow_age_ns` and `flow_age`: the same function in both files. -/
def flowAgeNs (lastSeenNs nowNs : UInt64) : UInt64 :=
  if lastSeenNs = 0 then 0 else saturatingSub nowNs lastSeenNs

def localLastSeenNs (ageNs nowNs : UInt64) : UInt64 :=
  if ageNs = 0 then nowNs else saturatingSub nowNs ageNs

def saturatingAdd (a b : UInt64) : UInt64 :=
  if a.toNat + b.toNat < 2 ^ 64 then a + b else 0xffffffffffffffff

def flowAgeExpired (ageNs : UInt64) (timeoutSecs : UInt32) : Bool :=
  timeoutSecs != 0 && decide (timeoutSecs.toUInt64 * 1000000000 ≤ ageNs)

theorem localLastSeenNs_eq (age now : UInt64) : localLastSeenNs age now = saturatingSub now age := by
  unfold localLastSeenNs
  split
  · next h => simp [h, saturatingSub]
  · rfl

theorem saturatingAdd_toNat {a b : UInt64} (h : a.toNat + b.toNat < 2 ^ 64) :
    (saturatingAdd a b).toNat = a.toNat + b.toNat := by
  simp only [saturatingAdd, h, if_true, UInt64.toNat_add]
  exact Nat.mod_eq_of_lt h

/-- A sum that saturates is an age no timeout of 32 bits exceeds. -/
theorem flowAgeExpired_saturated {a b : UInt64} {timeout : UInt32} (ht : timeout ≠ 0)
    (h : ¬ a.toNat + b.toNat < 2 ^ 64) : flowAgeExpired (saturatingAdd a b) timeout = true := by
  have hT := timeout.toNat_lt
  simp only [flowAgeExpired, saturatingAdd, if_neg h, Bool.and_eq_true, bne_iff_ne, ne_eq, ht, not_false_eq_true,
    decide_eq_true_eq, true_and, UInt64.le_iff_toNat_le, timeout_ns_toNat]
  have : (0xffffffffffffffff : UInt64).toNat = 2 ^ 64 - 1 := by decide
  omega

/-! ## The xSync messages -/

namespace Pb

structure FlowKey where
  src : UInt32
  dst : UInt32
  sport : UInt32
  dport : UInt32
  proto : UInt32
  deriving DecidableEq, Repr

structure FlowValue where
  listenerId : UInt32
  targetId : UInt32
  vip : UInt32
  target : UInt32
  vipPort : UInt32
  targetPort : UInt32
  timeoutSecs : UInt32
  lastSeenAgeNs : UInt64
  deriving DecidableEq, Repr

structure FlowEntry where
  key : Option FlowKey
  value : Option FlowValue
  deriving DecidableEq, Repr

end Pb

def u16TryFrom (x : UInt32) (context : String) : Except String UInt16 :=
  if x.toNat < 2 ^ 16 then .ok x.toUInt16 else .error context

def u8TryFrom (x : UInt32) (context : String) : Except String UInt8 :=
  if x.toNat < 2 ^ 8 then .ok x.toUInt8 else .error context

def required {α : Type} (x : Option α) (context : String) : Except String α :=
  match x with
  | some x => .ok x
  | none => .error context

def keyToProto (key : NativeFlowKey) : Pb.FlowKey :=
  { src := key.src, dst := key.dst, sport := key.sport.toUInt32, dport := key.dport.toUInt32,
    proto := key.proto.toUInt32 }

def keyFromProto (key : Pb.FlowKey) : Except String NativeFlowKey := do
  return {
    src := key.src
    dst := key.dst
    sport := ← u16TryFrom key.sport "flow sport out of range"
    dport := ← u16TryFrom key.dport "flow dport out of range"
    proto := ← u8TryFrom key.proto "flow protocol out of range" }

def entryToProto (entry : FlowEntry) (nowNs : UInt64) : Pb.FlowEntry :=
  { key := some (keyToProto entry.1)
    value := some {
      listenerId := entry.2.listenerId
      targetId := entry.2.targetId
      vip := entry.2.vip
      target := entry.2.target
      vipPort := entry.2.vipPort.toUInt32
      targetPort := entry.2.targetPort.toUInt32
      timeoutSecs := entry.2.timeoutSecs
      lastSeenAgeNs := flowAgeNs entry.2.lastSeenNs nowNs } }

def valueFromProtoAt (value : Pb.FlowValue) (nowNs : UInt64) : Except String NativeFlowValue := do
  return {
    listenerId := value.listenerId
    targetId := value.targetId
    vip := value.vip
    target := value.target
    vipPort := ← u16TryFrom value.vipPort "flow VIP port out of range"
    targetPort := ← u16TryFrom value.targetPort "flow target port out of range"
    timeoutSecs := value.timeoutSecs
    lastSeenNs := localLastSeenNs value.lastSeenAgeNs nowNs }

def entryFromProtoAt (entry : Pb.FlowEntry) (nowNs : UInt64) : Except String FlowEntry := do
  let key ← keyFromProto (← required entry.key "flow entry key is required")
  let value ← required entry.value "flow entry value is required"
  return (key, ← valueFromProtoAt value nowNs)

variable {v : NativeFlowValue} {k : NativeFlowKey} {index : Assignments}

theorem valueFromProtoAt_ok {pv : Pb.FlowValue} {now : UInt64} (h : valueFromProtoAt pv now = .ok v) :
    v.timeoutSecs = pv.timeoutSecs ∧ v.lastSeenNs = localLastSeenNs pv.lastSeenAgeNs now := by
  unfold valueFromProtoAt at h
  cases hv : u16TryFrom pv.vipPort "flow VIP port out of range" with
  | error e => rw [hv] at h; cases h
  | ok vipPort =>
    cases ht : u16TryFrom pv.targetPort "flow target port out of range" with
    | error e => rw [hv, ht] at h; cases h
    | ok targetPort =>
      rw [hv, ht] at h
      cases h
      exact ⟨rfl, rfl⟩

/-- An accepted entry carries a value, and the value is read off it. -/
theorem entryFromProtoAt_ok {e : Pb.FlowEntry} {now : UInt64} (h : entryFromProtoAt e now = .ok (k, v)) :
    ∃ pv, e.value = some pv ∧ valueFromProtoAt pv now = .ok v := by
  obtain ⟨key, value⟩ := e
  unfold entryFromProtoAt at h
  cases key with
  | none => cases h
  | some pk =>
    cases hk : keyFromProto pk with
    | error e => simp only [required, bind, Except.bind, hk] at h; cases h
    | ok key =>
      cases value with
      | none => simp only [required, bind, Except.bind, hk] at h; cases h
      | some pv =>
        cases hv : valueFromProtoAt pv now with
        | error e => simp only [required, bind, Except.bind, hk, hv] at h; cases h
        | ok value =>
          simp only [required, bind, Except.bind, hk, hv, pure, Except.pure, Except.ok.injEq, Prod.mk.injEq] at h
          exact ⟨pv, rfl, by rw [hv, h.2]⟩

/-! ## The snapshot -/

structure SnapshotEntry where
  key : NativeFlowKey
  value : NativeFlowValue
  lastSeenAgeNs : UInt64
  deriving DecidableEq, Repr

structure SnapshotPair where
  forwardKey : NativeFlowKey
  reverseKey : NativeFlowKey
  value : NativeFlowValue
  lastSeenAgeNs : UInt64
  deriving DecidableEq, Repr

/-- `flow_key_sort_tuple` compared in the order of its components, as one number. -/
def flowKeySortTuple (key : NativeFlowKey) : Nat :=
  (((key.src.toNat * 2 ^ 32 + key.dst.toNat) * 2 ^ 16 + key.sport.toNat) * 2 ^ 16 + key.dport.toNat) * 2 ^ 8
    + key.proto.toNat

def forwardReverseKeys (key : NativeFlowKey) (value : NativeFlowValue) : NativeFlowKey × NativeFlowKey :=
  if key.src = value.target ∧ key.sport = toBe value.targetPort then (key.forwardFor value, key)
  else (key, key.reverseFor value)

def canonicalFlowPair (key : NativeFlowKey) (value : NativeFlowValue) : NativeFlowKey × NativeFlowKey :=
  let (forward, reverse) := forwardReverseKeys key value
  if flowKeySortTuple forward ≤ flowKeySortTuple reverse then (forward, reverse) else (reverse, forward)

/-- `min_by_key` on the age: the first of the youngest entries. -/
def youngest : List SnapshotEntry → Option SnapshotEntry
  | [] => none
  | e :: es => some (es.foldl (fun best e => if e.lastSeenAgeNs < best.lastSeenAgeNs then e else best) e)

def pairFromEntries (left right : NativeFlowKey) (entries : List SnapshotEntry) : Option SnapshotPair :=
  if left = right then none
  else if ¬ (entries.any (·.key = left) ∧ entries.any (·.key = right)) then none
  else (youngest entries).map fun entry =>
    let (forwardKey, reverseKey) := forwardReverseKeys entry.key entry.value
    { forwardKey, reverseKey, value := entry.value, lastSeenAgeNs := entry.lastSeenAgeNs }

def collectRestorePairs (entries : List SnapshotEntry) : List (Option SnapshotPair) :=
  (entries.map fun e => canonicalFlowPair e.key e.value).eraseDups.map fun pair =>
    pairFromEntries pair.1 pair.2 (entries.filter fun e => canonicalFlowPair e.key e.value = pair)

/-! ## Restoring -/

def listenerMatches (listener : NativeListener) (forwardKey : NativeFlowKey) (value : NativeFlowValue) : Bool :=
  listener.key.vipIp = value.vip ∧ toBe listener.key.vipPort = value.vipPort ∧ forwardKey.dst = value.vip ∧
    forwardKey.dport = value.vipPort ∧ forwardKey.proto = listener.key.protocol.ipProto

/-- `ListenerRestoreIndex::get`: by the old id when that listener still fits, else by
    the socket. Both hash maps keep the last insertion of a key. -/
def restoreIndexGet (index : Assignments) (oldListenerId : UInt32) (forwardKey : NativeFlowKey)
    (value : NativeFlowValue) : Option (UInt32 × NativeListener) :=
  let fits := fun entry : UInt32 × NativeListener => listenerMatches entry.2 forwardKey value
  let byId := index.reverse.find? fun entry => entry.1 = oldListenerId
  let bySocket := index.reverse.find? fun entry => entry.2.key.vipIp = value.vip ∧
    toBe entry.2.key.vipPort = value.vipPort ∧ entry.2.key.protocol.ipProto = forwardKey.proto
  (byId.filter fits).or (bySocket.filter fits)

def remapValue (value : NativeFlowValue) (restoredAgeNs : UInt64) (forwardKey : NativeFlowKey)
    (index : Assignments) (nowNs : UInt64) : Option NativeFlowValue := do
  let (listenerId, listener) ← restoreIndexGet index value.listenerId forwardKey value
  let targetId ← listener.targets.findIdx? fun target =>
    target.address = value.target ∧ target.port = value.targetPort
  let target ← listener.targets[targetId]?
  return { value with
    listenerId
    targetId := UInt32.ofNat targetId
    target := target.address
    targetPort := target.port
    lastSeenNs := saturatingSub nowNs restoredAgeNs }

inductive Skip
  | incomplete | expired | config
  deriving DecidableEq, Repr

/-- One turn of the loop of `restore_entries_from_snapshot`. -/
def restorePair (index : Assignments) (elapsedNs nowNs : UInt64) (pair : SnapshotPair) : Except Skip (List FlowEntry) :=
  let restoredAge := saturatingAdd pair.lastSeenAgeNs elapsedNs
  if flowAgeExpired restoredAge pair.value.timeoutSecs then .error .expired
  else
    match remapValue pair.value restoredAge pair.forwardKey index nowNs with
    | none => .error .config
    | some value => .ok [(pair.forwardKey, value), (pair.forwardKey.reverseFor value, value)]

structure RestoreSummary where
  restoredPairs : Nat := 0
  skippedIncomplete : Nat := 0
  skippedExpired : Nat := 0
  skippedConfig : Nat := 0
  deriving DecidableEq, Repr

def RestoreSummary.count (s : RestoreSummary) : Except Skip (List FlowEntry) → RestoreSummary
  | .ok _ => { s with restoredPairs := s.restoredPairs + 1 }
  | .error .incomplete => { s with skippedIncomplete := s.skippedIncomplete + 1 }
  | .error .expired => { s with skippedExpired := s.skippedExpired + 1 }
  | .error .config => { s with skippedConfig := s.skippedConfig + 1 }

/-- `clock pair` is the reading of the monotonic clock while that pair is remapped. -/
def restoreOutcomes (entries : List SnapshotEntry) (index : Assignments) (elapsedNs : UInt64)
    (clock : SnapshotPair → UInt64) : List (Except Skip (List FlowEntry)) :=
  (collectRestorePairs entries).map fun
    | none => .error .incomplete
    | some pair => restorePair index elapsedNs (clock pair) pair

def restoreEntriesFromSnapshot (entries : List SnapshotEntry) (index : Assignments) (elapsedNs : UInt64)
    (clock : SnapshotPair → UInt64) : RestoreSummary × List FlowEntry :=
  let outcomes := restoreOutcomes entries index elapsedNs clock
  (outcomes.foldl RestoreSummary.count {}, outcomes.flatMap fun o => o.toOption.getD [])

theorem remapValue_some {v w : NativeFlowValue} {age : UInt64}
    {now : UInt64} (h : remapValue v age k index now = some w) :
    w.timeoutSecs = v.timeoutSecs ∧ w.lastSeenNs = saturatingSub now age := by
  simp only [remapValue, Option.bind_eq_bind, Option.bind_eq_some_iff, Option.pure_def, Option.some.injEq] at h
  obtain ⟨_, _, _, _, _, _, rfl⟩ := h
  exact ⟨rfl, rfl⟩

/-- What a restored pair carries: its timeout, and its age rebased on the clock. The age
    is the exact sum, since a sum that saturates counts as expired. -/
theorem restorePair_ok {elapsed now : UInt64} {pair : SnapshotPair} {es : List FlowEntry}
    (h : restorePair index elapsed now pair = .ok es) (he : (k, v) ∈ es) :
    v.timeoutSecs = pair.value.timeoutSecs ∧
      v.lastSeenNs = saturatingSub now (saturatingAdd pair.lastSeenAgeNs elapsed) ∧
      (v.timeoutSecs ≠ 0 → pair.lastSeenAgeNs.toNat + elapsed.toNat < 2 ^ 64) := by
  simp only [restorePair] at h
  split at h
  · cases h
  next hlive =>
    split at h
    · cases h
    next w hw =>
      obtain ⟨ht, hl⟩ := remapValue_some hw
      cases h
      have hv : v = w := by
        simp only [List.mem_cons, Prod.mk.injEq, List.not_mem_nil, or_false] at he
        rcases he with ⟨_, h⟩ | ⟨_, h⟩ <;> exact h
      subst hv
      refine ⟨ht, hl, fun h0 => ?_⟩
      by_contra hsat
      exact hlive (flowAgeExpired_saturated (ht ▸ h0) hsat)

/-! ## Ageing on the receiver -/

/-- `v` arrived when the receiver's clock read `n`, `a` nanoseconds old. -/
inductive Arrives : NativeFlowValue → UInt64 → Nat → Prop
  | xsync {e : Pb.FlowEntry} {pv : Pb.FlowValue} {k : NativeFlowKey} {v : NativeFlowValue} {n : UInt64}
      (accepted : entryFromProtoAt e n = .ok (k, v)) (value : e.value = some pv) :
      Arrives v n pv.lastSeenAgeNs.toNat
  | snapshot {entries : List SnapshotEntry} {index : Assignments} {elapsed n : UInt64} {pair : SnapshotPair}
      {es : List FlowEntry} {k : NativeFlowKey} {v : NativeFlowValue}
      (collected : some pair ∈ collectRestorePairs entries)
      (restored : restorePair index elapsed n pair = .ok es) (entry : (k, v) ∈ es) :
      Arrives v n (pair.lastSeenAgeNs.toNat + elapsed.toNat)

/-- The datapath calls `v` expired at `t` when its age by then is over the timeout. -/
def AgesOn (v : NativeFlowValue) (n : UInt64) (a : Nat) : Prop :=
  ∀ t : UInt64, n ≤ t → (v.expired t = true ↔ v.timeoutSecs.toNat * 10 ^ 9 < a + (t.toNat - n.toNat))

/-- Both ways in rebase the age alike. -/
theorem Arrives.lastSeenNs {n : UInt64} {a : Nat} (h : Arrives v n a)
    (ht : v.timeoutSecs ≠ 0) : v.lastSeenNs.toNat = n.toNat - a := by
  cases h with
  | xsync accepted value =>
    obtain ⟨pv, hpv, hv⟩ := entryFromProtoAt_ok accepted
    obtain rfl := Option.some.inj (value.symm.trans hpv)
    rw [(valueFromProtoAt_ok hv).2, localLastSeenNs_eq, saturatingSub_toNat]
  | snapshot collected restored entry =>
    obtain ⟨-, hl, hsum⟩ := restorePair_ok restored entry
    rw [hl, saturatingSub_toNat, saturatingAdd_toNat (hsum ht)]

theorem agesOn_of_younger {n : UInt64} {a : Nat} (ht : v.timeoutSecs ≠ 0)
    (hl : v.lastSeenNs.toNat = n.toNat - a) (ha : a < n.toNat) : AgesOn v n a := by
  intro t hnt
  have hnt' : n.toNat ≤ t.toNat := UInt64.le_iff_toNat_le.mp hnt
  have hl0 : v.lastSeenNs ≠ 0 := by
    intro h0
    rw [h0] at hl
    have : (0 : UInt64).toNat = 0 := rfl
    omega
  have hage : t.toNat - v.lastSeenNs.toNat = a + (t.toNat - n.toNat) := by omega
  rw [NativeFlowValue.expired, flowExpired_iff, hage]
  exact ⟨fun h => h.2.2, fun h => ⟨hl0, ht, h⟩⟩

/-- An age of at least the receiver's uptime leaves `last_seen_ns = 0`. -/
theorem rebased_to_zero_never_expires {n : UInt64} {a : Nat}
    (hl : v.lastSeenNs.toNat = n.toNat - a) (ha : n.toNat ≤ a) (t : UInt64) : v.expired t = false := by
  have h0 : v.lastSeenNs = 0 := UInt64.toNat_inj.mp (by rw [hl, Nat.sub_eq_zero_of_le ha]; rfl)
  rw [← Bool.not_eq_true, NativeFlowValue.expired, flowExpired_iff]
  exact fun h => h.1 h0

theorem ages_on_iff_younger_than_uptime {v : NativeFlowValue} {n : UInt64} {a : Nat} (h : Arrives v n a)
    (ht : v.timeoutSecs ≠ 0) : AgesOn v n a ↔ a < n.toNat := by
  have hl := h.lastSeenNs ht
  refine ⟨fun hages => ?_, agesOn_of_younger ht hl⟩
  by_contra hold
  have ha : n.toNat ≤ a := Nat.le_of_not_lt hold
  -- The last instant of the clock: every timeout has passed, but the entry is kept.
  let last : UInt64 := 0xffffffffffffffff
  have hlast : last.toNat = 2 ^ 64 - 1 := by decide
  have hn := n.toNat_lt
  have hT := v.timeoutSecs.toNat_lt
  have hnl : n ≤ last := UInt64.le_iff_toNat_le.mpr (by omega)
  have hexp := (hages last hnl).mpr (by omega)
  rw [rebased_to_zero_never_expires hl ha last] at hexp
  cases hexp

/-! A gateway that has been up for five seconds hears of a flow last used ten seconds ago. -/

def idleEntry : Pb.FlowEntry :=
  { key := some { src := 0xc6336407, dst := 0xc000020a, sport := 16540, dport := 36895, proto := 6 }
    value := some { listenerId := 1, targetId := 0, vip := 0xc000020a, target := 0xc0000214, vipPort := 36895,
                    targetPort := 9090, timeoutSecs := 60, lastSeenAgeNs := 10000000000 } }

def idleValue (lastSeenNs : UInt64) : NativeFlowValue :=
  { listenerId := 1, targetId := 0, vip := 0xc000020a, target := 0xc0000214, vipPort := 36895, targetPort := 9090,
    timeoutSecs := 60, lastSeenNs }

def idleKey : NativeFlowKey :=
  { src := 0xc6336407, dst := 0xc000020a, sport := 16540, dport := 36895, proto := 6 }

theorem idle_flow_never_expires_after_boot :
    entryFromProtoAt idleEntry 5000000000 = .ok (idleKey, idleValue 0) ∧
      Arrives (idleValue 0) 5000000000 10000000000 ∧
      (∀ t, (idleValue 0).expired t = false) ∧ ¬ AgesOn (idleValue 0) 5000000000 10000000000 := by
  have harr : entryFromProtoAt idleEntry 5000000000 = .ok (idleKey, idleValue 0) := by decide
  have hnever : ∀ t, (idleValue 0).expired t = false :=
    rebased_to_zero_never_expires (n := 5000000000) (a := 10000000000) rfl (by decide)
  refine ⟨harr, .xsync harr rfl, hnever, fun hages => ?_⟩
  have hexp := (hages 100000000000 (by decide)).mpr (by decide)
  rw [hnever] at hexp
  cases hexp

theorem idle_flow_expires_on_longer_uptime :
    Arrives (idleValue 20000000000) 30000000000 10000000000 ∧
      AgesOn (idleValue 20000000000) 30000000000 10000000000 := by
  have harr : entryFromProtoAt idleEntry 30000000000 = .ok (idleKey, idleValue 20000000000) := by decide
  have h : Arrives (idleValue 20000000000) 30000000000 10000000000 := .xsync harr rfl
  exact ⟨h, (ages_on_iff_younger_than_uptime h (by decide)).mpr (by decide)⟩

end EdgeLb.Provider
