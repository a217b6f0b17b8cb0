/-
  EdgeLb.Provider.Snapshot — the flow table through its snapshot file
  (`edge-lb/src/provider/native/flow_persistence.rs`).

  A snapshot has the table's complete pairs, each written as its two entries with the value
  and the age of the younger one. It leaves out an entry with less than
  `min_remaining_ttl_secs` to live and all but the `max_records` youngest pairs. A table
  without a pair to save does not replace an existing file. At restore the entries are
  paired once more, aged by the wall clock, and given the ids of the listeners configured
  by then.

  Proved: the file gives back what was written, with `last_seen_ns` 0
  (`decodeSnapshot_encodeSnapshot`), so a restore starts from the pairs that were saved
  (`restoreFromPath_writeSnapshot`); and every file that is accepted is the one written for what
  it gives (`snapshot_file_exact`).

  SHA-256 is a parameter of which only the length is used. `dump_flows` iterates a hash map;
  the dump comes in the map's own order, and its groups in the order of their first entry.
-/

import EdgeLb.Lib.Wire
import EdgeLb.Provider.XSync
import EdgeLb.Datapath.Overlay

namespace EdgeLb.Provider

open EdgeLb.Common EdgeLb.Lib EdgeLb.Datapath

structure GatewayFlowPersistenceConfig where
  enabled : Bool := false
  minRemainingTtlSecs : UInt64 := 5
  maxRecords : Nat := 524288
  restoreOnStart : Bool := true
  deriving DecidableEq, Repr

/-! ## What is saved -/

def saturatingMul (a b : UInt64) : UInt64 :=
  if a.toNat * b.toNat < 2 ^ 64 then a * b else 0xffffffffffffffff

def remainingTtlNs (ageNs : UInt64) (timeoutSecs : UInt32) : Option UInt64 :=
  if timeoutSecs = 0 then none else some (saturatingSub (timeoutSecs.toUInt64 * 1000000000) ageNs)

/-- The entry has enough of its timeout left to be saved. -/
def lasting (settings : GatewayFlowPersistenceConfig) (nowNs : UInt64) (value : NativeFlowValue) : Bool :=
  (remainingTtlNs (flowAgeNs value.lastSeenNs nowNs) value.timeoutSecs).all
    fun ttl => saturatingMul settings.minRemainingTtlSecs 1000000000 ≤ ttl

def snapshotEntry (nowNs : UInt64) (entry : FlowEntry) : SnapshotEntry :=
  { key := entry.1, value := entry.2, lastSeenAgeNs := flowAgeNs entry.2.lastSeenNs nowNs }

/-- The entries of the dump that are grouped into pairs. -/
def lastingEntries (flows : List FlowEntry) (nowNs : UInt64) (settings : GatewayFlowPersistenceConfig) :
    List SnapshotEntry :=
  (flows.filter fun e => lasting settings nowNs e.2).map (snapshotEntry nowNs)

/-- The same grouping as at restore; groups that are no pair are dropped. -/
def collectSnapshotPairs (flows : List FlowEntry) (nowNs : UInt64) (settings : GatewayFlowPersistenceConfig) :
    List SnapshotPair :=
  let pairs := (collectRestorePairs (lastingEntries flows nowNs settings)).filterMap id
  (pairs.insertionSort fun a b => a.lastSeenAgeNs ≤ b.lastSeenAgeNs).take settings.maxRecords

def pairEntries (pair : SnapshotPair) : List SnapshotEntry :=
  [{ key := pair.forwardKey, value := pair.value, lastSeenAgeNs := pair.lastSeenAgeNs },
    { key := pair.reverseKey, value := pair.value, lastSeenAgeNs := pair.lastSeenAgeNs }]

def snapshotEntriesFromPairs (pairs : List SnapshotPair) : List SnapshotEntry := pairs.flatMap pairEntries

/-! ## The file -/

structure Snapshot where
  savedAtUnixNs : UInt64
  nodeName : String
  configDigest : { digest : Bytes // digest.length = 32 }
  entries : List SnapshotEntry

structure Sha256 where
  digest : Bytes → Bytes
  length_digest : ∀ bytes, (digest bytes).length = 32

/-- The eight letters of `ELBFLOW1`. -/
def MAGIC : Bytes := [0x45, 0x4c, 0x42, 0x46, 0x4c, 0x4f, 0x57, 0x31]

def FORMAT_VERSION : Nat := 1

def FLOW_MAP_ABI_VERSION : Nat := 1

def encodeEntry (entry : SnapshotEntry) : Bytes :=
  leBytes 4 entry.key.src.toNat ++ (leBytes 4 entry.key.dst.toNat ++ (leBytes 2 entry.key.sport.toNat ++
  (leBytes 2 entry.key.dport.toNat ++ (leBytes 1 entry.key.proto.toNat ++
  (leBytes 4 entry.value.listenerId.toNat ++ (leBytes 4 entry.value.targetId.toNat ++
  (leBytes 4 entry.value.vip.toNat ++ (leBytes 4 entry.value.target.toNat ++
  (leBytes 2 entry.value.vipPort.toNat ++ (leBytes 2 entry.value.targetPort.toNat ++
  (leBytes 4 entry.value.timeoutSecs.toNat ++ leBytes 8 entry.lastSeenAgeNs.toNat)))))))))))

def nameBytes (name : String) : Bytes := name.toByteArray.data.toList

/-- The file up to its checksum. -/
def payload (snapshot : Snapshot) : Bytes :=
  MAGIC ++ (leBytes 4 FORMAT_VERSION ++ (leBytes 4 FLOW_MAP_ABI_VERSION ++
  (leBytes 8 snapshot.savedAtUnixNs.toNat ++ (leBytes 2 (nameBytes snapshot.nodeName).length ++
  (nameBytes snapshot.nodeName ++ (snapshot.configDigest ++
  (leBytes 4 snapshot.entries.length ++ snapshot.entries.flatMap encodeEntry)))))))

variable (sha : Sha256)

def encodeSnapshot (snapshot : Snapshot) : Except String Bytes := do
  bailIf (0xffff < (nameBytes snapshot.nodeName).length) "node name too long for flow snapshot"
  bailIf (0xffffffff < snapshot.entries.length) "too many flow entries for flow snapshot"
  return payload snapshot ++ sha.digest (payload snapshot)

def cursorLe (n : Nat) : ByteReader Nat := readLe "truncated flow snapshot" n

def decodeEntry : ByteReader SnapshotEntry := do
  let src ← cursorLe 4
  let dst ← cursorLe 4
  let sport ← cursorLe 2
  let dport ← cursorLe 2
  let proto ← cursorLe 1
  let listenerId ← cursorLe 4
  let targetId ← cursorLe 4
  let vip ← cursorLe 4
  let target ← cursorLe 4
  let vipPort ← cursorLe 2
  let targetPort ← cursorLe 2
  let timeoutSecs ← cursorLe 4
  let age ← cursorLe 8
  return {
    key := { src := UInt32.ofNat src, dst := UInt32.ofNat dst, sport := UInt16.ofNat sport,
             dport := UInt16.ofNat dport, proto := UInt8.ofNat proto }
    value := { listenerId := UInt32.ofNat listenerId, targetId := UInt32.ofNat targetId, vip := UInt32.ofNat vip,
               target := UInt32.ofNat target, vipPort := UInt16.ofNat vipPort, targetPort := UInt16.ofNat targetPort,
               timeoutSecs := UInt32.ofNat timeoutSecs, lastSeenNs := 0 }
    lastSeenAgeNs := UInt64.ofNat age }

def cursorBytes (n : Nat) : ByteReader Bytes := readBytes "truncated flow snapshot" n

def expectMagic : ByteReader Unit := do
  let actual ← cursorBytes MAGIC.length
  (bailIf (actual != MAGIC) "bad flow snapshot magic" : Except String Unit)

def cursorName (len : Nat) : ByteReader String := do
  let bytes ← cursorBytes len
  (orBail (String.fromUTF8? ⟨bytes.toArray⟩) "flow snapshot node name is not UTF-8" : Except String String)

/-- The rest of a digest field; the length is that of the bytes read. -/
def cursorDigest : ByteReader { digest : Bytes // digest.length = 32 } := do
  let bytes ← cursorBytes 32
  if h : bytes.length = 32 then return ⟨bytes, h⟩
  else (Except.error "truncated flow snapshot" : Except String _)

def finish : ByteReader Unit := fun bytes =>
  if bytes = [] then .ok ((), bytes) else .error "flow snapshot has trailing bytes"

def decodePayload : ByteReader Snapshot := do
  expectMagic
  let version ← cursorLe 4
  (bailIf (version ≠ FORMAT_VERSION) s!"unsupported flow snapshot version {version}" : Except String Unit)
  let abi ← cursorLe 4
  (bailIf (abi ≠ FLOW_MAP_ABI_VERSION) s!"unsupported flow map ABI version {abi}" : Except String Unit)
  let savedAt ← cursorLe 8
  let nodeLen ← cursorLe 2
  let nodeName ← cursorName nodeLen
  let configDigest ← cursorDigest
  let count ← cursorLe 4
  let entries ← readMany decodeEntry count
  return { savedAtUnixNs := UInt64.ofNat savedAt, nodeName, configDigest, entries }

def decodeSnapshot (bytes : Bytes) : Except String Snapshot := do
  bailIf (bytes.length < MAGIC.length + 32) "flow snapshot is too short"
  let payloadLen := bytes.length - 32
  bailIf (sha.digest (bytes.take payloadLen) != bytes.drop payloadLen) "flow snapshot checksum mismatch"
  let (snapshot, rest) ← decodePayload.run (bytes.take payloadLen)
  let _ ← finish.run rest
  return snapshot

/-! ## Writing and restoring -/

def digestBytes (ids : Assignments) : Bytes :=
  ids.flatMap fun (id, listener) =>
    leBytes 4 id.toNat ++ (leBytes 4 listener.key.vipIp.toNat ++ (leBytes 2 listener.key.vipPort.toNat ++
    (leBytes 1 listener.key.protocol.ipProto.toNat ++ (leBytes 4 listener.targets.length ++
    listener.targets.flatMap fun target => leBytes 4 target.address.toNat ++ leBytes 2 target.port.toNat))))

def configDigest (ids : Assignments) : { digest : Bytes // digest.length = 32 } :=
  ⟨sha.digest (digestBytes ids), sha.length_digest _⟩

/-- The node at the time of a snapshot; both clocks are read once. -/
structure SnapshotSource where
  nodeName : String
  ids : Assignments
  table : BpfMap NativeFlowKey NativeFlowValue
  nowMonoNs : UInt64
  unixNowNs : UInt64

def SnapshotSource.pairs (source : SnapshotSource) (settings : GatewayFlowPersistenceConfig) : List SnapshotPair :=
  collectSnapshotPairs (dumpFlows source.table) source.nowMonoNs settings

/-- `write_snapshot`, as what it leaves in the file. -/
def writeSnapshot (settings : GatewayFlowPersistenceConfig) (source : SnapshotSource)
    (file : Option Bytes) : Except String (Option Bytes) :=
  if !settings.enabled then .ok file
  else if (source.pairs settings).isEmpty && file.isSome then .ok file
  else do
    let bytes ← encodeSnapshot sha {
      savedAtUnixNs := source.unixNowNs
      nodeName := source.nodeName
      configDigest := configDigest sha source.ids
      entries := snapshotEntriesFromPairs (source.pairs settings) }
    return some bytes

/-- `restore_from_path` up to the entries handed to `upsert_flows`. -/
def restoreFromPath (bytes : Bytes) (index : Assignments) (unixNowNs : UInt64)
    (clock : SnapshotPair → UInt64) : Except String (RestoreSummary × List FlowEntry) := do
  let snapshot ← decodeSnapshot sha bytes
  let elapsedNs := saturatingSub unixNowNs snapshot.savedAtUnixNs
  return restoreEntriesFromSnapshot snapshot.entries index elapsedNs clock

/-! ## Reading the file back -/

/-- What the file keeps of an entry. -/
def SnapshotEntry.stored (entry : SnapshotEntry) : SnapshotEntry :=
  { entry with value := { entry.value with lastSeenNs := 0 } }

theorem reads_u8 (x : UInt8) : Reads (cursorLe 1) (leBytes 1 x.toNat) x.toNat := reads_le _ x.toNat_lt

theorem reads_u16 (x : UInt16) : Reads (cursorLe 2) (leBytes 2 x.toNat) x.toNat := reads_le _ x.toNat_lt

theorem reads_u32 (x : UInt32) : Reads (cursorLe 4) (leBytes 4 x.toNat) x.toNat := reads_le _ x.toNat_lt

theorem reads_u64 (x : UInt64) : Reads (cursorLe 8) (leBytes 8 x.toNat) x.toNat := reads_le _ x.toNat_lt

theorem reads_entry (entry : SnapshotEntry) : Reads decodeEntry (encodeEntry entry) entry.stored := by
  unfold decodeEntry encodeEntry
  refine Reads.bind (reads_u32 _) ?_
  refine Reads.bind (reads_u32 _) ?_
  refine Reads.bind (reads_u16 _) ?_
  refine Reads.bind (reads_u16 _) ?_
  refine Reads.bind (reads_u8 _) ?_
  refine Reads.bind (reads_u32 _) ?_
  refine Reads.bind (reads_u32 _) ?_
  refine Reads.bind (reads_u32 _) ?_
  refine Reads.bind (reads_u32 _) ?_
  refine Reads.bind (reads_u16 _) ?_
  refine Reads.bind (reads_u16 _) ?_
  refine Reads.bind (reads_u32 _) ?_
  have hlast := Reads.map (fun age => ({ entry with lastSeenAgeNs := UInt64.ofNat age } : SnapshotEntry).stored)
    (reads_u64 entry.lastSeenAgeNs)
  simpa [SnapshotEntry.stored] using hlast

theorem reads_magic : Reads expectMagic MAGIC () :=
  Reads.bind_nil (reads_bytes _ MAGIC) (Reads.lift rfl)

theorem reads_name (name : String) : Reads (cursorName (nameBytes name).length) (nameBytes name) name := by
  have hname : String.fromUTF8? ⟨(nameBytes name).toArray⟩ = some name := dif_pos name.isValidUTF8
  refine Reads.bind_nil (reads_bytes _ (nameBytes name)) (Reads.lift ?_)
  rw [hname]
  rfl

theorem reads_digest (digest : { digest : Bytes // digest.length = 32 }) : Reads cursorDigest digest digest := by
  obtain ⟨bytes, h⟩ := digest
  have hread := reads_bytes "truncated flow snapshot" bytes
  rw [h] at hread
  refine Reads.bind_nil hread ?_
  rw [dif_pos h]
  exact Reads.pure _

variable {snapshot : Snapshot} {bs rest : Bytes}

theorem reads_payload (hname : (nameBytes snapshot.nodeName).length ≤ 0xffff)
    (hcount : snapshot.entries.length ≤ 0xffffffff) :
    Reads decodePayload (payload snapshot)
      { snapshot with entries := snapshot.entries.map SnapshotEntry.stored } := by
  unfold decodePayload payload
  refine Reads.bind reads_magic ?_
  refine Reads.bind (reads_le _ (by decide)) (Reads.nil_bind (Reads.lift rfl) ?_)
  refine Reads.bind (reads_le _ (by decide)) (Reads.nil_bind (Reads.lift rfl) ?_)
  refine Reads.bind (reads_u64 _) ?_
  refine Reads.bind (reads_le _ (by omega)) ?_
  refine Reads.bind (reads_name _) ?_
  refine Reads.bind (reads_digest _) ?_
  refine Reads.bind (reads_le _ (by omega)) ?_
  have hentries := Reads.map
    (fun entries => { snapshot with savedAtUnixNs := UInt64.ofNat snapshot.savedAtUnixNs.toNat, entries })
    (Reads.many reads_entry snapshot.entries)
  simpa using hentries

/-- The file gives back what was written, without `last_seen_ns`. -/
theorem decodeSnapshot_encodeSnapshot {sha : Sha256} {bytes : Bytes} (h : encodeSnapshot sha snapshot = .ok bytes) :
    decodeSnapshot sha bytes = .ok { snapshot with entries := snapshot.entries.map SnapshotEntry.stored } := by
  simp only [encodeSnapshot, seq_eq_ok, bailIf_eq_ok, decide_eq_false_iff_not, Nat.not_lt, pure, Except.pure,
    Except.ok.injEq] at h
  obtain ⟨hname, hcount, rfl⟩ := h
  have hdigest := sha.length_digest (payload snapshot)
  have hlen : (payload snapshot ++ sha.digest (payload snapshot)).length - 32 = (payload snapshot).length := by
    rw [List.length_append, hdigest, Nat.add_sub_cancel]
  have hmagic : MAGIC.length ≤ (payload snapshot).length := by
    rw [payload, List.length_append]
    exact Nat.le_add_right _ _
  have hread := reads_payload hname hcount []
  rw [List.append_nil] at hread
  simp only [decodeSnapshot, hlen, List.take_left, List.drop_left]
  rw [bailIf, if_neg (by rw [decide_eq_true_eq, List.length_append, hdigest]; omega), bailIf, if_neg (by simp)]
  simp only [bind, Except.bind, hread]
  rfl

/-! ## Every accepted file was written -/

theorem wrote_u8 {x : Nat} (h : (cursorLe 1).run bs = .ok (x, rest)) :
    bs = leBytes 1 (UInt8.ofNat x).toNat ++ rest := by
  obtain ⟨rfl, hx⟩ := readLe_ok h
  rw [UInt8.toNat_ofNat_of_lt' hx]

theorem wrote_u16 {x : Nat} (h : (cursorLe 2).run bs = .ok (x, rest)) :
    bs = leBytes 2 (UInt16.ofNat x).toNat ++ rest := by
  obtain ⟨rfl, hx⟩ := readLe_ok h
  rw [UInt16.toNat_ofNat_of_lt' hx]

theorem wrote_u32 {x : Nat} (h : (cursorLe 4).run bs = .ok (x, rest)) :
    bs = leBytes 4 (UInt32.ofNat x).toNat ++ rest := by
  obtain ⟨rfl, hx⟩ := readLe_ok h
  rw [UInt32.toNat_ofNat_of_lt' hx]

theorem wrote_u64 {x : Nat} (h : (cursorLe 8).run bs = .ok (x, rest)) :
    bs = leBytes 8 (UInt64.ofNat x).toNat ++ rest := by
  obtain ⟨rfl, hx⟩ := readLe_ok h
  rw [UInt64.toNat_ofNat_of_lt' hx]

theorem wrote_entry : Wrote decodeEntry encodeEntry := by
  intro bs entry rest h
  obtain ⟨src, bs₁, h₁, h⟩ := run_bind_ok.mp h
  obtain ⟨dst, bs₂, h₂, h⟩ := run_bind_ok.mp h
  obtain ⟨sport, bs₃, h₃, h⟩ := run_bind_ok.mp h
  obtain ⟨dport, bs₄, h₄, h⟩ := run_bind_ok.mp h
  obtain ⟨proto, bs₅, h₅, h⟩ := run_bind_ok.mp h
  obtain ⟨listenerId, bs₆, h₆, h⟩ := run_bind_ok.mp h
  obtain ⟨targetId, bs₇, h₇, h⟩ := run_bind_ok.mp h
  obtain ⟨vip, bs₈, h₈, h⟩ := run_bind_ok.mp h
  obtain ⟨target, bs₉, h₉, h⟩ := run_bind_ok.mp h
  obtain ⟨vipPort, bs₁₀, h₁₀, h⟩ := run_bind_ok.mp h
  obtain ⟨targetPort, bs₁₁, h₁₁, h⟩ := run_bind_ok.mp h
  obtain ⟨timeoutSecs, bs₁₂, h₁₂, h⟩ := run_bind_ok.mp h
  obtain ⟨age, bs₁₃, h₁₃, h⟩ := run_bind_ok.mp h
  obtain ⟨rfl, rfl⟩ := run_pure_ok.mp h
  obtain rfl := wrote_u32 h₁
  obtain rfl := wrote_u32 h₂
  obtain rfl := wrote_u16 h₃
  obtain rfl := wrote_u16 h₄
  obtain rfl := wrote_u8 h₅
  obtain rfl := wrote_u32 h₆
  obtain rfl := wrote_u32 h₇
  obtain rfl := wrote_u32 h₈
  obtain rfl := wrote_u32 h₉
  obtain rfl := wrote_u16 h₁₀
  obtain rfl := wrote_u16 h₁₁
  obtain rfl := wrote_u32 h₁₂
  obtain rfl := wrote_u64 h₁₃
  simp only [encodeEntry, List.append_assoc]

theorem expectMagic_ok {u : Unit} (h : expectMagic.run bs = .ok (u, rest)) : bs = MAGIC ++ rest := by
  obtain ⟨actual, mid, hactual, h⟩ := run_bind_ok.mp h
  obtain ⟨hmagic, rfl⟩ := run_lift_ok.mp h
  obtain ⟨rfl, _⟩ := readBytes_ok hactual
  rw [bailIf_eq_ok, bne_eq_false_iff_eq] at hmagic
  rw [hmagic]

theorem cursorName_ok {len : Nat} {name : String} (h : (cursorName len).run bs = .ok (name, rest)) :
    bs = nameBytes name ++ rest ∧ (nameBytes name).length = len := by
  obtain ⟨bytes, mid, hbytes, h⟩ := run_bind_ok.mp h
  obtain ⟨hname, rfl⟩ := run_lift_ok.mp h
  obtain ⟨rfl, hlen⟩ := readBytes_ok hbytes
  have htext : nameBytes name = bytes := by
    have hsome := orBail_eq_ok.mp hname
    unfold String.fromUTF8? at hsome
    split at hsome
    next hvalid =>
      obtain rfl := Option.some.inj hsome
      rfl
    next => cases hsome
  rw [htext]
  exact ⟨rfl, hlen⟩

theorem cursorDigest_ok {digest : { digest : Bytes // digest.length = 32 }}
    (h : cursorDigest.run bs = .ok (digest, rest)) : bs = digest ++ rest := by
  obtain ⟨bytes, mid, hbytes, hrest⟩ := run_bind_ok.mp h
  obtain ⟨rfl, hlen⟩ := readBytes_ok hbytes
  rw [dif_pos hlen] at hrest
  obtain ⟨rfl, rfl⟩ := run_pure_ok.mp hrest
  rfl

/-- A payload that is read to its end is the one written for the snapshot returned, and the
    lengths in it are those of its parts. -/
theorem decodePayload_ok (h : decodePayload.run bs = .ok (snapshot, rest)) :
    bs = payload snapshot ++ rest ∧ (nameBytes snapshot.nodeName).length ≤ 0xffff ∧
      snapshot.entries.length ≤ 0xffffffff := by
  obtain ⟨_, bs₁, hmagic, h⟩ := run_bind_ok.mp h
  obtain ⟨version, bs₂, hversion, h⟩ := run_bind_ok.mp h
  obtain ⟨_, bs₃, hversionIs, h⟩ := run_bind_ok.mp h
  obtain ⟨abi, bs₄, habi, h⟩ := run_bind_ok.mp h
  obtain ⟨_, bs₅, habiIs, h⟩ := run_bind_ok.mp h
  obtain ⟨savedAt, bs₆, hsavedAt, h⟩ := run_bind_ok.mp h
  obtain ⟨nodeLen, bs₇, hnodeLen, h⟩ := run_bind_ok.mp h
  obtain ⟨nodeName, bs₈, hnodeName, h⟩ := run_bind_ok.mp h
  obtain ⟨digest, bs₉, hdigest, h⟩ := run_bind_ok.mp h
  obtain ⟨count, bs₁₀, hcount, h⟩ := run_bind_ok.mp h
  obtain ⟨entries, bs₁₁, hentries, h⟩ := run_bind_ok.mp h
  obtain ⟨rfl, rfl⟩ := run_pure_ok.mp h
  obtain rfl := expectMagic_ok hmagic
  obtain ⟨rfl, _⟩ := readLe_ok hversion
  obtain ⟨hversionEq, rfl⟩ := run_lift_ok.mp hversionIs
  obtain ⟨rfl, _⟩ := readLe_ok habi
  obtain ⟨habiEq, rfl⟩ := run_lift_ok.mp habiIs
  obtain rfl := wrote_u64 hsavedAt
  obtain ⟨rfl, hnameBound⟩ := readLe_ok hnodeLen
  obtain ⟨rfl, rfl⟩ := cursorName_ok hnodeName
  obtain rfl := cursorDigest_ok hdigest
  obtain ⟨rfl, hcountBound⟩ := readLe_ok hcount
  obtain ⟨rfl, rfl⟩ := wrote_entry.many hentries
  obtain rfl : version = FORMAT_VERSION := by simpa using bailIf_eq_ok.mp hversionEq
  obtain rfl : abi = FLOW_MAP_ABI_VERSION := by simpa using bailIf_eq_ok.mp habiEq
  refine ⟨?_, Nat.le_of_lt_succ hnameBound, Nat.le_of_lt_succ hcountBound⟩
  simp only [payload, List.append_assoc]

theorem encodeSnapshot_eq (hname : (nameBytes snapshot.nodeName).length ≤ 0xffff)
    (hcount : snapshot.entries.length ≤ 0xffffffff) :
    encodeSnapshot sha snapshot = .ok (payload snapshot ++ sha.digest (payload snapshot)) := by
  simp only [encodeSnapshot, bailIf, decide_eq_true_eq, if_neg (Nat.not_lt.mpr hname), if_neg (Nat.not_lt.mpr hcount)]
  rfl

/-- A file that is accepted is the one written for the snapshot it gives. -/
theorem encodeSnapshot_decodeSnapshot {sha : Sha256} {bytes : Bytes}
    (h : decodeSnapshot sha bytes = .ok snapshot) : encodeSnapshot sha snapshot = .ok bytes := by
  obtain ⟨_, _, h⟩ := bind_eq_ok.mp h
  obtain ⟨_, hchecked, h⟩ := bind_eq_ok.mp h
  obtain ⟨⟨decoded, rest⟩, hpayload, h⟩ := bind_eq_ok.mp h
  obtain ⟨_, hfinish, hok⟩ := bind_eq_ok.mp h
  obtain rfl : decoded = snapshot := Except.ok.inj hok
  have hsum : sha.digest (bytes.take (bytes.length - 32)) = bytes.drop (bytes.length - 32) := by
    simpa using bailIf_eq_ok.mp hchecked
  obtain ⟨hbytes, hname, hcount⟩ := decodePayload_ok hpayload
  have hrest : rest = [] := by
    by_contra hne
    simp [finish, StateT.run, hne] at hfinish
  rw [hrest, List.append_nil] at hbytes
  rw [encodeSnapshot_eq sha hname hcount, ← hbytes, hsum, List.take_append_drop]

/-- Whatever the checksum function: a snapshot whose lengths fit their fields is given back by its
    file, and an accepted file has no byte that is not of its snapshot. -/
theorem snapshot_file_exact (sha : Sha256) :
    (∀ snapshot : Snapshot, (nameBytes snapshot.nodeName).length ≤ 0xffff → snapshot.entries.length ≤ 0xffffffff →
      ∃ bytes, encodeSnapshot sha snapshot = .ok bytes ∧
        decodeSnapshot sha bytes = .ok { snapshot with entries := snapshot.entries.map SnapshotEntry.stored }) ∧
    ∀ bytes snapshot, decodeSnapshot sha bytes = .ok snapshot → encodeSnapshot sha snapshot = .ok bytes := by
  refine ⟨?_, fun bytes snapshot h => encodeSnapshot_decodeSnapshot h⟩
  intro snapshot hname hcount
  have hencoded := encodeSnapshot_eq sha hname hcount
  exact ⟨_, hencoded, decodeSnapshot_encodeSnapshot hencoded⟩

/-- The count of the entries has to fit four bytes. -/
theorem full_snapshot_refused : ∃ snapshot : Snapshot, (nameBytes snapshot.nodeName).length ≤ 0xffff ∧
    ∀ sha, encodeSnapshot sha snapshot = .error "too many flow entries for flow snapshot" := by
  let entry : SnapshotEntry :=
    { key := { src := 0, dst := 0, sport := 0, dport := 0, proto := 6 }
      value := { listenerId := 1, targetId := 0, vip := 0, target := 0, vipPort := 0, targetPort := 0, timeoutSecs := 0
                 lastSeenNs := 0 }
      lastSeenAgeNs := 0 }
  refine ⟨{ savedAtUnixNs := 0, nodeName := "gw", configDigest := ⟨List.replicate 32 0, by simp⟩
            entries := List.replicate (2 ^ 32) entry }, by decide, fun sha => ?_⟩
  simp only [encodeSnapshot, bailIf, List.length_replicate]
  rfl

theorem length_snapshotEntriesFromPairs (pairs : List SnapshotPair) :
    (snapshotEntriesFromPairs pairs).length = pairs.length * 2 := by
  simp [snapshotEntriesFromPairs, List.length_flatMap, pairEntries]

theorem writeSnapshot_new (settings : GatewayFlowPersistenceConfig) (source : SnapshotSource)
    (henabled : settings.enabled = true) (hname : (nameBytes source.nodeName).length ≤ 0xffff)
    (hcount : (source.pairs settings).length * 2 ≤ 0xffffffff) :
    ∃ bytes, writeSnapshot sha settings source none = .ok (some bytes) := by
  have hentries := length_snapshotEntriesFromPairs (source.pairs settings)
  simp only [writeSnapshot, henabled, Bool.not_true, Bool.false_eq_true, if_false, Option.isSome_none, Bool.and_false]
  rw [encodeSnapshot_eq sha hname (by rw [hentries]; exact hcount)]
  exact ⟨_, rfl⟩

/-- The snapshot is written when it has a pair or there is none yet; then a restore starts from
    the pairs that were saved. -/
theorem restoreFromPath_writeSnapshot {sha : Sha256} {settings : GatewayFlowPersistenceConfig}
    {source : SnapshotSource} {file : Option Bytes} {bytes : Bytes} (index : Assignments) (unixNowNs : UInt64)
    (clock : SnapshotPair → UInt64) (henabled : settings.enabled = true)
    (hnew : source.pairs settings = [] → file = none) (h : writeSnapshot sha settings source file = .ok (some bytes)) :
    restoreFromPath sha bytes index unixNowNs clock = .ok
      (restoreEntriesFromSnapshot ((snapshotEntriesFromPairs (source.pairs settings)).map SnapshotEntry.stored) index
        (saturatingSub unixNowNs source.unixNowNs) clock) := by
  have hwritten : ((source.pairs settings).isEmpty && file.isSome) = false := by
    cases hpairs : source.pairs settings with
    | nil => simp [hnew hpairs]
    | cons p ps => rfl
  simp only [writeSnapshot, henabled, Bool.not_true, Bool.false_eq_true, if_false, hwritten, bind_eq_ok, pure,
    Except.pure, Except.ok.injEq, Option.some.injEq] at h
  obtain ⟨_, hencoded, rfl⟩ := h
  simp only [restoreFromPath, decodeSnapshot_encodeSnapshot hencoded]
  rfl

end EdgeLb.Provider
