/-
  EdgeLb.Provider.Health — what is probed, and the health records (`edge-lb/src/provider/native/probe.rs`:
  `scheduled_targets`; `provider/native/store.rs`: `rebuild_listener_state`, `ensure_probe_health_records`,
  `ensure_default_health_records`).

  A target of a monitored group is probed once for all listeners of the group; its health names
  are one per protocol and port. The projection of the configuration creates the records, keeps
  the observed state of a probed target, sets that of one not probed to `ok`, and drops the
  records no longer wanted.

  Proved: what a write, an upsert and a projection do to the state of a name (`stateOf_setStates`,
  `stateOf_project`), and that a key belongs to one definition
  (`scheduled_one_definition`).
-/

import EdgeLb.Lib.Refresh
import EdgeLb.Datapath.Publish

namespace EdgeLb.Provider

open EdgeLb.Common EdgeLb.Lib EdgeLb.Config EdgeLb.Datapath

def DEFAULT_PERIOD_SECS : Nat := 5
def DEFAULT_RETRIES : UInt32 := 2
def EXECUTABLE_PROBES : List String := ["ping", "tcp", "udp", "http", "https"]

structure ProbeTarget where
  names : List String
  address : IpAddr
  port : UInt16
  probeType : String
  probeReq : Option String
  probeResp : Option String
  skipTlsVerify : Bool
  timeoutMs : Nat
  periodSecs : Nat
  retries : UInt32
  deriving DecidableEq, Repr

/-- `names_key`. -/
def ProbeTarget.key (target : ProbeTarget) : String := target.names.headD ""

/-! ## What is scheduled -/

/-- `target_health_identity`, and `target_health_key` of the store. -/
def targetHealthIdentity (group : String) (address : IpAddr) (protocol : Protocol) (servicePort : UInt16) : String :=
  s!"{group}:{showIp address}_{protocol.asStr}_{servicePort}"

/-- `HealthProbeConfig::enabled` of a monitored group. -/
def probeEnabled (group : TargetGroup) : Bool :=
  group.monitor && match group.probeType with
    | none => false
    | some value => !(trim value).isEmpty && !eqIgnoreAsciiCase (trim value) "none"

def monitoredGroups (cfg : FileConfig) : List TargetGroup :=
  cfg.targetGroups.filter fun group => group.name ∈ cfg.listeners.map (·.targetGroup) ∧ probeEnabled group

def normalizedProbeType (group : TargetGroup) : String := toAsciiLowercase (trim (group.probeType.getD ""))

def identityOrder (identity : Protocol × UInt16) : Nat :=
  (match identity.1 with | .tcp => 0 | .udp => 65536) + identity.2.toNat

/-- `listener_identities`, in the order of a `BTreeSet`. -/
def listenerIdentities (cfg : FileConfig) (group : String) : List (Protocol × UInt16) :=
  ((cfg.listeners.filter (·.targetGroup = group)).flatMap fun listener =>
    listener.protocols.map fun protocol => (protocol, listener.targetPort)).dedup.insertionSort fun a b =>
      identityOrder a ≤ identityOrder b

def probePort (cfg : FileConfig) (group : TargetGroup) : UInt16 :=
  if normalizedProbeType group = "ping" then 0
  else match group.probePort with
    | some port => port
    | none => ((cfg.listeners.find? fun listener => listener.targetGroup = group.name).map (·.targetPort)).getD 0

def periodSecs (group : TargetGroup) : Nat := max ((group.periodSecs.map (·.toNat)).getD DEFAULT_PERIOD_SECS) 1

/-- The target of a group at a resolved address; the group's data fills the rest. -/
def probeTargetAt (cfg : FileConfig) (group : TargetGroup) (address : IpAddr) : ProbeTarget :=
  { names := (listenerIdentities cfg group.name).map fun identity =>
      targetHealthIdentity group.name address identity.1 identity.2
    address
    port := probePort cfg group
    probeType := normalizedProbeType group
    probeReq := group.probeReq
    probeResp := group.probeResp
    skipTlsVerify := group.probeSkipTlsVerify
    timeoutMs := max (min (periodSecs group) 3 * 1000) 500
    periodSecs := periodSecs group
    retries := max (group.retries.getD DEFAULT_RETRIES) 1 }

/-- `resolve_backend_probe_address` is `resolve_backend_target_address`. -/
def scheduledTargets (cfg : FileConfig) : List ProbeTarget :=
  (monitoredGroups cfg).flatMap fun group =>
    if normalizedProbeType group ∉ EXECUTABLE_PROBES then []
    else group.targets.filterMap fun target =>
      let address := cfg.resolveBackendTargetAddress target
      if address.isUnspecified || address.isLoopback || (listenerIdentities cfg group.name).isEmpty then none
      else some (probeTargetAt cfg group address)

/-! ## The records -/

variable (records : List TargetHealthEntry)

/-- What is observed of a name: its record, if there is one, and the state in it. -/
def stateOf (name : String) : Option (Option String) :=
  (records.find? fun entry => entry.name = name).map (·.currentState)

/-- The first entry of the name, changed. -/
def updateFirst (name : String) (f : TargetHealthEntry → TargetHealthEntry) : List TargetHealthEntry → List TargetHealthEntry
  | [] => []
  | entry :: records => if entry.name = name then f entry :: records else entry :: updateFirst name f records

def upsertHealthEntry (entry : TargetHealthEntry) : List TargetHealthEntry :=
  if records.any fun item => item.name = entry.name then updateFirst entry.name (fun _ => entry) records
  else records ++ [entry]

def setState (update : String × String) : List TargetHealthEntry :=
  updateFirst update.1 (fun entry => { entry with currentState := some update.2 }) records

/-- A record that the projection wants, and whether its group is probed. -/
structure WantedRecord where
  targetGroup : String
  name : String
  probed : Bool
  deriving DecidableEq, Repr

/-- `ensure_probe_health_records` keeps the state that is there, `ensure_default_health_records`
    starts from `ok`. -/
def ensureHealthRecord (wanted : WantedRecord) : List TargetHealthEntry :=
  upsertHealthEntry records
    { targetGroup := wanted.targetGroup, name := wanted.name
      currentState := some (if wanted.probed then ((stateOf records wanted.name).join).getD "unknown" else "ok") }

/-- The records of one listener; `listener_entries` refuses it without a port or a protocol. A
    protocol listed twice in a row, which `normalize_entry` drops, asks for the same records again. -/
def wantedRecords (cfg : FileConfig) (ha : Option GatewayHaRuntimeConfig) (listener : Listener) :
    Except String (List WantedRecord) :=
  match cfg.targetGroups.find? fun group => group.name = listener.targetGroup with
  | none => .error s!"target group {listener.targetGroup} not found"
  | some group => do
    if listener.targetPort = 0 then
      throw s!"listener {listener.name} target_port must be in range 1..=65535"
    if listener.protocols.isEmpty then throw "listener must select at least one protocol"
    let _ ← effectiveVipIps cfg ha listener.vipIps
    return listener.protocols.flatMap fun protocol => group.targets.map fun target =>
      { targetGroup := group.name
        name := targetHealthIdentity group.name (cfg.resolveBackendTargetAddress target) protocol listener.targetPort
        probed := probeEnabled group }

def projectedRecords (cfg : FileConfig) (ha : Option GatewayHaRuntimeConfig) : Except String (List WantedRecord) := do
  return (← cfg.listeners.mapM (wantedRecords cfg ha)).flatten

/-- `rebuild_listener_state` on the records: the wanted ones in turn, then no others. -/
def projectRecords (wanted : List WantedRecord) : List TargetHealthEntry :=
  (wanted.foldl ensureHealthRecord records).filter fun entry => entry.name ∈ wanted.map (·.name)

/-! ## The records, name by name -/

section records

variable {records : List TargetHealthEntry} {name : String}

theorem stateOf_cons (entry : TargetHealthEntry) (records : List TargetHealthEntry) (name : String) :
    stateOf (entry :: records) name = if entry.name = name then some entry.currentState else stateOf records name := by
  by_cases h : entry.name = name <;> simp [stateOf, h]

theorem stateOf_updateFirst {f : TargetHealthEntry → TargetHealthEntry} {n : String}
    (hname : ∀ entry, entry.name = n → (f entry).name = n) {g : Option String → Option String}
    (hstate : ∀ entry, (f entry).currentState = g entry.currentState) :
    stateOf (updateFirst n f records) name = if name = n then (stateOf records n).map g else stateOf records name := by
  induction records with
  | nil =>
    split <;> rfl
  | cons entry records ih =>
    by_cases hn : entry.name = n
    · rw [updateFirst, if_pos hn, stateOf_cons, stateOf_cons, stateOf_cons, hname entry hn, hstate, hn]
      by_cases h : n = name
      · simp [h]
      · rw [if_neg h, if_neg h, if_neg (Ne.symm h)]
    · rw [updateFirst, if_neg hn, stateOf_cons, stateOf_cons, stateOf_cons, ih, if_neg hn]
      by_cases h : entry.name = name
      · have hne : name ≠ n := fun he => hn (h.trans he)
        rw [if_pos h, if_neg hne, if_pos h]
      · rw [if_neg h, if_neg h]

theorem stateOf_setState (update : String × String) :
    stateOf (setState records update) name =
      if name = update.1 then (stateOf records update.1).map fun _ => some update.2 else stateOf records name := by
  unfold setState
  apply stateOf_updateFirst
  · intro entry hname
    exact hname
  · intro entry
    rfl

/-- A state given to all names of a target. -/
theorem stateOf_setStates (records : List TargetHealthEntry) (names : List String) (state name : String) :
    stateOf ((names.map fun n => (n, state)).foldl setState records) name =
      if name ∈ names then (stateOf records name).map fun _ => some state else stateOf records name := by
  induction names generalizing records with
  | nil => simp
  | cons n names ih =>
    rw [List.map_cons, List.foldl_cons, ih, stateOf_setState]
    by_cases hn : name = n
    · subst hn
      by_cases hmem : name ∈ names <;> simp [hmem, Function.comp_def]
    · by_cases hmem : name ∈ names <;> simp [hmem, hn]

end records

/-! ## A projection -/

/-- The records as keyed values that the wanted ones bring up to date. -/
def recordRefresh : Refresh TargetHealthEntry WantedRecord String where
  key := (·.name)
  wantKey := (·.name)
  step := fun wanted found =>
    { targetGroup := wanted.targetGroup, name := wanted.name
      currentState := some (if wanted.probed then (found.bind (·.currentState)).getD "unknown" else "ok") }
  key_step := fun _ _ => rfl

section project

variable (records : List TargetHealthEntry)

theorem ensureHealthRecord_eq (wanted : WantedRecord) : ensureHealthRecord records wanted = recordRefresh.one wanted records := by
  induction records with
  | nil => rfl
  | cons entry records ih =>
    by_cases h : entry.name = wanted.name
    · simp [ensureHealthRecord, upsertHealthEntry, updateFirst, stateOf, Refresh.one, recordRefresh, h]
    · have hone : recordRefresh.one wanted (entry :: records) = entry :: recordRefresh.one wanted records := if_neg h
      rw [hone, ← ih]
      simp only [ensureHealthRecord, upsertHealthEntry, updateFirst, stateOf_cons, if_neg h, List.any_cons, decide_eq_false h,
        Bool.false_or]
      split <;> rfl

theorem projectRecords_eq (wanted : List WantedRecord) : projectRecords records wanted = recordRefresh.project records wanted := by
  have hone : ensureHealthRecord = fun records wanted => recordRefresh.one wanted records := by
    funext records wanted
    exact ensureHealthRecord_eq records wanted
  rw [projectRecords, hone]
  rfl

/-- A wanted name keeps its state while it is probed, and starts from `ok` otherwise. -/
theorem stateOf_project (wanted : List WantedRecord) (name : String) :
    stateOf (projectRecords records wanted) name =
      if name ∈ wanted.map (·.name) then
        some (some (if (wanted.filter fun w => w.name = name).all (·.probed) then
          ((stateOf records name).join).getD "unknown" else "ok"))
      else none := by
  have hpart := @Refresh.part_project _ _ _ _ recordRefresh records wanted name _ (·.currentState) (·.probed) "unknown" "ok"
    fun _ _ => rfl
  have hjoin : (stateOf records name).join = (recordRefresh.find records name).bind (·.currentState) := by
    show ((recordRefresh.find records name).map (·.currentState)).join = _
    cases recordRefresh.find records name <;> rfl
  rw [projectRecords_eq, hjoin]
  exact hpart

end project

/-! ## One definition under one key

Groups have different names and the datapath takes IPv4 targets only, so that a name tells the
group and the address. -/

theorem splitLast {c : Char} {xs xs' ys ys' : List Char} (h : xs ++ c :: ys = xs' ++ c :: ys') (hys : c ∉ ys)
    (hys' : c ∉ ys') : xs = xs' ∧ ys = ys' := by
  have hrev : ys.reverse ++ c :: xs.reverse = ys'.reverse ++ c :: xs'.reverse := by
    simpa using congrArg List.reverse h
  have hsplit := congrArg (splitOnce c) hrev
  rw [splitOnce_append (by simpa using hys), splitOnce_append (by simpa using hys')] at hsplit
  obtain ⟨hy, hx⟩ := Prod.mk.inj (Option.some.inj hsplit)
  exact ⟨List.reverse_inj.mp hx, List.reverse_inj.mp hy⟩

/-- The text of a name after the group: address, protocol and port. -/
def identityTail (address : UInt32) (protocol : Protocol) (port : UInt16) : List Char :=
  (showIpv4 address).toList ++ '_' :: (protocol.asStr.toList ++ '_' :: (toString port).toList)

theorem identity_toList (group : String) (address : UInt32) (protocol : Protocol) (port : UInt16) :
    (targetHealthIdentity group (.v4 address) protocol port).toList =
      group.toList ++ ':' :: identityTail address protocol port := by
  simp [targetHealthIdentity, identityTail, showIp, toString]

theorem not_mem_showIpv4 {address : UInt32} {c : Char} (hdot : c ≠ '.') (hdigit : decDigit? c = none) :
    c ∉ (showIpv4 address).toList := by
  intro hmem
  rcases mem_showIpv4 hmem with hc | hc
  · exact hdot hc
  · rw [hdigit] at hc
    cases hc

theorem colon_not_mem_tail (address : UInt32) (protocol : Protocol) (port : UInt16) :
    ':' ∉ identityTail address protocol port := by
  have hport : ':' ∉ (toString port).toList := by
    intro hmem
    have hrepr : toString port = Nat.repr port.toNat := rfl
    rw [hrepr, Nat.repr, String.toList_ofList] at hmem
    exact absurd (Nat.isDigit_of_mem_toDigits (by decide) (by decide) hmem) (by decide)
  have hproto : ':' ∉ protocol.asStr.toList := by
    cases protocol <;> decide
  have haddress : ':' ∉ (showIpv4 address).toList := not_mem_showIpv4 (by decide) (by decide)
  simp [identityTail, hport, hproto, haddress]

theorem identity_inj {group group' : String} {address address' : UInt32} {protocol protocol' : Protocol}
    {port port' : UInt16} (h : targetHealthIdentity group (.v4 address) protocol port =
      targetHealthIdentity group' (.v4 address') protocol' port') : group = group' ∧ address = address' := by
  have htext := congrArg String.toList h
  rw [identity_toList, identity_toList] at htext
  obtain ⟨hgroup, htail⟩ := splitLast htext (colon_not_mem_tail _ _ _) (colon_not_mem_tail _ _ _)
  have hunder : ∀ a : UInt32, '_' ∉ (showIpv4 a).toList := fun a => not_mem_showIpv4 (by decide) (by decide)
  have hsplit := congrArg (splitOnce '_') htail
  rw [identityTail, identityTail, splitOnce_append (hunder _), splitOnce_append (hunder _)] at hsplit
  have hshow : showIp (.v4 address) = showIp (.v4 address') :=
    String.toList_inj.mp (Prod.mk.inj (Option.some.inj hsplit)).1
  have hparse := congrArg parseIp hshow
  rw [parseIp_showIp, parseIp_showIp] at hparse
  exact ⟨String.toList_inj.mp hgroup, IpAddr.v4.inj (Option.some.inj hparse)⟩

theorem mem_scheduledTargets {cfg : FileConfig} {t : ProbeTarget} (h : t ∈ scheduledTargets cfg) :
    ∃ group ∈ cfg.targetGroups, ∃ address, t = probeTargetAt cfg group address ∧
      listenerIdentities cfg group.name ≠ [] := by
  obtain ⟨group, hgroup, ht⟩ := List.mem_flatMap.mp h
  split at ht
  · cases ht
  obtain ⟨target, _, htarget⟩ := List.mem_filterMap.mp ht
  simp only at htarget
  split at htarget
  · cases htarget
  next hnot =>
    refine ⟨group, (List.mem_filter.mp hgroup).1, _, (Option.some.inj htarget).symm, ?_⟩
    intro hnil
    simp [hnil] at hnot

theorem scheduled_one_definition {cfg : FileConfig} (hnames : (cfg.targetGroups.map (·.name)).Nodup)
    (hv4 : ∀ t ∈ scheduledTargets cfg, t.address.isV4 = true) {t t' : ProbeTarget} (ht : t ∈ scheduledTargets cfg)
    (ht' : t' ∈ scheduledTargets cfg) (hkey : t.key = t'.key) : t = t' := by
  have haddress := hv4 t ht
  have haddress' := hv4 t' ht'
  obtain ⟨group, hgroup, address, rfl, hidentities⟩ := mem_scheduledTargets ht
  obtain ⟨group', hgroup', address', rfl, hidentities'⟩ := mem_scheduledTargets ht'
  obtain ⟨first, rest, hfirst⟩ := List.exists_cons_of_ne_nil hidentities
  obtain ⟨first', rest', hfirst'⟩ := List.exists_cons_of_ne_nil hidentities'
  simp only [ProbeTarget.key, probeTargetAt, hfirst, hfirst', List.map_cons, List.headD_cons] at hkey
  cases address with
  | v6 groups => cases haddress
  | v4 bits =>
    cases address' with
    | v6 groups => cases haddress'
    | v4 bits' =>
      obtain ⟨hname, rfl⟩ := identity_inj hkey
      obtain rfl := List.inj_on_of_nodup_map hnames hgroup hgroup' hname
      rfl

end EdgeLb.Provider
