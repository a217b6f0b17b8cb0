/-
  EdgeLb.Datapath.Admission — the TC filters the gateway attaches and the check that admits the
  redirect path beside them (`edge-lb/src/linux/dscp.rs` `attach_owned`,
  `edge-lb/src/linux/native_dnat.rs` `attach_prepared`, `edge-lb/src/linux/tc.rs`,
  `edge-lb/src/linux/redirect/admission.rs`).

  The kernel lists each filter as a summary of its classifier (handle zero) and an entry. The
  check wants the entries on the ingress device to be the DSCP marker and the forward classifier
  and nothing else.

  Proved: what passes the check is such a pair (`checkTc_owned`). Attaching leaves three filters
  on the underlay device, because the return classifier is attached there too, so the gateway's
  own underlay is never admitted.
-/

import EdgeLb.Lib.Check
import EdgeLb.Lib.Wire
import Mathlib.Data.List.Perm.Basic
import Mathlib.Logic.Function.Basic

namespace EdgeLb.Datapath.Admission

open EdgeLb.Lib

def INGRESS_PREF_OFFSET : UInt16 := 10
def RETURN_PREF_OFFSET : UInt16 := 11

/-- `(libc::ETH_P_ALL as u16).to_be()`. -/
def ETH_P_ALL_BE : UInt16 := 0x0300

/-! ## Netlink messages -/

structure Nla where
  kind : UInt16
  value : Bytes

/-- Options of a classifier: one attribute left raw, of which `NlasIterator` makes `nlas`, or
    options the library knows how to decode. -/
inductive TcOption
  | other (nlas : List (Except String Nla))
  | decoded

inductive TcAttribute
  | kind (name : String)
  | chain (n : UInt32)
  | options (os : List TcOption)
  | other

structure TcMessage where
  handle : UInt32
  info : UInt32
  attributes : List TcAttribute

inductive TcAttachType
  | ingress | egress
  deriving DecidableEq, Repr

def TcMessage.protocol (m : TcMessage) : UInt16 := m.info.toUInt16
def TcMessage.priority (m : TcMessage) : UInt16 := (m.info >>> 16).toUInt16

def TcAttribute.isBpf : TcAttribute → Bool
  | .kind name => name = "bpf"
  | _ => false

/-- `packet_utils::parsers::parse_u32`, in host order. -/
def parseU32 (value : Bytes) : Except String UInt32 := do
  bailIf (value.length ≠ 4) "invalid u32"
  return UInt32.ofNat (ofLeBytes value)

/-! ## `ingress_programs` -/

/-- `matches!(attr, Kind("bpf")) || matches!(attr, Chain(0))`. -/
def TcAttribute.inSummary : TcAttribute → Bool
  | .kind name => name = "bpf"
  | .chain n => n = 0
  | _ => false

structure Gathered where
  summaries : List UInt32
  programs : List TcMessage

def gather (s : Gathered) (filter : TcMessage) : Except String Gathered :=
  if filter.handle = 0 then do
    bailIf (!filter.attributes.all TcAttribute.inSummary) "unexpected TC summary"
    bailIf (s.summaries.contains filter.info) "duplicate TC summary"
    return { s with summaries := s.summaries ++ [filter.info] }
  else
    return { s with programs := s.programs ++ [filter] }

def takeSummary (summaries : List UInt32) (program : TcMessage) : Except String (List UInt32) := do
  bailIf (!summaries.contains program.info) "TC summary/filter mismatch"
  return summaries.erase program.info

def ingressPrograms (filters : List TcMessage) (count : Nat) : Except String (List TcMessage) := do
  let s ← filters.foldlM gather ⟨[], []⟩
  bailIf (!(s.summaries.length = count ∧ s.programs.length = count : Bool)) "foreign or missing ingress TC filters"
  let _ ← s.programs.foldlM takeSummary s.summaries
  return s.programs

/-! ## `bpf_id` -/

structure BpfRead where
  id : Option UInt32 := none
  flags : Option UInt32 := none

def readNla (s : BpfRead) (nla : Except String Nla) : Except String BpfRead := do
  let nla ← nla
  match nla.kind.toNat with
  | 8 => return { s with flags := some (← parseU32 nla.value) }
  | 11 => return { s with id := some (← parseU32 nla.value) }
  | 9 => do
    bailIf ((← parseU32 nla.value) &&& ~~~0x0d ≠ 0) "TC offload-only/unknown flags"
    return s
  | 3 => do
    bailIf ((← parseU32 nla.value) ≠ 0) "TC class dependency"
    return s
  | 1 | 2 => .error "TC action/police dependency"
  | _ => return s

def readOption (s : BpfRead) : TcOption → Except String BpfRead
  | .other nlas => nlas.foldlM readNla s
  | .decoded => .error "unexpected BPF options"

def readAttribute (s : BpfRead) : TcAttribute → Except String BpfRead
  | .chain n => do
    bailIf (n ≠ 0) "TC chain dependency"
    return s
  | .options os => os.foldlM readOption s
  | _ => return s

def bpfId (filter : TcMessage) : Except String UInt32 := do
  bailIf (!filter.attributes.any TcAttribute.isBpf) "non-BPF TC filter"
  let s ← filter.attributes.foldlM readAttribute {}
  bailIf (s.flags ≠ some 1) "TC requires direct-action mode"
  orBail s.id "BPF program ID missing"

/-! ## The host -/

structure ProgramInfo where
  id : UInt32
  mapIds : Except String (Option (List UInt32))

inductive TcxReply
  | programs (ids : List UInt32)
  | einval
  | failed

/-- What the check reads from the kernel. -/
structure TcHost where
  /-- `if_indextoname`. -/
  ifName : UInt32 → Option String
  tcx : String → TcAttachType → TcxReply
  /-- `KernelVersion::current() < 6.6.0`. -/
  before66 : Except String Bool
  /-- `MapData::from_pin(path)?.info()?.id()`. -/
  mapId : String → Except String UInt32
  /-- `read_filters`. -/
  filters : UInt32 → TcAttachType → Except String (List TcMessage)
  loadedPrograms : List (Except String ProgramInfo)

def checkTcx (host : TcHost) (index : UInt32) (attach : TcAttachType) : Except String Unit := do
  let name ← orBail (host.ifName index) "TCX interface disappeared"
  match host.tcx name attach with
  | .programs ids => bailIf (!ids.isEmpty) "TCX program dependency"
  | .einval => do bailIf (!(← host.before66)) "querying TCX programs"
  | .failed => .error "querying TCX programs"

/-- `Vec::swap_remove`. -/
def swapRemove {α : Type} (l : List α) (i : Nat) : List α :=
  match l.getLast? with
  | some last => (l.set i last).dropLast
  | none => l

/-- One loaded program of `check_program_maps`. -/
def settleProgram (expected : List (UInt32 × UInt32)) (info : ProgramInfo) : Except String (List (UInt32 × UInt32)) :=
  match expected.findIdx? (fun e => e.1 = info.id) with
  | none => return expected
  | some i => do
    let maps ← orBail (← info.mapIds) "program map IDs unavailable"
    bailIf (!(expected[i]?.any fun e => maps.contains e.2)) "TC program does not own expected map"
    return swapRemove expected i

def checkProgramMaps (expected : List (UInt32 × UInt32)) : List (Except String ProgramInfo) → Except String Unit
  | [] => bailIf (!expected.isEmpty) "TC program disappeared"
  | info :: rest => do
    let expected ← settleProgram expected (← info)
    if expected.isEmpty then return () else checkProgramMaps expected rest

def checkOutput (host : TcHost) (output : UInt32) : Except String Unit := do
  checkTcx host output .egress
  bailIf (!(← host.filters output .egress).isEmpty) "egress TC dependency"

def checkOutputs (host : TcHost) (outputs : List UInt32) : Except String Unit :=
  eachIdx (fun _ output => checkOutput host output) outputs

/-! ## `check_tc` and `check_return_tc` -/

/-- `pref.checked_add(10)`. -/
def forwardPriority (pref : UInt16) : Option UInt16 :=
  if pref.toNat + 10 < 65536 then some (pref + 10) else none

/-- The program of a filter and the map it has to own. -/
def expectation (pref : UInt16) (markerId routeId : UInt32) (filter : TcMessage) : Except String (UInt32 × UInt32) := do
  bailIf (filter.protocol ≠ ETH_P_ALL_BE) "TC protocol selector dependency"
  let mapId ←
    if filter.priority = pref then pure markerId
    else do
      bailIf (some filter.priority ≠ forwardPriority pref) "unexpected TC priority"
      pure routeId
  return (← bpfId filter, mapId)

def checkTc (host : TcHost) (ingressIndex : UInt32) (outputs : List UInt32) (pref : UInt16)
    (pin markerPin : String) : Except String Unit := do
  checkTcx host ingressIndex .ingress
  let routeId ← host.mapId pin
  let markerId ← host.mapId markerPin
  let filters ← host.filters ingressIndex .ingress
  let programs ← ingressPrograms filters 2
  let expected ← programs.mapM (expectation pref markerId routeId)
  bailIf (expected[0]?.map Prod.snd = expected[1]?.map Prod.snd) "duplicate ingress priority"
  checkProgramMaps expected host.loadedPrograms
  checkOutputs host outputs

def checkReturnTc (host : TcHost) (ingressIndex : UInt32) (outputs : List UInt32) (priority : UInt16)
    (pin : String) : Except String Unit := do
  checkTcx host ingressIndex .ingress
  let filters ← host.filters ingressIndex .ingress
  let programs ← ingressPrograms filters 1
  let filter ← orBail programs[0]? "index out of bounds"
  bailIf (!(filter.protocol = ETH_P_ALL_BE ∧ filter.priority = priority : Bool)) "unexpected return TC selector/priority"
  let id ← bpfId filter
  checkProgramMaps [(id, ← host.mapId pin)] host.loadedPrograms
  checkOutputs host outputs

/-! ## Attaching -/

structure TcProgram where
  id : UInt32
  name : Bytes
  tag : Bytes

/-- A direct-action filter with handle 1 for every protocol. -/
structure Attached where
  priority : UInt16
  program : TcProgram

/-- The ingress filters of each device. -/
abbrev TcDevices := String → List Attached

variable (devices : TcDevices) (dev : String)

/-- `delete_ingress_pref_best_effort`: every listed filter with that priority goes. -/
def deleteIngressPref (pref : UInt16) : TcDevices :=
  Function.update devices dev ((devices dev).filter fun f => f.priority ≠ pref)

/-- Priority zero lets the kernel choose: below the lowest in use, or `0xc000`. -/
def kernelPriority (inUse : List UInt16) (requested : UInt16) : UInt16 :=
  if requested ≠ 0 then requested
  else match inUse.min? with
    | none => 0xc000
    | some lowest => lowest - 1

/-- `attach_with_options` with handle 1: the kernel refuses a handle in use. -/
def attachWithOptions (priority : UInt16) (program : TcProgram) (failed : String) :
    Except String TcDevices :=
  let inUse := (devices dev).map Attached.priority
  let p := kernelPriority inUse priority
  if inUse.contains p then .error failed
  else .ok (Function.update devices dev (devices dev ++ [⟨p, program⟩]))

/-- `native_dnat::attach_program`. -/
def attachProgram (name : String) (program : TcProgram) (dev : String) (priority : UInt16) :
    Except String TcDevices :=
  attachWithOptions devices dev priority program s!"attaching {name} to {dev} ingress pref {priority}"

/-- `dscp::attach_owned`. -/
def attachOwned (pref : UInt16) (marker : TcProgram) : Except String TcDevices :=
  attachWithOptions (deleteIngressPref devices dev pref) dev pref marker s!"failed to attach {dev} ingress pref {pref}"

/-- `native_dnat::attach_prepared`; the sums wrap, as in a release build. -/
def attachPrepared (underlay vxlan : String) (pref : UInt16) (forward back : TcProgram) :
    Except String TcDevices := do
  let devices := deleteIngressPref devices underlay (pref + INGRESS_PREF_OFFSET)
  let devices := deleteIngressPref devices underlay (pref + RETURN_PREF_OFFSET)
  let devices := deleteIngressPref devices vxlan (pref + RETURN_PREF_OFFSET)
  let devices ← attachProgram devices "native_dnat_ingress" forward underlay (pref + INGRESS_PREF_OFFSET)
  let devices ← attachProgram devices "native_dnat_return" back underlay (pref + RETURN_PREF_OFFSET)
  attachProgram devices "native_dnat_return" back vxlan (pref + RETURN_PREF_OFFSET)

/-! ## What `ingress_programs` accepts -/

def summariesOf (fs : List TcMessage) : List TcMessage := fs.filter fun m => m.handle = 0
def entriesOf (fs : List TcMessage) : List TcMessage := fs.filter fun m => m.handle ≠ 0

variable {fs : List TcMessage} {m : TcMessage} {expected : List (UInt32 × UInt32)} {markerId routeId : UInt32}
  {pref : UInt16} {host : TcHost} {index : UInt32} {outputs : List UInt32}

theorem mem_entriesOf : m ∈ entriesOf fs ↔ m ∈ fs ∧ m.handle ≠ 0 := by
  simp [entriesOf]

theorem mem_summariesOf : m ∈ summariesOf fs ↔ m ∈ fs ∧ m.handle = 0 := by
  simp [summariesOf]

theorem gather_eq_ok {s t : Gathered} : gather s m = .ok t ↔
    if m.handle = 0 then
      m.attributes.all TcAttribute.inSummary ∧ m.info ∉ s.summaries ∧ t = { s with summaries := s.summaries ++ [m.info] }
    else t = { s with programs := s.programs ++ [m] } := by
  unfold gather
  by_cases h : m.handle = 0
  · rw [if_pos h, if_pos h, seq_eq_ok, seq_eq_ok, bailIf_eq_ok, bailIf_eq_ok, pure_eq_ok]
    simp
  · rw [if_neg h, if_neg h, pure_eq_ok]

theorem foldlM_gather_eq_ok {s : Gathered} : fs.foldlM gather ⟨[], []⟩ = .ok s ↔
    (∀ m ∈ summariesOf fs, m.attributes.all TcAttribute.inSummary) ∧ ((summariesOf fs).map TcMessage.info).Nodup ∧
      s = ⟨(summariesOf fs).map TcMessage.info, entriesOf fs⟩ := by
  induction fs using List.reverseRecOn generalizing s with
  | nil =>
    rw [List.foldlM_nil, pure_eq_ok]
    simp [summariesOf, entriesOf]
  | append_singleton fs m ih =>
    rw [foldlM_snoc_eq_ok]
    simp only [ih, gather_eq_ok]
    by_cases h : m.handle = 0
    · have hsum : summariesOf (fs ++ [m]) = summariesOf fs ++ [m] := by simp [summariesOf, h]
      have hent : entriesOf (fs ++ [m]) = entriesOf fs := by simp [entriesOf, h]
      simp only [if_pos h, hsum, hent, List.map_append, List.map_cons, List.map_nil, List.mem_append,
        List.mem_singleton, List.nodup_append]
      constructor
      · rintro ⟨u, ⟨hall, hnodup, rfl⟩, hm, hnew, rfl⟩
        refine ⟨?_, ⟨hnodup, by simp, ?_⟩, rfl⟩
        · rintro x (hx | rfl)
          · exact hall x hx
          · exact hm
        · rintro a ha b rfl rfl
          exact hnew ha
      · rintro ⟨hall, ⟨hnodup, -, hne⟩, rfl⟩
        exact ⟨_, ⟨fun x hx => hall x (.inl hx), hnodup, rfl⟩, hall m (.inr rfl), fun hin => hne _ hin _ rfl rfl, rfl⟩
    · have hsum : summariesOf (fs ++ [m]) = summariesOf fs := by simp [summariesOf, h]
      have hent : entriesOf (fs ++ [m]) = entriesOf fs ++ [m] := by simp [entriesOf, h]
      simp only [if_neg h, hsum, hent]
      constructor
      · rintro ⟨u, ⟨hall, hnodup, rfl⟩, rfl⟩
        exact ⟨hall, hnodup, rfl⟩
      · rintro ⟨hall, hnodup, rfl⟩
        exact ⟨_, ⟨hall, hnodup, rfl⟩, rfl⟩

theorem foldlM_takeSummary {ps : List TcMessage} {left rest : List UInt32}
    (h : ps.foldlM takeSummary left = .ok rest) : left.Perm (ps.map TcMessage.info ++ rest) := by
  induction ps generalizing left with
  | nil =>
    cases h
    exact .refl _
  | cons p ps ih =>
    rw [List.foldlM_cons, bind_eq_ok] at h
    obtain ⟨u, htake, hrest⟩ := h
    obtain ⟨hin, hu⟩ := seq_eq_ok.mp htake
    obtain rfl := Except.ok.inj hu
    have hmem : p.info ∈ left := by simpa using bailIf_eq_ok.mp hin
    exact (List.perm_cons_erase hmem).trans ((ih hrest).cons p.info)

theorem foldlM_takeSummary_perm {ps : List TcMessage} {left : List UInt32} (h : (ps.map TcMessage.info).Perm left) :
    ps.foldlM takeSummary left = .ok [] := by
  induction ps generalizing left with
  | nil =>
    obtain rfl := h.symm.eq_nil
    rfl
  | cons p ps ih =>
    obtain ⟨hmem, hperm⟩ := List.cons_perm_iff_perm_erase.mp h
    rw [List.foldlM_cons, bind_eq_ok]
    refine ⟨left.erase p.info, seq_eq_ok.mpr ⟨bailIf_eq_ok.mpr (by simpa using hmem), rfl⟩, ih hperm⟩

/-- The list is accepted when the summaries name only BPF classifiers of chain zero, once each, and
    the entries answer to them one to one; the answer is the entries. -/
theorem ingressPrograms_eq_ok {fs ps : List TcMessage} {count : Nat} : ingressPrograms fs count = .ok ps ↔
    ps = entriesOf fs ∧ (entriesOf fs).length = count ∧
      (∀ m ∈ summariesOf fs, m.attributes.all TcAttribute.inSummary) ∧
      ((summariesOf fs).map TcMessage.info).Nodup ∧
      ((entriesOf fs).map TcMessage.info).Perm ((summariesOf fs).map TcMessage.info) := by
  unfold ingressPrograms
  rw [bind_eq_ok]
  constructor
  · rintro ⟨s, hgather, h⟩
    obtain ⟨hall, hnodup, rfl⟩ := foldlM_gather_eq_ok.mp hgather
    obtain ⟨hcount, h⟩ := seq_eq_ok.mp h
    obtain ⟨rest, htake, h⟩ := bind_eq_ok.mp h
    have hlen : (summariesOf fs).length = count ∧ (entriesOf fs).length = count := by
      simpa using bailIf_eq_ok.mp hcount
    have hperm := foldlM_takeSummary htake
    have hrest : rest = [] := by
      have := hperm.length_eq
      simp only [List.length_map, List.length_append] at this
      exact List.length_eq_zero_iff.mp (by omega)
    subst hrest
    rw [List.append_nil] at hperm
    exact ⟨(Except.ok.inj h).symm, hlen.2, hall, hnodup, hperm.symm⟩
  · rintro ⟨rfl, hlen, hall, hnodup, hperm⟩
    refine ⟨_, foldlM_gather_eq_ok.mpr ⟨hall, hnodup, rfl⟩, seq_eq_ok.mpr ⟨bailIf_eq_ok.mpr ?_, ?_⟩⟩
    · have := hperm.length_eq
      simp only [List.length_map] at this
      simp [hlen, ← this]
    · exact bind_eq_ok.mpr ⟨[], foldlM_takeSummary_perm hperm, rfl⟩

/-! ## What `bpf_id` accepts -/

/-- An entry that carries an action or a policer. -/
def HasAction (m : TcMessage) : Prop :=
  ∃ os nlas nla, .options os ∈ m.attributes ∧ .other nlas ∈ os ∧ .ok nla ∈ nlas ∧ (nla.kind = 1 ∨ nla.kind = 2)

theorem readNla_action {s t : BpfRead} {nla : Nla} (hkind : nla.kind = 1 ∨ nla.kind = 2) :
    readNla s (.ok nla) ≠ .ok t := by
  rcases hkind with h | h
  · simp [readNla, h, bind, Except.bind]
  · simp [readNla, h, bind, Except.bind]

theorem bpfId_ok {id : UInt32} (h : bpfId m = .ok id) :
    m.attributes.any TcAttribute.isBpf ∧ (∀ n, .chain n ∈ m.attributes → n = 0) ∧ ¬ HasAction m := by
  obtain ⟨hbpf, h⟩ := seq_eq_ok.mp h
  obtain ⟨s, hread, -⟩ := bind_eq_ok.mp h
  refine ⟨by simpa using bailIf_eq_ok.mp hbpf, ?_, ?_⟩
  · intro n hn
    obtain ⟨u, v, hstep⟩ := step_of_foldlM_eq_ok hread hn
    obtain ⟨hzero, -⟩ := seq_eq_ok.mp hstep
    simpa using bailIf_eq_ok.mp hzero
  · intro ⟨os, nlas, nla, hos, hnlas, hnla, hkind⟩
    obtain ⟨u, v, hoptions⟩ := step_of_foldlM_eq_ok hread hos
    obtain ⟨u, v, hoption⟩ := step_of_foldlM_eq_ok hoptions hnlas
    obtain ⟨u, v, hstep⟩ := step_of_foldlM_eq_ok hoption hnla
    exact readNla_action hkind hstep

/-! ## What `check_program_maps` accepts -/

/-- A program that is loaded and lists the map. -/
def ProgramInfo.Owns (info : ProgramInfo) (e : UInt32 × UInt32) : Prop :=
  info.id = e.1 ∧ ∃ maps, info.mapIds = .ok (some maps) ∧ e.2 ∈ maps

def OwnsMap (infos : List (Except String ProgramInfo)) (e : UInt32 × UInt32) : Prop :=
  ∃ info, .ok info ∈ infos ∧ info.Owns e

theorem swapRemove_perm {α : Type} {l : List α} {i : Nat} (h : i < l.length) : (swapRemove l i).Perm (l.eraseIdx i) := by
  induction l using List.reverseRecOn with
  | nil => simp at h
  | append_singleton l last _ =>
    simp only [swapRemove, List.getLast?_append, List.getLast?_singleton, Option.some_or]
    rcases Nat.lt_or_ge i l.length with hlt | hge
    · rw [List.set_append_left _ _ hlt, List.dropLast_concat, List.eraseIdx_append_of_lt_length hlt]
      exact (List.set_perm_cons_eraseIdx hlt last).trans (List.perm_append_singleton _ _).symm
    · have hi : i = l.length := by simp at h; omega
      subst hi
      simp [List.set_append_right, List.eraseIdx_append_of_length_le]

theorem settleProgram_ok {expected rest : List (UInt32 × UInt32)} {info : ProgramInfo}
    (h : settleProgram expected info = .ok rest) :
    rest = expected ∧ (∀ e ∈ expected, e.1 ≠ info.id) ∨ ∃ e, expected.Perm (e :: rest) ∧ info.Owns e := by
  unfold settleProgram at h
  cases hfind : expected.findIdx? (fun e => e.1 = info.id) with
  | none =>
    rw [hfind] at h
    exact .inl ⟨pure_eq_ok.mp h, by simpa using List.findIdx?_eq_none_iff.mp hfind⟩
  | some i =>
    rw [hfind] at h
    obtain ⟨hlt, hid, -⟩ := List.findIdx?_eq_some_iff_getElem.mp hfind
    obtain ⟨ids, hids, h⟩ := bind_eq_ok.mp h
    obtain ⟨maps, hmaps, h⟩ := bind_eq_ok.mp h
    obtain ⟨howned, h⟩ := seq_eq_ok.mp h
    obtain rfl := pure_eq_ok.mp h
    have hin : expected[i].2 ∈ maps := by simpa [List.getElem?_eq_getElem hlt] using bailIf_eq_ok.mp howned
    refine .inr ⟨expected[i], ?_, (by simpa using hid : expected[i].1 = info.id).symm, maps, ?_, hin⟩
    · exact (List.getElem_cons_eraseIdx_perm hlt).symm.trans ((swapRemove_perm hlt).symm.cons _)
    · rw [hids, orBail_eq_ok.mp hmaps]

theorem checkProgramMaps_ok {infos : List (Except String ProgramInfo)}
    (h : checkProgramMaps expected infos = .ok ()) : ∀ e ∈ expected, OwnsMap infos e := by
  induction infos generalizing expected with
  | nil =>
    intro e he
    have hnil : expected = [] := by simpa [checkProgramMaps] using h
    simp [hnil] at he
  | cons i rest ih =>
    intro e he
    rw [checkProgramMaps] at h
    obtain ⟨info, hi, hrun⟩ := bind_eq_ok.mp h
    obtain ⟨left, hsettle, hend⟩ := bind_eq_ok.mp hrun
    subst hi
    have hleft : ∀ e ∈ left, OwnsMap (.ok info :: rest) e := by
      intro e he
      by_cases hempty : left.isEmpty
      · simp [List.isEmpty_iff.mp hempty] at he
      · rw [if_neg hempty] at hend
        obtain ⟨i, hi, howns⟩ := ih hend e he
        exact ⟨i, List.mem_cons_of_mem _ hi, howns⟩
    rcases settleProgram_ok hsettle with ⟨rfl, -⟩ | ⟨e', hperm, howns⟩
    · exact hleft e he
    · rcases List.mem_cons.mp (hperm.mem_iff.mp he) with rfl | he
      · exact ⟨info, List.mem_cons_self, howns⟩
      · exact hleft e he

/-! ## What `check_tc` accepts -/

/-- The map a filter has to own, by its priority. -/
def mapOf (pref : UInt16) (markerId routeId : UInt32) (m : TcMessage) : UInt32 :=
  if m.priority = pref then markerId else routeId

def OurSelector (pref : UInt16) (m : TcMessage) : Prop :=
  m.protocol = ETH_P_ALL_BE ∧ (m.priority = pref ∨ some m.priority = forwardPriority pref)

theorem expectation_eq_ok {e : UInt32 × UInt32} :
    expectation pref markerId routeId m = .ok e ↔
      OurSelector pref m ∧ bpfId m = .ok e.1 ∧ e.2 = mapOf pref markerId routeId m := by
  have htail : ∀ mapId, (do return (← bpfId m, mapId)) = Except.ok e ↔ bpfId m = .ok e.1 ∧ e.2 = mapId := by
    intro mapId
    rw [bind_eq_ok]
    constructor
    · intro ⟨id, hid, he⟩
      rw [pure_eq_ok.mp he]
      exact ⟨hid, rfl⟩
    · intro ⟨hid, hmap⟩
      exact ⟨e.1, hid, pure_eq_ok.mpr (Prod.ext rfl hmap)⟩
  unfold expectation mapOf OurSelector
  rw [seq_eq_ok, bailIf_eq_ok, decide_eq_false_iff_not, not_not]
  by_cases hp : m.priority = pref
  · rw [if_pos hp, if_pos hp, pure_bind, htail]
    simp [hp]
  · rw [if_neg hp, if_neg hp, seq_eq_ok, bailIf_eq_ok, decide_eq_false_iff_not, not_not, pure_bind, htail]
    simp [hp, and_assoc]

/-- Two entries of ours and nothing else. -/
structure OwnedOnly (host : TcHost) (pref : UInt16) (markerId routeId : UInt32) (fs : List TcMessage) : Prop where
  two : (entriesOf fs).length = 2
  named : ∀ m ∈ summariesOf fs, ∀ name, .kind name ∈ m.attributes → name = "bpf"
  bpf : ∀ m ∈ entriesOf fs, m.attributes.any TcAttribute.isBpf
  chain : ∀ m ∈ fs, ∀ n, .chain n ∈ m.attributes → n = 0
  selector : ∀ m ∈ entriesOf fs, OurSelector pref m
  action : ∀ m ∈ entriesOf fs, ¬ HasAction m
  owned : ∀ m ∈ entriesOf fs, ∃ id, bpfId m = .ok id ∧
    OwnsMap host.loadedPrograms (id, mapOf pref markerId routeId m)

theorem checkTc_owned {pin markerPin : String} (hroute : host.mapId pin = .ok routeId)
    (hmarker : host.mapId markerPin = .ok markerId) (hread : host.filters index .ingress = .ok fs)
    (h : checkTc host index outputs pref pin markerPin = .ok ()) : OwnedOnly host pref markerId routeId fs := by
  obtain ⟨-, h⟩ := seq_eq_ok.mp h
  obtain ⟨routeId', hroute', h⟩ := bind_eq_ok.mp h
  obtain ⟨markerId', hmarker', h⟩ := bind_eq_ok.mp h
  obtain ⟨fs', hread', h⟩ := bind_eq_ok.mp h
  obtain rfl := Except.ok.inj (hroute.symm.trans hroute')
  obtain rfl := Except.ok.inj (hmarker.symm.trans hmarker')
  obtain rfl := Except.ok.inj (hread.symm.trans hread')
  obtain ⟨programs, hprograms, h⟩ := bind_eq_ok.mp h
  obtain ⟨expected, hexpected, h⟩ := bind_eq_ok.mp h
  obtain ⟨-, h⟩ := seq_eq_ok.mp h
  have hmaps := checkProgramMaps_ok (seq_eq_ok.mp h).1
  obtain ⟨rfl, htwo, hsummaries, -, -⟩ := ingressPrograms_eq_ok.mp hprograms
  have hentry : ∀ m ∈ entriesOf fs, ∃ e ∈ expected, expectation pref markerId routeId m = .ok e :=
    fun m hm => mapM_ok_of_mem hexpected hm
  have hbpf : ∀ m ∈ entriesOf fs, ∃ id, bpfId m = .ok id := by
    intro m hm
    obtain ⟨e, -, he⟩ := hentry m hm
    exact ⟨e.1, (expectation_eq_ok.mp he).2.1⟩
  refine ⟨htwo, ?_, ?_, ?_, ?_, ?_, ?_⟩
  · intro m hm name hname
    simpa [TcAttribute.inSummary] using List.all_eq_true.mp (hsummaries m hm) _ hname
  · intro m hm
    obtain ⟨id, hid⟩ := hbpf m hm
    exact (bpfId_ok hid).1
  · intro m hm n hn
    by_cases hz : m.handle = 0
    · simpa [TcAttribute.inSummary] using List.all_eq_true.mp (hsummaries m (mem_summariesOf.mpr ⟨hm, hz⟩)) _ hn
    · obtain ⟨id, hid⟩ := hbpf m (mem_entriesOf.mpr ⟨hm, hz⟩)
      exact (bpfId_ok hid).2.1 n hn
  · intro m hm
    obtain ⟨e, -, he⟩ := hentry m hm
    exact (expectation_eq_ok.mp he).1
  · intro m hm
    obtain ⟨id, hid⟩ := hbpf m hm
    exact (bpfId_ok hid).2.2
  · intro m hm
    obtain ⟨e, hmem, he⟩ := hentry m hm
    obtain ⟨-, hid, hmap⟩ := expectation_eq_ok.mp he
    exact ⟨e.1, hid, hmap ▸ hmaps e hmem⟩

/-- A list that holds something besides our two filters, or one of them changed. -/
inductive Tainted (host : TcHost) (pref : UInt16) (markerId routeId : UInt32) (fs : List TcMessage) : Prop
  | foreign (h : 2 < (entriesOf fs).length)
  | selector {m : TcMessage} (hm : m ∈ entriesOf fs) (h : ¬ OurSelector pref m)
  | classifier {m : TcMessage} (hm : m ∈ entriesOf fs) (h : ¬ m.attributes.any TcAttribute.isBpf)
  | summary {m : TcMessage} {name : String} (hm : m ∈ summariesOf fs) (hname : .kind name ∈ m.attributes)
      (h : name ≠ "bpf")
  | chain {m : TcMessage} {n : UInt32} (hm : m ∈ fs) (hn : .chain n ∈ m.attributes) (h : n ≠ 0)
  | action {m : TcMessage} (hm : m ∈ entriesOf fs) (h : HasAction m)
  | unowned {m : TcMessage} {id : UInt32} (hm : m ∈ entriesOf fs) (hid : bpfId m = .ok id)
      (h : ¬ OwnsMap host.loadedPrograms (id, mapOf pref markerId routeId m))

theorem OwnedOnly.not_tainted
    (h : OwnedOnly host pref markerId routeId fs) : ¬ Tainted host pref markerId routeId fs := by
  intro ht
  cases ht with
  | foreign hlen => exact absurd h.two (by omega)
  | selector hm hsel => exact hsel (h.selector _ hm)
  | classifier hm hbpf => exact hbpf (h.bpf _ hm)
  | summary hm hname hne => exact hne (h.named _ hm _ hname)
  | chain hm hn hne => exact hne (h.chain _ hm _ hn)
  | action hm hact => exact h.action _ hm hact
  | unowned hm hid howns =>
    obtain ⟨id', hid', howned⟩ := h.owned _ hm
    obtain rfl := Except.ok.inj (hid.symm.trans hid')
    exact howns howned

/-! ## What the kernel lists -/

/-- `tcm_info` of a filter for every protocol. -/
def infoOf (priority : UInt16) : UInt32 := UInt32.ofNat (priority.toNat * 65536 + ETH_P_ALL_BE.toNat)

def Attached.summary (f : Attached) : TcMessage := ⟨0, infoOf f.priority, [.kind "bpf", .chain 0]⟩

/-- Name, id, tag, direct-action flag and generic flags (not in hardware). -/
def Attached.entry (f : Attached) : TcMessage :=
  ⟨1, infoOf f.priority,
    [.kind "bpf", .chain 0,
      .options [.other [.ok ⟨7, f.program.name⟩, .ok ⟨11, leBytes 4 f.program.id.toNat⟩, .ok ⟨10, f.program.tag⟩,
        .ok ⟨8, leBytes 4 1⟩, .ok ⟨9, leBytes 4 8⟩]]]⟩

def dump (filters : List Attached) : List TcMessage := filters.flatMap fun f => [f.summary, f.entry]

theorem entriesOf_dump (xs : List Attached) : entriesOf (dump xs) = xs.map Attached.entry := by
  induction xs with
  | nil => rfl
  | cons x xs ih =>
    have hcons : dump (x :: xs) = x.summary :: x.entry :: dump xs := rfl
    rw [hcons, List.map_cons, ← ih]
    simp [entriesOf, Attached.summary, Attached.entry]

section Listed

variable {xs : List Attached} {fs : List TcMessage} (hfs : fs.Perm (dump xs))

include hfs

theorem entriesOf_perm : (entriesOf fs).Perm (xs.map Attached.entry) :=
  entriesOf_dump xs ▸ hfs.filter _

theorem length_entriesOf : (entriesOf fs).length = xs.length := by
  rw [(entriesOf_perm hfs).length_eq, List.length_map]

end Listed

/-! ## Hosts with nothing else attached -/

/-- A host on which only the listed filters stand on the way in and nothing on the way out. -/
structure Clear (host : TcHost) (index : UInt32) (outputs : List UInt32) : Prop where
  tcx : checkTcx host index .ingress = .ok ()
  outputs : checkOutputs host outputs = .ok ()
  loaded : ∀ i ∈ host.loadedPrograms, ∃ info, i = .ok info

/-- The program is loaded and lists the map wherever it is loaded. -/
def Holds (host : TcHost) (program : TcProgram) (mapId : UInt32) : Prop :=
  OwnsMap host.loadedPrograms (program.id, mapId) ∧
    ∀ info, .ok info ∈ host.loadedPrograms → program.id = info.id → info.Owns (program.id, mapId)

/-! ## The filters left on the underlay -/

section Attach

variable {devices : TcDevices} {dev failed : String} {priority : UInt16} {program : TcProgram}

theorem attachWithOptions_ok {devices' : TcDevices}
    (h : attachWithOptions devices dev priority program failed = .ok devices') :
    devices' = Function.update devices dev
      (devices dev ++ [⟨kernelPriority ((devices dev).map Attached.priority) priority, program⟩]) := by
  unfold attachWithOptions at h
  simp only at h
  split at h
  · cases h
  · exact (Except.ok.inj h).symm

theorem attachWithOptions_length {devices' : TcDevices} (other : String)
    (h : attachWithOptions devices dev priority program failed = .ok devices') :
    (devices other).length ≤ (devices' other).length ∧
      (other = dev → (devices' other).length = (devices other).length + 1) := by
  rw [attachWithOptions_ok h]
  by_cases heq : other = dev
  · subst heq
    simp
  · simp [heq]

end Attach

theorem kernelPriority_nil (pref : UInt16) : kernelPriority [] pref = if pref ≠ 0 then pref else 0xc000 := rfl

/-- The marker's filter is at neither of the priorities that are cleared after it. -/
theorem marker_kept (pref : UInt16) :
    kernelPriority [] pref ≠ pref + INGRESS_PREF_OFFSET ∧ kernelPriority [] pref ≠ pref + RETURN_PREF_OFFSET := by
  rw [kernelPriority_nil]
  by_cases h : pref = 0
  · subst h
    decide
  · rw [if_pos h]
    unfold INGRESS_PREF_OFFSET RETURN_PREF_OFFSET
    constructor <;> grind

theorem attachOwned_underlay {devices marked : TcDevices} {underlay : String} {marker : TcProgram}
    (hnone : devices underlay = []) (hmark : attachOwned devices underlay pref marker = .ok marked) :
    marked underlay = [⟨kernelPriority [] pref, marker⟩] := by
  rw [attachWithOptions_ok hmark]
  simp [deleteIngressPref, hnone]

/-- What `attach_prepared` clears before it attaches. -/
def cleared (underlay vxlan : String) (pref : UInt16) : TcDevices :=
  deleteIngressPref (deleteIngressPref (deleteIngressPref devices underlay (pref + INGRESS_PREF_OFFSET))
    underlay (pref + RETURN_PREF_OFFSET)) vxlan (pref + RETURN_PREF_OFFSET)

theorem cleared_underlay {marked : TcDevices} {underlay : String} (vxlan : String) {marker : TcProgram}
    (h : marked underlay = [⟨kernelPriority [] pref, marker⟩]) :
    cleared marked underlay vxlan pref underlay = [⟨kernelPriority [] pref, marker⟩] := by
  obtain ⟨hkeep, hkeep'⟩ := marker_kept pref
  by_cases heq : underlay = vxlan
  · subst heq
    simp [cleared, deleteIngressPref, h, hkeep, hkeep']
  · simp [cleared, deleteIngressPref, h, hkeep, hkeep', heq]

/-- Three filters at least stand on the underlay device once both have attached. -/
theorem underlay_crowded {devices marked devices' : TcDevices} {underlay vxlan : String}
    {marker forward back : TcProgram} (hnone : devices underlay = [])
    (hmark : attachOwned devices underlay pref marker = .ok marked)
    (hprepare : attachPrepared marked underlay vxlan pref forward back = .ok devices') :
    2 < (devices' underlay).length := by
  have hcleared := cleared_underlay vxlan (attachOwned_underlay hnone hmark)
  obtain ⟨d₁, hforward, h⟩ := bind_eq_ok.mp hprepare
  obtain ⟨d₂, hback, hoverlay⟩ := bind_eq_ok.mp h
  have h₁ : (d₁ underlay).length = (cleared marked underlay vxlan pref underlay).length + 1 :=
    (attachWithOptions_length underlay hforward).2 rfl
  have h₂ := (attachWithOptions_length underlay hback).2 rfl
  have h₃ := (attachWithOptions_length underlay hoverlay).1
  rw [hcleared, List.length_singleton] at h₁
  omega

/-- The filters that attaching leaves on the underlay device are refused in every order, and so is
    every list with a foreign filter, another classifier, another chain, an action or a program
    that does not own its map. -/
theorem underlay_refused {host : TcHost} {index : UInt32} {outputs : List UInt32} {pref : UInt16}
    {pin markerPin : String} {markerId routeId : UInt32} {fs : List TcMessage} (hroute : host.mapId pin = .ok routeId)
    (hmarker : host.mapId markerPin = .ok markerId) (hread : host.filters index .ingress = .ok fs) :
    (∀ (devices marked devices' : TcDevices) (underlay vxlan : String) (marker forward back : TcProgram),
      devices underlay = [] → attachOwned devices underlay pref marker = .ok marked →
      attachPrepared marked underlay vxlan pref forward back = .ok devices' →
      fs.Perm (dump (devices' underlay)) → checkTc host index outputs pref pin markerPin ≠ .ok ()) ∧
    (Tainted host pref markerId routeId fs → checkTc host index outputs pref pin markerPin ≠ .ok ()) := by
  have hreject : Tainted host pref markerId routeId fs → checkTc host index outputs pref pin markerPin ≠ .ok () :=
    fun htainted hok => (checkTc_owned hroute hmarker hread hok).not_tainted htainted
  refine ⟨?_, hreject⟩
  intro devices marked devices' underlay vxlan marker forward back hnone hmark hprepare hfs
  refine hreject (.foreign ?_)
  rw [length_entriesOf hfs]
  exact underlay_crowded hnone hmark hprepare

/-! ### A gateway with the default priority -/

def sampleMarker : TcProgram := ⟨21, [], []⟩
def sampleForward : TcProgram := ⟨22, [], []⟩
def sampleBack : TcProgram := ⟨23, [], []⟩

/-- Nothing but the given filters on the way in, nothing on the way out; the marker owns map 5, the
    native programs own map 6. -/
def sampleHost (filters : List TcMessage) : TcHost where
  ifName _ := some "eth0"
  tcx _ _ := .programs []
  before66 := .ok false
  mapId pin := if pin = "DSCP_CFG" then .ok 5 else .ok 6
  filters _ attach := if attach = .ingress then .ok filters else .ok []
  loadedPrograms := [.ok ⟨21, .ok (some [5])⟩, .ok ⟨22, .ok (some [6])⟩, .ok ⟨23, .ok (some [6])⟩]

def sampleMarked : Except String TcDevices := attachOwned (fun _ => []) "eth0" 1 sampleMarker

def sampleDevices : Except String TcDevices := do
  attachPrepared (← sampleMarked) "eth0" "edge-hub" 1 sampleForward sampleBack

theorem sampleHost_clear (filters : List TcMessage) : Clear (sampleHost filters) 2 [3] := by
  refine ⟨rfl, rfl, ?_⟩
  intro i hi
  simp only [sampleHost, List.mem_cons, List.not_mem_nil, or_false] at hi
  rcases hi with rfl | rfl | rfl <;> exact ⟨_, rfl⟩

theorem sample_holds (filters : List TcMessage) :
    Holds (sampleHost filters) sampleMarker 5 ∧ Holds (sampleHost filters) sampleForward 6 := by
  refine ⟨⟨⟨⟨21, .ok (some [5])⟩, by simp [sampleHost], rfl, [5], rfl, by simp⟩, ?_⟩,
    ⟨⟨⟨22, .ok (some [6])⟩, by simp [sampleHost], rfl, [6], rfl, by simp⟩, ?_⟩⟩
  · intro info hinfo hid
    simp only [sampleHost, List.mem_cons, List.not_mem_nil, or_false, Except.ok.injEq] at hinfo
    rcases hinfo with rfl | rfl | rfl
    · exact ⟨rfl, [5], rfl, by simp⟩
    · simp [sampleMarker] at hid
    · simp [sampleMarker] at hid
  · intro info hinfo hid
    simp only [sampleHost, List.mem_cons, List.not_mem_nil, or_false, Except.ok.injEq] at hinfo
    rcases hinfo with rfl | rfl | rfl
    · simp [sampleForward] at hid
    · exact ⟨rfl, [6], rfl, by simp⟩
    · simp [sampleForward] at hid

/-- A gateway with nothing else on its underlay, whose programs own their maps, is refused. -/
theorem default_gateway_refused : ∃ devices, sampleDevices = .ok devices ∧
    Clear (sampleHost (dump (devices "eth0"))) 2 [3] ∧
    Holds (sampleHost (dump (devices "eth0"))) sampleMarker 5 ∧
    Holds (sampleHost (dump (devices "eth0"))) sampleForward 6 ∧
    checkTc (sampleHost (dump (devices "eth0"))) 2 [3] 1 "NATIVE_TARGET_ROUTES" "DSCP_CFG" =
      .error "foreign or missing ingress TC filters" :=
  ⟨_, rfl, sampleHost_clear _, (sample_holds _).1, (sample_holds _).2, rfl⟩

/-- The theorem at the same gateway, and at one whose underlay has a filter on chain 1. -/
theorem default_gateway_and_chain_refused : (∃ devices, sampleDevices = .ok devices ∧
      checkTc (sampleHost (dump (devices "eth0"))) 2 [3] 1 "NATIVE_TARGET_ROUTES" "DSCP_CFG" ≠ .ok ()) ∧
    checkTc (sampleHost [⟨1, infoOf 1, [.kind "bpf", .chain 1]⟩]) 2 [3] 1 "NATIVE_TARGET_ROUTES" "DSCP_CFG" ≠ .ok () :=
  ⟨⟨_, rfl, (underlay_refused rfl rfl rfl).1 (fun _ => []) _ _ "eth0" "edge-hub" sampleMarker sampleForward sampleBack
      rfl rfl rfl (.refl _)⟩,
    (underlay_refused rfl rfl rfl).2 (.chain (n := 1) List.mem_cons_self (by simp) (by decide))⟩

end EdgeLb.Datapath.Admission
