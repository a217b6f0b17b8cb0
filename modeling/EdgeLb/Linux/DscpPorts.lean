/-
  EdgeLb.Linux.DscpPorts — the ports the DSCP marker looks for (`write_ports`): a pinned hash
  map with room for two sets of ports, brought from one set to the other while the marker
  reads it.

  New ports go in before old ones come out. So a port of both sets is never missing
  (`Between`), and no insert finds the map full: at no point are there more ports in it
  than in the two sets together. When an insert fails, those made so far are taken back.
-/

import EdgeLb.Lib.Check
import EdgeLb.Lib.FaultyMap
import Mathlib.Data.List.Dedup
import Mathlib.Data.List.Sort

namespace EdgeLb.Linux

open EdgeLb.Lib EdgeLb.Lib.FaultyMap

def MAX_PORTS : Nat := 16

def DSCP_PORT_MAP_CAPACITY : Nat := MAX_PORTS * 2

abbrev PortMap := AList fun _ : UInt32 => UInt32

abbrev Ports := Host UInt32 UInt32

def validate (dscp : UInt32) (ports : List UInt32) : Except String Unit := do
  bailIf (decide (64 ≤ dscp)) s!"DSCP must be in 0..63, got {dscp}"
  let unique := ports.dedup
  bailIf (decide (MAX_PORTS < unique.length)) s!"too many ports: max {MAX_PORTS}, got {unique.length}"
  eachIdx (fun _ p => bailIf (decide (p = 0 ∨ 65535 < p)) s!"port out of range: {p}") ports

/-- The elements of a `BTreeSet`, or the keys of a `BTreeMap`. -/
def inOrder (ports : List UInt32) : List UInt32 := ports.dedup.insertionSort (· ≤ ·)

/-- A removal that fails is only logged. -/
def rollBack (inserted : List UInt32) (h : Ports) : Ports :=
  inserted.foldl (fun h key => (h.call (.remove key)).2) h

theorem rollBack_cons (port : UInt32) (inserted : List UInt32) (h : Ports) :
    rollBack (port :: inserted) h = rollBack inserted (h.call (.remove port)).2 := rfl

def upsert (existing : PortMap) : List UInt32 → List UInt32 → Ports → Option Nat × Ports
  | [], _, h => (none, h)
  | port :: desired, inserted, h =>
    if existing.lookup port ≠ some 1 then
      let r := h.call (.insert port 1)
      if r.1 ≠ none then (r.1, rollBack inserted r.2)
      else upsert existing desired (if port ∈ existing then inserted else inserted ++ [port]) r.2
    else upsert existing desired inserted h

def prune : List UInt32 → Ports → Option Nat × Ports
  | [], h => (none, h)
  | port :: stale, h => andThen (h.call (.remove port)) (prune stale)

def writePorts (ports : List UInt32) (h : Ports) : Option Nat × Ports :=
  let desired := inOrder ports
  andThen (h.call .iter) fun h =>
    let existing := h.map
    andThen (upsert existing desired [] h) (prune ((inOrder existing.keys).filter (· ∉ desired)))

variable {ports : List UInt32} {existing m : PortMap} {kept : List UInt32}

theorem mem_inOrder {port : UInt32} : port ∈ inOrder ports ↔ port ∈ ports := by
  rw [inOrder, List.mem_insertionSort, List.mem_dedup]

theorem nodup_inOrder (ports : List UInt32) : (inOrder ports).Nodup :=
  (List.perm_insertionSort _ _).nodup_iff.mpr (List.nodup_dedup ports)

theorem length_inOrder_of_valid {dscp : UInt32} (h : validate dscp ports = .ok ()) :
    (inOrder ports).length ≤ MAX_PORTS := by
  have hunique := (seq_eq_ok.mp (seq_eq_ok.mp h).2).1
  rw [bailIf_eq_ok, decide_eq_false_iff_not] at hunique
  rw [inOrder, List.length_insertionSort]
  omega

section

variable {existing : PortMap} {port : UInt32} {h : Ports}

theorem upsert_cons_old (hport : existing.lookup port = some 1) (ports inserted : List UInt32) :
    upsert existing (port :: ports) inserted h = upsert existing ports inserted h := by
  rw [upsert, if_neg (not_not_intro hport)]

/-- A port that is not marked yet goes in. -/
theorem upsert_cons_new (hport : existing.lookup port ≠ some 1) (herror : h.error (.insert port 1) = none)
    (ports inserted : List UInt32) :
    upsert existing (port :: ports) inserted h =
      upsert existing ports (if port ∈ existing then inserted else inserted ++ [port]) (h.call (.insert port 1)).2 := by
  rw [upsert, if_pos hport]
  exact if_neg (not_not_intro herror)

/-- Or all is taken back. -/
theorem upsert_cons_failed (hport : existing.lookup port ≠ some 1) (herror : h.error (.insert port 1) ≠ none)
    (ports inserted : List UInt32) :
    upsert existing (port :: ports) inserted h =
      (h.error (.insert port 1), rollBack inserted (h.call (.insert port 1)).2) := by
  rw [upsert, if_pos hport]
  exact if_pos herror

end

/-! ## A successful update -/

theorem upsert_done {existing : PortMap} {ports inserted : List UInt32} {h : Ports}
    (hold : ∀ port, existing.lookup port = some 1 → port ∈ h.map)
    (hdone : (upsert existing ports inserted h).1 = none) (port : UInt32) :
    port ∈ (upsert existing ports inserted h).2.map ↔ port ∈ h.map ∨ port ∈ ports := by
  induction ports generalizing h inserted with
  | nil => simp [upsert]
  | cons first ports ih =>
    by_cases hfirst : existing.lookup first = some 1
    · have hthere := hold first hfirst
      rw [upsert_cons_old hfirst] at hdone ⊢
      rw [ih hold hdone, List.mem_cons]
      constructor
      · rintro (hport | hport)
        · exact .inl hport
        · exact .inr (.inr hport)
      · rintro (hport | rfl | hport)
        · exact .inl hport
        · exact .inl hthere
        · exact .inr hport
    · by_cases herror : h.error (.insert first 1) = none
      · have hmap : (h.call (.insert first 1)).2.map = h.map.insert first 1 := call_map_ok herror
        have hold' : ∀ p, existing.lookup p = some 1 → p ∈ (h.call (.insert first 1)).2.map := by
          intro p hp
          rw [hmap]
          exact (AList.mem_insert _).mpr (.inr (hold p hp))
        rw [upsert_cons_new hfirst herror] at hdone ⊢
        rw [ih hold' hdone, hmap, AList.mem_insert, List.mem_cons]
        tauto
      · rw [upsert_cons_failed hfirst herror] at hdone
        exact absurd hdone herror

theorem prune_done {stale : List UInt32} {h : Ports} (hdone : (prune stale h).1 = none) (port : UInt32) :
    port ∈ (prune stale h).2.map ↔ port ∈ h.map ∧ port ∉ stale := by
  induction stale generalizing h with
  | nil => simp [prune]
  | cons first stale ih =>
    obtain ⟨herror, hnext⟩ := andThen_eq_ok hdone
    rw [prune] at hdone ⊢
    rw [hnext] at hdone ⊢
    rw [ih hdone, call_map_ok herror, effect, AList.mem_erase, List.mem_cons]
    tauto

/-- An update that succeeds ends with the desired ports, whatever the map held. -/
theorem writePorts_done {h : Ports} (hdone : (writePorts ports h).1 = none) (port : UInt32) :
    port ∈ (writePorts ports h).2.map ↔ port ∈ ports := by
  obtain ⟨hiter, hnext⟩ := andThen_eq_ok hdone
  rw [writePorts] at hdone ⊢
  rw [hnext] at hdone ⊢
  obtain ⟨hupsert, hprune⟩ := andThen_eq_ok hdone
  rw [hprune] at hdone ⊢
  rw [prune_done hdone, upsert_done (fun p hp => AList.lookup_isSome.mp (by simp [hp])) hupsert, List.mem_filter]
  simp only [mem_inOrder, decide_eq_true_eq, AList.mem_keys]
  tauto

/-! ## Between the two sets -/

/-- The ports of both sets are there, and no port of neither. -/
structure Between (existing : PortMap) (desired : List UInt32) (m : PortMap) : Prop where
  common : ∀ port ∈ existing, port ∈ desired → port ∈ m
  drawn : ∀ port ∈ m, port ∈ existing ∨ port ∈ desired

/-- The calls made on the way. -/
def Allowed (existing : PortMap) (desired : List UInt32) (_ : PortMap) : Op UInt32 UInt32 → Prop
  | .iter => True
  | .insert port _ => port ∈ desired
  | .remove port => port ∈ existing → port ∉ desired

def IsInsert : Op UInt32 UInt32 → Prop
  | .insert _ _ => True
  | _ => False

def IsRemove : Op UInt32 UInt32 → Prop
  | .remove _ => True
  | _ => False

instance : DecidablePred IsInsert
  | .iter => .isFalse id
  | .insert _ _ => .isTrue trivial
  | .remove _ => .isFalse id

instance : DecidablePred IsRemove
  | .iter => .isFalse id
  | .insert _ _ => .isFalse id
  | .remove _ => .isTrue trivial

section

variable {existing : PortMap} {desired : List UInt32}

theorem between_effect (m : PortMap) (op : Op UInt32 UInt32) (hm : Between existing desired m)
    (hop : Allowed existing desired m op) : Between existing desired (effect m op) := by
  cases op with
  | iter => exact hm
  | insert port v =>
    refine ⟨fun p hp hd => (AList.mem_insert _).mpr (.inr (hm.common p hp hd)), fun p hp => ?_⟩
    rcases (AList.mem_insert _).mp hp with rfl | hp
    · exact .inr hop
    · exact hm.drawn p hp
  | remove port =>
    refine ⟨fun p hp hd => AList.mem_erase.mpr ⟨?_, hm.common p hp hd⟩, fun p hp => ?_⟩
    · rintro rfl
      exact hop hp hd
    · exact hm.drawn p (AList.mem_erase.mp hp).2

variable (hroom : existing.entries.length ≤ MAX_PORTS) (hdesired : desired.length ≤ MAX_PORTS)
include hroom hdesired

/-- Distinct ports of the two sets fit into the map. -/
theorem length_le_capacity {ports : List UInt32} (hnodup : ports.Nodup)
    (hdrawn : ∀ port ∈ ports, port ∈ existing ∨ port ∈ desired) : ports.length ≤ DSCP_PORT_MAP_CAPACITY := by
  have hsub : ports ⊆ existing.keys ++ desired := fun port hport => List.mem_append.mpr (hdrawn port hport)
  have hle := (List.subperm_of_subset hnodup hsub).length_le
  have hkeys : existing.keys.length = existing.entries.length := List.length_map _
  rw [List.length_append, hkeys] at hle
  unfold DSCP_PORT_MAP_CAPACITY
  omega

theorem Between.length_le {m : PortMap} (hm : Between existing desired m) :
    m.entries.length ≤ DSCP_PORT_MAP_CAPACITY := by
  have hkeys : m.keys.length = m.entries.length := List.length_map _
  rw [← hkeys]
  exact length_le_capacity hroom hdesired m.keys_nodup hm.drawn

/-- A desired port finds room. -/
theorem insert_not_refused {m : PortMap} (hm : Between existing desired m) {port : UInt32} (hport : port ∈ desired)
    (v : UInt32) : refusal DSCP_PORT_MAP_CAPACITY m (.insert port v) = none := by
  refine if_neg ?_
  rintro ⟨hnew, hfull⟩
  have hnodup : (port :: m.keys).Nodup := List.nodup_cons.mpr ⟨hnew, m.keys_nodup⟩
  have hle := length_le_capacity hroom hdesired hnodup fun p hp => by
    rcases List.mem_cons.mp hp with rfl | hp
    · exact .inr hport
    · exact hm.drawn p hp
  have hkeys : m.keys.length = m.entries.length := List.length_map _
  rw [List.length_cons, hkeys] at hle
  omega

end

/-! ## The three loops -/

/-- The existing ports, and the ports of `kept` on top. -/
def Added (existing : PortMap) (kept : List UInt32) (m : PortMap) : Prop :=
  ∀ port, m.lookup port = if port ∈ kept then some 1 else existing.lookup port

section

variable (h : Added existing kept m)
include h

theorem Added.mem_iff {port : UInt32} : port ∈ m ↔ port ∈ kept ∨ port ∈ existing := by
  rw [← AList.lookup_isSome, ← AList.lookup_isSome, h port]
  by_cases hport : port ∈ kept
  · simp [hport]
  · simp [hport]

theorem Added.insert (port : UInt32) :
    Added existing (kept ++ [port]) (m.insert port 1) := by
  intro p
  by_cases hp : p = port
  · subst hp
    simp
  · simp [AList.lookup_insert_ne hp, h p, hp]

theorem Added.erase {port : UInt32}
    (hnew : port ∉ existing) : Added existing (kept.filter (· ≠ port)) (m.erase port) := by
  intro p
  by_cases hp : p = port
  · subst hp
    simp [AList.lookup_eq_none.mpr hnew]
  · simp [AList.lookup_erase_ne hp, h p, hp]

end

section

variable {existing : PortMap} {desired : List UInt32}

abbrev PortsLogged (existing : PortMap) (desired : List UInt32) : Ports → Prop :=
  Logged (Between existing desired) (Allowed existing desired)

/-- Taking back: what could be removed is gone, the rest of the map is as it was. -/
theorem rollBack_spec {inserted kept : List UInt32} {h : Ports} (hlog : PortsLogged existing desired h)
    (hadded : Added existing kept h.map) (hnew : ∀ port ∈ kept, port ∉ existing) (hin : ∀ port ∈ inserted, port ∈ kept)
    (hnodup : inserted.Nodup) :
    PortsLogged existing desired (rollBack inserted h) ∧
      ((rollBack inserted h).Clean IsInsert → h.Clean IsInsert) ∧
      ((rollBack inserted h).Clean IsRemove →
        h.Clean IsRemove ∧ Added existing (kept.filter (· ∉ inserted)) (rollBack inserted h).map) := by
  induction inserted generalizing h kept with
  | nil =>
    refine ⟨hlog, id, fun hclean => ⟨hclean, ?_⟩⟩
    rw [List.filter_eq_self.mpr fun _ _ => decide_eq_true List.not_mem_nil]
    exact hadded
  | cons port inserted ih =>
    obtain ⟨hport, hrest⟩ := List.nodup_cons.mp hnodup
    have hmem : port ∈ kept := hin port List.mem_cons_self
    have hrefuse : refusal h.capacity h.map (.remove port) = none := if_pos (hadded.mem_iff.mpr (.inl hmem))
    have hlog' : PortsLogged existing desired (h.call (.remove port)).2 :=
      hlog.call between_effect (fun hold => absurd hold (hnew port hmem)) hrefuse
    rw [rollBack_cons]
    by_cases herror : h.error (.remove port) = none
    · have hadded' := hadded.erase (hnew port hmem)
      rw [← effect, ← call_map_ok herror] at hadded'
      obtain ⟨hlogged, hinsert, hremove⟩ := ih hlog' hadded' (fun p hp => hnew p (List.mem_filter.mp hp).1)
        (fun p hp => List.mem_filter.mpr ⟨hin p (List.mem_cons_of_mem _ hp), by
          simp only [decide_eq_true_eq]
          rintro rfl
          exact hport hp⟩) hrest
      refine ⟨hlogged, fun hclean => (clean_call.mp (hinsert hclean)).1, fun hclean => ?_⟩
      obtain ⟨hbefore, hmap⟩ := hremove hclean
      refine ⟨(clean_call.mp hbefore).1, ?_⟩
      rw [List.filter_filter] at hmap
      have hfilter : (kept.filter fun p => decide (p ∉ port :: inserted)) =
          kept.filter fun p => decide (p ∉ inserted) && decide (p ≠ port) := by
        congr 1
        funext p
        simp [Bool.and_comm]
      rw [hfilter]
      exact hmap
    · -- the port stays, and the run is not clean
      have hadded' := hadded
      rw [← call_map_failed herror] at hadded'
      obtain ⟨hlogged, hinsert, hremove⟩ := ih hlog' hadded' hnew (fun p hp => hin p (List.mem_cons_of_mem _ hp)) hrest
      refine ⟨hlogged, fun hclean => (clean_call.mp (hinsert hclean)).1, fun hclean => ?_⟩
      exact absurd ((clean_call.mp (hremove hclean).1).2 trivial) herror

/-- The first loop takes nothing out; or an insert failed and, if the removals did not, the map
    is as it was. -/
structure Upserted (existing : PortMap) (desired : List UInt32) (r : Option Nat × Ports) : Prop where
  logged : PortsLogged existing desired r.2
  done : r.1 = none → (∀ port ∈ existing, port ∈ r.2.map) ∧ r.2.Clean fun _ => True
  failed : r.1 ≠ none → ¬ r.2.Clean IsInsert ∧ (r.2.Clean IsRemove → Added existing [] r.2.map)

theorem upsert_spec (hroom : existing.entries.length ≤ MAX_PORTS) (hdesired : desired.length ≤ MAX_PORTS)
    (hones : ∀ port ∈ existing, existing.lookup port = some 1) {ports inserted : List UInt32} {h : Ports}
    (hlog : PortsLogged existing desired h) (hcap : h.capacity = DSCP_PORT_MAP_CAPACITY)
    (hclean : h.Clean fun _ => True) (hadded : Added existing inserted h.map)
    (hnew : ∀ port ∈ inserted, port ∉ existing) (hsub : ∀ port ∈ ports, port ∈ desired)
    (hnodup : (inserted ++ ports).Nodup) :
    Upserted existing desired (upsert existing ports inserted h) := by
  induction ports generalizing h inserted with
  | nil =>
    exact ⟨hlog, fun _ => ⟨fun p hp => hadded.mem_iff.mpr (.inr hp), hclean⟩, fun hnone => absurd rfl hnone⟩
  | cons port ports ih =>
    obtain ⟨hport, hports⟩ := List.forall_mem_cons.mp hsub
    by_cases hold : port ∈ existing
    · rw [upsert_cons_old (hones port hold)]
      refine ih hlog hcap hclean hadded hnew hports ?_
      exact hnodup.sublist (List.Sublist.append_left (List.sublist_cons_self port ports) inserted)
    · have hrefuse : refusal h.capacity h.map (.insert port 1) = none := by
        rw [hcap]
        exact insert_not_refused hroom hdesired hlog.map hport 1
      have hlog' : PortsLogged existing desired (h.call (.insert port 1)).2 := hlog.call between_effect hport hrefuse
      have hunmarked : existing.lookup port ≠ some 1 := by simp [AList.lookup_eq_none.mpr hold]
      by_cases herror : h.error (.insert port 1) = none
      · have hadded' := hadded.insert port
        rw [← effect, ← call_map_ok herror] at hadded'
        rw [upsert_cons_new hunmarked herror, if_neg hold]
        refine ih hlog' hcap (clean_call.mpr ⟨hclean, fun _ => herror⟩) hadded' ?_ hports ?_
        · intro p hp
          rcases List.mem_append.mp hp with hp | hp
          · exact hnew p hp
          · rw [List.mem_singleton.mp hp]
            exact hold
        · rw [← List.append_cons]
          exact hnodup
      · rw [← call_map_failed herror] at hadded
        obtain ⟨hlogged, hinsert, hremove⟩ := rollBack_spec hlog' hadded hnew (fun _ hp => hp) hnodup.of_append_left
        rw [upsert_cons_failed hunmarked herror]
        refine ⟨hlogged, fun hnone => absurd hnone herror, fun _ => ⟨?_, ?_⟩⟩
        · intro hcleanInsert
          exact herror ((clean_call.mp (hinsert hcleanInsert)).2 trivial)
        · intro hcleanRemove
          have hmap := (hremove hcleanRemove).2
          rw [List.filter_eq_nil_iff.mpr fun p hp => by simpa using hp] at hmap
          exact hmap

/-- The second loop takes out what is not desired, unless a removal fails. -/
theorem prune_spec {stale : List UInt32} {h : Ports} (hlog : PortsLogged existing desired h)
    (hstale : ∀ port ∈ stale, port ∈ h.map ∧ port ∉ desired) (hnodup : stale.Nodup) :
    PortsLogged existing desired (prune stale h).2 ∧
      (h.Clean IsInsert → (prune stale h).2.Clean IsInsert) ∧
      ((prune stale h).2.Clean IsRemove → (prune stale h).1 = none) := by
  induction stale generalizing h with
  | nil => exact ⟨hlog, id, fun _ => rfl⟩
  | cons port stale ih =>
    obtain ⟨⟨hmem, hundesired⟩, hrest⟩ := List.forall_mem_cons.mp hstale
    obtain ⟨hport, hnodup⟩ := List.nodup_cons.mp hnodup
    have hlog' : PortsLogged existing desired (h.call (.remove port)).2 :=
      hlog.call between_effect (fun _ => hundesired) (if_pos hmem)
    rw [prune]
    by_cases herror : h.error (.remove port) = none
    · have hstale' : ∀ p ∈ stale, p ∈ (h.call (.remove port)).2.map ∧ p ∉ desired := by
        intro p hp
        rw [call_map_ok herror, effect, AList.mem_erase]
        refine ⟨⟨?_, (hrest p hp).1⟩, (hrest p hp).2⟩
        rintro rfl
        exact hport hp
      rw [andThen_of_ok herror]
      obtain ⟨hlogged, hinsert, hdone⟩ := ih hlog' hstale' hnodup
      exact ⟨hlogged, fun hclean => hinsert (clean_call.mpr ⟨hclean, nofun⟩), hdone⟩
    · rw [andThen_of_failed herror]
      refine ⟨hlog', fun hclean => clean_call.mpr ⟨hclean, nofun⟩, fun hclean => ?_⟩
      exact (clean_call.mp hclean).2 trivial

end

/-! ## The whole update -/

/-- The pinned map, before the first call. -/
def opened (faults : Nat → Option Nat) (m : PortMap) : Ports := { capacity := DSCP_PORT_MAP_CAPACITY, faults, map := m }

/-- An update, whatever calls the environment lets fail. -/
structure Updated (m : PortMap) (ports : List UInt32) (r : Option Nat × Ports) : Prop where
  logged : PortsLogged m (inOrder ports) r.2
  done : (r.2.Clean fun _ => True) → r.1 = none
  restored : ¬ r.2.Clean IsInsert → r.2.Clean IsRemove → r.1 ≠ none ∧ r.2.map.entries.Perm m.entries

theorem writePorts_spec (faults : Nat → Option Nat) {m : PortMap} {dscp : UInt32}
    (hroom : m.entries.length ≤ MAX_PORTS) (hones : ∀ port ∈ m, m.lookup port = some 1)
    (hvalid : validate dscp ports = .ok ()) : Updated m ports (writePorts ports (opened faults m)) := by
  have hopened : PortsLogged m (inOrder ports) (opened faults m) :=
    ⟨⟨fun _ hp _ => hp, fun _ hp => .inl hp⟩, fun c hc => absurd hc List.not_mem_nil⟩
  have hlog : PortsLogged m (inOrder ports) ((opened faults m).call .iter).2 := hopened.call between_effect trivial rfl
  have hfresh : ∀ p, (opened faults m).Clean p := fun p c hc => absurd hc List.not_mem_nil
  rw [writePorts]
  by_cases hiter : (opened faults m).error .iter = none
  · have hmap : ((opened faults m).call .iter).2.map = m := call_map_ok hiter
    have hadded : Added m [] ((opened faults m).call .iter).2.map := by
      intro port
      rw [hmap, if_neg List.not_mem_nil]
    have hupsert := upsert_spec hroom (length_inOrder_of_valid hvalid) hones hlog rfl
      (clean_call.mpr ⟨hfresh _, fun _ => hiter⟩) hadded nofun (fun _ hp => hp) (nodup_inOrder ports)
    rw [andThen_of_ok hiter, hmap]
    by_cases hdone : (upsert m (inOrder ports) [] ((opened faults m).call .iter).2).1 = none
    · obtain ⟨hold, hclean⟩ := hupsert.done hdone
      have hstale : ∀ port ∈ (inOrder m.keys).filter (· ∉ inOrder ports),
          port ∈ (upsert m (inOrder ports) [] ((opened faults m).call .iter).2).2.map ∧ port ∉ inOrder ports := by
        intro port hport
        obtain ⟨hkey, hnot⟩ := List.mem_filter.mp hport
        exact ⟨hold port (mem_inOrder.mp hkey), of_decide_eq_true hnot⟩
      obtain ⟨hlogged, hinsert, hpruned⟩ := prune_spec hupsert.logged hstale ((nodup_inOrder m.keys).filter _)
      rw [andThen_of_ok hdone]
      refine ⟨hlogged, fun hall => hpruned (hall.of_all IsRemove), fun hunclean => ?_⟩
      exact absurd (hinsert (hclean.of_all IsInsert)) hunclean
    · obtain ⟨hinsert, hrestored⟩ := hupsert.failed hdone
      rw [andThen_of_failed hdone]
      refine ⟨hupsert.logged, fun hall => absurd (hall.of_all IsInsert) hinsert, fun _ hremove => ?_⟩
      refine ⟨hdone, List.lookup_ext (AList.nodupKeys _) m.nodupKeys fun port v => ?_⟩
      have hport := hrestored hremove port
      rw [if_neg List.not_mem_nil] at hport
      exact iff_of_eq (congrArg (v ∈ ·) hport)
  · have hclean : ((opened faults m).call .iter).2.Clean IsInsert := clean_call.mpr ⟨hfresh IsInsert, nofun⟩
    rw [andThen_of_failed hiter]
    exact ⟨hlog, fun hall => absurd ((clean_call.mp hall).2 trivial) hiter, fun hunclean => absurd hclean hunclean⟩

/-- Whatever calls fail: a port of both sets is in the map at every call and afterwards and is
    never removed; the map never holds more than its 32 ports and never refuses a call itself;
    without a fault the map ends with the desired ports; and when an insert fails and the
    removals do not, it ends as it was. -/
theorem write_ports_under_faults (faults : Nat → Option Nat) {m : PortMap} {dscp : UInt32} {ports : List UInt32}
    (hroom : m.entries.length ≤ MAX_PORTS) (hones : ∀ port ∈ m, m.lookup port = some 1)
    (hvalid : validate dscp ports = .ok ()) :
    let r := writePorts ports (opened faults m)
    (∀ port ∈ m, port ∈ ports →
      port ∈ r.2.map ∧ ∀ c ∈ r.2.calls, port ∈ c.before ∧ c.op ≠ .remove port) ∧
    (r.2.map.entries.length ≤ DSCP_PORT_MAP_CAPACITY ∧
      ∀ c ∈ r.2.calls, c.before.entries.length ≤ DSCP_PORT_MAP_CAPACITY ∧ c.error = c.fault) ∧
    ((∀ c ∈ r.2.calls, c.fault = none) → r.1 = none ∧ ∀ port, port ∈ r.2.map ↔ port ∈ ports) ∧
    ((∃ c ∈ r.2.calls, IsInsert c.op ∧ c.fault ≠ none) → (∀ c ∈ r.2.calls, IsRemove c.op → c.fault = none) →
      r.1 ≠ none ∧ r.2.map.entries.Perm m.entries) := by
  have hdesired := length_inOrder_of_valid hvalid
  obtain ⟨hlog, hdone, hrestored⟩ := writePorts_spec faults hroom hones hvalid
  refine ⟨fun port hold hnew => ?_, ⟨hlog.map.length_le hroom hdesired, fun c hc => ?_⟩, fun hfaults => ?_, ?_⟩
  · have hnew' := mem_inOrder.mpr hnew
    refine ⟨hlog.map.common port hold hnew', fun c hc => ⟨(hlog.calls c hc).1.common port hold hnew', ?_⟩⟩
    intro hop
    have hallowed := (hlog.calls c hc).2.1
    rw [hop] at hallowed
    exact hallowed hold hnew'
  · exact ⟨(hlog.calls c hc).1.length_le hroom hdesired, (hlog.calls c hc).2.2⟩
  · have hnone := hdone fun c hc _ => (hlog.calls c hc).2.2.trans (hfaults c hc)
    exact ⟨hnone, writePorts_done hnone⟩
  · rintro ⟨c, hc, hinsert, hfault⟩ hremove
    refine hrestored (fun hclean => hfault ?_) fun c hc hop => (hlog.calls c hc).2.2.trans (hremove c hc hop)
    rw [← (hlog.calls c hc).2.2]
    exact hclean c hc hinsert

def markedPorts : PortMap := [⟨80, 1⟩, ⟨443, 1⟩].toAList

/-- The call after the first insert fails for want of memory. -/
def secondInsertFails : Nat → Option Nat := fun n => if n = 2 then some 12 else none

theorem ports_taken_back :
    (writePorts [8443, 443, 8080] (opened secondInsertFails markedPorts)).1 = some 12 ∧
      (writePorts [8443, 443, 8080] (opened secondInsertFails markedPorts)).2.map.entries.Perm markedPorts.entries ∧
      (writePorts [8443, 443, 8080] (opened (fun _ => none) markedPorts)).1 = none ∧
      ∀ port, port ∈ (writePorts [8443, 443, 8080] (opened (fun _ => none) markedPorts)).2.map ↔
        port ∈ [8443, 443, 8080] := by
  have hvalid : validate 46 [8443, 443, 8080] = .ok () := by decide
  have hones : ∀ port ∈ markedPorts, markedPorts.lookup port = some 1 := by
    intro port hport
    have hlisted : port ∈ [(80 : UInt32), 443] := hport
    rcases List.mem_pair.mp hlisted with rfl | rfl <;> decide
  obtain ⟨-, -, -, hback⟩ := write_ports_under_faults secondInsertFails (m := markedPorts) (by decide) hones hvalid
  obtain ⟨-, -, hdone, -⟩ := write_ports_under_faults (fun _ => none) (m := markedPorts) (by decide) hones hvalid
  refine ⟨by decide, (hback ?_ ?_).2, hdone ?_⟩
  · decide
  · decide
  · decide

end EdgeLb.Linux
