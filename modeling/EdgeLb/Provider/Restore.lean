/-
  EdgeLb.Provider.Restore — which flows a restore brings back, from the table that was saved.

  Two entries are a pair when each is the other's partner. Partners are recomputed from the
  entry alone: an entry whose source is its own target counts as a reply, so the forward
  entry of a client that connects from its target's socket has no partner and its flow is
  not saved.

  Proved: the pairs written are the pairs read back (`collectRestorePairs_written`), and
  what a restore returns (`restored_exactly`): both entries of every saved pair that is
  unexpired and still configured, once, under the current ids, and nothing else; saved are
  the complete pairs that last, up to the `max_records` youngest.
-/

import EdgeLb.Lib.Group
import Mathlib.Data.List.Flatten
import EdgeLb.Provider.Snapshot
import Mathlib.Data.Sym.Sym2
import Mathlib.Data.List.MinMax

namespace EdgeLb.Provider

open EdgeLb.Common EdgeLb.Lib EdgeLb.Datapath

/-! ## Partners -/

/-- The key of an entry's other half. -/
def partner (key : NativeFlowKey) (value : NativeFlowValue) : NativeFlowKey :=
  if key.src = value.target ∧ key.sport = toBe value.targetPort then key.forwardFor value else key.reverseFor value

variable {k : NativeFlowKey} {v : NativeFlowValue} {es : List SnapshotEntry} {e : SnapshotEntry} {p : SnapshotPair}
  {index : Assignments} {elapsed now : UInt64}

theorem partner_of_reply (h : IsReply k v) : partner k v = k.forwardFor v := if_pos h

theorem partner_of_not_reply (h : ¬ IsReply k v) : partner k v = k.reverseFor v := if_neg h

theorem forwardReverseKeys_of_reply (h : IsReply k v) : forwardReverseKeys k v = (partner k v, k) := by
  rw [partner_of_reply h]
  exact if_pos h

theorem forwardReverseKeys_of_not_reply (h : ¬ IsReply k v) : forwardReverseKeys k v = (k, partner k v) := by
  rw [partner_of_not_reply h]
  exact if_neg h

theorem flowKeySortTuple_inj {a b : NativeFlowKey} (h : flowKeySortTuple a = flowKeySortTuple b) : a = b := by
  obtain ⟨src, dst, sport, dport, proto⟩ := a
  obtain ⟨src', dst', sport', dport', proto'⟩ := b
  have hdst := dst.toNat_lt
  have hdst' := dst'.toNat_lt
  have hsport := sport.toNat_lt
  have hsport' := sport'.toNat_lt
  have hdport := dport.toNat_lt
  have hdport' := dport'.toNat_lt
  have hproto := proto.toNat_lt
  have hproto' := proto'.toNat_lt
  simp only [flowKeySortTuple] at h
  simp only [NativeFlowKey.mk.injEq, ← UInt32.toNat_inj, ← UInt16.toNat_inj, ← UInt8.toNat_inj]
  omega

/-- The two keys in the order of their sort tuples. -/
def ordered (a b : NativeFlowKey) : NativeFlowKey × NativeFlowKey :=
  if flowKeySortTuple a ≤ flowKeySortTuple b then (a, b) else (b, a)

theorem ordered_comm (a b : NativeFlowKey) : ordered a b = ordered b a := by
  unfold ordered
  by_cases hab : flowKeySortTuple a ≤ flowKeySortTuple b
  · by_cases hba : flowKeySortTuple b ≤ flowKeySortTuple a
    · rw [flowKeySortTuple_inj (Nat.le_antisymm hab hba)]
    · rw [if_pos hab, if_neg hba]
  · rw [if_neg hab, if_pos (Nat.le_of_not_le hab)]

theorem ordered_cases (a b : NativeFlowKey) : ordered a b = (a, b) ∨ ordered a b = (b, a) := ite_eq_or_eq ..

theorem ordered_eq_iff {a b c d : NativeFlowKey} : ordered a b = ordered c d ↔ s(a, b) = s(c, d) := by
  rw [Sym2.eq_iff]
  constructor
  · intro h
    rcases ordered_cases a b with hab | hab <;> rcases ordered_cases c d with hcd | hcd <;>
      rw [hab, hcd, Prod.mk.injEq] at h
    · exact .inl h
    · exact .inr h
    · exact .inr ⟨h.2, h.1⟩
    · exact .inl ⟨h.2, h.1⟩
  · rintro (⟨rfl, rfl⟩ | ⟨rfl, rfl⟩)
    · rfl
    · exact ordered_comm a b

theorem canonicalFlowPair_eq (k : NativeFlowKey) (v : NativeFlowValue) :
    canonicalFlowPair k v = ordered k (partner k v) := by
  by_cases h : IsReply k v
  · rw [canonicalFlowPair, forwardReverseKeys_of_reply h, ordered_comm]
    rfl
  · rw [canonicalFlowPair, forwardReverseKeys_of_not_reply h]
    rfl

/-! ## Groups of partners -/

def SnapshotEntry.partner (e : SnapshotEntry) : NativeFlowKey := Provider.partner e.key e.value

/-- The name of an entry's group. -/
def SnapshotEntry.group (e : SnapshotEntry) : NativeFlowKey × NativeFlowKey := canonicalFlowPair e.key e.value

/-- Each is the other's partner. -/
structure Mutual (e f : SnapshotEntry) : Prop where
  ne : e.key ≠ f.key
  left : e.partner = f.key
  right : f.partner = e.key

theorem group_eq (e : SnapshotEntry) : e.group = ordered e.key e.partner := canonicalFlowPair_eq ..

theorem Mutual.group_eq {e f : SnapshotEntry} (h : Mutual e f) : e.group = f.group := by
  rw [Provider.group_eq, Provider.group_eq, h.left, h.right, ordered_comm]

/-- An entry of the same group at the partner's key is the other half. -/
theorem mutual_of_group {e f : SnapshotEntry} (hgroup : f.group = e.group) (hkey : f.key = e.partner)
    (hne : e.key ≠ e.partner) : Mutual e f := by
  refine ⟨fun h => hne (h.trans hkey), hkey.symm, ?_⟩
  rw [group_eq, group_eq, ordered_eq_iff, Sym2.eq_iff] at hgroup
  rcases hgroup with ⟨h, _⟩ | ⟨_, h⟩
  · exact absurd (h.symm.trans hkey) hne
  · exact h

def entryPair (e : SnapshotEntry) : SnapshotPair :=
  let (forwardKey, reverseKey) := forwardReverseKeys e.key e.value
  { forwardKey, reverseKey, value := e.value, lastSeenAgeNs := e.lastSeenAgeNs }

def SnapshotPair.group (p : SnapshotPair) : NativeFlowKey × NativeFlowKey := ordered p.forwardKey p.reverseKey

theorem entryPair_group (e : SnapshotEntry) : (entryPair e).group = e.group := rfl

theorem youngest_eq_argmin (es : List SnapshotEntry) : youngest es = es.argmin fun e => e.lastSeenAgeNs.toNat := by
  cases es with
  | nil => rfl
  | cons e es =>
    show some (es.foldl _ e) = es.foldl _ (some e)
    induction es generalizing e with
    | nil => rfl
    | cons f es ih =>
      rw [List.foldl_cons, List.foldl_cons, ih]
      congr 1
      show some (if f.lastSeenAgeNs < e.lastSeenAgeNs then f else e) =
        if f.lastSeenAgeNs.toNat < e.lastSeenAgeNs.toNat then some f else some e
      by_cases hlt : f.lastSeenAgeNs < e.lastSeenAgeNs
      · rw [if_pos hlt, if_pos (UInt64.lt_iff_toNat_lt.mp hlt)]
      · rw [if_neg hlt, if_neg (mt UInt64.lt_iff_toNat_lt.mpr hlt)]

theorem youngest_spec {y : SnapshotEntry} (h : youngest es = some y) :
    y ∈ es ∧ ∀ e ∈ es, y.lastSeenAgeNs ≤ e.lastSeenAgeNs := by
  rw [youngest_eq_argmin] at h
  refine ⟨List.argmin_mem h, fun e he => UInt64.le_iff_toNat_le.mpr ?_⟩
  exact List.le_of_mem_argmin (f := fun e : SnapshotEntry => e.lastSeenAgeNs.toNat) he h

theorem exists_youngest (h : e ∈ es) : ∃ y, youngest es = some y := by
  cases es with
  | nil => cases h
  | cons f es => exact ⟨_, rfl⟩

theorem pairFromEntries_eq_some {left right : NativeFlowKey} :
    pairFromEntries left right es = some p ↔
      left ≠ right ∧ (∃ e ∈ es, e.key = left) ∧ (∃ e ∈ es, e.key = right) ∧
        ∃ y, youngest es = some y ∧ entryPair y = p := by
  have hany : ∀ k, es.any (·.key = k) = true ↔ ∃ e ∈ es, e.key = k := by simp
  show (if left = right then none else if _ then none else (youngest es).map entryPair) = some p ↔ _
  by_cases hne : left = right
  · simp [hne]
  · rw [if_neg hne, ← hany left, ← hany right]
    by_cases hboth : es.any (·.key = left) = true ∧ es.any (·.key = right) = true
    · rw [if_neg (not_not_intro hboth), Option.map_eq_some_iff]
      exact ⟨fun h => ⟨hne, hboth.1, hboth.2, h⟩, fun h => h.2.2.2⟩
    · rw [if_pos hboth]
      constructor
      · intro h
        cases h
      · rintro ⟨-, hleft, hright, -⟩
        exact absurd ⟨hleft, hright⟩ hboth

/-- The group of `e` is a pair when it has an entry at the partner's key too; its youngest entry
    stands for it. -/
theorem pairFromEntries_group :
    pairFromEntries e.group.1 e.group.2 es = some p ↔
      e.key ≠ e.partner ∧ (∃ f ∈ es, f.key = e.key) ∧ (∃ f ∈ es, f.key = e.partner) ∧
        ∃ y, youngest es = some y ∧ entryPair y = p := by
  rw [group_eq]
  rcases ordered_cases e.key e.partner with h | h
  · rw [h]
    exact pairFromEntries_eq_some
  · rw [h, pairFromEntries_eq_some]
    exact ⟨fun ⟨h1, h2, h3, h4⟩ => ⟨h1.symm, h3, h2, h4⟩, fun ⟨h1, h2, h3, h4⟩ => ⟨h1.symm, h3, h2, h4⟩⟩

def groupOf (es : List SnapshotEntry) (g : NativeFlowKey × NativeFlowKey) : List SnapshotEntry :=
  es.filter fun e => e.group = g

theorem mem_groupOf {g : NativeFlowKey × NativeFlowKey} : e ∈ groupOf es g ↔ e ∈ es ∧ e.group = g := by
  rw [groupOf, List.mem_filter, decide_eq_true_eq]

theorem collectRestorePairs_eq (es : List SnapshotEntry) : collectRestorePairs es =
    (es.map SnapshotEntry.group).eraseDups.map fun g => pairFromEntries g.1 g.2 (groupOf es g) := rfl

/-- A collected pair is the younger of two partners. -/
theorem collected_mutual (h : some p ∈ collectRestorePairs es) :
    ∃ y ∈ es, ∃ z ∈ es, Mutual y z ∧ y.lastSeenAgeNs ≤ z.lastSeenAgeNs ∧ entryPair y = p := by
  rw [collectRestorePairs_eq] at h
  obtain ⟨g, hg, hp⟩ := List.mem_map.mp h
  obtain ⟨e, he, rfl⟩ := List.mem_map.mp (List.mem_eraseDups.mp hg)
  obtain ⟨hne, ⟨f, hf, hfkey⟩, ⟨f', hf', hfkey'⟩, y, hy, rfl⟩ := pairFromEntries_group.mp hp
  obtain ⟨hymem, hyoungest⟩ := youngest_spec hy
  obtain ⟨hyes, hygroup⟩ := mem_groupOf.mp hymem
  have hygroup' := hygroup
  rw [group_eq, group_eq e, ordered_eq_iff, Sym2.eq_iff] at hygroup'
  -- the entry at the key that `y` does not have is its partner
  rcases hygroup' with ⟨hkey, hpartner⟩ | ⟨hkey, hpartner⟩
  · have hmutual : Mutual y f' :=
      mutual_of_group ((mem_groupOf.mp hf').2.trans hygroup.symm) (hfkey'.trans hpartner.symm)
        (by rw [hkey, hpartner]; exact hne)
    exact ⟨y, hyes, f', (mem_groupOf.mp hf').1, hmutual, hyoungest f' hf', rfl⟩
  · have hmutual : Mutual y f :=
      mutual_of_group ((mem_groupOf.mp hf).2.trans hygroup.symm) (hfkey.trans hpartner.symm)
        (by rw [hkey, hpartner]; exact hne.symm)
    exact ⟨y, hyes, f, (mem_groupOf.mp hf).1, hmutual, hyoungest f hf, rfl⟩

/-- Two partners are collected, as one of them. -/
theorem mutual_collected {e f : SnapshotEntry} (he : e ∈ es) (hf : f ∈ es)
    (h : Mutual e f) : ∃ p, some p ∈ collectRestorePairs es ∧ p.group = e.group ∧ p.lastSeenAgeNs ≤ e.lastSeenAgeNs := by
  have heg : e ∈ groupOf es e.group := mem_groupOf.mpr ⟨he, rfl⟩
  have hfg : f ∈ groupOf es e.group := mem_groupOf.mpr ⟨hf, h.group_eq.symm⟩
  obtain ⟨y, hy⟩ := exists_youngest heg
  obtain ⟨hymem, hyoungest⟩ := youngest_spec hy
  have hpair : pairFromEntries e.group.1 e.group.2 (groupOf es e.group) = some (entryPair y) :=
    pairFromEntries_group.mpr ⟨h.left ▸ h.ne, ⟨e, heg, rfl⟩, ⟨f, hfg, h.left.symm⟩, y, hy, rfl⟩
  refine ⟨entryPair y, ?_, (mem_groupOf.mp hymem).2, hyoungest e heg⟩
  exact List.mem_map.mpr ⟨e.group, List.mem_eraseDups.mpr (List.mem_map_of_mem he), hpair⟩

/-- A pair carries the name of its group. -/
theorem pairFromEntries_name (es : List SnapshotEntry) (g : NativeFlowKey × NativeFlowKey) (p : SnapshotPair)
    (h : pairFromEntries g.1 g.2 (groupOf es g) = some p) : p.group = g := by
  obtain ⟨-, -, -, y, hy, rfl⟩ := pairFromEntries_eq_some.mp h
  rw [entryPair_group]
  exact (mem_groupOf.mp (youngest_spec hy).1).2

/-- No group is collected twice. -/
theorem collected_groups_nodup (es : List SnapshotEntry) :
    (((collectRestorePairs es).filterMap id).map SnapshotPair.group).Nodup := by
  have hsub := map_filterMap_sublist (pairFromEntries_name es) (es.map SnapshotEntry.group).eraseDups
  rw [collectRestorePairs_eq, List.filterMap_map]
  exact (nodup_eraseDups _).sublist hsub

/-! ## The pairs written are the pairs read back -/

/-- With the one value of the pair, each key is the other's partner, and `forwardKey` is the
    client's. -/
structure Regroups (p : SnapshotPair) : Prop where
  ne : p.forwardKey ≠ p.reverseKey
  forward : forwardReverseKeys p.forwardKey p.value = (p.forwardKey, p.reverseKey)
  reverse : forwardReverseKeys p.reverseKey p.value = (p.forwardKey, p.reverseKey)

theorem Regroups.group_eq (h : Regroups p) (he : e ∈ pairEntries p) : e.group = p.group := by
  simp only [pairEntries, List.mem_cons, List.not_mem_nil, or_false] at he
  rcases he with rfl | rfl
  · show canonicalFlowPair p.forwardKey p.value = p.group
    rw [canonicalFlowPair, h.forward]
    rfl
  · show canonicalFlowPair p.reverseKey p.value = p.group
    rw [canonicalFlowPair, h.reverse]
    rfl

theorem Regroups.pairFromEntries (h : Regroups p) : pairFromEntries p.group.1 p.group.2 (pairEntries p) = some p := by
  have hyoungest : youngest (pairEntries p) = some ⟨p.forwardKey, p.value, p.lastSeenAgeNs⟩ := by
    simp [youngest, pairEntries]
  have hpair : entryPair ⟨p.forwardKey, p.value, p.lastSeenAgeNs⟩ = p := by
    rw [entryPair, h.forward]
  have hforward : ∃ e ∈ pairEntries p, e.key = p.forwardKey := ⟨_, List.mem_cons_self, rfl⟩
  have hreverse : ∃ e ∈ pairEntries p, e.key = p.reverseKey :=
    ⟨_, List.mem_cons_of_mem _ List.mem_cons_self, rfl⟩
  rw [pairFromEntries_eq_some, SnapshotPair.group]
  rcases ordered_cases p.forwardKey p.reverseKey with hord | hord
  · rw [hord]
    exact ⟨h.ne, hforward, hreverse, _, hyoungest, hpair⟩
  · rw [hord]
    exact ⟨h.ne.symm, hreverse, hforward, _, hyoungest, hpair⟩

theorem collectRestorePairs_written {ps : List SnapshotPair} (hregroup : ∀ p ∈ ps, Regroups p)
    (hnodup : (ps.map SnapshotPair.group).Nodup) :
    collectRestorePairs (snapshotEntriesFromPairs ps) = ps.map some := by
  have hname : ∀ p ∈ ps, ∀ e ∈ pairEntries p, e.group = p.group := fun p hp e he => (hregroup p hp).group_eq he
  have hkeys := eraseDups_blocks hname (fun p _ => List.cons_ne_nil _ _) hnodup
  rw [collectRestorePairs_eq, snapshotEntriesFromPairs, hkeys, List.map_map]
  refine List.map_congr_left fun p hp => ?_
  have hgroup : groupOf (ps.flatMap pairEntries) p.group = pairEntries p := filter_blocks hname hnodup hp
  rw [Function.comp_apply, hgroup]
  exact (hregroup p hp).pairFromEntries

/-- The file drops `last_seen_ns`, which no pairing looks at. -/
def SnapshotPair.stored (p : SnapshotPair) : SnapshotPair := { p with value := { p.value with lastSeenNs := 0 } }

theorem stored_written (ps : List SnapshotPair) :
    (snapshotEntriesFromPairs ps).map SnapshotEntry.stored = snapshotEntriesFromPairs (ps.map SnapshotPair.stored) := by
  rw [snapshotEntriesFromPairs, snapshotEntriesFromPairs, List.map_flatMap, List.flatMap_map]
  rfl

theorem Regroups.stored (h : Regroups p) : Regroups p.stored := ⟨h.ne, h.forward, h.reverse⟩

/-- A reply's partner is not itself a reply to the same target: its own value would make it one,
    or the two keys would coincide. -/
theorem Mutual.not_isReply {y z : SnapshotEntry} (h : Mutual y z) (hreply : IsReply y.key y.value) :
    ¬ IsReply z.key y.value := by
  intro hz
  have hzkey : y.key.forwardFor y.value = z.key := (partner_of_reply hreply).symm.trans h.left
  have hsrc : y.key.src = z.key.src := hreply.1.trans hz.1.symm
  have hsport : y.key.sport = z.key.sport := hreply.2.trans hz.2.symm
  by_cases hzr : IsReply z.key z.value
  · have hykey : z.key.forwardFor z.value = y.key := (partner_of_reply hzr).symm.trans h.right
    have hzsrc : y.key.dst = z.key.src := congrArg NativeFlowKey.src hzkey
    have hzsport : y.key.dport = z.key.sport := congrArg NativeFlowKey.sport hzkey
    have hzproto : (y.key.forwardFor y.value).proto = z.key.proto := congrArg NativeFlowKey.proto hzkey
    have hysrc : z.key.dst = y.key.src := congrArg NativeFlowKey.src hykey
    have hysport : z.key.dport = y.key.sport := congrArg NativeFlowKey.sport hykey
    apply h.ne
    rw [NativeFlowKey.mk.injEq]
    exact ⟨hsrc, hzsrc.trans (hsrc.symm.trans hysrc.symm), hsport, hzsport.trans (hsport.symm.trans hysport.symm),
      hzproto⟩
  · have hykey : z.key.reverseFor z.value = y.key := (partner_of_not_reply hzr).symm.trans h.right
    have hysrc : z.value.target = y.key.src := congrArg NativeFlowKey.src hykey
    have hysport : toBe z.value.targetPort = y.key.sport := congrArg NativeFlowKey.sport hykey
    exact hzr ⟨(hysrc.trans hsrc).symm, (hysport.trans hsport).symm⟩

theorem entryPair_of_reply (h : IsReply e.key e.value) :
    entryPair e = ⟨e.partner, e.key, e.value, e.lastSeenAgeNs⟩ := by
  rw [entryPair, forwardReverseKeys_of_reply h]
  rfl

theorem entryPair_of_not_reply (h : ¬ IsReply e.key e.value) :
    entryPair e = ⟨e.key, e.partner, e.value, e.lastSeenAgeNs⟩ := by
  rw [entryPair, forwardReverseKeys_of_not_reply h]
  rfl

/-- A pair of the table keeps its halves together in the file. -/
theorem Mutual.regroups {y z : SnapshotEntry} (h : Mutual y z)
    (hproper : IsForward y.key y.value ∨ IsReply y.key y.value) :
    Regroups (entryPair y) ∧ IsForward (entryPair y).forwardKey y.value := by
  have hpartner : y.partner = z.key := h.left
  by_cases hreply : IsReply y.key y.value
  · rw [entryPair_of_reply hreply]
    have hz : y.partner = y.key.forwardFor y.value := partner_of_reply hreply
    have hnot : ¬ IsReply y.partner y.value := by
      rw [hpartner]
      exact h.not_isReply hreply
    refine ⟨⟨?_, ?_, forwardReverseKeys_of_reply hreply⟩, ?_⟩
    · rw [hpartner]
      exact h.ne.symm
    · rw [forwardReverseKeys_of_not_reply hnot, partner_of_not_reply hnot, hz, reverseFor_forwardFor hreply]
    · rw [hz]
      exact isForward_forwardFor ..
  · rw [entryPair_of_not_reply hreply]
    have hforward := hproper.resolve_right hreply
    have hz : y.partner = y.key.reverseFor y.value := partner_of_not_reply hreply
    have hback : IsReply y.partner y.value := hz ▸ isReply_reverseFor ..
    refine ⟨⟨?_, forwardReverseKeys_of_not_reply hreply, ?_⟩, hforward⟩
    · rw [hpartner]
      exact h.ne
    · rw [forwardReverseKeys_of_reply hback, partner_of_reply hback, hz, forwardFor_reverseFor hforward]

/-! ## The pairs of the table -/

/-- Every entry of a flow table is keyed by a client's tuple or by a reply tuple. -/
def Proper (table : BpfMap NativeFlowKey NativeFlowValue) : Prop :=
  ∀ k v, table.lookup k = some v → IsForward k v ∨ IsReply k v

/-- Two entries of the table, each the other's partner. -/
structure CompletePair (table : BpfMap NativeFlowKey NativeFlowValue) (a b : FlowEntry) : Prop where
  left : table.lookup a.1 = some a.2
  right : table.lookup b.1 = some b.2
  ne : a.1 ≠ b.1
  partner_left : partner a.1 a.2 = b.1
  partner_right : partner b.1 b.2 = a.1

theorem mem_dumpFlows {table : BpfMap NativeFlowKey NativeFlowValue} {e : FlowEntry} :
    e ∈ dumpFlows table ↔ table.lookup e.1 = some e.2 := by
  simp only [dumpFlows, List.mem_filterMap, Option.map_eq_some_iff]
  constructor
  · rintro ⟨k, -, v, hv, rfl⟩
    exact hv
  · intro h
    exact ⟨e.1, AList.mem_keys.mpr (AList.lookup_isSome.mp (by rw [h]; rfl)), e.2, h, rfl⟩

instance : Std.Total fun a b : SnapshotPair => a.lastSeenAgeNs ≤ b.lastSeenAgeNs := ⟨fun _ _ => UInt64.le_total ..⟩

instance : IsTrans SnapshotPair fun a b => a.lastSeenAgeNs ≤ b.lastSeenAgeNs := ⟨fun _ _ _ => UInt64.le_trans⟩

section
variable {source : SnapshotSource} {settings : GatewayFlowPersistenceConfig}

theorem mem_lastingEntries {e : SnapshotEntry} :
    e ∈ lastingEntries (dumpFlows source.table) source.nowMonoNs settings ↔
      ∃ a, source.table.lookup a.1 = some a.2 ∧ lasting settings source.nowMonoNs a.2 = true ∧
        snapshotEntry source.nowMonoNs a = e := by
  simp only [lastingEntries, List.mem_map, List.mem_filter, mem_dumpFlows, and_assoc]

theorem mem_pairs {p : SnapshotPair} (h : p ∈ source.pairs settings) :
    some p ∈ collectRestorePairs (lastingEntries (dumpFlows source.table) source.nowMonoNs settings) := by
  have hsorted := List.mem_of_mem_take h
  rw [List.mem_insertionSort, List.mem_filterMap] at hsorted
  obtain ⟨_, hp, rfl⟩ := hsorted
  exact hp

theorem pairs_groups_nodup : ((source.pairs settings).map SnapshotPair.group).Nodup := by
  have h := collected_groups_nodup (lastingEntries (dumpFlows source.table) source.nowMonoNs settings)
  have hsorted := ((List.perm_insertionSort
    (fun a b : SnapshotPair => a.lastSeenAgeNs ≤ b.lastSeenAgeNs) _).map SnapshotPair.group).nodup_iff.mpr h
  exact hsorted.sublist ((List.take_sublist _ _).map _)

/-- A saved pair is the younger of two partners in the table, both of which last. -/
theorem pairs_sound {p : SnapshotPair} (h : p ∈ source.pairs settings) :
    ∃ a b, CompletePair source.table a b ∧ lasting settings source.nowMonoNs a.2 = true ∧
      lasting settings source.nowMonoNs b.2 = true ∧
      flowAgeNs a.2.lastSeenNs source.nowMonoNs ≤ flowAgeNs b.2.lastSeenNs source.nowMonoNs ∧
      entryPair (snapshotEntry source.nowMonoNs a) = p := by
  obtain ⟨y, hy, z, hz, hmutual, hage, hp⟩ := collected_mutual (mem_pairs h)
  obtain ⟨a, ha, hlasta, rfl⟩ := mem_lastingEntries.mp hy
  obtain ⟨b, hb, hlastb, rfl⟩ := mem_lastingEntries.mp hz
  exact ⟨a, b, ⟨ha, hb, hmutual.ne, hmutual.left, hmutual.right⟩, hlasta, hlastb, hage, hp⟩

theorem CompletePair.mutual {table : BpfMap NativeFlowKey NativeFlowValue} {a b : FlowEntry}
    (h : CompletePair table a b) (now : UInt64) : Mutual (snapshotEntry now a) (snapshotEntry now b) :=
  ⟨h.ne, h.partner_left, h.partner_right⟩

/-- Partners that last are saved, unless as many younger pairs as fit are. -/
theorem pairs_complete {a b : FlowEntry} (h : CompletePair source.table a b)
    (ha : lasting settings source.nowMonoNs a.2 = true) (hb : lasting settings source.nowMonoNs b.2 = true) :
    (∃ p ∈ source.pairs settings, p.group = ordered a.1 b.1) ∨
      ((source.pairs settings).length = settings.maxRecords ∧
        ∀ q ∈ source.pairs settings, q.lastSeenAgeNs ≤ flowAgeNs a.2.lastSeenNs source.nowMonoNs) := by
  obtain ⟨p, hp, hgroup, hage⟩ := mutual_collected (mem_lastingEntries.mpr ⟨a, h.left, ha, rfl⟩)
    (mem_lastingEntries.mpr ⟨b, h.right, hb, rfl⟩) (h.mutual source.nowMonoNs)
  have hname : p.group = ordered a.1 b.1 := by
    rw [hgroup, group_eq]
    exact congrArg _ h.partner_left
  have hsorted := List.pairwise_insertionSort (fun a b : SnapshotPair => a.lastSeenAgeNs ≤ b.lastSeenAgeNs)
    ((collectRestorePairs (lastingEntries (dumpFlows source.table) source.nowMonoNs settings)).filterMap id)
  have hcollected : p ∈ (collectRestorePairs
      (lastingEntries (dumpFlows source.table) source.nowMonoNs settings)).filterMap id :=
    List.mem_filterMap.mpr ⟨some p, hp, rfl⟩
  have hmem := (List.mem_insertionSort fun a b : SnapshotPair => a.lastSeenAgeNs ≤ b.lastSeenAgeNs).mpr hcollected
  rcases mem_take_or_after hsorted settings.maxRecords hmem with hin | ⟨hfull, hafter⟩
  · exact .inl ⟨p, hin, hname⟩
  · exact .inr ⟨hfull, fun q hq => UInt64.le_trans (hafter q hq) hage⟩

/-- What the saved pairs need to survive the file and the listener check. -/
theorem pairs_regroup (hproper : Proper source.table) {p : SnapshotPair} (h : p ∈ source.pairs settings) :
    Regroups p ∧ IsForward p.forwardKey p.value := by
  obtain ⟨a, b, hpair, -, -, -, rfl⟩ := pairs_sound h
  exact (hpair.mutual source.nowMonoNs).regroups (hproper a.1 a.2 hpair.left)

/-- Both keys of a saved pair have an entry in the table, in the pair's group. -/
theorem pairs_keys {p : SnapshotPair} (h : p ∈ source.pairs settings) {k : NativeFlowKey}
    (hk : k ∈ [p.forwardKey, p.reverseKey]) :
    ∃ v, source.table.lookup k = some v ∧ canonicalFlowPair k v = p.group := by
  obtain ⟨a, b, hpair, -, -, -, rfl⟩ := pairs_sound h
  have hmutual := hpair.mutual source.nowMonoNs
  have hkeys : k = a.1 ∨ k = b.1 := by
    rw [← hpair.partner_left]
    by_cases hreply : IsReply a.1 a.2
    · rw [entryPair_of_reply (e := snapshotEntry source.nowMonoNs a) hreply] at hk
      exact (List.mem_pair.mp hk).symm
    · rw [entryPair_of_not_reply (e := snapshotEntry source.nowMonoNs a) hreply] at hk
      exact List.mem_pair.mp hk
  rcases hkeys with rfl | rfl
  · exact ⟨a.2, hpair.left, rfl⟩
  · exact ⟨b.2, hpair.right, hmutual.group_eq.symm⟩

/-- No key is saved twice. -/
theorem pairs_keys_nodup (hproper : Proper source.table) :
    ((source.pairs settings).flatMap fun p => [p.forwardKey, p.reverseKey]).Nodup := by
  rw [List.nodup_flatMap]
  constructor
  · intro p hp
    simpa using (pairs_regroup hproper hp).1.ne
  · have hgroups : ((source.pairs settings).map SnapshotPair.group).Nodup := pairs_groups_nodup
    rw [List.Nodup, List.pairwise_map] at hgroups
    refine hgroups.imp_of_mem fun {p q} hp hq hne => ?_
    intro k hkp hkq
    obtain ⟨v, hv, hvp⟩ := pairs_keys hp hkp
    obtain ⟨w, hw, hwq⟩ := pairs_keys hq hkq
    obtain rfl := Option.some.inj (hv.symm.trans hw)
    exact hne (hvp.symm.trans hwq)

end

/-! ## Remapping -/

/-- What a restored pair becomes: a listener with its VIP, port and protocol is configured, with
    its target among the listener's targets. -/
def RestoredAs (index : Assignments) (elapsedNs nowNs : UInt64) (p : SnapshotPair) (u : NativeFlowValue) : Prop :=
  flowAgeExpired (saturatingAdd p.lastSeenAgeNs elapsedNs) p.value.timeoutSecs = false ∧
    ∃ id listener, (id, listener) ∈ index ∧ listener.key.vipIp = p.value.vip ∧
      toBe listener.key.vipPort = p.value.vipPort ∧ listener.key.protocol.ipProto = p.forwardKey.proto ∧
      ∃ i, listener.targets.findIdx? (fun t => t.address = p.value.target ∧ t.port = p.value.targetPort) = some i ∧
        u = { p.value with
              listenerId := id
              targetId := UInt32.ofNat i
              lastSeenNs := saturatingSub nowNs (saturatingAdd p.lastSeenAgeNs elapsedNs) }

theorem ipProto_inj {p q : NativeProtocol} (h : p.ipProto = q.ipProto) : p = q := by
  cases p <;> cases q <;> first | rfl | exact absurd h (by decide)

theorem listenerMatches_iff {listener : NativeListener} (hforward : IsForward k v) :
    listenerMatches listener k v = true ↔ listener.key.vipIp = v.vip ∧ toBe listener.key.vipPort = v.vipPort ∧
      listener.key.protocol.ipProto = k.proto := by
  rw [listenerMatches, decide_eq_true_eq]
  constructor
  · rintro ⟨h1, h2, -, -, h5⟩
    exact ⟨h1, h2, h5.symm⟩
  · rintro ⟨h1, h2, h3⟩
    exact ⟨h1, h2, hforward.1, hforward.2, h3.symm⟩

/-- At most one listener serves a forward key. -/
theorem listener_unique (hindex : (index.map fun e => e.2.key).Nodup)
    (hforward : IsForward k v) {e f : UInt32 × NativeListener} (he : e ∈ index) (hf : f ∈ index)
    (hem : listenerMatches e.2 k v = true) (hfm : listenerMatches f.2 k v = true) : e = f := by
  obtain ⟨h1, h2, h3⟩ := (listenerMatches_iff hforward).mp hem
  obtain ⟨g1, g2, g3⟩ := (listenerMatches_iff hforward).mp hfm
  refine List.inj_on_of_nodup_map hindex he hf ?_
  rw [NativeListenerKey.mk.injEq]
  exact ⟨h1.trans g1.symm, toBe_inj.mp (h2.trans g2.symm), ipProto_inj (h3.trans g3.symm)⟩

theorem restoreIndexGet_eq_some (hindex : (index.map fun e => e.2.key).Nodup) {old : UInt32}
    (hforward : IsForward k v) {e : UInt32 × NativeListener} :
    restoreIndexGet index old k v = some e ↔ e ∈ index ∧ listenerMatches e.2 k v = true := by
  have hfound : ∀ (q : UInt32 × NativeListener → Bool) f,
      (index.reverse.find? q).filter (fun entry => listenerMatches entry.2 k v) = some f →
        f ∈ index ∧ listenerMatches f.2 k v = true := by
    intro q f hf
    obtain ⟨hfind, hmatch⟩ := Option.filter_eq_some_iff.mp hf
    exact ⟨List.mem_reverse.mp (List.mem_of_find?_eq_some hfind), hmatch⟩
  unfold restoreIndexGet
  rw [Option.or_eq_some_iff]
  constructor
  · rintro (h | ⟨-, h⟩)
    · exact hfound _ e h
    · exact hfound _ e h
  · rintro ⟨he, hmatch⟩
    obtain ⟨h1, h2, h3⟩ := (listenerMatches_iff hforward).mp hmatch
    -- whatever either map finds and accepts is the one listener that serves the key
    cases hid : (index.reverse.find? fun entry => entry.1 = old).filter fun entry => listenerMatches entry.2 k v with
    | some f =>
      obtain ⟨hf, hfm⟩ := hfound _ f hid
      exact .inl (congrArg some (listener_unique hindex hforward hf he hfm hmatch))
    | none =>
      refine .inr ⟨rfl, ?_⟩
      obtain ⟨f, hf⟩ : ∃ f, index.reverse.find? (fun entry => entry.2.key.vipIp = v.vip ∧
          toBe entry.2.key.vipPort = v.vipPort ∧ entry.2.key.protocol.ipProto = k.proto) = some f :=
        Option.isSome_iff_exists.mp
          (List.find?_isSome.mpr ⟨e, List.mem_reverse.mpr he, decide_eq_true ⟨h1, h2, h3⟩⟩)
      have hserves := List.find?_some hf
      rw [decide_eq_true_eq] at hserves
      have hfm : listenerMatches f.2 k v = true := (listenerMatches_iff hforward).mpr hserves
      have hfe := listener_unique hindex hforward (List.mem_reverse.mp (List.mem_of_find?_eq_some hf)) he hfm hmatch
      exact Option.filter_eq_some_iff.mpr ⟨hfe ▸ hf, hmatch⟩

/-- A regrouped pair's reverse key is computed from its forward key. -/
theorem Regroups.reverseFor (h : Regroups p) : p.forwardKey.reverseFor p.value = p.reverseKey := by
  have hnot : ¬ IsReply p.forwardKey p.value := by
    intro hreply
    have hkeys := h.forward
    rw [forwardReverseKeys_of_reply hreply, Prod.mk.injEq] at hkeys
    exact h.ne hkeys.2
  have hkeys := h.forward
  rw [forwardReverseKeys_of_not_reply hnot, partner_of_not_reply hnot, Prod.mk.injEq] at hkeys
  exact hkeys.2

/-- The target found has the value's address and port, so only the ids and the time change. -/
theorem remapValue_eq_some (hindex : (index.map fun e => e.2.key).Nodup) {v u : NativeFlowValue}
    {age now : UInt64} (hforward : IsForward k v) :
    remapValue v age k index now = some u ↔
      ∃ id listener, (id, listener) ∈ index ∧ listener.key.vipIp = v.vip ∧ toBe listener.key.vipPort = v.vipPort ∧
        listener.key.protocol.ipProto = k.proto ∧
        ∃ i, listener.targets.findIdx? (fun t => t.address = v.target ∧ t.port = v.targetPort) = some i ∧
          u = { v with listenerId := id, targetId := UInt32.ofNat i, lastSeenNs := saturatingSub now age } := by
  simp only [remapValue, Option.bind_eq_bind, Option.bind_eq_some_iff, Option.pure_def, Option.some.injEq,
    restoreIndexGet_eq_some hindex hforward, listenerMatches_iff hforward]
  have hfound : ∀ (listener : NativeListener) i,
      listener.targets.findIdx? (fun t => t.address = v.target ∧ t.port = v.targetPort) = some i →
        ∃ t, listener.targets[i]? = some t ∧ t.address = v.target ∧ t.port = v.targetPort := by
    intro listener i hi
    obtain ⟨hlt, hmatch, -⟩ := List.findIdx?_eq_some_iff_getElem.mp hi
    exact ⟨_, List.getElem?_eq_getElem hlt, of_decide_eq_true hmatch⟩
  constructor
  · rintro ⟨⟨id, listener⟩, ⟨hmem, h1, h2, h3⟩, i, hi, t, ht, rfl⟩
    obtain ⟨t', ht', haddress, hport⟩ := hfound listener i hi
    obtain rfl := Option.some.inj (ht.symm.trans ht')
    refine ⟨id, listener, hmem, h1, h2, h3, i, hi, ?_⟩
    rw [haddress, hport]
  · rintro ⟨id, listener, hmem, h1, h2, h3, i, hi, rfl⟩
    obtain ⟨t, ht, haddress, hport⟩ := hfound listener i hi
    refine ⟨(id, listener), ⟨hmem, h1, h2, h3⟩, i, hi, t, ht, ?_⟩
    rw [haddress, hport]

/-- One turn of the restore loop, on a pair that was saved. -/
theorem restorePair_eq_ok (hindex : (index.map fun e => e.2.key).Nodup)
    (hp : Regroups p) (hforward : IsForward p.forwardKey p.value) {es : List FlowEntry} :
    restorePair index elapsed now p = .ok es ↔
      ∃ u, RestoredAs index elapsed now p u ∧ es = [(p.forwardKey, u), (p.reverseKey, u)] := by
  have hreverse : ∀ u, remapValue p.value (saturatingAdd p.lastSeenAgeNs elapsed) p.forwardKey index now = some u →
      p.forwardKey.reverseFor u = p.reverseKey := by
    intro u hu
    obtain ⟨_, _, _, _, _, _, _, _, rfl⟩ := (remapValue_eq_some hindex hforward).mp hu
    exact hp.reverseFor
  simp only [RestoredAs, ← remapValue_eq_some hindex hforward]
  simp only [restorePair]
  cases hexpired : flowAgeExpired (saturatingAdd p.lastSeenAgeNs elapsed) p.value.timeoutSecs with
  | true => simp
  | false =>
    cases hu : remapValue p.value (saturatingAdd p.lastSeenAgeNs elapsed) p.forwardKey index now with
    | none => simp
    | some u => simp [hreverse u hu, eq_comm]

/-! ## The restore -/

/-- What the turn of a pair adds to the restored entries. -/
def pairRestored (index : Assignments) (elapsedNs nowNs : UInt64) (p : SnapshotPair) : List FlowEntry :=
  (restorePair index elapsedNs nowNs p).toOption.getD []

theorem pairRestored_cases (index : Assignments) (elapsed now : UInt64) (p : SnapshotPair) :
    (∃ es, restorePair index elapsed now p = .ok es ∧ pairRestored index elapsed now p = es) ∨
      ((∀ es, restorePair index elapsed now p ≠ .ok es) ∧ pairRestored index elapsed now p = []) := by
  unfold pairRestored
  cases restorePair index elapsed now p with
  | error e => exact .inr ⟨fun _ => by simp, rfl⟩
  | ok es => exact .inl ⟨es, rfl, rfl⟩

section

variable (hindex : (index.map fun e => e.2.key).Nodup) (hp : Regroups p) (hforward : IsForward p.forwardKey p.value)
include hindex hp hforward

theorem mem_pairRestored
    {u : NativeFlowValue} : (k, u) ∈ pairRestored index elapsed now p ↔
      (k = p.forwardKey ∨ k = p.reverseKey) ∧ RestoredAs index elapsed now p u := by
  have hmem : ∀ w : NativeFlowValue, (k, u) ∈ [(p.forwardKey, w), (p.reverseKey, w)] ↔
      (k = p.forwardKey ∨ k = p.reverseKey) ∧ u = w := by
    intro w
    rw [List.mem_pair, Prod.mk.injEq, Prod.mk.injEq, or_and_right]
  rcases pairRestored_cases index elapsed now p with ⟨es, hok, hes⟩ | ⟨hnot, hes⟩
  · obtain ⟨w, hw, rfl⟩ := (restorePair_eq_ok hindex hp hforward).mp hok
    rw [hes, hmem]
    constructor
    · rintro ⟨hk, rfl⟩
      exact ⟨hk, hw⟩
    · rintro ⟨hk, hu⟩
      have hok' := (restorePair_eq_ok hindex hp hforward).mpr ⟨u, hu, rfl⟩
      rw [hok, Except.ok.injEq, List.cons.injEq, Prod.mk.injEq] at hok'
      exact ⟨hk, hok'.1.2.symm⟩
  · rw [hes]
    constructor
    · intro h
      cases h
    · rintro ⟨-, hu⟩
      exact absurd ((restorePair_eq_ok hindex hp hforward).mpr ⟨u, hu, rfl⟩) (hnot _)

theorem pairRestored_keys :
    ((pairRestored index elapsed now p).map (·.1)).Sublist [p.forwardKey, p.reverseKey] := by
  rcases pairRestored_cases index elapsed now p with ⟨es, hok, hes⟩ | ⟨-, hes⟩
  · obtain ⟨w, -, rfl⟩ := (restorePair_eq_ok hindex hp hforward).mp hok
    rw [hes]
    exact List.Sublist.refl _
  · rw [hes]
    exact List.nil_sublist _

end

/-- The entries restored from pairs that were written, pair by pair. -/
theorem restored_written {ps : List SnapshotPair} (hregroup : ∀ p ∈ ps, Regroups p)
    (hnodup : (ps.map SnapshotPair.group).Nodup) (index : Assignments) (elapsed : UInt64)
    (clock : SnapshotPair → UInt64) :
    (restoreEntriesFromSnapshot (snapshotEntriesFromPairs ps) index elapsed clock).2 =
      ps.flatMap fun p => pairRestored index elapsed (clock p) p := by
  simp only [restoreEntriesFromSnapshot, restoreOutcomes, collectRestorePairs_written hregroup hnodup,
    List.flatMap_map]
  rfl

/-- `saved` are the table's complete pairs whose halves last, each once, up to the `max_records`
    youngest. -/
structure Saves (settings : GatewayFlowPersistenceConfig) (source : SnapshotSource) (saved : List SnapshotPair) :
    Prop where
  sound : ∀ p ∈ saved, ∃ a b, CompletePair source.table a b ∧ lasting settings source.nowMonoNs a.2 = true ∧
    lasting settings source.nowMonoNs b.2 = true ∧
    flowAgeNs a.2.lastSeenNs source.nowMonoNs ≤ flowAgeNs b.2.lastSeenNs source.nowMonoNs ∧
    entryPair (snapshotEntry source.nowMonoNs a) = p
  complete : ∀ a b, CompletePair source.table a b → lasting settings source.nowMonoNs a.2 = true →
    lasting settings source.nowMonoNs b.2 = true → (∃ p ∈ saved, p.group = ordered a.1 b.1) ∨
      (saved.length = settings.maxRecords ∧
        ∀ q ∈ saved, q.lastSeenAgeNs ≤ flowAgeNs a.2.lastSeenNs source.nowMonoNs)
  once : (saved.map SnapshotPair.group).Nodup

/-- From the snapshot of a flow table, and the listeners configured at restore: the entries
    restored are the two entries of each saved pair that is unexpired by then and still
    configured, with the current ids, each key once. -/
theorem restored_exactly {sha : Sha256} {settings : GatewayFlowPersistenceConfig} {source : SnapshotSource}
    {file : Option Bytes} {bytes : Bytes} {index : Assignments} (henabled : settings.enabled = true)
    (hproper : Proper source.table) (hindex : (index.map fun e => e.2.key).Nodup)
    (hnew : source.pairs settings = [] → file = none)
    (hwritten : writeSnapshot sha settings source file = .ok (some bytes)) (unixNowNs : UInt64)
    (clock : SnapshotPair → UInt64) :
    ∃ saved summary restored, Saves settings source saved ∧
      restoreFromPath sha bytes index unixNowNs clock = .ok (summary, restored) ∧
      (restored.map (·.1)).Nodup ∧
      ∀ k u, (k, u) ∈ restored ↔ ∃ p ∈ saved, (k = p.forwardKey ∨ k = p.reverseKey) ∧
        RestoredAs index (saturatingSub unixNowNs source.unixNowNs) (clock p.stored) p u := by
  have hregroup : ∀ p ∈ source.pairs settings, Regroups p := fun p hp => (pairs_regroup hproper hp).1
  have hgroups : ((source.pairs settings).map SnapshotPair.group).Nodup := pairs_groups_nodup
  have hstored : ∀ p ∈ (source.pairs settings).map SnapshotPair.stored, Regroups p := by
    intro p hp
    obtain ⟨q, hq, rfl⟩ := List.mem_map.mp hp
    exact (hregroup q hq).stored
  have hstoredGroups : (((source.pairs settings).map SnapshotPair.stored).map SnapshotPair.group).Nodup := by
    rw [List.map_map]
    exact hgroups
  have hrestore := restoreFromPath_writeSnapshot index unixNowNs clock henabled hnew hwritten
  have hentries := restored_written hstored hstoredGroups index (saturatingSub unixNowNs source.unixNowNs) clock
  rw [List.flatMap_map] at hentries
  rw [stored_written] at hrestore
  generalize restoreEntriesFromSnapshot _ index _ clock = result at hrestore hentries
  obtain ⟨summary, restored⟩ := result
  refine ⟨source.pairs settings, summary, restored, ⟨fun p hp => pairs_sound hp, fun a b => pairs_complete, hgroups⟩,
    hrestore, ?_, ?_⟩
  · rw [show restored = _ from hentries, List.map_flatMap]
    refine (pairs_keys_nodup hproper).sublist (List.Sublist.flatMap_right _ fun p hp => ?_)
    obtain ⟨hp1, hp2⟩ := pairs_regroup hproper hp
    exact pairRestored_keys hindex hp1.stored hp2
  · intro k u
    rw [show restored = _ from hentries, List.mem_flatMap]
    refine exists_congr fun p => and_congr_right fun hp => ?_
    obtain ⟨hp1, hp2⟩ := pairs_regroup hproper hp
    exact mem_pairRestored hindex hp1.stored hp2

/-! A gateway up for 100 seconds saves one flow with a timeout of 60 seconds. -/

def idleTable (lastSeenNs : UInt64) : BpfMap NativeFlowKey NativeFlowValue :=
  ((∅ : BpfMap NativeFlowKey NativeFlowValue).insert idleKey (idleValue lastSeenNs)).insert
    (idleKey.reverseFor (idleValue lastSeenNs)) (idleValue lastSeenNs)

def idleIndex : Assignments :=
  [(7, { name := "web", targetGroup := "web", key := ⟨0xc000020a, 8080, .tcp⟩, select := 0, inactiveTimeoutSecs := 60,
         dscp := 0, targets := [⟨0xc0000214, 9090, 1⟩] })]

def idleSource (lastSeenNs : UInt64) : SnapshotSource :=
  { nodeName := "", ids := idleIndex, table := idleTable lastSeenNs, nowMonoNs := 100000000000,
    unixNowNs := 1000000000000 }

def zeroSha : Sha256 := ⟨fun _ => List.replicate 32 0, fun _ => List.length_replicate⟩

def persisting : GatewayFlowPersistenceConfig := { enabled := true }

/-- Last used 56 seconds ago, it has four seconds left and is not saved: it is gone although a
    restore in the same second would find it unexpired and configured. -/
theorem nearly_expired_flow_not_restored :
    CompletePair (idleSource 44000000000).table (idleKey, idleValue 44000000000)
        (idleKey.reverseFor (idleValue 44000000000), idleValue 44000000000) ∧
      RestoredAs idleIndex 0 100000000000 (entryPair (snapshotEntry 100000000000 (idleKey, idleValue 44000000000)))
        { idleValue 44000000000 with listenerId := 7 } ∧
      ∃ bytes, writeSnapshot zeroSha persisting (idleSource 44000000000) none = .ok (some bytes) ∧
        restoreFromPath zeroSha bytes idleIndex 1000000000000 (fun _ => 100000000000) = .ok ({}, []) := by
  refine ⟨⟨by decide, by decide, by decide, by decide, by decide⟩, ?_, ?_⟩
  · refine ⟨by decide, 7, _, List.mem_cons_self, by decide, by decide, by decide, 0,
      by decide, by decide⟩
  · obtain ⟨bytes, hbytes⟩ := writeSnapshot_new zeroSha persisting (idleSource 44000000000) rfl (by decide)
      (by decide)
    refine ⟨bytes, hbytes, ?_⟩
    rw [restoreFromPath_writeSnapshot idleIndex _ _ rfl (fun _ => rfl) hbytes]
    decide

/-- Last used ten seconds ago, it is saved. -/
theorem idle_flow_restored_exactly :
    ∃ bytes, writeSnapshot zeroSha persisting (idleSource 90000000000) none = .ok (some bytes) ∧
      ∃ saved summary restored, Saves persisting (idleSource 90000000000) saved ∧
        restoreFromPath zeroSha bytes idleIndex 1020000000000 (fun _ => 30000000000) = .ok (summary, restored) ∧
        (restored.map (·.1)).Nodup ∧
        ∀ k u, (k, u) ∈ restored ↔ ∃ p ∈ saved, (k = p.forwardKey ∨ k = p.reverseKey) ∧
          RestoredAs idleIndex 20000000000 30000000000 p u := by
  have hall : ∀ e ∈ dumpFlows (idleTable 90000000000), IsForward e.1 e.2 ∨ IsReply e.1 e.2 := by decide
  obtain ⟨bytes, hbytes⟩ := writeSnapshot_new zeroSha persisting (idleSource 90000000000) rfl (by decide)
    (by decide)
  exact ⟨bytes, hbytes, restored_exactly rfl (fun k v h => hall (k, v) (mem_dumpFlows.mpr h)) (by decide)
    (fun _ => rfl) hbytes 1020000000000 fun _ => 30000000000⟩

end EdgeLb.Provider
