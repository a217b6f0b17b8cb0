/-
  EdgeLb.Lib.CountMap — how many entries of a finite map pass a test, and tallies.

  Writing or removing a key changes the number by what the key held before and holds after.
  A `Tally` walks a list, gives each element a class and a label, and counts every class once
  under its label. When elements of one class have one label, the count of a label is the
  number of classes with it.
-/

import EdgeLb.Lib.MapSync
import EdgeLb.Lib.PairMap
import Mathlib.Data.Finset.Card
import Mathlib.Data.List.Induction
import Mathlib.Algebra.Group.Nat.Defs

namespace EdgeLb.Lib

section Count

variable {κ ν : Type} [DecidableEq κ]

def countEntries (p : κ → ν → Bool) (m : AList (fun _ : κ => ν)) : Nat := m.entries.countP fun e => p e.1 e.2

/-- One if the key holds an entry that passes. -/
def heldAt (p : κ → ν → Bool) (m : AList (fun _ : κ => ν)) (k : κ) : Nat := ((m.lookup k).elim false (p k)).toNat

variable {p : κ → ν → Bool} {m : AList (fun _ : κ => ν)} {k o : κ} {v : ν}

theorem heldAt_none (h : m.lookup k = none) : heldAt p m k = 0 := by simp [heldAt, h]

theorem heldAt_some (h : m.lookup k = some v) : heldAt p m k = (p k v).toNat := by simp [heldAt, h]

omit [DecidableEq κ] in
theorem countEntries_le : countEntries p m ≤ m.entries.length := List.countP_le_length

theorem countEntries_congr {q : κ → ν → Bool} (h : ∀ x v, m.lookup x = some v → p x v = q x v) :
    countEntries p m = countEntries q m := by
  refine List.countP_congr fun e he => ?_
  rw [h e.1 e.2 (AList.mem_lookup_iff.mpr he)]

theorem countEntries_erase (p : κ → ν → Bool) (m : AList (fun _ : κ => ν)) (k : κ) :
    countEntries p (m.erase k) + heldAt p m k = countEntries p m := by
  by_cases hk : k ∈ m
  · obtain ⟨v, l₁, l₂, -, hentries, herase⟩ := List.exists_of_kerase hk
    have hv : m.lookup k = some v := AList.mem_lookup_iff.mpr (by rw [hentries]; simp)
    have hgone : (m.erase k).entries = l₁ ++ l₂ := herase
    rw [heldAt_some hv, countEntries, countEntries, hgone, hentries, List.countP_append, List.countP_append,
      List.countP_cons]
    cases p k v with
    | false => simp
    | true =>
      simp
      omega
  · have hgone : (m.erase k).entries = m.entries := List.kerase_of_notMem_keys hk
    rw [heldAt_none (AList.lookup_eq_none.mpr hk), countEntries, countEntries, hgone, Nat.add_zero]

theorem countEntries_insert (p : κ → ν → Bool) (m : AList (fun _ : κ => ν)) (k : κ) (v : ν) :
    countEntries p (m.insert k v) + heldAt p m k = countEntries p m + (p k v).toNat := by
  have herase := countEntries_erase p m k
  have hinsert : countEntries p (m.insert k v) = countEntries p (m.erase k) + (p k v).toNat := by
    rw [countEntries, AList.entries_insert, List.countP_cons]
    cases p k v <;> rfl
  omega

theorem countEntries_erasePair (p : κ → ν → Bool) (m : AList (fun _ : κ => ν)) (hne : k ≠ o) :
    countEntries p (erasePair m k o) + heldAt p m k + heldAt p m o = countEntries p m := by
  have hk := countEntries_erase p m k
  have ho := countEntries_erase p (m.erase k) o
  have hheld : heldAt p (m.erase k) o = heldAt p m o := by rw [heldAt, heldAt, AList.lookup_erase_ne hne.symm]
  unfold erasePair
  omega

theorem countEntries_insertPair (p : κ → ν → Bool) (m : AList (fun _ : κ => ν)) (v : ν) (hne : k ≠ o) :
    countEntries p (insertPair m k o v) + heldAt p m k + heldAt p m o =
      countEntries p m + (p k v).toNat + (p o v).toNat := by
  have hk := countEntries_insert p m k v
  have ho := countEntries_insert p (m.insert k v) o v
  have hheld : heldAt p (m.insert k v) o = heldAt p m o := by rw [heldAt, heldAt, AList.lookup_insert_ne hne.symm]
  unfold insertPair
  omega

theorem length_insertPair_le (m : AList (fun _ : κ => ν)) (k o : κ) (v : ν) :
    (insertPair m k o v).entries.length ≤ m.entries.length + 2 := by
  have hlen : ∀ (m : AList (fun _ : κ => ν)) (k : κ), (m.insert k v).entries.length ≤ m.entries.length + 1 := by
    intro m k
    rw [AList.entries_insert, List.length_cons]
    exact Nat.succ_le_succ (List.kerase_sublist k m.entries).length_le
  have hk := hlen m k
  have ho := hlen (m.insert k v) o
  unfold insertPair
  omega

theorem length_erasePair_le (m : AList (fun _ : κ => ν)) (k o : κ) :
    (erasePair m k o).entries.length ≤ m.entries.length :=
  ((List.kerase_sublist o _).trans (List.kerase_sublist k m.entries)).length_le

/-- A map cut down to the entries that pass `q`. -/
theorem countEntries_filter {q : κ → ν → Bool} {m' : AList (fun _ : κ => ν)}
    (h : ∀ k, m'.lookup k = (m.lookup k).filter (q k)) :
    countEntries p m' = countEntries (fun k v => q k v && p k v) m := by
  have hnodup : (m.entries.filter fun e => q e.1 e.2).NodupKeys := m.nodupKeys.sublist List.filter_sublist
  have hperm : m'.entries.Perm (m.entries.filter fun e => q e.1 e.2) := by
    refine List.lookup_ext m'.nodupKeys hnodup fun k v => ?_
    have hm' : v ∈ m'.entries.dlookup k ↔ m'.lookup k = some v := Iff.rfl
    have hm : m.lookup k = some v ↔ Sigma.mk k v ∈ m.entries := AList.mem_lookup_iff
    rw [hm', h, List.mem_dlookup_iff hnodup, List.mem_filter, Option.filter_eq_some_iff, hm]
  rw [countEntries, hperm.countP_eq, List.countP_filter]
  simp only [countEntries, Bool.and_comm]

end Count

section Tally

/-- `u32::saturating_add(1)`. -/
def saturatingSucc (n : UInt32) : UInt32 := if n.toNat + 1 < 2 ^ 32 then n + 1 else n

structure Tally (γ χ : Type) where
  seen : List γ := []
  counts : AList (fun _ : χ => UInt32) := ∅

variable {α γ χ : Type} [DecidableEq γ] [DecidableEq χ]

def Tally.add (s : Tally γ χ) (c : γ) (label : χ) : Tally γ χ :=
  if c ∈ s.seen then s
  else
    { seen := c :: s.seen
      counts := s.counts.insert label (match s.counts.lookup label with
        | some n => saturatingSucc n
        | none => 1) }

def Tally.count (s : Tally γ χ) (label : χ) : Nat := ((s.counts.lookup label).getD 0).toNat

def tally (g : α → γ) (label : α → χ) (xs : List α) : Tally γ χ :=
  xs.foldl (fun s x => s.add (g x) (label x)) {}

/-- The classes that have the label. -/
def classesOf (g : α → γ) (label : α → χ) (xs : List α) (l : χ) : Finset γ :=
  ((xs.filter fun x => label x = l).map g).toFinset

variable {g : α → γ} {label : α → χ}

theorem Tally.add_seen {s : Tally γ χ} {c : γ} {l : χ} (h : c ∈ s.seen) : s.add c l = s := if_pos h

theorem Tally.count_add_new {s : Tally γ χ} {c : γ} {l : χ} (h : c ∉ s.seen) (l' : χ)
    (hroom : s.count l + 1 < 2 ^ 32) : (s.add c l).count l' = s.count l' + if l' = l then 1 else 0 := by
  unfold Tally.add Tally.count
  rw [if_neg h]
  by_cases hl : l' = l
  · subst hl
    simp only [AList.lookup_insert, Option.getD_some, if_true]
    cases hn : s.counts.lookup l' with
    | none => rfl
    | some n =>
      have hn' : n.toNat + 1 < 2 ^ 32 := by simpa [Tally.count, hn] using hroom
      simp only [saturatingSucc, Option.getD_some]
      rw [if_pos hn', UInt32.toNat_add, UInt32.toNat_one, Nat.mod_eq_of_lt hn']
  · simp [AList.lookup_insert_ne hl, hl]

theorem tally_snoc (g : α → γ) (label : α → χ) (xs : List α) (x : α) :
    tally g label (xs ++ [x]) = (tally g label xs).add (g x) (label x) := by
  simp [tally, List.foldl_append]

theorem mem_tally_seen (g : α → γ) (label : α → χ) (xs : List α) (c : γ) :
    c ∈ (tally g label xs).seen ↔ ∃ x ∈ xs, g x = c := by
  induction xs using List.reverseRecOn with
  | nil => simp [tally]
  | append_singleton xs x ih =>
    rw [tally_snoc]
    by_cases h : g x ∈ (tally g label xs).seen
    · rw [Tally.add_seen h, ih]
      constructor
      · intro ⟨y, hy, hc⟩
        exact ⟨y, List.mem_append_left _ hy, hc⟩
      · intro ⟨y, hy, hc⟩
        rcases List.mem_append.mp hy with hy | hy
        · exact ⟨y, hy, hc⟩
        · obtain rfl := List.mem_singleton.mp hy
          exact ih.mp (hc ▸ h)
    · unfold Tally.add
      rw [if_neg h]
      simp only [List.mem_cons, ih, List.mem_append, List.not_mem_nil, or_false]
      constructor
      · intro hc
        rcases hc with rfl | ⟨y, hy, hc⟩
        · exact ⟨x, .inr rfl, rfl⟩
        · exact ⟨y, .inl hy, hc⟩
      · intro ⟨y, hy, hc⟩
        rcases hy with hy | rfl
        · exact .inr ⟨y, hy, hc⟩
        · exact .inl hc.symm

theorem mem_classesOf {xs : List α} {l : χ} {c : γ} : c ∈ classesOf g label xs l ↔ ∃ x ∈ xs, label x = l ∧ g x = c := by
  simp [classesOf, and_assoc]

theorem classesOf_snoc (g : α → γ) (label : α → χ) (xs : List α) (x : α) (l : χ) :
    classesOf g label (xs ++ [x]) l = if l = label x then insert (g x) (classesOf g label xs l) else classesOf g label xs l := by
  ext c
  rw [mem_classesOf]
  by_cases hl : l = label x
  · rw [if_pos hl, Finset.mem_insert, mem_classesOf]
    grind
  · rw [if_neg hl, mem_classesOf]
    grind

theorem card_classesOf_le (g : α → γ) (label : α → χ) (xs : List α) (l : χ) : (classesOf g label xs l).card ≤ xs.length :=
  (List.toFinset_card_le _).trans (by rw [List.length_map]; exact List.length_filter_le ..)

/-- Each class is counted once, under its label. -/
theorem tally_count {xs : List α} (hlabel : ∀ x ∈ xs, ∀ y ∈ xs, g x = g y → label x = label y)
    (hlen : xs.length < 2 ^ 32) (l : χ) : (tally g label xs).count l = (classesOf g label xs l).card := by
  induction xs using List.reverseRecOn generalizing l with
  | nil => rfl
  | append_singleton xs x ih =>
    have hlt : xs.length + 1 < 2 ^ 32 := by simpa using hlen
    have hcount := fun l' => ih (fun y hy z hz => hlabel y (List.mem_append_left _ hy) z (List.mem_append_left _ hz))
      (by omega) l'
    rw [tally_snoc, classesOf_snoc]
    by_cases hseen : g x ∈ (tally g label xs).seen
    · obtain ⟨y, hy, hg⟩ := (mem_tally_seen g label xs _).mp hseen
      have hsame := hlabel y (List.mem_append_left _ hy) x (by simp) hg
      rw [Tally.add_seen hseen, hcount]
      by_cases hl : l = label x
      · have hin : g x ∈ classesOf g label xs l := mem_classesOf.mpr ⟨y, hy, hsame.trans hl.symm, hg⟩
        rw [if_pos hl, Finset.insert_eq_of_mem hin]
      · rw [if_neg hl]
    · have hroom : (tally g label xs).count (label x) + 1 < 2 ^ 32 := by
        have := card_classesOf_le g label xs (label x)
        rw [hcount]
        omega
      rw [Tally.count_add_new hseen l hroom, hcount]
      by_cases hl : l = label x
      · have hnew : g x ∉ classesOf g label xs l := by
          intro hin
          obtain ⟨y, hy, -, hg⟩ := mem_classesOf.mp hin
          exact hseen ((mem_tally_seen g label xs _).mpr ⟨y, hy, hg⟩)
        rw [if_pos hl, if_pos hl, Finset.card_insert_of_notMem hnew]
      · rw [if_neg hl, if_neg hl, Nat.add_zero]

end Tally

end EdgeLb.Lib
