/-
  EdgeLb.Lib.SortedMap — `BTreeMap`: entries in the order of their keys, one for each key.

  The order is part of what the map shows, since its values are iterated in it.
-/

import Mathlib.Order.Lattice
import Mathlib.Order.Nat
import Mathlib.Data.List.Nodup

namespace EdgeLb.Lib

structure SortedMap (K V : Type) [LinearOrder K] where
  entries : List (K × V)
  sorted : entries.Pairwise fun a b => a.1 < b.1
  deriving DecidableEq

namespace SortedMap

variable {K V : Type} [LinearOrder K]

/-- One pass: before the first greater key, or in place of an equal one. -/
def insertEntry (k : K) (v : V) : List (K × V) → List (K × V)
  | [] => [(k, v)]
  | e :: es => if k < e.1 then (k, v) :: e :: es else if k = e.1 then (k, v) :: es else e :: insertEntry k v es

variable {e : K × V} {es : List (K × V)} {k : K} {m : SortedMap K V}

theorem mem_insertEntry {v : V} (hs : es.Pairwise fun a b => a.1 < b.1) :
    e ∈ insertEntry k v es ↔ e = (k, v) ∨ (e ∈ es ∧ e.1 ≠ k) := by
  induction es with
  | nil => simp [insertEntry]
  | cons d ds ih =>
    obtain ⟨hd, hds⟩ := List.pairwise_cons.mp hs
    simp only [insertEntry]
    split
    · next hlt =>
      -- every key from here on is greater
      have hne : ∀ e ∈ d :: ds, e.1 ≠ k := by
        intro e he
        rcases List.mem_cons.mp he with rfl | he
        · exact ne_of_gt hlt
        · exact ne_of_gt (lt_trans hlt (hd e he))
      rw [List.mem_cons]
      exact or_congr Iff.rfl ⟨fun he => ⟨he, hne e he⟩, fun he => he.1⟩
    · split
      · next heq =>
        have hne : ∀ e ∈ ds, e.1 ≠ k := fun e he => heq ▸ ne_of_gt (hd e he)
        constructor
        · intro he
          rcases List.mem_cons.mp he with rfl | he
          · exact .inl rfl
          · exact .inr ⟨List.mem_cons_of_mem _ he, hne e he⟩
        · rintro (rfl | ⟨he, hk⟩)
          · exact List.mem_cons_self
          · rcases List.mem_cons.mp he with rfl | he
            · exact absurd heq.symm hk
            · exact List.mem_cons_of_mem _ he
      · next hne =>
        rw [List.mem_cons, ih hds]
        constructor
        · rintro (rfl | rfl | ⟨he, hk⟩)
          · exact .inr ⟨List.mem_cons_self, fun h => hne h.symm⟩
          · exact .inl rfl
          · exact .inr ⟨List.mem_cons_of_mem _ he, hk⟩
        · rintro (rfl | ⟨he, hk⟩)
          · exact .inr (.inl rfl)
          · rcases List.mem_cons.mp he with rfl | he
            · exact .inl rfl
            · exact .inr (.inr ⟨he, hk⟩)

theorem insertEntry_sorted {v : V} (hs : es.Pairwise fun a b => a.1 < b.1) :
    (insertEntry k v es).Pairwise fun a b => a.1 < b.1 := by
  induction es with
  | nil => simp [insertEntry]
  | cons d ds ih =>
    obtain ⟨hd, hds⟩ := List.pairwise_cons.mp hs
    simp only [insertEntry]
    split
    · next hlt =>
      refine List.pairwise_cons.mpr ⟨fun e he => ?_, hs⟩
      rcases List.mem_cons.mp he with rfl | he
      · exact hlt
      · exact lt_trans hlt (hd e he)
    · next hnlt =>
      split
      · next heq => exact List.pairwise_cons.mpr ⟨fun e he => heq ▸ hd e he, hds⟩
      · next hne =>
        refine List.pairwise_cons.mpr ⟨fun e he => ?_, ih hds⟩
        rcases (mem_insertEntry hds).mp he with rfl | ⟨he, -⟩
        · exact lt_of_le_of_ne (not_lt.mp hnlt) fun h => hne h.symm
        · exact hd e he

def empty : SortedMap K V := ⟨[], .nil⟩

def insert (m : SortedMap K V) (k : K) (v : V) : SortedMap K V := ⟨insertEntry k v m.entries, insertEntry_sorted m.sorted⟩

/-- `BTreeMap::retain`. -/
def retain (m : SortedMap K V) (keep : K → V → Bool) : SortedMap K V :=
  ⟨m.entries.filter fun e => keep e.1 e.2, m.sorted.sublist List.filter_sublist⟩

def erase (m : SortedMap K V) (k : K) : SortedMap K V := m.retain fun k' _ => k' ≠ k

def get? (m : SortedMap K V) (k : K) : Option V := (m.entries.find? fun e => e.1 = k).map (·.2)

def keys (m : SortedMap K V) : List K := m.entries.map (·.1)

def values (m : SortedMap K V) : List V := m.entries.map (·.2)

/-- Collected from an iterator: of two entries with one key the later stays. -/
def ofList (es : List (K × V)) : SortedMap K V := es.foldl (fun m e => m.insert e.1 e.2) empty

theorem mem_insert {v : V} :
    e ∈ (m.insert k v).entries ↔ e = (k, v) ∨ (e ∈ m.entries ∧ e.1 ≠ k) := mem_insertEntry m.sorted

@[simp] theorem mem_retain {keep : K → V → Bool} :
    e ∈ (m.retain keep).entries ↔ e ∈ m.entries ∧ keep e.1 e.2 = true := List.mem_filter

@[simp] theorem mem_erase : e ∈ (m.erase k).entries ↔ e ∈ m.entries ∧ e.1 ≠ k := by
  simp [erase]

/-- One entry for each key. -/
theorem value_unique {v w : V} (hv : (k, v) ∈ m.entries) (hw : (k, w) ∈ m.entries) : v = w := by
  have hs := m.sorted
  generalize m.entries = es at hv hw hs
  induction es with
  | nil => cases hv
  | cons d ds ih =>
    obtain ⟨hd, hds⟩ := List.pairwise_cons.mp hs
    rcases List.mem_cons.mp hv with rfl | hv'
    · rcases List.mem_cons.mp hw with hw' | hw'
      · exact (congrArg Prod.snd hw').symm
      · exact absurd (hd (k, w) hw') (lt_irrefl k)
    · rcases List.mem_cons.mp hw with rfl | hw'
      · exact absurd (hd (k, v) hv') (lt_irrefl k)
      · exact ih hv' hw' hds

theorem get?_eq_some {v : V} : m.get? k = some v ↔ (k, v) ∈ m.entries := by
  simp only [get?, Option.map_eq_some_iff]
  constructor
  · rintro ⟨e, he, rfl⟩
    have hk : e.1 = k := by simpa using List.find?_some he
    exact hk ▸ List.mem_of_find?_eq_some he
  · intro h
    cases hf : m.entries.find? fun e => e.1 = k with
    | none => exact absurd (List.find?_eq_none.mp hf _ h) (by simp)
    | some e =>
      have hk : e.1 = k := by simpa using List.find?_some hf
      refine ⟨e, rfl, ?_⟩
      exact value_unique (k := k) (hk ▸ List.mem_of_find?_eq_some hf) h

theorem mem_keys : k ∈ m.keys ↔ ∃ v, (k, v) ∈ m.entries := by
  simp [keys]

@[simp] theorem mem_keys_insert {k k' : K} {v : V} : k' ∈ (m.insert k v).keys ↔ k' = k ∨ k' ∈ m.keys := by
  simp only [mem_keys, mem_insert]
  constructor
  · rintro ⟨w, heq | ⟨hmem, -⟩⟩
    · exact .inl (congrArg Prod.fst heq)
    · exact .inr ⟨w, hmem⟩
  · rintro (rfl | ⟨w, hmem⟩)
    · exact ⟨v, .inl rfl⟩
    · by_cases hk : k' = k
      · exact ⟨v, .inl (by rw [hk])⟩
      · exact ⟨w, .inr ⟨hmem, hk⟩⟩

theorem mem_values {v : V} (h : (k, v) ∈ m.entries) : v ∈ m.values :=
  List.mem_map.mpr ⟨(k, v), h, rfl⟩

theorem keys_nodup (m : SortedMap K V) : m.keys.Nodup := by
  rw [keys, List.nodup_iff_pairwise_ne, List.pairwise_map]
  exact m.sorted.imp fun h => ne_of_lt h

section

variable (h : e ∈ (es.foldl (fun m e => m.insert e.1 e.2) m).entries)
include h

/-- Folding inserts over a list: an entry of the result is one of the list, or one of the start
    whose key is not in the list. -/
theorem mem_foldl_insert_or : e ∈ es ∨ (e ∈ m.entries ∧ e.1 ∉ es.map (·.1)) := by
  induction es generalizing m with
  | nil => exact .inr ⟨h, by simp⟩
  | cons d ds ih =>
    rcases ih h with h | ⟨h, hnot⟩
    · exact .inl (List.mem_cons_of_mem _ h)
    · rcases mem_insert.mp h with rfl | ⟨h, hne⟩
      · exact .inl List.mem_cons_self
      · exact .inr ⟨h, fun hmem => (List.mem_cons.mp hmem).elim hne hnot⟩

theorem mem_foldl_insert : e ∈ es ∨ e ∈ m.entries :=
  (mem_foldl_insert_or h).imp_right And.left

end

theorem mem_keys_foldl_insert :
    k ∈ (es.foldl (fun m e => m.insert e.1 e.2) m).keys ↔ k ∈ es.map (·.1) ∨ k ∈ m.keys := by
  induction es generalizing m with
  | nil => simp
  | cons d ds ih =>
    rw [List.foldl_cons, ih, mem_keys_insert, List.map_cons, List.mem_cons]
    tauto

theorem mem_of_mem_ofList (h : e ∈ (ofList es).entries) : e ∈ es :=
  (mem_foldl_insert h).resolve_right fun h => by cases h

theorem mem_keys_ofList : k ∈ (ofList es).keys ↔ k ∈ es.map (·.1) := by
  rw [ofList, mem_keys_foldl_insert]
  exact or_iff_left fun h => by cases h

/-- Without a repeated key every entry of the list is in the map. -/
theorem mem_ofList (hnodup : (es.map (·.1)).Nodup) : e ∈ (ofList es).entries ↔ e ∈ es := by
  refine ⟨mem_of_mem_ofList, fun he => ?_⟩
  obtain ⟨v, hv⟩ := mem_keys.mp (mem_keys_ofList.mpr (List.mem_map_of_mem he))
  have heq : (e.1, v) = e := List.inj_on_of_nodup_map hnodup (mem_of_mem_ofList hv) he rfl
  exact heq ▸ hv

end SortedMap

example : ((SortedMap.ofList [(3, "c"), (1, "a"), (3, "d")]).entries : List (Nat × String)) = [(1, "a"), (3, "d")] := by
  decide

end EdgeLb.Lib
