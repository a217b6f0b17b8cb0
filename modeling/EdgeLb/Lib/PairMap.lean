/-
  EdgeLb.Lib.PairMap — finite maps that hold one value under two keys.

  `insertPair` writes a value at both keys of a pair, `erasePair` removes both. A lookup
  after either is decided by one question: is the key one of the two? The keys may
  coincide.

  A `Pairing` says which key is the mate of a key, given the value held there. A map is
  `Paired` when every entry is a good one and its mate holds the same value. Dropping a
  pair, replacing its value by one with the same mates, and adding a pair at two free
  keys keep a map paired.
-/

import Mathlib.Data.List.AList

namespace EdgeLb.Lib

variable {κ ν : Type} [DecidableEq κ]

variable (m : AList (fun _ : κ => ν)) (k o : κ) (v : ν)

def insertPair : AList (fun _ : κ => ν) :=
  (m.insert k v).insert o v

def erasePair : AList (fun _ : κ => ν) := (m.erase k).erase o

theorem lookup_insertPair (k o x : κ) (v : ν) :
    (insertPair m k o v).lookup x = if x = k ∨ x = o then some v else m.lookup x := by
  unfold insertPair
  by_cases ho : x = o
  · subst ho; simp
  · rw [AList.lookup_insert_ne ho]
    by_cases hk : x = k
    · subst hk; simp
    · rw [AList.lookup_insert_ne hk]; simp [ho, hk]

theorem lookup_erasePair (k o x : κ) :
    (erasePair m k o).lookup x = if x = k ∨ x = o then none else m.lookup x := by
  unfold erasePair
  by_cases ho : x = o
  · subst ho; simp
  · rw [AList.lookup_erase_ne ho]
    by_cases hk : x = k
    · subst hk; simp
    · rw [AList.lookup_erase_ne hk]; simp [ho, hk]

@[simp] theorem lookup_insertPair_left :
    (insertPair m k o v).lookup k = some v := by simp [lookup_insertPair]

@[simp] theorem lookup_insertPair_right :
    (insertPair m k o v).lookup o = some v := by simp [lookup_insertPair]

@[simp] theorem lookup_erasePair_left :
    (erasePair m k o).lookup k = none := by simp [lookup_erasePair]

theorem mem_insertPair {m : AList (fun _ : κ => ν)} {k o x : κ} {v : ν} :
    x ∈ insertPair m k o v ↔ x = k ∨ x = o ∨ x ∈ m := by
  unfold insertPair
  rw [AList.mem_insert, AList.mem_insert]
  tauto

theorem mem_of_lookup {m : AList (fun _ : κ => ν)} {k : κ} {v : ν} (h : m.lookup k = some v) : k ∈ m :=
  AList.lookup_isSome.mp (by simp [h])

/-! ## Paired maps -/

/-- Which key holds the other copy of an entry. -/
structure Pairing (κ ν : Type) where
  mate : κ → ν → κ
  good : κ → ν → Prop
  good_mate : ∀ {k v}, good k v → good (mate k v) v
  mate_mate : ∀ {k v}, good k v → mate (mate k v) v = k

namespace Pairing

variable (P : Pairing κ ν)

def Paired (m : AList (fun _ : κ => ν)) : Prop :=
  ∀ k v, m.lookup k = some v → P.good k v ∧ m.lookup (P.mate k v) = some v

theorem paired_empty : P.Paired ∅ := by
  intro k v h
  simp at h

variable {P} {m : AList (fun _ : κ => ν)}

/-- Two entries of a paired map that share a slot are one pair. -/
theorem Paired.mate_eq {k x : κ} {v u : ν} (hm : P.Paired m) (hk : m.lookup k = some v) (hx : m.lookup x = some u)
    (h : P.mate x u = k ∨ P.mate x u = P.mate k v) : u = v ∧ (x = k ∨ x = P.mate k v) := by
  obtain ⟨hgk, hmk⟩ := hm k v hk
  obtain ⟨hgx, hmx⟩ := hm x u hx
  rcases h with h | h
  · rw [h, hk] at hmx
    obtain rfl := Option.some.inj hmx
    exact ⟨rfl, .inr (by rw [← h, P.mate_mate hgx])⟩
  · rw [h, hmk] at hmx
    obtain rfl := Option.some.inj hmx
    exact ⟨rfl, .inl (by rw [← P.mate_mate hgx, h, P.mate_mate hgk])⟩

theorem Paired.erase {k : κ} {v : ν} (hm : P.Paired m) (hk : m.lookup k = some v) :
    P.Paired (erasePair m k (P.mate k v)) := by
  intro x u hx
  rw [lookup_erasePair] at hx
  split at hx
  · cases hx
  rename_i hne
  obtain ⟨hgx, hmx⟩ := hm x u hx
  refine ⟨hgx, ?_⟩
  rw [lookup_erasePair, if_neg, hmx]
  intro h
  exact hne (hm.mate_eq hk hx h).2

/-- A value with the same mates and as good may replace the old one at both keys. -/
theorem Paired.replace {k : κ} {v v' : ν} (hm : P.Paired m) (hk : m.lookup k = some v)
    (hmate : ∀ x, P.mate x v' = P.mate x v) (hgood : ∀ x, P.good x v → P.good x v') :
    P.Paired (insertPair m k (P.mate k v) v') := by
  obtain ⟨hgk, -⟩ := hm k v hk
  intro x u hx
  rw [lookup_insertPair] at hx
  split at hx
  · rename_i hx'
    obtain rfl := Option.some.inj hx
    rcases hx' with rfl | rfl
    · exact ⟨hgood _ hgk, by rw [hmate, lookup_insertPair_right]⟩
    · exact ⟨hgood _ (P.good_mate hgk), by rw [hmate, P.mate_mate hgk, lookup_insertPair_left]⟩
  · rename_i hne
    obtain ⟨hgx, hmx⟩ := hm x u hx
    refine ⟨hgx, ?_⟩
    rw [lookup_insertPair, if_neg, hmx]
    intro h
    exact hne (hm.mate_eq hk hx h).2

theorem Paired.insert {k : κ} {v : ν} (hm : P.Paired m) (hgood : P.good k v) (hk : m.lookup k = none)
    (ho : m.lookup (P.mate k v) = none) : P.Paired (insertPair m k (P.mate k v) v) := by
  intro x u hx
  rw [lookup_insertPair] at hx
  split at hx
  · rename_i hx'
    obtain rfl := Option.some.inj hx
    rcases hx' with rfl | rfl
    · exact ⟨hgood, by rw [lookup_insertPair_right]⟩
    · exact ⟨P.good_mate hgood, by rw [P.mate_mate hgood, lookup_insertPair_left]⟩
  · obtain ⟨hgx, hmx⟩ := hm x u hx
    refine ⟨hgx, ?_⟩
    rw [lookup_insertPair, if_neg, hmx]
    rintro (h | h)
    · rw [h, hk] at hmx; cases hmx
    · rw [h, ho] at hmx; cases hmx

end Pairing

end EdgeLb.Lib
