/-
  EdgeLb.Lib.MapSync — bringing a finite map to a desired list of entries, one write at a
  time: insert every desired entry, then erase the keys that are not desired.

  Whatever the map held before, what a lookup finds at the end is a desired entry.
-/

import Mathlib.Data.List.AList

namespace EdgeLb.Lib

variable {κ ν : Type} [DecidableEq κ]

def insertAll (m : AList (fun _ : κ => ν)) (entries : List (κ × ν)) : AList (fun _ : κ => ν) :=
  entries.foldl (fun m e => m.insert e.1 e.2) m

def eraseAll (m : AList (fun _ : κ => ν)) (ks : List κ) : AList (fun _ : κ => ν) := ks.foldl (fun m k => m.erase k) m

@[simp] theorem insertAll_cons (m : AList (fun _ : κ => ν)) (e : κ × ν) (es : List (κ × ν)) :
    insertAll m (e :: es) = insertAll (m.insert e.1 e.2) es := rfl

@[simp] theorem eraseAll_cons (m : AList (fun _ : κ => ν)) (k : κ) (ks : List κ) :
    eraseAll m (k :: ks) = eraseAll (m.erase k) ks := rfl

variable {es : List (κ × ν)} {m : AList (fun _ : κ => ν)}

theorem lookup_insertAll {k : κ} {v : ν}
    (h : (insertAll m es).lookup k = some v) : (k, v) ∈ es ∨ (k ∉ es.map (·.1) ∧ m.lookup k = some v) := by
  induction es generalizing m with
  | nil => exact .inr ⟨by simp, h⟩
  | cons e es ih =>
    rcases ih h with hmem | ⟨hnot, hm⟩
    · exact .inl (List.mem_cons_of_mem _ hmem)
    · by_cases hk : k = e.1
      · subst hk
        rw [AList.lookup_insert] at hm
        obtain rfl := Option.some.inj hm
        exact .inl (List.mem_cons_self ..)
      · rw [AList.lookup_insert_ne hk] at hm
        exact .inr ⟨by simp [hk] at hnot ⊢; exact hnot, hm⟩

theorem lookup_insertAll_of_not_mem {k : κ} (h : k ∉ es.map (·.1)) : (insertAll m es).lookup k = m.lookup k := by
  induction es generalizing m with
  | nil => rfl
  | cons e es ih =>
    obtain ⟨hne, hrest⟩ : k ≠ e.1 ∧ k ∉ es.map (·.1) := by simpa using h
    rw [insertAll_cons, ih hrest, AList.lookup_insert_ne hne]

/-- An entry whose key has no other value among the entries is found, whatever was there. -/
theorem lookup_insertAll_of_mem {k : κ} {v : ν} (h : (k, v) ∈ es)
    (huniq : ∀ v', (k, v') ∈ es → v' = v) : (insertAll m es).lookup k = some v := by
  induction es generalizing m with
  | nil => cases h
  | cons e es ih =>
    rw [insertAll_cons]
    by_cases hlater : k ∈ es.map (·.1)
    · obtain ⟨⟨k', v'⟩, hmem, rfl⟩ := List.mem_map.mp hlater
      obtain rfl := huniq v' (List.mem_cons_of_mem _ hmem)
      exact ih hmem fun v'' hv'' => huniq v'' (List.mem_cons_of_mem _ hv'')
    · rw [lookup_insertAll_of_not_mem hlater]
      rcases List.mem_cons.mp h with rfl | hmem
      · exact AList.lookup_insert _
      · exact absurd (List.mem_map_of_mem hmem) hlater

theorem lookup_eraseAll {ks : List κ} {k : κ} {v : ν}
    (h : (eraseAll m ks).lookup k = some v) : k ∉ ks ∧ m.lookup k = some v := by
  induction ks generalizing m with
  | nil => exact ⟨by simp, h⟩
  | cons x ks ih =>
    obtain ⟨hnot, hm⟩ := ih h
    by_cases hk : k = x
    · subst hk
      rw [AList.lookup_erase] at hm
      cases hm
    · rw [AList.lookup_erase_ne hk] at hm
      exact ⟨by simp [hk, hnot], hm⟩

theorem lookup_eraseAll_eq (m : AList (fun _ : κ => ν)) (ks : List κ) (k : κ) :
    (eraseAll m ks).lookup k = if k ∈ ks then none else m.lookup k := by
  induction ks generalizing m with
  | nil => simp [eraseAll]
  | cons x ks ih =>
    rw [eraseAll_cons, ih]
    by_cases hk : k = x
    · subst hk
      simp
    · simp [hk, AList.lookup_erase_ne hk]

/-- A walk over distinct keys meets one of them once. -/
theorem filterMap_at {β : Type} {ks : List κ} (hnodup : ks.Nodup) (f : κ → Option β) (k : κ) :
    (ks.filterMap fun x => if x = k then f x else none) = if k ∈ ks then (f k).toList else [] := by
  induction ks with
  | nil => simp
  | cons x ks ih =>
    obtain ⟨hx, hks⟩ := List.nodup_cons.mp hnodup
    rw [List.filterMap_cons, ih hks]
    by_cases hk : x = k
    · subst hk
      cases f x <;> simp [hx]
    · have hk' : k ≠ x := fun h => hk h.symm
      simp [hk, hk']

/-- A fold whose steps each write one key, seen at that key: `at_ k` is what an element writes
    at `k`, `view` what is looked at there. -/
theorem lookup_foldl_at {β γ τ : Type} {write : AList (fun _ : κ => ν) → β → AList (fun _ : κ => ν)}
    {at_ : κ → β → Option γ} (view : Option ν → τ) {g : τ → γ → τ}
    (h : ∀ m b k, view ((write m b).lookup k) = ((at_ k b).map (g (view (m.lookup k)))).getD (view (m.lookup k)))
    (m : AList (fun _ : κ => ν)) (bs : List β) (k : κ) :
    view ((bs.foldl write m).lookup k) = (bs.filterMap (at_ k)).foldl g (view (m.lookup k)) := by
  induction bs generalizing m with
  | nil => rfl
  | cons b bs ih =>
    rw [List.foldl_cons, ih, h, List.filterMap_cons]
    cases at_ k b <;> rfl

/-- Once every key that is not desired is erased, only desired entries are left. -/
theorem lookup_synced {stale : List κ} (hstale : ∀ k ∈ m.keys, k ∉ es.map (·.1) → k ∈ stale) {k : κ} {v : ν}
    (h : (eraseAll (insertAll m es) stale).lookup k = some v) : (k, v) ∈ es := by
  obtain ⟨hnot, hm⟩ := lookup_eraseAll h
  rcases lookup_insertAll hm with hmem | ⟨hother, hold⟩
  · exact hmem
  · exact absurd (hstale k (AList.lookup_isSome.mp (by simp [hold])) hother) hnot

/-- And every desired entry is. -/
theorem lookup_synced_of_mem {stale : List κ} {k : κ} {v : ν}
    (hstale : k ∉ stale) (h : (k, v) ∈ es) (huniq : ∀ v', (k, v') ∈ es → v' = v) :
    (eraseAll (insertAll m es) stale).lookup k = some v := by
  rw [lookup_eraseAll_eq, if_neg hstale]
  exact lookup_insertAll_of_mem h huniq

end EdgeLb.Lib
