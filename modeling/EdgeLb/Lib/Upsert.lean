/-
  EdgeLb.Lib.Upsert — changing the first element of a list that meets a test, and putting
  an element in place of it or at the end.

  `iter_mut().find(..)` followed by an assignment, with or without `push` when there is
  none.
-/

import Mathlib.Data.List.Basic
import Mathlib.Data.List.Nodup

namespace EdgeLb.Lib

variable {α β : Type}

def updateFirst (p : α → Bool) (f : α → α) : List α → List α
  | [] => []
  | x :: xs => if p x then f x :: xs else x :: updateFirst p f xs

/-- In place of the first element that meets `p`, or at the end. -/
def upsert (p : α → Bool) (x : α) (xs : List α) : List α :=
  if xs.any p then updateFirst p (fun _ => x) xs else xs ++ [x]

variable {p : α → Bool} {xs : List α}

/-- Nothing changes when the element is already as `f` makes it. -/
theorem updateFirst_eq_self {f : α → α} (h : ∀ x, xs.find? p = some x → f x = x) : updateFirst p f xs = xs := by
  induction xs with
  | nil => rfl
  | cons x xs ih =>
    simp only [updateFirst]
    split
    · next hp => rw [h x (by simp [hp])]
    · next hp => rw [ih fun y hy => h y (by simpa [hp] using hy)]

/-- What keeps the test's answer keeps what the test finds. -/
theorem find?_updateFirst {f : α → α} (hf : ∀ x, p x = true → p (f x) = true) (xs : List α) :
    (updateFirst p f xs).find? p = (xs.find? p).map f := by
  induction xs with
  | nil => rfl
  | cons x xs ih =>
    simp only [updateFirst]
    by_cases hp : p x = true
    · simp [hp, hf x hp]
    · simp [hp, ih]

/-- A list that an element meeting the test is added to when there is none has one. -/
theorem exists_find?_ensured (own : α) (hown : p own = true) (xs : List α) :
    ∃ x, (if xs.any p then xs else xs ++ [own]).find? p = some x := by
  refine Option.isSome_iff_exists.mp (List.find?_isSome.mpr ?_)
  split
  · next hany => exact List.any_eq_true.mp hany
  · exact ⟨own, List.mem_append_right xs List.mem_cons_self, hown⟩

theorem any_of_find?_eq_some {x : α} (h : xs.find? p = some x) : xs.any p = true :=
  List.any_eq_true.mpr ⟨x, List.mem_of_find?_eq_some h, List.find?_some h⟩

theorem map_updateFirst {f : α → α} {g : α → β} (hf : ∀ x, p x = true → g (f x) = g x) (xs : List α) :
    (updateFirst p f xs).map g = xs.map g := by
  induction xs with
  | nil => rfl
  | cons x xs ih =>
    simp only [updateFirst]
    split
    · next hp => simp [hf x hp]
    · simp [ih]

theorem mem_of_mem_updateFirst {x z : α} (h : z ∈ updateFirst p (fun _ => x) xs) : z = x ∨ z ∈ xs := by
  induction xs with
  | nil => cases h
  | cons y ys ih =>
    simp only [updateFirst] at h
    split at h
    · rcases List.mem_cons.mp h with rfl | h
      · exact .inl rfl
      · exact .inr (List.mem_cons_of_mem y h)
    · rcases List.mem_cons.mp h with rfl | h
      · exact .inr List.mem_cons_self
      · exact (ih h).imp_right (List.mem_cons_of_mem y)

theorem mem_of_mem_upsert {x z : α} (h : z ∈ upsert p x xs) : z = x ∨ z ∈ xs := by
  unfold upsert at h
  split at h
  · exact mem_of_mem_updateFirst h
  · rcases List.mem_append.mp h with h | h
    · exact .inr h
    · exact .inl (List.mem_singleton.mp h)

theorem mem_updateFirst_self {x : α} (hany : xs.any p = true) : x ∈ updateFirst p (fun _ => x) xs := by
  induction xs with
  | nil => cases hany
  | cons y ys ih =>
    simp only [updateFirst]
    split
    · exact List.mem_cons_self
    · next hp => exact List.mem_cons_of_mem y (ih (by simpa [hp] using hany))

theorem mem_upsert_self {x : α} : x ∈ upsert p x xs := by
  unfold upsert
  split
  · next hany => exact mem_updateFirst_self hany
  · simp

/-- What does not meet the test stays. -/
theorem mem_updateFirst_of_mem {x z : α} (hz : z ∈ xs) (hp : p z = false) : z ∈ updateFirst p (fun _ => x) xs := by
  induction xs with
  | nil => cases hz
  | cons y ys ih =>
    simp only [updateFirst]
    rcases List.mem_cons.mp hz with rfl | hz
    · simp [hp]
    · split
      · exact List.mem_cons_of_mem x hz
      · exact List.mem_cons_of_mem y (ih hz)

theorem mem_upsert_of_mem {x z : α} (hz : z ∈ xs) (hp : p z = false) : z ∈ upsert p x xs := by
  unfold upsert
  split
  · exact mem_updateFirst_of_mem hz hp
  · exact List.mem_append_left [x] hz

section

variable {r : α → α → Prop} {x : α} (hone : xs.Pairwise fun y z => ¬(p y = true ∧ p z = true)) (hxs : xs.Pairwise r)
  (hx : ∀ y ∈ xs, p y = false → r x y ∧ r y x)
include hone hxs hx

/-- An element that agrees with all but the one it replaces keeps a list in agreement. -/
theorem pairwise_updateFirst : (updateFirst p (fun _ => x) xs).Pairwise r := by
  induction xs with
  | nil => exact .nil
  | cons y ys ih =>
    obtain ⟨hfirst, hone⟩ := List.pairwise_cons.mp hone
    obtain ⟨hy, hys⟩ := List.pairwise_cons.mp hxs
    have hx' : ∀ z ∈ ys, p z = false → r x z ∧ r z x := fun z hz => hx z (List.mem_cons_of_mem y hz)
    simp only [updateFirst]
    split
    · next hp =>
      refine List.pairwise_cons.mpr ⟨fun z hz => (hx' z hz ?_).1, hys⟩
      simpa [hp] using hfirst z hz
    · next hp =>
      refine List.pairwise_cons.mpr ⟨fun z hz => ?_, ih hone hys hx'⟩
      rcases mem_of_mem_updateFirst hz with rfl | hz
      · exact (hx y List.mem_cons_self (by simpa using hp)).2
      · exact hy z hz

theorem pairwise_upsert : (upsert p x xs).Pairwise r := by
  unfold upsert
  split
  · exact pairwise_updateFirst hone hxs hx
  · next hany =>
    have hnone : ∀ y ∈ xs, p y = false := by simpa using hany
    refine List.pairwise_append.mpr ⟨hxs, List.pairwise_singleton r x, fun y hy z hz => ?_⟩
    obtain rfl := List.mem_singleton.mp hz
    exact (hx y hy (hnone y hy)).2

end

section keyed

variable [DecidableEq β] (key : α → β)

/-- Put `x` in under its key. -/
def upsertBy (x : α) (xs : List α) : List α := upsert (fun y => key y = key x) x xs

variable {key}

variable {x : α}

theorem mem_updateFirst_of_nodup {xs : List α} (hnodup : (xs.map key).Nodup) (hany : ∃ y ∈ xs, key y = key x) {z : α} :
    z ∈ updateFirst (fun y => key y = key x) (fun _ => x) xs ↔ z = x ∨ (z ∈ xs ∧ key z ≠ key x) := by
  induction xs with
  | nil => simp at hany
  | cons y ys ih =>
    rw [List.map_cons, List.nodup_cons] at hnodup
    obtain ⟨hy, hys⟩ := hnodup
    simp only [updateFirst, decide_eq_true_eq]
    split
    · next heq =>
      -- no other element has the key
      have hother : ∀ z ∈ ys, key z ≠ key x := fun z hz h =>
        hy (heq ▸ h ▸ List.mem_map_of_mem hz)
      constructor
      · intro hz
        rcases List.mem_cons.mp hz with rfl | hz'
        · exact .inl rfl
        · exact .inr ⟨List.mem_cons_of_mem _ hz', hother z hz'⟩
      · rintro (rfl | ⟨hz, hk⟩)
        · exact List.mem_cons_self
        · rcases List.mem_cons.mp hz with rfl | hz'
          · exact absurd heq hk
          · exact List.mem_cons_of_mem _ hz'
    · next hne =>
      have hany' : ∃ y ∈ ys, key y = key x := by
        obtain ⟨w, hw, hk⟩ := hany
        rcases List.mem_cons.mp hw with rfl | hw'
        · exact absurd hk hne
        · exact ⟨w, hw', hk⟩
      rw [List.mem_cons, ih hys hany', List.mem_cons]
      constructor
      · rintro (rfl | rfl | ⟨hz, hk⟩)
        · exact .inr ⟨.inl rfl, hne⟩
        · exact .inl rfl
        · exact .inr ⟨.inr hz, hk⟩
      · rintro (rfl | ⟨rfl | hz, hk⟩)
        · exact .inr (.inl rfl)
        · exact .inl rfl
        · exact .inr (.inr ⟨hz, hk⟩)

theorem mem_upsertBy {xs : List α} (hnodup : (xs.map key).Nodup) {z : α} :
    z ∈ upsertBy key x xs ↔ z = x ∨ (z ∈ xs ∧ key z ≠ key x) := by
  unfold upsertBy upsert
  split
  · next hany => exact mem_updateFirst_of_nodup hnodup (by simpa using hany)
  · next hany =>
    have hother : ∀ z ∈ xs, key z ≠ key x := by simpa using hany
    rw [List.mem_append, List.mem_singleton, or_comm]
    exact or_congr Iff.rfl ⟨fun hz => ⟨hz, hother z hz⟩, fun hz => hz.1⟩

/-- The keys stay as they are, or gain the new one at the end. -/
theorem map_upsertBy (x : α) (xs : List α) :
    (upsertBy key x xs).map key = if key x ∈ xs.map key then xs.map key else xs.map key ++ [key x] := by
  have hiff : (xs.any fun y => key y = key x) = true ↔ key x ∈ xs.map key := by
    simp [List.mem_map]
  unfold upsertBy upsert
  by_cases hmem : key x ∈ xs.map key
  · rw [if_pos (hiff.mpr hmem), if_pos hmem]
    exact map_updateFirst (fun y hy => by simpa using (of_decide_eq_true hy).symm) xs
  · rw [if_neg (fun h => hmem (hiff.mp h)), if_neg hmem, List.map_append]
    rfl

theorem nodup_upsertBy {xs : List α} (hnodup : (xs.map key).Nodup) : ((upsertBy key x xs).map key).Nodup := by
  rw [map_upsertBy]
  split
  · exact hnodup
  · next hmem =>
    refine List.nodup_append.mpr ⟨hnodup, by simp, fun a ha b hb => ?_⟩
    rintro rfl
    exact hmem (by rwa [List.mem_singleton.mp hb] at ha)

theorem mem_map_upsertBy {xs : List α} {k : β} : k ∈ (upsertBy key x xs).map key ↔ k = key x ∨ k ∈ xs.map key := by
  rw [map_upsertBy]
  split
  · next hmem => exact ⟨.inr, fun h => h.elim (fun h => h ▸ hmem) id⟩
  · rw [List.mem_append, List.mem_singleton, or_comm]

/-- With one element for each key, an element is the one found under its key. -/
theorem find?_key_of_mem {xs : List α} (hnodup : (xs.map key).Nodup) (hx : x ∈ xs) {k : β} (hk : key x = k) :
    xs.find? (fun y => key y = k) = some x := by
  induction xs with
  | nil => cases hx
  | cons y ys ih =>
    rw [List.map_cons, List.nodup_cons] at hnodup
    rcases List.mem_cons.mp hx with rfl | hx'
    · simp [hk]
    · have hne : key y ≠ k := fun h => hnodup.1 (h ▸ hk ▸ List.mem_map_of_mem hx')
      simp [hne, ih hnodup.2 hx']

section

variable {xs : List α} {k : β} (hnodup : (xs.map key).Nodup) (hany : ∃ y ∈ xs, key y = k)
  (hfree : key x = k ∨ ∀ y ∈ xs, key y ≠ key x) (n : β)
include hnodup hany hfree

/-- What is found under a key once `x` stands in the place of the element under `k`. -/
theorem find?_updateFirst_key :
    (updateFirst (fun y => key y = k) (fun _ => x) xs).find? (fun y => key y = n) =
      if n = key x then some x else if n = k then none else xs.find? (fun y => key y = n) := by
  induction xs with
  | nil => simp at hany
  | cons y ys ih =>
    rw [List.map_cons, List.nodup_cons] at hnodup
    obtain ⟨hy, hys⟩ := hnodup
    by_cases hk : key y = k
    · subst hk
      have hnone : ys.find? (fun z => key z = key y) = none := by
        rw [List.find?_eq_none]
        intro z hz heq
        exact hy (List.mem_map.mpr ⟨z, hz, of_decide_eq_true heq⟩)
      simp only [updateFirst, decide_true, if_true]
      by_cases hx : n = key x
      · simp [hx]
      · have hx' : ¬ key x = n := fun h => hx h.symm
        by_cases hn : n = key y
        · subst hn
          simp [hx, hx', hnone]
        · have hn' : ¬ key y = n := fun h => hn h.symm
          simp [hx, hx', hn, hn']
    · have hne : key y ≠ key x := by
        rcases hfree with rfl | hfree
        · exact hk
        · exact hfree y List.mem_cons_self
      have hany' : ∃ z ∈ ys, key z = k := by
        obtain ⟨z, hz, heq⟩ := hany
        rcases List.mem_cons.mp hz with rfl | hz
        · exact absurd heq hk
        · exact ⟨z, hz, heq⟩
      have ih' := ih hys hany' (hfree.imp_right fun h z hz => h z (List.mem_cons_of_mem y hz))
      simp only [updateFirst, hk, decide_false, Bool.false_eq_true, if_false]
      by_cases hn : key y = n
      · subst hn
        simp [hne, hk]
      · simp only [List.find?_cons, hn, decide_false, ih']

theorem find?_upsert_key :
    (upsert (fun y => key y = k) x xs).find? (fun y => key y = n) =
      if n = key x then some x else if n = k then none else xs.find? (fun y => key y = n) := by
  have hpos : xs.any (fun y => key y = k) = true := by simpa using hany
  rw [upsert, if_pos hpos]
  exact find?_updateFirst_key hnodup hany hfree n

end

theorem find?_upsertBy {xs : List α} (hnodup : (xs.map key).Nodup) (n : β) :
    (upsertBy key x xs).find? (fun y => key y = n) = if n = key x then some x else xs.find? (fun y => key y = n) := by
  by_cases hany : ∃ y ∈ xs, key y = key x
  · rw [upsertBy, find?_upsert_key hnodup hany (.inl rfl)]
    split
    · rfl
    · rfl
  · have hneg : ¬ xs.any (fun y => key y = key x) = true := by simpa using hany
    rw [upsertBy, upsert, if_neg hneg, List.find?_append]
    by_cases hn : n = key x
    · have hnone : xs.find? (fun y => key y = key x) = none := by simpa using hany
      simp [hn, hnone]
    · have hn' : ¬ key x = n := fun h => hn h.symm
      simp [hn, hn']

end keyed

example : upsertBy Prod.fst (2, "x") [(1, "a"), (2, "b")] = [(1, "a"), (2, "x")] := by decide

end EdgeLb.Lib
