/-
  EdgeLb.Lib.Group — a list grouped by a key, in the order in which the keys come up.

  `(xs.map key).eraseDups` are the keys and `xs.filter (key · = k)` is the group of `k`.
  Elements written out block by block, each block under a key of its own, group back into
  the blocks.
-/

import Mathlib.Data.List.Nodup
import Mathlib.Data.List.Sort

namespace EdgeLb.Lib

variable {α β κ : Type}

theorem nodup_eraseDups [BEq κ] [LawfulBEq κ] (ks : List κ) : ks.eraseDups.Nodup := by
  generalize hn : ks.length = n
  induction n using Nat.strong_induction_on generalizing ks with
  | _ n ih =>
    cases ks with
    | nil => exact List.nodup_nil
    | cons k ks =>
      rw [List.eraseDups_cons, List.nodup_cons]
      refine ⟨by simp [List.mem_eraseDups], ih _ ?_ _ rfl⟩
      rw [← hn]
      exact Nat.lt_succ_of_le (List.length_filter_le _ _)

/-- The keys of the blocks, each block with at least one element. -/
theorem eraseDups_blocks [BEq κ] [LawfulBEq κ] {key : β → κ} {block : α → List β} {name : α → κ} {as : List α}
    (hkey : ∀ a ∈ as, ∀ b ∈ block a, key b = name a) (hne : ∀ a ∈ as, block a ≠ [])
    (hnodup : (as.map name).Nodup) : ((as.flatMap block).map key).eraseDups = as.map name := by
  induction as with
  | nil => rfl
  | cons a as ih =>
    rw [List.map_cons, List.nodup_cons] at hnodup
    have ih' := ih (fun a' ha' => hkey a' (List.mem_cons_of_mem _ ha'))
      (fun a' ha' => hne a' (List.mem_cons_of_mem _ ha')) hnodup.2
    have hblock : (block a).map key = List.replicate (block a).length (name a) :=
      List.eq_replicate_iff.mpr ⟨List.length_map _, fun k hk => by
        obtain ⟨b, hb, rfl⟩ := List.mem_map.mp hk
        exact hkey a List.mem_cons_self b hb⟩
    have hhead : ((block a).map key).eraseDups = [name a] := by
      obtain ⟨n, hn⟩ := Nat.exists_eq_succ_of_ne_zero (mt List.length_eq_zero_iff.mp (hne a List.mem_cons_self))
      rw [hblock, hn, List.replicate_succ, List.eraseDups_cons]
      simp
    have hrest : ((as.flatMap block).map key).removeAll ((block a).map key) = (as.flatMap block).map key := by
      rw [List.removeAll, List.filter_eq_self]
      intro k hk
      have hk' : k ∈ as.map name := by
        rw [← ih', List.mem_eraseDups]
        exact hk
      have hka : k ≠ name a := fun hka => hnodup.1 (hka ▸ hk')
      rw [hblock]
      simp [hka]
    rw [List.flatMap_cons, List.map_append, List.eraseDups_append, hhead, hrest, ih']
    rfl

theorem filter_blocks [DecidableEq κ] {key : β → κ} {block : α → List β} {name : α → κ} {as : List α}
    (hkey : ∀ a ∈ as, ∀ b ∈ block a, key b = name a) (hnodup : (as.map name).Nodup) {a : α} (ha : a ∈ as) :
    (as.flatMap block).filter (fun b => key b = name a) = block a := by
  induction as with
  | nil => cases ha
  | cons a' as ih =>
    rw [List.map_cons, List.nodup_cons] at hnodup
    have hkey' : ∀ a ∈ as, ∀ b ∈ block a, key b = name a := fun a ha => hkey a (List.mem_cons_of_mem _ ha)
    rw [List.flatMap_cons, List.filter_append]
    rcases List.mem_cons.mp ha with rfl | ha'
    · have hhead : (block a).filter (fun b => key b = name a) = block a := by
        rw [List.filter_eq_self]
        intro b hb
        exact decide_eq_true (hkey a List.mem_cons_self b hb)
      have hrest : (as.flatMap block).filter (fun b => key b = name a) = [] := by
        rw [List.filter_eq_nil_iff]
        intro b hb
        obtain ⟨a', ha', hb'⟩ := List.mem_flatMap.mp hb
        rw [decide_eq_true_eq, hkey' a' ha' b hb']
        exact fun h => hnodup.1 (h ▸ List.mem_map_of_mem ha')
      rw [hhead, hrest, List.append_nil]
    · have hhead : (block a').filter (fun b => key b = name a) = [] := by
        rw [List.filter_eq_nil_iff]
        intro b hb
        rw [decide_eq_true_eq, hkey a' List.mem_cons_self b hb]
        exact fun h => hnodup.1 (h ▸ List.mem_map_of_mem ha')
      rw [hhead, List.nil_append]
      exact ih hkey' hnodup.2 ha'

/-- What is read off the keys, each under its own name, keeps their order and is not repeated. -/
theorem map_filterMap_sublist {f : κ → Option α} {name : α → κ} (h : ∀ k a, f k = some a → name a = k)
    (ks : List κ) : ((ks.filterMap f).map name).Sublist ks := by
  induction ks with
  | nil => exact List.Sublist.refl _
  | cons k ks ih =>
    cases hf : f k with
    | none =>
      rw [List.filterMap_cons_none hf]
      exact ih.cons _
    | some a =>
      rw [List.filterMap_cons_some hf, List.map_cons, h k a hf]
      exact ih.cons_cons _

/-- The first `n` of a sorted list: what is not among them comes after all of them. -/
theorem mem_take_or_after {r : α → α → Prop} {as : List α} (hsorted : as.Pairwise r) (n : Nat) {a : α} (ha : a ∈ as) :
    a ∈ as.take n ∨ ((as.take n).length = n ∧ ∀ b ∈ as.take n, r b a) := by
  rw [← List.take_append_drop n as] at ha hsorted
  rcases List.mem_append.mp ha with h | h
  · exact .inl h
  · right
    refine ⟨?_, fun b hb => (List.pairwise_append.mp hsorted).2.2 b hb a h⟩
    have hlt : n < as.length := by
      by_contra hge
      rw [List.drop_eq_nil_of_le (Nat.le_of_not_lt hge)] at h
      cases h
    rw [List.length_take]
    exact Nat.min_eq_left (Nat.le_of_lt hlt)

/-- Sorting forgets the order of the input when the order tells its elements apart. -/
theorem insertionSort_eq_of_perm {r : α → α → Prop} [DecidableRel r] [IsTrans α r] [Std.Total r] {xs ys : List α}
    (hanti : ∀ a ∈ xs, ∀ b ∈ xs, r a b → r b a → a = b) (hperm : ys.Perm xs) : ys.insertionSort r = xs.insertionSort r := by
  refine List.Perm.eq_of_pairwise ?_ (List.pairwise_insertionSort r ys) (List.pairwise_insertionSort r xs)
    ((List.perm_insertionSort r ys).trans (hperm.trans (List.perm_insertionSort r xs).symm))
  intro a b ha hb hab hba
  have hmem : a ∈ xs := hperm.mem_iff.mp ((List.mem_insertionSort r).mp ha)
  have hmem' : b ∈ xs := (List.mem_insertionSort r).mp hb
  exact hanti a hmem b hmem' hab hba

/-- Lists are the same up to order when their images are and the map tells their elements apart. -/
theorem perm_of_map_perm {f : α → β} {xs ys : List α} (hinj : ∀ a ∈ xs, ∀ b ∈ ys, f a = f b → a = b)
    (h : (xs.map f).Perm (ys.map f)) : xs.Perm ys := by
  induction xs generalizing ys with
  | nil =>
    rw [List.map_nil, List.nil_perm, List.map_eq_nil_iff] at h
    rw [h]
  | cons a xs ih =>
    obtain ⟨b, hb, hfb⟩ := List.mem_map.mp (h.mem_iff.mp (List.mem_cons_self))
    obtain rfl := hinj a List.mem_cons_self b hb hfb.symm
    obtain ⟨front, back, rfl⟩ := List.append_of_mem hb
    have hrest : (xs.map f).Perm ((front ++ back).map f) := by
      have hmiddle := h.trans (List.perm_middle.map f)
      exact hmiddle.cons_inv
    refine (List.Perm.cons a (ih (fun x hx y hy => ?_) hrest)).trans List.perm_middle.symm
    exact hinj x (List.mem_cons_of_mem _ hx) y (List.perm_middle.mem_iff.mpr (List.mem_cons_of_mem _ hy))

/-- Blocks of one length are read off their concatenation. -/
theorem flatMap_inj_of_length {f : α → List β} {w : Nat} (hw : 0 < w) {xs ys : List α} (hx : ∀ a ∈ xs, (f a).length = w)
    (hy : ∀ a ∈ ys, (f a).length = w) (h : xs.flatMap f = ys.flatMap f) : xs.map f = ys.map f := by
  induction xs generalizing ys with
  | nil =>
    cases ys with
    | nil => rfl
    | cons b ys =>
      have hlen := congrArg List.length h
      rw [List.flatMap_nil, List.flatMap_cons, List.length_append, hy b List.mem_cons_self, List.length_nil] at hlen
      omega
  | cons a xs ih =>
    cases ys with
    | nil =>
      have hlen := congrArg List.length h
      rw [List.flatMap_nil, List.flatMap_cons, List.length_append, hx a List.mem_cons_self, List.length_nil] at hlen
      omega
    | cons b ys =>
      rw [List.flatMap_cons, List.flatMap_cons] at h
      obtain ⟨hhead, htail⟩ := List.append_inj h ((hx a List.mem_cons_self).trans (hy b List.mem_cons_self).symm)
      rw [List.map_cons, List.map_cons, hhead, ih (fun x hx' => hx x (List.mem_cons_of_mem _ hx'))
        (fun y hy' => hy y (List.mem_cons_of_mem _ hy')) htail]

end EdgeLb.Lib
