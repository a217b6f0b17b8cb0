/-
  EdgeLb.Lib.Refresh — keyed lists brought up to date with a list of wants.

  A want rewrites the first value of its key, or appends one. `one` is a single want, `all` the
  wants in turn, `project` also drops what no want names. Values of one key may stand in the list
  more than once; only the first is looked at.

  What becomes of a key is what its own wants make of its first value (`find_all`). If that does
  not change when they are taken again, neither does the list (`all_again`, `project_again`).
-/

import Mathlib.Data.List.Basic
import Mathlib.Data.List.Induction

namespace EdgeLb.Lib

structure Refresh (α β κ : Type) where
  key : α → κ
  wantKey : β → κ
  /-- The new value, given the first one of the key. -/
  step : β → Option α → α
  key_step : ∀ w found, key (step w found) = wantKey w

namespace Refresh

variable {α β κ : Type} [DecidableEq κ] (u : Refresh α β κ)

def one (w : β) : List α → List α
  | [] => [u.step w none]
  | a :: l => if u.key a = u.wantKey w then u.step w (some a) :: l else a :: one w l

def all (l : List α) (ws : List β) : List α := ws.foldl (fun l w => u.one w l) l

def project (l : List α) (ws : List β) : List α := (u.all l ws).filter fun a => u.key a ∈ ws.map u.wantKey

def find (l : List α) (k : κ) : Option α := l.find? fun a => u.key a = k

/-- The wants of one key, on its first value. -/
def value (found : Option α) (ws : List β) : Option α := ws.foldl (fun found w => some (u.step w found)) found

variable {u} {l : List α} {ws : List β} {k : κ}

theorem find_cons (a : α) : u.find (a :: l) k = if u.key a = k then some a else u.find l k := by
  by_cases h : u.key a = k <;> simp [find, h]

theorem find_one (w : β) :
    u.find (u.one w l) k = if u.wantKey w = k then some (u.step w (u.find l k)) else u.find l k := by
  induction l with
  | nil => rw [one, find_cons, u.key_step]; rfl
  | cons a l ih =>
    by_cases ha : u.key a = u.wantKey w
    · rw [one, if_pos ha, find_cons, find_cons, u.key_step, ha]
      split
      · rfl
      · rfl
    · rw [one, if_neg ha, find_cons, find_cons, ih]
      by_cases hk : u.key a = k
      · rw [if_pos hk, if_pos hk, if_neg (fun h => ha (hk.trans h.symm))]
      · rw [if_neg hk, if_neg hk]

theorem find_all : u.find (u.all l ws) k = u.value (u.find l k) (ws.filter fun w => u.wantKey w = k) := by
  induction ws generalizing l with
  | nil => rfl
  | cons w ws ih =>
    rw [show u.all l (w :: ws) = u.all (u.one w l) ws from rfl, ih, find_one, List.filter_cons]
    by_cases hw : u.wantKey w = k
    · rw [if_pos hw, if_pos (decide_eq_true hw)]
      rfl
    · rw [if_neg hw, if_neg (by simpa using hw)]

omit [DecidableEq κ] in
theorem isSome_value {found : Option α} (h : ws ≠ []) : (u.value found ws).isSome = true := by
  induction ws generalizing found with
  | nil => exact absurd rfl h
  | cons w ws ih =>
    cases ws with
    | nil => rfl
    | cons w' ws => exact ih (List.cons_ne_nil _ _)

omit [DecidableEq κ] in
theorem value_concat (found : Option α) (ws : List β) (w : β) :
    u.value found (ws ++ [w]) = some (u.step w (u.value found ws)) := List.foldl_concat ..

theorem filter_one {p : κ → Bool} {w : β} (hw : p (u.wantKey w) = true) :
    (u.one w l).filter (fun a => p (u.key a)) = u.one w (l.filter fun a => p (u.key a)) := by
  induction l with
  | nil => simp [one, u.key_step, hw]
  | cons a l ih =>
    by_cases ha : u.key a = u.wantKey w
    · simp [one, ha, u.key_step, hw]
    · by_cases hp : p (u.key a) = true
      · simp [one, ha, hp, ih]
      · simp [one, ha, hp, ih]

theorem filter_all {p : κ → Bool} (hws : ∀ w ∈ ws, p (u.wantKey w) = true) :
    (u.all l ws).filter (fun a => p (u.key a)) = u.all (l.filter fun a => p (u.key a)) ws := by
  induction ws generalizing l with
  | nil => rfl
  | cons w ws ih =>
    obtain ⟨hw, hws⟩ := List.forall_mem_cons.mp hws
    show (u.all (u.one w l) ws).filter _ = u.all (u.one w _) ws
    rw [ih hws, filter_one hw]

/-- The first value takes the wants of its key, and the others go on. -/
theorem all_cons (a : α) :
    ∃ b, u.value (some a) (ws.filter fun w => u.wantKey w = u.key a) = some b ∧ u.key b = u.key a ∧
      u.all (a :: l) ws = b :: u.all l (ws.filter fun w => u.wantKey w ≠ u.key a) := by
  induction ws generalizing a l with
  | nil => exact ⟨a, rfl, rfl, rfl⟩
  | cons w ws ih =>
    by_cases hw : u.key a = u.wantKey w
    · have hkey : u.key (u.step w (some a)) = u.key a := (u.key_step ..).trans hw.symm
      obtain ⟨b, hb, hbkey, hall⟩ := @ih l (u.step w (some a))
      rw [hkey] at hb hbkey hall
      refine ⟨b, ?_, hbkey, ?_⟩
      · rw [List.filter_cons_of_pos (by simp [hw])]
        exact hb
      · rw [List.filter_cons_of_neg (by simp [hw]), ← hall]
        show u.all (u.one w (a :: l)) ws = _
        rw [one, if_pos hw]
    · obtain ⟨b, hb, hbkey, hall⟩ := @ih (u.one w l) a
      refine ⟨b, ?_, hbkey, ?_⟩
      · rw [List.filter_cons_of_neg (by simp [Ne.symm hw])]
        exact hb
      · rw [List.filter_cons_of_pos (by simp [Ne.symm hw])]
        show u.all (u.one w (a :: l)) ws = b :: u.all (u.one w l) _
        rw [one, if_neg hw, hall]

section again

variable (hagain : ∀ found ws, u.value (u.value found ws) ws = u.value found ws)
include hagain

/-- Where the first value is what its wants make of something, only the others are left. -/
theorem all_cons_again {found : Option α} {b : α}
    (hb : u.value found (ws.filter fun w => u.wantKey w = u.key b) = some b) :
    u.all (b :: l) ws = b :: u.all l (ws.filter fun w => u.wantKey w ≠ u.key b) := by
  obtain ⟨c, hc, -, hall⟩ := @all_cons _ _ _ _ u l ws b
  have hsame := hagain found (ws.filter fun w => u.wantKey w = u.key b)
  rw [hb, hc] at hsame
  rw [hall, Option.some.inj hsame]

theorem all_nil_again (ws : List β) : u.all (u.all [] ws) ws = u.all [] ws := by
  match ws with
  | [] => rfl
  | w :: ws =>
    obtain ⟨b, hb, hbkey, hall⟩ := @all_cons _ _ _ _ u [] ws (u.step w none)
    rw [u.key_step] at hb hbkey hall
    have hrest : ((w :: ws).filter fun w' => u.wantKey w' ≠ u.key b) =
        ws.filter fun w' => u.wantKey w' ≠ u.wantKey w := by
      rw [List.filter_cons_of_neg (by simp [hbkey]), hbkey]
    have hfirst : u.value none ((w :: ws).filter fun w' => u.wantKey w' = u.key b) = some b := by
      rw [List.filter_cons_of_pos (by simp [hbkey]), hbkey]
      exact hb
    rw [show u.all [] (w :: ws) = u.all [u.step w none] ws from rfl, hall, all_cons_again hagain hfirst, hrest,
      all_nil_again]
termination_by ws.length
decreasing_by exact Nat.lt_succ_of_le (List.length_filter_le ..)

theorem all_again (l : List α) (ws : List β) : u.all (u.all l ws) ws = u.all l ws := by
  induction l generalizing ws with
  | nil => exact all_nil_again hagain ws
  | cons a l ih =>
    obtain ⟨b, hb, hbkey, hall⟩ := @all_cons _ _ _ _ u l ws a
    rw [← hbkey] at hb hall
    rw [hall, all_cons_again hagain hb, ih]

theorem project_again (l : List α) (ws : List β) : u.project (u.project l ws) ws = u.project l ws := by
  have hkept : ∀ w ∈ ws, decide (u.wantKey w ∈ ws.map u.wantKey) = true := fun w hw =>
    decide_eq_true (List.mem_map_of_mem hw)
  have hfilter := @filter_all _ _ _ _ u (u.all l ws) ws (fun k => decide (k ∈ ws.map u.wantKey)) hkept
  rw [all_again hagain] at hfilter
  unfold project
  rw [← hfilter, List.filter_filter]
  simp only [Bool.and_self]

end again

theorem find_project (hk : k ∈ ws.map u.wantKey) :
    u.find (u.project l ws) k = u.value (u.find l k) (ws.filter fun w => u.wantKey w = k) := by
  rw [← find_all, find, project, List.find?_filter]
  refine congrArg (List.find? · _) (funext fun a => ?_)
  by_cases ha : u.key a = k
  · simp [ha, hk]
  · simp [ha]

/-- The keys of a projection are those of its wants. -/
theorem mem_project : (∃ a ∈ u.project l ws, u.key a = k) ↔ k ∈ ws.map u.wantKey := by
  constructor
  · rintro ⟨a, ha, rfl⟩
    exact of_decide_eq_true (List.mem_filter.mp ha).2
  · intro hk
    obtain ⟨w, hw, hwk⟩ := List.mem_map.mp hk
    have hsome : (u.find (u.project l ws) k).isSome = true := by
      rw [find_project hk]
      exact isSome_value (List.ne_nil_of_mem (List.mem_filter.mpr ⟨hw, decide_eq_true hwk⟩))
    obtain ⟨a, ha, hak⟩ := List.find?_isSome.mp hsome
    exact ⟨a, ha, of_decide_eq_true hak⟩

section part

/-! A part of the value that each want keeps, from `init` on, or resets. -/

variable {σ : Type} {part : α → Option σ} {keeps : β → Bool} {init reset : σ}
  (hstep : ∀ w found, part (u.step w found) = some (if keeps w then (found.bind part).getD init else reset))
include hstep

omit [DecidableEq κ] in
theorem part_value {found : Option α} (h : ws ≠ []) :
    (u.value found ws).bind part = some (if ws.all keeps then (found.bind part).getD init else reset) := by
  induction ws using List.reverseRecOn with
  | nil => exact absurd rfl h
  | append_singleton ws w ih =>
    rw [value_concat, Option.bind_some, hstep]
    cases hw : keeps w with
    | false => simp [hw]
    | true =>
      by_cases hne : ws = []
      · simp [hne, hw, value]
      · simp [ih hne, hw]

omit [DecidableEq κ] in
theorem value_again (hcongr : ∀ w found found',
      (keeps w = true → (found.bind part).getD init = (found'.bind part).getD init) → u.step w found = u.step w found')
    (found : Option α) (ws : List β) : u.value (u.value found ws) ws = u.value found ws := by
  cases ws using List.reverseRecOn with
  | nil => rfl
  | append_singleton ws w =>
    rw [value_concat, value_concat]
    refine congrArg some (hcongr w _ _ fun hw => ?_)
    by_cases hne : ws = []
    · simp [hne, value, hstep, hw]
    · by_cases hall : ws.all keeps = true
      · simp only [part_value hstep hne, hall, if_true, Option.bind_some, hstep, hw, Option.getD_some]
      · simp only [part_value hstep hne, hall, Bool.false_eq_true, if_false]

theorem part_project :
    (u.find (u.project l ws) k).map part =
      if k ∈ ws.map u.wantKey then
        some (some (if (ws.filter fun w => u.wantKey w = k).all keeps then ((u.find l k).bind part).getD init else reset))
      else none := by
  split
  next hk =>
    obtain ⟨w, hw, hwk⟩ := List.mem_map.mp hk
    have hsome : (ws.filter fun w => u.wantKey w = k) ≠ [] :=
      List.ne_nil_of_mem (List.mem_filter.mpr ⟨hw, decide_eq_true hwk⟩)
    obtain ⟨a, ha, hpart⟩ := Option.bind_eq_some_iff.mp (part_value hstep hsome)
    rw [find_project hk, ha, Option.map_some, hpart]
  next hk =>
    rw [← mem_project] at hk
    rw [Option.map_eq_none_iff]
    exact List.find?_eq_none.mpr fun a ha hak => hk ⟨a, ha, of_decide_eq_true hak⟩

end part

end Refresh

end EdgeLb.Lib
