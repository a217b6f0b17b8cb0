/-
  EdgeLb.Lib.Check — checks that run one after the other and stop at the first that fails.

  A check answers nothing or its message. A loop over a list hands each element the ones
  already passed, which is what a set of names seen so far amounts to.
-/

import Mathlib.Data.List.Induction
import Mathlib.Data.List.Nodup
import Mathlib.Algebra.GroupWithZero.Nat

namespace EdgeLb.Lib

/-- `if c { bail!(msg) }`. -/
def bailIf (c : Bool) (msg : String) : Except String Unit := if c then .error msg else .ok ()

/-- `required(x).context(msg)?`. -/
def orBail {α : Type} (x : Option α) (msg : String) : Except String α :=
  match x with
  | some a => .ok a
  | none => .error msg

/-- Run `f` on each element in turn, with the elements before it. -/
def eachAfter {α ε : Type} (f : List α → α → Except ε Unit) (before : List α) : List α → Except ε Unit
  | [] => .ok ()
  | x :: xs => do f before x; eachAfter f (before ++ [x]) xs

/-- A loop whose body does not look back, with the index. -/
def eachIdx {α ε : Type} (f : Nat → α → Except ε Unit) (xs : List α) : Except ε Unit :=
  eachAfter (fun before x => f before.length x) [] xs

variable {α β ε : Type}

variable {f : α → Except ε β} {x : Except ε α} {xs : List α} {ys : List β}

theorem bind_eq_ok {b : β} : (x >>= f) = .ok b ↔ ∃ a, x = .ok a ∧ f a = .ok b := by
  cases x with
  | error e => simp [bind, Except.bind]
  | ok a => simp [bind, Except.bind]

theorem exists_bind_eq_ok (h : ∃ a, x = .ok a ∧ ∃ b, f a = .ok b) : ∃ b, (x >>= f) = .ok b := by
  obtain ⟨a, ha, b, hb⟩ := h
  exact ⟨b, bind_eq_ok.mpr ⟨a, ha, hb⟩⟩

theorem bind_eq_error {e : ε} : (x >>= f) = .error e ↔ x = .error e ∨ ∃ a, x = .ok a ∧ f a = .error e := by
  cases x with
  | error e' => simp [bind, Except.bind]
  | ok a => simp [bind, Except.bind]

theorem mapError_eq_ok {ε' : Type} {f : ε → ε'} {a : α} : x.mapError f = .ok a ↔ x = .ok a := by
  cases x with
  | error e => simp [Except.mapError]
  | ok b => simp [Except.mapError]

theorem map_eq_ok {f : α → β} {b : β} : x.map f = .ok b ↔ ∃ a, x = .ok a ∧ f a = b := by
  cases x with
  | error e => simp [Except.map]
  | ok a => simp [Except.map]

theorem pure_eq_ok {a b : α} : (pure a : Except ε α) = .ok b ↔ b = a :=
  ⟨fun h => (Except.ok.inj h).symm, fun h => congrArg _ h.symm⟩

/-- Two checks in a row pass when both do. -/
theorem seq_eq_ok {x : Except ε Unit} {y : Except ε β} {b : β} :
    (x >>= fun _ => y) = .ok b ↔ x = .ok () ∧ y = .ok b := by
  rw [bind_eq_ok]
  exact ⟨fun ⟨_, hx, hy⟩ => ⟨hx, hy⟩, fun ⟨hx, hy⟩ => ⟨(), hx, hy⟩⟩

@[simp] theorem bailIf_eq_ok {c : Bool} {msg : String} : bailIf c msg = .ok () ↔ c = false := by
  cases c <;> simp [bailIf]

theorem orBail_eq_ok {x : Option α} {msg : String} {a : α} : orBail x msg = .ok a ↔ x = some a := by
  cases x <;> simp [orBail]

theorem eachAfter_eq_ok {f : List α → α → Except ε Unit} {before xs : List α} :
    eachAfter f before xs = .ok () ↔ ∀ l x r, xs = l ++ x :: r → f (before ++ l) x = .ok () := by
  induction xs generalizing before with
  | nil => simp [eachAfter]
  | cons y ys ih =>
    rw [eachAfter, seq_eq_ok, ih]
    constructor
    · rintro ⟨hy, hys⟩ l x r hsplit
      cases l with
      | nil =>
        obtain ⟨rfl, -⟩ := List.cons.inj hsplit
        simpa using hy
      | cons z l =>
        obtain ⟨rfl, htail⟩ := List.cons.inj hsplit
        simpa using hys l x r htail
    · intro h
      refine ⟨by simpa using h [] y ys rfl, fun l x r hsplit => ?_⟩
      simpa using h (y :: l) x r (by rw [hsplit]; rfl)

theorem eachIdx_eq_ok {f : Nat → α → Except ε Unit} :
    eachIdx f xs = .ok () ↔ ∀ l x r, xs = l ++ x :: r → f l.length x = .ok () := by
  simp [eachIdx, eachAfter_eq_ok]

/-- A body that ignores the index passes on a list when it passes on every element. -/
theorem eachIdx_const_eq_ok {p : α → Prop} {f : Nat → α → Except ε Unit} (h : ∀ i x, f i x = .ok () ↔ p x) :
    eachIdx f xs = .ok () ↔ ∀ x ∈ xs, p x := by
  rw [eachIdx_eq_ok]
  constructor
  · intro hall x hx
    obtain ⟨l, r, rfl⟩ := List.append_of_mem hx
    exact (h _ _).mp (hall l x r rfl)
  · rintro hall l x r rfl
    exact (h _ _).mpr (hall x (by simp))

/-- A loop that holds each element against those before it passes exactly on lists in which
    every element passes alone and no two clash. -/
theorem eachAfter_pairwise {f : List α → α → Except ε Unit} {p : α → Prop} {r : α → α → Prop}
    (h : ∀ before x, f before x = .ok () ↔ p x ∧ ∀ y ∈ before, r y x) :
    eachAfter f [] xs = .ok () ↔ (∀ x ∈ xs, p x) ∧ xs.Pairwise r := by
  rw [eachAfter_eq_ok]
  simp only [List.nil_append, h]
  constructor
  · intro hall
    refine ⟨fun x hx => ?_, ?_⟩
    · obtain ⟨l, r, rfl⟩ := List.append_of_mem hx
      exact (hall l x r rfl).1
    · induction xs using List.reverseRecOn with
      | nil => exact .nil
      | append_singleton xs x ih =>
        have hx := (hall xs x [] rfl).2
        have hxs := ih fun l y r hsplit => hall l y (r ++ [x]) (by rw [hsplit]; simp)
        refine List.pairwise_append.mpr ⟨hxs, List.pairwise_singleton r x, fun y hy z hz => ?_⟩
        obtain rfl := List.mem_singleton.mp hz
        exact hx y hy
  · rintro ⟨hp, hpair⟩ l x r rfl
    exact ⟨hp x (by simp), fun y hy => (List.pairwise_append.mp hpair).2.2 y hy x List.mem_cons_self⟩

/-- A loop that refuses a repeated key passes exactly on lists without one. -/
theorem eachAfter_nodup {f : List α → α → Except ε Unit} {key : α → β} {p : α → Prop}
    (h : ∀ before x, f before x = .ok () ↔ p x ∧ key x ∉ before.map key) :
    eachAfter f [] xs = .ok () ↔ (∀ x ∈ xs, p x) ∧ (xs.map key).Nodup := by
  have hclash : ∀ before x, f before x = .ok () ↔ p x ∧ ∀ y ∈ before, key y ≠ key x := fun before x => by
    rw [h, List.mem_map]
    exact and_congr_right fun _ => ⟨fun hnot y hy heq => hnot ⟨y, hy, heq⟩, fun hne ⟨y, hy, heq⟩ => hne y hy heq⟩
  rw [eachAfter_pairwise hclash, List.Nodup, List.pairwise_map]

/-- What passes a stricter loop passes the looser one. -/
theorem eachAfter_mono {f g : List α → α → Except ε Unit} (h : ∀ before x, f before x = .ok () → g before x = .ok ())
    (hf : eachAfter f [] xs = .ok ()) : eachAfter g [] xs = .ok () := by
  rw [eachAfter_eq_ok] at hf ⊢
  exact fun l x r hsplit => h _ x (hf l x r hsplit)

/-! ## Mapping with a function that may fail -/

theorem mapM_cons_eq_ok {x : α} :
    (x :: xs).mapM f = .ok ys ↔ ∃ y zs, f x = .ok y ∧ xs.mapM f = .ok zs ∧ ys = y :: zs := by
  rw [List.mapM_cons, bind_eq_ok]
  constructor
  · rintro ⟨y, hy, h⟩
    obtain ⟨zs, hzs, h⟩ := bind_eq_ok.mp h
    exact ⟨y, zs, hy, hzs, (Except.ok.inj h).symm⟩
  · rintro ⟨y, zs, hy, hzs, rfl⟩
    exact ⟨y, hy, bind_eq_ok.mpr ⟨zs, hzs, rfl⟩⟩

theorem mapM_eq_map {g : α → β} (h : ∀ x ∈ xs, f x = .ok (g x)) : xs.mapM f = .ok (xs.map g) := by
  induction xs with
  | nil => rfl
  | cons x xs ih =>
    have hxs := ih fun y hy => h y (List.mem_cons_of_mem x hy)
    exact mapM_cons_eq_ok.mpr ⟨g x, xs.map g, h x List.mem_cons_self, hxs, rfl⟩

theorem mapM_congr {f g : α → Except ε β} (h : ∀ x ∈ xs, f x = g x) : xs.mapM f = xs.mapM g := by
  induction xs with
  | nil => rfl
  | cons x xs ih =>
    rw [List.mapM_cons, List.mapM_cons, h x List.mem_cons_self, ih fun y hy => h y (List.mem_cons_of_mem x hy)]

theorem mapM_map_ok {γ : Type} {f : α → β} {g : β → Except ε γ} {h : α → γ} (hg : ∀ x, g (f x) = .ok (h x))
    (xs : List α) : (xs.map f).mapM g = .ok (xs.map h) := by
  rw [List.mapM_map]
  exact mapM_eq_map fun x _ => hg x

theorem mem_of_mapM_eq_ok (h : xs.mapM f = .ok ys) {y : β} (hy : y ∈ ys) : ∃ x ∈ xs, f x = .ok y := by
  induction xs generalizing ys with
  | nil =>
    cases h
    cases hy
  | cons x xs ih =>
    obtain ⟨z, zs, hz, hzs, rfl⟩ := mapM_cons_eq_ok.mp h
    rcases List.mem_cons.mp hy with rfl | hy
    · exact ⟨x, List.mem_cons_self, hz⟩
    · obtain ⟨x', hx', hf⟩ := ih hzs hy
      exact ⟨x', List.mem_cons_of_mem x hx', hf⟩

theorem mapM_ok_of_mem (h : xs.mapM f = .ok ys) {x : α} (hx : x ∈ xs) : ∃ y ∈ ys, f x = .ok y := by
  induction xs generalizing ys with
  | nil => cases hx
  | cons x' xs ih =>
    obtain ⟨z, zs, hz, hzs, rfl⟩ := mapM_cons_eq_ok.mp h
    rcases List.mem_cons.mp hx with rfl | hx
    · exact ⟨z, List.mem_cons_self, hz⟩
    · obtain ⟨y, hy, hf⟩ := ih hzs hx
      exact ⟨y, List.mem_cons_of_mem z hy, hf⟩

theorem mapM_ok_nil_iff (h : xs.mapM f = .ok ys) : ys = [] ↔ xs = [] := by
  cases xs with
  | nil =>
    obtain rfl := Except.ok.inj h
    exact iff_of_true rfl rfl
  | cons x xs =>
    obtain ⟨y, zs, -, -, rfl⟩ := mapM_cons_eq_ok.mp h
    exact iff_of_false (List.cons_ne_nil y zs) (List.cons_ne_nil x xs)

theorem exists_mapM_eq_ok (h : ∀ x ∈ xs, ∃ y, f x = .ok y) : ∃ ys, xs.mapM f = .ok ys := by
  induction xs with
  | nil => exact ⟨[], rfl⟩
  | cons x xs ih =>
    obtain ⟨y, hy⟩ := h x List.mem_cons_self
    obtain ⟨ys, hys⟩ := ih fun x' hx' => h x' (List.mem_cons_of_mem x hx')
    exact ⟨y :: ys, mapM_cons_eq_ok.mpr ⟨y, ys, hy, hys, rfl⟩⟩

theorem flatMap_of_mapM_eq_ok {f : α → Except ε (List β)} {out : List (List β)}
    (h : xs.mapM f = .ok out) : (xs.flatMap fun x => (f x).toOption.getD []) = out.flatten := by
  induction xs generalizing out with
  | nil =>
    cases h
    rfl
  | cons x xs ih =>
    obtain ⟨y, ys, hy, hys, rfl⟩ := mapM_cons_eq_ok.mp h
    rw [List.flatMap_cons, List.flatten_cons, ih hys, hy]
    rfl

/-! ## Loops that carry a state -/

theorem foldlM_snoc_eq_ok {σ : Type} {f : σ → α → Except ε σ} {s t : σ} {x : α} :
    (xs ++ [x]).foldlM f s = .ok t ↔ ∃ u, xs.foldlM f s = .ok u ∧ f u x = .ok t := by
  rw [List.foldlM_append, bind_eq_ok]
  simp only [List.foldlM_cons, List.foldlM_nil, bind_pure]

/-- A loop that ends has taken a step on every element. -/
theorem step_of_foldlM_eq_ok {σ : Type} {f : σ → α → Except ε σ} {s t : σ} (h : xs.foldlM f s = .ok t)
    {x : α} (hx : x ∈ xs) : ∃ u v, f u x = .ok v := by
  induction xs generalizing s with
  | nil => cases hx
  | cons y ys ih =>
    rw [List.foldlM_cons, bind_eq_ok] at h
    obtain ⟨u, hy, hys⟩ := h
    rcases List.mem_cons.mp hx with rfl | hx
    · exact ⟨s, u, hy⟩
    · exact ih hys hx

/-! ## Sums of counts that may fail -/

/-- What was counted; nothing for a count that failed. -/
def counted (x : Except ε Nat) : Nat :=
  match x with
  | .ok n => n
  | .error _ => 0

theorem foldlM_add_eq_ok {f : α → Except ε Nat} {a n : Nat} :
    xs.foldlM (fun acc x => do return acc + (← f x)) a = .ok n ↔
      (∀ x ∈ xs, ∃ k, f x = .ok k) ∧ a + (xs.map fun x => counted (f x)).sum = n := by
  induction xs generalizing a with
  | nil => simp [List.foldlM, pure, Except.pure]
  | cons x xs ih =>
    rw [List.foldlM_cons, bind_eq_ok]
    constructor
    · rintro ⟨acc, hacc, hrest⟩
      obtain ⟨k, hk, hsum⟩ := bind_eq_ok.mp hacc
      obtain rfl := Except.ok.inj hsum
      obtain ⟨hall, htotal⟩ := ih.mp hrest
      refine ⟨List.forall_mem_cons.mpr ⟨⟨k, hk⟩, hall⟩, ?_⟩
      rw [List.map_cons, List.sum_cons, hk, counted, ← htotal]
      omega
    · rintro ⟨hall, htotal⟩
      obtain ⟨⟨k, hk⟩, hrest⟩ := List.forall_mem_cons.mp hall
      refine ⟨a + k, bind_eq_ok.mpr ⟨k, hk, rfl⟩, ih.mpr ⟨hrest, ?_⟩⟩
      rw [List.map_cons, List.sum_cons, hk, counted] at htotal
      omega

end EdgeLb.Lib
