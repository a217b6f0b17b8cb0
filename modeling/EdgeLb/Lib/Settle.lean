/-
  EdgeLb.Lib.Settle — tasks tried once each, in order, on one state.

  `next c t` is what task `t` would make of the state `c`, or nothing when `c` is as the task
  wants it. `settle` takes over what a check accepts and stops at the first state it refuses.

  A second run does nothing (`stopped_settle`). A program whose steps do the tasks settles
  what it holds (`tryEach_settles`). Where two runs differ in their checks alone,
  one wakes the other neither when its check refuses all or nothing (`Stopped.after_total`),
  nor when the other's check refuses what it accepts only by refusing everything
  (`Stopped.after_stuck`).
-/

import Mathlib.Data.List.Basic

namespace EdgeLb.Lib

variable {σ τ : Type*} (next : σ → τ → Option σ)

def settle (ok : σ → Bool) (c : σ) : List τ → σ
  | [] => c
  | t :: ts =>
    match next c t with
    | none => settle ok c ts
    | some c' => if ok c' then settle ok c' ts else c

/-- Nothing is left to do, up to a task that is refused. -/
inductive Stopped (ok : σ → Bool) (c : σ) : List τ → Prop
  | nil : Stopped ok c []
  | fresh {t : τ} {ts : List τ} : next c t = none → Stopped ok c ts → Stopped ok c (t :: ts)
  | refused {t : τ} {ts : List τ} {c' : σ} : next c t = some c' → ok c' = false → Stopped ok c (t :: ts)

/-- A task is done once its state is taken over, and the others do not undo it. -/
structure Tasks (I : σ → Prop) (ts : List τ) : Prop where
  keeps : ∀ {c c' : σ} {t : τ}, I c → t ∈ ts → next c t = some c' → I c'
  done : ∀ {c c' : σ} {t : τ}, I c → t ∈ ts → next c t = some c' → next c' t = none
  frame : ∀ {c c' : σ} {t u : τ}, I c → t ∈ ts → u ∈ ts → next c t = none → next c u = some c' → next c' t = none

variable {next} {ok ok' : σ → Bool} {c : σ} {ts us : List τ}

theorem stopped_of_fresh (h : ∀ t ∈ ts, next c t = none) : Stopped next ok c ts := by
  induction ts with
  | nil => exact .nil
  | cons t ts ih => exact .fresh (h t List.mem_cons_self) (ih fun u hu => h u (List.mem_cons_of_mem t hu))

theorem stopped_of_never (h : ∀ c, ok c = false) (c : σ) (ts : List τ) : Stopped next ok c ts := by
  induction ts with
  | nil => exact .nil
  | cons t ts ih =>
    cases hnext : next c t with
    | none => exact .fresh hnext ih
    | some c' => exact .refused hnext (h c')

section

variable {I : σ → Prop}

/-- What every task keeps, a run keeps. -/
theorem settle_keeps {Q : σ → Prop} (h : Tasks next I ts)
    (hQ : ∀ c c' t, I c → Q c → t ∈ ts → next c t = some c' → Q c') (hus : us ⊆ ts) (hc : I c) (hq : Q c) :
    I (settle next ok c us) ∧ Q (settle next ok c us) := by
  induction us generalizing c with
  | nil => exact ⟨hc, hq⟩
  | cons t us ih =>
    obtain ⟨ht, hrest⟩ := List.cons_subset.mp hus
    unfold settle
    split
    · exact ih hrest hc hq
    next c' hnext =>
      split
      · exact ih hrest (h.keeps hc ht hnext) (hQ c c' t hc hq ht hnext)
      · exact ⟨hc, hq⟩

theorem settle_fresh (h : Tasks next I ts) (hus : us ⊆ ts) (hc : I c) {t : τ} (ht : t ∈ ts) (hfresh : next c t = none) :
    next (settle next ok c us) t = none := by
  have hkeep : ∀ c c' u, I c → next c t = none → u ∈ ts → next c u = some c' → next c' t = none :=
    fun c c' u hc hfresh hu hnext => h.frame hc ht hu hfresh hnext
  exact (settle_keeps h hkeep hus hc hfresh).2

/-- A run leaves nothing that a second one would do. -/
theorem stopped_settle (h : Tasks next I ts) (hus : us ⊆ ts) (hc : I c) : Stopped next ok (settle next ok c us) us := by
  induction us generalizing c with
  | nil => exact .nil
  | cons t us ih =>
    obtain ⟨ht, hrest⟩ := List.cons_subset.mp hus
    unfold settle
    split
    next hnext => exact .fresh (settle_fresh h hrest hc ht hnext) (ih hrest hc)
    next c' hnext =>
      have hc' := h.keeps hc ht hnext
      split
      · exact .fresh (settle_fresh h hrest hc' ht (h.done hc ht hnext)) (ih hrest hc')
      next hrefused => exact .refused hnext (Bool.not_eq_true _ ▸ hrefused)

/-- After a state it has accepted, the check accepts whatever the tasks make of it. -/
def AcceptsOn (next : σ → τ → Option σ) (ok : σ → Bool) (I : σ → Prop) (ts : List τ) : Prop :=
  ∀ c c' t, I c → ok c = true → t ∈ ts → next c t = some c' → ok c' = true

section

variable (h : Tasks next I ts) (hok : AcceptsOn next ok I ts)
include h hok

/-- Once a state has been accepted, the run does every task. -/
theorem settle_accepted (hus : us ⊆ ts) (hc : I c) (haccepted : ok c = true) :
    ∀ t ∈ us, next (settle next ok c us) t = none := by
  induction us generalizing c with
  | nil => exact fun t ht => absurd ht List.not_mem_nil
  | cons t us ih =>
    obtain ⟨ht, hrest⟩ := List.cons_subset.mp hus
    unfold settle
    split
    next hnext => exact List.forall_mem_cons.mpr ⟨settle_fresh h hrest hc ht hnext, ih hrest hc haccepted⟩
    next c' hnext =>
      have hc' := h.keeps hc ht hnext
      have haccepted' := hok c c' t hc haccepted ht hnext
      rw [if_pos haccepted']
      exact List.forall_mem_cons.mpr
        ⟨settle_fresh h hrest hc' ht (h.done hc ht hnext), ih hrest hc' haccepted'⟩

/-- The first task that is not done decides: accepted, all are done. -/
theorem settle_all (hus : us ⊆ ts) (hc : I c)
    (hfirst : ∀ t c', (us.find? fun t => (next c t).isSome) = some t → next c t = some c' → ok c' = true) :
    ∀ t ∈ us, next (settle next ok c us) t = none := by
  induction us with
  | nil => exact fun t ht => absurd ht List.not_mem_nil
  | cons t us ih =>
    obtain ⟨ht, hrest⟩ := List.cons_subset.mp hus
    unfold settle
    split
    next hnext =>
      have hall := ih hrest fun u c' hu => hfirst u c' (by simpa [hnext] using hu)
      exact List.forall_mem_cons.mpr ⟨settle_fresh h hrest hc ht hnext, hall⟩
    next c' hnext =>
      have hc' := h.keeps hc ht hnext
      have haccepted := hfirst t c' (by simp [hnext]) hnext
      rw [if_pos haccepted]
      exact List.forall_mem_cons.mpr
        ⟨settle_fresh h hrest hc' ht (h.done hc ht hnext), settle_accepted h hok hrest hc' haccepted⟩

end

/-- Refused, none is. -/
theorem settle_none {t : τ} {c' : σ} (hfirst : (us.find? fun t => (next c t).isSome) = some t) (hnext : next c t = some c')
    (hrefused : ok c' = false) : settle next ok c us = c := by
  induction us with
  | nil => cases hfirst
  | cons u us ih =>
    cases hu : next c u with
    | none =>
      simp only [settle, hu]
      exact ih (by simpa [hu] using hfirst)
    | some d =>
      obtain rfl : u = t := by simpa [hu] using hfirst
      obtain rfl := Option.some.inj (hu.symm.trans hnext)
      simp [settle, hu, hrefused]

theorem Stopped.after_total (hstopped : Stopped next ok' c ts) (h : Tasks next I ts) (hok : AcceptsOn next ok I ts)
    (hc : I c) : Stopped next ok' (settle next ok c ts) ts := by
  by_cases hfirst : ∀ t c', (ts.find? fun t => (next c t).isSome) = some t → next c t = some c' → ok c' = true
  · exact stopped_of_fresh (settle_all h hok (List.Subset.refl ts) hc hfirst)
  · push Not at hfirst
    obtain ⟨t, c', hfirst, hnext, hrefused⟩ := hfirst
    rw [settle_none hfirst hnext (Bool.not_eq_true _ ▸ hrefused)]
    exact hstopped

end

/-- What the other check accepts is refused here only because everything is. -/
theorem Stopped.after_stuck (hstopped : Stopped next ok c ts)
    (hstuck : ∀ t ∈ ts, ∀ c', next c t = some c' → ok' c' = true → ok c' = false → ∀ x, ok x = false) :
    Stopped next ok (settle next ok' c ts) ts := by
  have hcases : settle next ok' c ts = c ∨ ∀ x, ok x = false := by
    induction hstopped with
    | nil => exact .inl rfl
    | @fresh t ts hnext _ ih =>
      simp only [settle, hnext]
      exact ih fun u hu => hstuck u (List.mem_cons_of_mem t hu)
    | @refused t ts c' hnext hrefused =>
      cases haccepted : ok' c' with
      | false => exact .inl (by simp [settle, hnext, haccepted])
      | true => exact .inr (hstuck t List.mem_cons_self c' hnext haccepted hrefused)
  rcases hcases with hsame | hnever
  · rw [hsame]
    exact hstopped
  · exact stopped_of_never hnever _ ts

/-! ## A program that does the tasks -/

section

variable {S ε : Type*}

/-- The tasks in order, and whether one of them has changed the state; a failure ends it. -/
def tryEach (step : List τ → S → τ → S × Except ε Bool) (changed : Bool) (s : S) : List τ → S × Except ε Bool
  | [] => (s, .ok changed)
  | t :: ts =>
    match step ts s t with
    | (s, .ok b) => tryEach step (changed || b) s ts
    | (s, .error e) => (s, .error e)

/-- A step does its task or fails as the check refuses. `Inv n ts c s` says that `s` holds `c`,
    with the tasks `ts` to come and room for `n` writes. -/
structure Attempts (next : σ → τ → Option σ) (ok : σ → Bool) (step : List τ → S → τ → S × Except ε Bool)
    (Inv : Nat → List τ → σ → S → Prop) : Prop where
  skip : ∀ {n : Nat} {t : τ} {ts : List τ} {c : σ} {s : S}, Inv n (t :: ts) c s → Inv n ts c s
  mono : ∀ {m n : Nat} {ts : List τ} {c : σ} {s : S}, m ≤ n → Inv n ts c s → Inv m ts c s
  fresh : ∀ {n : Nat} {t : τ} {ts : List τ} {c : σ} {s : S}, Inv n (t :: ts) c s → next c t = none →
    ∃ b, step ts s t = (s, .ok b)
  refused : ∀ {n : Nat} {t : τ} {ts : List τ} {c c' : σ} {s : S}, Inv n (t :: ts) c s → next c t = some c' →
    ok c' = false → ∃ e, step ts s t = (s, .error e)
  taken : ∀ {n : Nat} {t : τ} {ts : List τ} {c c' : σ} {s : S}, Inv (n + 1) (t :: ts) c s → next c t = some c' →
    ok c' = true → ∃ s' b, step ts s t = (s', .ok b) ∧ Inv n ts c' s'

variable {step : List τ → S → τ → S × Except ε Bool} {Inv : Nat → List τ → σ → S → Prop} {s : S} {n : Nat}
  (h : Attempts next ok step Inv)
include h

theorem Attempts.skip_all (hs : Inv n ts c s) : Inv n [] c s := by
  induction ts with
  | nil => exact hs
  | cons t ts ih => exact ih (h.skip hs)

/-- A run of the program settles what it holds. -/
theorem tryEach_settles (changed : Bool) (hs : Inv (ts.length + n) ts c s) :
    Inv n [] (settle next ok c ts) (tryEach step changed s ts).1 := by
  induction ts generalizing s c changed with
  | nil =>
    rw [List.length_nil, Nat.zero_add] at hs
    exact hs
  | cons t ts ih =>
    have hroom : (t :: ts).length + n = ts.length + n + 1 := by simp only [List.length_cons]; omega
    rw [hroom] at hs
    unfold settle tryEach
    split
    next hnext =>
      obtain ⟨b, hstep⟩ := h.fresh hs hnext
      rw [hstep]
      exact ih _ (h.mono (Nat.le_succ _) (h.skip hs))
    next c' hnext =>
      cases haccepted : ok c' with
      | true =>
        obtain ⟨s', b, hstep, hs'⟩ := h.taken hs hnext haccepted
        rw [hstep]
        exact ih _ hs'
      | false =>
        obtain ⟨e, hstep⟩ := h.refused hs hnext haccepted
        rw [hstep]
        exact h.mono (by omega) (h.skip_all hs)

theorem tryEach_stopped (hstopped : Stopped next ok c ts) (changed : Bool) (hs : Inv n ts c s) :
    (tryEach step changed s ts).1 = s := by
  induction hstopped generalizing changed with
  | nil => rfl
  | fresh hnext _ ih =>
    obtain ⟨b, hstep⟩ := h.fresh hs hnext
    unfold tryEach
    rw [hstep]
    exact ih _ (h.skip hs)
  | refused hnext hrefused =>
    obtain ⟨e, hstep⟩ := h.refused hs hnext hrefused
    unfold tryEach
    rw [hstep]

end

end EdgeLb.Lib
