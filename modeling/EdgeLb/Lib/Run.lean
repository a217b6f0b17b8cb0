/-
  EdgeLb.Lib.Run — runs of a deterministic step function over a list of events, and the
  induction over a run.

  `StepsMeet step ok s es`: every event of the run from `s` meets `ok` in the state it
  is taken in. An invariant that every step meeting `ok` keeps holds at the end of every
  such run, and at every state on the way, since a run's beginnings are runs.
-/

import Mathlib.Data.List.Basic

namespace EdgeLb.Lib

variable {σ ε : Type*} (step : σ → ε → σ)

def run (s : σ) (es : List ε) : σ := es.foldl step s

@[simp] theorem run_nil (s : σ) : run step s [] = s := rfl

@[simp] theorem run_cons (s : σ) (e : ε) (es : List ε) : run step s (e :: es) = run step (step s e) es := rfl

@[simp] theorem run_append (s : σ) (es fs : List ε) : run step s (es ++ fs) = run step (run step s es) fs :=
  List.foldl_append

/-- Every event of the run meets `ok` in the state it is taken in. -/
def StepsMeet (ok : σ → ε → Prop) : σ → List ε → Prop
  | _, [] => True
  | s, e :: es => ok s e ∧ StepsMeet ok (step s e) es

instance StepsMeet.decidable (ok : σ → ε → Prop) [∀ s e, Decidable (ok s e)] :
    ∀ s es, Decidable (StepsMeet step ok s es)
  | _, [] => .isTrue trivial
  | s, e :: es => @instDecidableAnd _ _ _ (StepsMeet.decidable ok (step s e) es)

variable {I : σ → Prop}

/-- A condition that follows from another in the states of an invariant, which the other keeps. -/
theorem StepsMeet.imp {ok ok' : σ → ε → Prop} (keep : ∀ s e, I s → ok s e → I (step s e))
    (h : ∀ s e, I s → ok s e → ok' s e) {s : σ} {es : List ε} (h0 : I s) (hmeet : StepsMeet step ok s es) :
    StepsMeet step ok' s es := by
  induction es generalizing s with
  | nil => trivial
  | cons e es ih => exact ⟨h s e h0 hmeet.1, ih (keep s e h0 hmeet.1) hmeet.2⟩

/-- A condition that holds in the states of an invariant that every step keeps. -/
theorem stepsMeet_of_inv {ok : σ → ε → Prop} (h : ∀ s e, I s → ok s e ∧ I (step s e)) {s : σ} (h0 : I s) (es : List ε) :
    StepsMeet step ok s es := by
  induction es generalizing s with
  | nil => trivial
  | cons e es ih => exact ⟨(h s e h0).1, ih (h s e h0).2⟩

/-- A condition on the events alone. -/
theorem stepsMeet_of_forall {ok : ε → Prop} {es : List ε} (h : ∀ e ∈ es, ok e) (s : σ) :
    StepsMeet step (fun _ => ok) s es := by
  induction es generalizing s with
  | nil => trivial
  | cons e es ih =>
    obtain ⟨he, hes⟩ := List.forall_mem_cons.mp h
    exact ⟨he, ih hes (step s e)⟩

/-- Two conditions that agree in the states of an invariant are met by the same runs, when the
    steps that meet them keep the invariant. -/
theorem stepsMeet_congr {ok ok' : σ → ε → Prop} (keep : ∀ s e, I s → ok s e → I (step s e))
    (h : ∀ s e, I s → (ok s e ↔ ok' s e)) {s : σ} (h0 : I s) (es : List ε) :
    StepsMeet step ok s es ↔ StepsMeet step ok' s es :=
  ⟨StepsMeet.imp step keep (fun s e hs => (h s e hs).mp) h0,
    StepsMeet.imp step (fun s e hs hok => keep s e hs ((h s e hs).mpr hok)) (fun s e hs => (h s e hs).mpr) h0⟩

/-- The induction over a run. -/
theorem inv_run {ok : σ → ε → Prop} (keep : ∀ s e, I s → ok s e → I (step s e)) {s : σ}
    {es : List ε} (h0 : I s) (hmeet : StepsMeet step ok s es) : I (run step s es) := by
  induction es generalizing s with
  | nil => exact h0
  | cons e es ih => exact ih (keep s e h0 hmeet.1) hmeet.2

/-- The same for an invariant that every step keeps. -/
theorem inv_run_all (keep : ∀ s e, I s → I (step s e)) {s : σ} (h0 : I s) (es : List ε) : I (run step s es) := by
  induction es generalizing s with
  | nil => exact h0
  | cons e es ih => exact ih (keep s e h0)

/-- Where a step keeps the invariant just when it meets `ok`, the invariant holds all along a run
    just when every step does. -/
theorem inv_prefixes_iff {ok : σ → ε → Prop} (h : ∀ s e, I s → (I (step s e) ↔ ok s e)) {s : σ}
    (h0 : I s) (es : List ε) : (∀ fs, fs <+: es → I (run step s fs)) ↔ StepsMeet step ok s es := by
  constructor
  · intro hall
    induction es generalizing s with
    | nil => trivial
    | cons e es ih =>
      have h1 : I (step s e) := hall [e] (List.prefix_append [e] es)
      refine ⟨(h s e h0).mp h1, ih h1 fun fs hfs => ?_⟩
      exact hall (e :: fs) (List.prefix_cons_inj e |>.mpr hfs)
  · rintro hmeet fs ⟨gs, rfl⟩
    refine inv_run step (fun s e hs => (h s e hs).mpr) h0 ?_
    induction fs generalizing s with
    | nil => trivial
    | cons e fs ih => exact ⟨hmeet.1, ih ((h s e h0).mpr hmeet.1) hmeet.2⟩

end EdgeLb.Lib
