/-
  EdgeLb.Lib.Since — "since" over a log that is kept newest first.

  `Since start keep log`: at some point of the log `start` held of what had been logged by then,
  and every entry after it satisfies `keep`.
-/

namespace EdgeLb.Lib

section since

variable {α : Type} {start : List α → Prop} {keep : α → Prop}

def Since (start : List α → Prop) (keep : α → Prop) (log : List α) : Prop :=
  ∃ later earlier, log = later ++ earlier ∧ start earlier ∧ ∀ x ∈ later, keep x

theorem since_nil : Since start keep [] ↔ start [] := by
  constructor
  · intro ⟨later, earlier, heq, hstart, _⟩
    obtain ⟨_, rfl⟩ := List.append_eq_nil_iff.mp heq.symm
    exact hstart
  · intro h
    exact ⟨[], [], rfl, h, by simp⟩

theorem since_cons {x : α} {log : List α} :
    Since start keep (x :: log) ↔ start (x :: log) ∨ Since start keep log ∧ keep x := by
  constructor
  · intro ⟨later, earlier, heq, hstart, hkeep⟩
    cases later with
    | nil =>
      left
      rw [heq]
      exact hstart
    | cons y later =>
      obtain ⟨rfl, rfl⟩ := List.cons.inj heq
      right
      exact ⟨⟨later, earlier, rfl, hstart, fun z hz => hkeep z (List.mem_cons_of_mem _ hz)⟩, hkeep x List.mem_cons_self⟩
  · intro h
    rcases h with hstart | ⟨⟨later, earlier, rfl, hstart, hlater⟩, hkeep⟩
    · exact ⟨[], x :: log, rfl, hstart, by simp⟩
    · exact ⟨x :: later, earlier, rfl, hstart, List.forall_mem_cons.mpr ⟨hkeep, hlater⟩⟩

end since

end EdgeLb.Lib
