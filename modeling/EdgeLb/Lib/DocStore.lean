/-
  EdgeLb.Lib.DocStore — a store of documents whose every write carries a revision that was
  never used before, and the compare-and-put over several documents that it allows.

  Each operation is one transaction: it happens as a whole or leaves the store as it was.
  The revisions ever used are kept in a table of their own, so a revision names one write
  for ever, also of a document that has been deleted since.

  `Seen st snap` says that `snap` was read from the store at some earlier point, as far as
  it matters: a document that still has the revision it had then is that document. Every
  operation keeps it (`Grows.seen`), and a compare-and-put that expects the revisions of
  such a snapshot on every key succeeds only on a store that holds the snapshot itself
  (`Seen.eq_of_revisions`). A key that is absent in both is the same, whatever it held in
  between.
-/

import Mathlib.Data.List.Basic

namespace EdgeLb.Lib

structure StoredDocument (P : Type) where
  payload : P
  revision : Int
  updatedAt : String
  deriving DecidableEq

abbrev Docs (K P : Type) := K → Option (StoredDocument P)

structure DocStore (K P : Type) where
  docs : Docs K P
  /-- Every revision a committed write has carried. -/
  revisions : List Int

def revisionOf {P : Type} (d : Option (StoredDocument P)) : Option Int := d.map (·.revision)

structure DocumentChange (K P : Type) where
  key : K
  expectedRevision : Option Int
  payload : P

structure DocumentGuard (K : Type) where
  key : K
  expectedRevision : Option Int

/-- A write that looks at no expected revision. `other` is one to a document outside `K`. -/
inductive RawWrite (K P : Type)
  | put (key : K) (payload : P)
  | putIfChanged (key : K) (payload : P)
  | delete (key : K)
  | other

section ops

variable {K P : Type} [DecidableEq K] [DecidableEq P]

/-- The documents after writing `payload` under `key`. -/
def Docs.set (docs : Docs K P) (key : K) (doc : Option (StoredDocument P)) : Docs K P :=
  fun k => if k = key then doc else docs k

def DocStore.apply (st : DocStore K P) (w : RawWrite K P) (revision : Int) (now : String) :
    Except String (DocStore K P) :=
  let commit (docs : Docs K P) : Except String (DocStore K P) :=
    if revision ∈ st.revisions then .error "UNIQUE constraint failed"
    else .ok { docs, revisions := revision :: st.revisions }
  match w with
  | .put k p => commit (st.docs.set k (some ⟨p, revision, now⟩))
  | .putIfChanged k p =>
    if (st.docs k).map (·.payload) = some p then .ok st else commit (st.docs.set k (some ⟨p, revision, now⟩))
  | .delete k => commit (st.docs.set k none)
  | .other => commit st.docs

/-- The documents after all changes of a transaction. -/
def Docs.change (docs : Docs K P) (changes : List (DocumentChange K P)) (revision : Int) (now : String) : Docs K P :=
  changes.foldl (fun docs c => docs.set c.key (some ⟨c.payload, revision, now⟩)) docs

/-- Whether every document to change is at its expected revision, which has to advance. -/
def checkChanges (docs : Docs K P) (revision : Int) : List (DocumentChange K P) → Except String Bool
  | [] => .ok true
  | c :: cs =>
    if revisionOf (docs c.key) ≠ c.expectedRevision then .ok false
    else if c.expectedRevision.any fun old => revision ≤ old then .error "revision must advance"
    else checkChanges docs revision cs

/-- `none` when a document is not at its expected revision. -/
def DocStore.compareAndPut (st : DocStore K P) (changes : List (DocumentChange K P))
    (guards : List (DocumentGuard K)) (revision : Int) (now : String) : Except String (Option (DocStore K P)) :=
  if ¬ (changes.map (·.key)).Nodup then .error "duplicate document in transaction"
  else if guards.any fun g => revisionOf (st.docs g.key) ≠ g.expectedRevision then .ok none
  else
    match checkChanges st.docs revision changes with
    | .error e => .error e
    | .ok false => .ok none
    | .ok true =>
      if revision ∈ st.revisions then .error "UNIQUE constraint failed"
      else .ok (some { docs := st.docs.change changes revision now, revisions := revision :: st.revisions })

end ops

/-! ## What an operation can do -/

section grows

variable {K P : Type}

/-- Every document keeps its row, loses it, or gets one with a revision of its own. -/
structure Grows (st st' : DocStore K P) : Prop where
  revisions : ∀ r ∈ st.revisions, r ∈ st'.revisions
  docs : ∀ k, st'.docs k = st.docs k ∨ st'.docs k = none ∨
    ∃ d, st'.docs k = some d ∧ d.revision ∉ st.revisions ∧ d.revision ∈ st'.revisions

def Seen (st : DocStore K P) (snap : Docs K P) : Prop :=
  ∀ k d, snap k = some d → d.revision ∈ st.revisions ∧
    ∀ d', st.docs k = some d' → d'.revision = d.revision → d' = d

/-- Every document's revision is in the table of revisions. -/
def WellFormed (st : DocStore K P) : Prop := ∀ k d, st.docs k = some d → d.revision ∈ st.revisions

theorem Grows.refl (st : DocStore K P) : Grows st st := ⟨fun _ h => h, fun _ => .inl rfl⟩

theorem WellFormed.seen {st : DocStore K P} (h : WellFormed st) : Seen st st.docs := by
  intro k d hd
  refine ⟨h k d hd, fun d' hd' _ => ?_⟩
  rw [hd] at hd'
  exact (Option.some.inj hd').symm

variable {st st' : DocStore K P} {revision : Int} {changes : List (DocumentChange K P)} {now : String}

theorem Grows.wellFormed (hg : Grows st st') (h : WellFormed st) : WellFormed st' := by
  intro k d hd
  rcases hg.docs k with hk | hk | ⟨d', hk, -, hrev⟩
  · exact hg.revisions _ (h k d (hk ▸ hd))
  · rw [hk] at hd; cases hd
  · rw [hk] at hd; cases hd; exact hrev

theorem Grows.seen (hg : Grows st st') {snap : Docs K P} (h : Seen st snap) : Seen st' snap := by
  intro k d hd
  obtain ⟨hmem, hsame⟩ := h k d hd
  refine ⟨hg.revisions _ hmem, fun d' hd' hrev => ?_⟩
  rcases hg.docs k with hk | hk | ⟨e, hk, hnew, -⟩
  · exact hsame d' (hk ▸ hd') hrev
  · rw [hk] at hd'; cases hd'
  · -- a document written since has a revision the snapshot cannot hold
    rw [hk] at hd'
    obtain rfl := Option.some.inj hd'
    exact absurd (hrev ▸ hmem) hnew

/-- A store at the revisions of a snapshot seen earlier holds that snapshot. -/
theorem Seen.eq_of_revisions {st : DocStore K P} {snap : Docs K P} (h : Seen st snap)
    (hrev : ∀ k, revisionOf (st.docs k) = revisionOf (snap k)) : st.docs = snap := by
  funext k
  have hk := hrev k
  cases hs : snap k with
  | none =>
    rw [hs] at hk
    exact Option.map_eq_none_iff.mp hk
  | some d =>
    rw [hs] at hk
    obtain ⟨d', hd', hr⟩ := Option.map_eq_some_iff.mp hk
    rw [hd', (h k d hs).2 d' hd' hr]

/-- Writing rows under a fresh revision, or dropping one. -/
theorem grows_of_fresh {st : DocStore K P} {docs : Docs K P} (hfresh : revision ∉ st.revisions)
    (h : ∀ k, docs k = st.docs k ∨ docs k = none ∨ ∃ d, docs k = some d ∧ d.revision = revision) :
    Grows st { docs, revisions := revision :: st.revisions } := by
  refine ⟨fun r hr => List.mem_cons_of_mem _ hr, fun k => ?_⟩
  rcases h k with hk | hk | ⟨d, hk, rfl⟩
  · exact .inl hk
  · exact .inr (.inl hk)
  · exact .inr (.inr ⟨d, hk, hfresh, List.mem_cons_self⟩)

theorem checkChanges_true {docs : Docs K P} (h : checkChanges docs revision changes = .ok true) :
    ∀ c ∈ changes, revisionOf (docs c.key) = c.expectedRevision := by
  induction changes with
  | nil => intro c hc; cases hc
  | cons c cs ih =>
    unfold checkChanges at h
    split at h
    · cases h
    next hrev =>
      split at h
      · cases h
      · intro c' hc'
        rcases List.mem_cons.mp hc' with rfl | hc'
        · exact not_not.mp hrev
        · exact ih h c' hc'

variable [DecidableEq K]

theorem set_of_ne (docs : Docs K P) {key k : K} (h : k ≠ key) (doc : Option (StoredDocument P)) :
    docs.set key doc k = docs k := if_neg h

theorem set_cases (docs : Docs K P) (key : K) (doc : Option (StoredDocument P)) (k : K) :
    docs.set key doc k = docs k ∨ docs.set key doc k = doc := by
  unfold Docs.set
  split
  · exact .inr rfl
  · exact .inl rfl

theorem apply_grows [DecidableEq P] {w : RawWrite K P} (h : st.apply w revision now = .ok st') : Grows st st' := by
  -- the four writes share the check of the revision
  have hcommit : ∀ docs : Docs K P,
      (∀ k, docs k = st.docs k ∨ docs k = none ∨ ∃ d, docs k = some d ∧ d.revision = revision) →
      (if revision ∈ st.revisions then .error "UNIQUE constraint failed"
        else .ok { docs, revisions := revision :: st.revisions } : Except String (DocStore K P)) = .ok st' →
      Grows st st' := by
    intro docs hdocs hok
    split at hok
    · cases hok
    · next hfresh => cases hok; exact grows_of_fresh hfresh hdocs
  cases w with
  | put key p =>
    refine hcommit _ (fun k => ?_) h
    exact (set_cases st.docs key _ k).imp id fun hk => .inr ⟨_, hk, rfl⟩
  | putIfChanged key p =>
    simp only [DocStore.apply] at h
    split at h
    · cases h; exact .refl st
    · exact hcommit _ (fun k => (set_cases st.docs key _ k).imp id fun hk => .inr ⟨_, hk, rfl⟩) h
  | delete key => exact hcommit _ (fun k => (set_cases st.docs key _ k).imp id .inl) h
  | other => exact hcommit _ (fun k => .inl rfl) h

theorem apply_put [DecidableEq P] {key : K} {p : P}
    (h : st.apply (.put key p) revision now = .ok st') : st'.docs = st.docs.set key (some ⟨p, revision, now⟩) := by
  simp only [DocStore.apply] at h
  split at h
  · cases h
  · cases h; rfl

theorem apply_delete [DecidableEq P] {key : K}
    (h : st.apply (.delete key) revision now = .ok st') : st'.docs = st.docs.set key none := by
  simp only [DocStore.apply] at h
  split at h
  · cases h
  · cases h; rfl

theorem change_cases (changes : List (DocumentChange K P)) (docs : Docs K P) (revision : Int) (now : String) (k : K) :
    docs.change changes revision now k = docs k ∨
      ∃ d, docs.change changes revision now k = some d ∧ d.revision = revision := by
  induction changes generalizing docs with
  | nil => exact .inl rfl
  | cons c cs ih =>
    rcases ih (docs.set c.key (some ⟨c.payload, revision, now⟩)) with h | h
    · rcases set_cases docs c.key (some ⟨c.payload, revision, now⟩) k with hs | hs
      · exact .inl (h.trans hs)
      · exact .inr ⟨_, h.trans hs, rfl⟩
    · exact .inr h

section

variable {guards : List (DocumentGuard K)} (h : st.compareAndPut changes guards revision now = .ok (some st'))
include h

/-- A committed compare-and-put found every document at its expected revision. -/
theorem compareAndPut_some :
    (∀ g ∈ guards, revisionOf (st.docs g.key) = g.expectedRevision) ∧
      (∀ c ∈ changes, revisionOf (st.docs c.key) = c.expectedRevision) ∧ revision ∉ st.revisions ∧
      st' = { docs := st.docs.change changes revision now, revisions := revision :: st.revisions } := by
  unfold DocStore.compareAndPut at h
  split at h
  · cases h
  split at h
  · cases h
  next hg =>
    split at h
    · cases h
    · cases h
    next hc =>
      split at h
      · cases h
      next hfresh =>
        refine ⟨fun g hgm => ?_, checkChanges_true hc, hfresh, (Option.some.inj (Except.ok.inj h)).symm⟩
        by_contra hne
        exact hg (List.any_eq_true.mpr ⟨g, hgm, by simpa using hne⟩)

theorem compareAndPut_grows : Grows st st' := by
  obtain ⟨-, -, hfresh, rfl⟩ := compareAndPut_some h
  exact grows_of_fresh hfresh fun k => (change_cases changes st.docs revision now k).imp id .inr

end

end grows

end EdgeLb.Lib
