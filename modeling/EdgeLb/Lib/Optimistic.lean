/-
  EdgeLb.Lib.Optimistic — optimistic retry loops over a document store, any number of them
  at once.

  A call reads every document in one transaction, plans from what it read, and either ends
  or tries to commit its plan in a second transaction, which expects every document at the
  revision it was read at. A commit that is refused sends the call back to reading, a
  limited number of times. What else goes on in the store happens between the two
  transactions: other calls' commits, and writes that look at no revision.

  Proved over every interleaving: a commit is made on exactly the documents its plan was
  made from, so it is as if reading, planning and committing were one step
  (`Inv.logged`, `run_atomic`); the documents change by logged commits only
  (`Inv.chained`); and a loop that ends with its first commit commits at most once, and not
  at all when it ends in any other way (`OnceInv`).
-/

import EdgeLb.Lib.DocStore
import EdgeLb.Lib.Run
import Mathlib.Logic.Function.Basic

namespace EdgeLb.Lib

/-- What a call does with the documents it read: end, or write and then end or go on. -/
inductive Plan (K P R : Type)
  | done (result : R)
  | commit (writes : K → Option P) (after : Option R)

/-- A retry loop. A plan may depend on what the earlier rounds read, since the code that
    plans may keep state between rounds. -/
structure Loop (K P R : Type) where
  plan : List (Docs K P) → Docs K P → Plan K P R
  limit : Nat
  exhausted : R
  failed : String → R

/-! ## One commit -/

section commit

variable {K P : Type} [DecidableEq K]

def changesOf (keys : List K) (snap : Docs K P) (writes : K → Option P) : List (DocumentChange K P) :=
  keys.filterMap fun k => (writes k).map fun p => ⟨k, revisionOf (snap k), p⟩

def guardsOf (keys : List K) (snap : Docs K P) (writes : K → Option P) : List (DocumentGuard K) :=
  keys.filterMap fun k => if (writes k).isNone then some ⟨k, revisionOf (snap k)⟩ else none

/-- Commit the writes if every key of `keys` is as in `snap`. -/
def DocStore.tryCommit (st : DocStore K P) (keys : List K) (snap : Docs K P) (writes : K → Option P)
    (revision : Int) (now : String) : Except String (Option (DocStore K P)) :=
  st.compareAndPut (changesOf keys snap writes) (guardsOf keys snap writes) revision now

def Docs.written (docs : Docs K P) (writes : K → Option P) (revision : Int) (now : String) : Docs K P :=
  fun k => match writes k with
    | some p => some ⟨p, revision, now⟩
    | none => docs k

theorem change_changesOf (keys : List K) (snap docs : Docs K P) (writes : K → Option P) (revision : Int)
    (now : String) (k : K) :
    docs.change (changesOf keys snap writes) revision now k =
      if k ∈ keys then docs.written writes revision now k else docs k := by
  induction keys generalizing docs with
  | nil => rfl
  | cons key keys ih =>
    cases hw : writes key with
    | none =>
      have hskip : changesOf (key :: keys) snap writes = changesOf keys snap writes := by
        simp [changesOf, hw]
      rw [hskip, ih]
      by_cases hk : k = key
      · subst hk
        simp [Docs.written, hw]
      · simp [hk]
    | some p =>
      have htake : changesOf (key :: keys) snap writes =
          ⟨key, revisionOf (snap key), p⟩ :: changesOf keys snap writes := by
        simp [changesOf, hw]
      rw [htake]
      show (docs.set key (some ⟨p, revision, now⟩)).change (changesOf keys snap writes) revision now k = _
      rw [ih]
      by_cases hk : k = key
      · subst hk
        simp [Docs.written, Docs.set, hw]
      · simp [Docs.written, Docs.set, hk]

theorem change_changesOf_all {keys : List K} (hkeys : ∀ k, k ∈ keys) (snap docs : Docs K P) (writes : K → Option P)
    (revision : Int) (now : String) :
    docs.change (changesOf keys snap writes) revision now = docs.written writes revision now := by
  funext k
  rw [change_changesOf, if_pos (hkeys k)]

/-- A commit succeeds only on the documents it was planned from. -/
theorem tryCommit_some {keys : List K} (hkeys : ∀ k, k ∈ keys) {st st' : DocStore K P} {snap : Docs K P}
    (hseen : Seen st snap) {writes : K → Option P} {revision : Int} {now : String}
    (h : st.tryCommit keys snap writes revision now = .ok (some st')) :
    st.docs = snap ∧ st'.docs = st.docs.written writes revision now ∧ Grows st st' := by
  obtain ⟨hguards, hchanges, -, hst'⟩ := compareAndPut_some h
  refine ⟨hseen.eq_of_revisions fun k => ?_, ?_, compareAndPut_grows h⟩
  · cases hw : writes k with
    | none => exact hguards ⟨k, revisionOf (snap k)⟩ (List.mem_filterMap.mpr ⟨k, hkeys k, by simp [hw]⟩)
    | some p => exact hchanges ⟨k, revisionOf (snap k), p⟩ (List.mem_filterMap.mpr ⟨k, hkeys k, by simp [hw]⟩)
  · rw [hst', change_changesOf_all hkeys]

end commit

/-! ## The interleaving -/

inductive Phase (K P R : Type)
  /-- About to read, with what the earlier rounds read. -/
  | ready (seen : List (Docs K P))
  | holding (seen : List (Docs K P)) (snap : Docs K P) (writes : K → Option P) (after : Option R)
  | finished (result : R)

/-- A change of the store; `caller` is `none` for a write that belongs to no loop. -/
structure Commit (ι K P : Type) where
  caller : Option ι
  before : DocStore K P
  after : DocStore K P

structure Sys (ι K P R : Type) where
  store : DocStore K P
  phase : ι → Phase K P R
  log : List (Commit ι K P)

inductive CallEv (ι K P : Type)
  | read (i : ι)
  | commit (i : ι) (revision : Int) (now : String)
  | raw (w : RawWrite K P) (revision : Int) (now : String)

section interleaving

variable {ι K P R : Type}

/-- The next round, or the end of the last one. -/
def Loop.again (l : Loop K P R) (seen : List (Docs K P)) : Phase K P R :=
  if seen.length < l.limit then .ready seen else .finished l.exhausted

def Loop.planned (l : Loop K P R) (seen : List (Docs K P)) (snap : Docs K P) : Phase K P R :=
  match l.plan seen snap with
  | .done r => .finished r
  | .commit writes after => .holding seen snap writes after

def Loop.committed (l : Loop K P R) (seen : List (Docs K P)) (after : Option R) : Phase K P R :=
  match after with
  | some r => .finished r
  | none => l.again seen

variable {seen seen' : List (Docs K P)} {writes : K → Option P}

theorem planned_holding {l : Loop K P R} {snap snap' : Docs K P}
    {after : Option R} (h : l.planned seen snap = .holding seen' snap' writes after) :
    snap' = snap ∧ seen' = seen ∧ l.plan seen snap = .commit writes after := by
  unfold Loop.planned at h
  split at h
  · cases h
  · next w a hplan =>
    cases h
    exact ⟨rfl, rfl, hplan⟩

theorem again_ne_holding {l : Loop K P R} {snap : Docs K P}
    {after : Option R} : l.again seen ≠ .holding seen' snap writes after := by
  unfold Loop.again
  split
  · exact fun h => by cases h
  · exact fun h => by cases h

theorem committed_ne_holding {l : Loop K P R} {a : Option R} {snap : Docs K P}
    {after : Option R} : l.committed seen a ≠ .holding seen' snap writes after := by
  cases a with
  | none => exact again_ne_holding
  | some r => exact fun h => by cases h

/-- Every call about to read for the first time. -/
def Sys.fresh (loops : ι → Loop K P R) (store : DocStore K P) : Sys ι K P R :=
  { store, phase := fun i => (loops i).again [], log := [] }

variable [DecidableEq ι]

def Sys.setPhase (s : Sys ι K P R) (i : ι) (ph : Phase K P R) : Sys ι K P R :=
  { s with phase := Function.update s.phase i ph }

theorem setPhase_phase (s : Sys ι K P R) (i j : ι) (ph : Phase K P R) :
    (s.setPhase i ph).phase j = if j = i then ph else s.phase j := by
  simp only [Sys.setPhase, Function.update_apply]

variable [DecidableEq K] [DecidableEq P] (loops : ι → Loop K P R) (keys : List K)

def stepCall (s : Sys ι K P R) : CallEv ι K P → Sys ι K P R
  | .read i =>
    match s.phase i with
    | .ready seen => s.setPhase i ((loops i).planned seen s.store.docs)
    | _ => s
  | .commit i revision now =>
    match s.phase i with
    | .holding seen snap writes after =>
      match s.store.tryCommit keys snap writes revision now with
      | .error e => s.setPhase i (.finished ((loops i).failed e))
      | .ok none => s.setPhase i ((loops i).again (seen ++ [snap]))
      | .ok (some st) =>
        { s.setPhase i ((loops i).committed (seen ++ [snap]) after) with
          store := st
          log := s.log ++ [⟨some i, s.store, st⟩] }
    | _ => s
  | .raw w revision now =>
    match s.store.apply w revision now with
    | .error _ => s
    | .ok st => { s with store := st, log := s.log ++ [⟨none, s.store, st⟩] }

/-- What one step can do. -/
inductive StepTo (s : Sys ι K P R) : Sys ι K P R → Prop
  | idle : StepTo s s
  | read (i : ι) (seen : List (Docs K P)) (h : s.phase i = .ready seen) :
      StepTo s (s.setPhase i ((loops i).planned seen s.store.docs))
  | refused (i : ι) (seen : List (Docs K P)) (snap : Docs K P) (writes : K → Option P) (after : Option R)
      (h : s.phase i = .holding seen snap writes after) (ph : Phase K P R)
      (hph : (∃ e, ph = .finished ((loops i).failed e)) ∨ ph = (loops i).again (seen ++ [snap])) :
      StepTo s (s.setPhase i ph)
  | committed (i : ι) (seen : List (Docs K P)) (snap : Docs K P) (writes : K → Option P) (after : Option R)
      (h : s.phase i = .holding seen snap writes after) (revision : Int) (now : String) (st : DocStore K P)
      (hst : s.store.tryCommit keys snap writes revision now = .ok (some st)) :
      StepTo s { s.setPhase i ((loops i).committed (seen ++ [snap]) after) with
        store := st
        log := s.log ++ [⟨some i, s.store, st⟩] }
  | wrote (w : RawWrite K P) (revision : Int) (now : String) (st : DocStore K P)
      (hst : s.store.apply w revision now = .ok st) :
      StepTo s { s with store := st, log := s.log ++ [⟨none, s.store, st⟩] }

theorem stepCall_to (s : Sys ι K P R) (e : CallEv ι K P) : StepTo loops keys s (stepCall loops keys s e) := by
  cases e with
  | read i =>
    simp only [stepCall]
    split
    · next seen h => exact .read i seen h
    · exact .idle
  | commit i revision now =>
    simp only [stepCall]
    split
    · next seen snap writes after h =>
      split
      · next e _ => exact .refused i seen snap writes after h _ (.inl ⟨e, rfl⟩)
      · exact .refused i seen snap writes after h _ (.inr rfl)
      · next st hst => exact .committed i seen snap writes after h revision now st hst
    · exact .idle
  | raw w revision now =>
    simp only [stepCall]
    split
    · exact .idle
    · next st hst => exact .wrote w revision now st hst

end interleaving

/-! ## Commits are made on what was read -/

section serial

variable {ι K P R : Type}

/-- The log leads from `a` to `b`, each entry starting where the one before it ended. -/
def Chained (a : DocStore K P) : List (Commit ι K P) → DocStore K P → Prop
  | [], b => a = b
  | c :: cs, b => c.before = a ∧ Chained c.after cs b

theorem Chained.snoc {a b d : DocStore K P} {log : List (Commit ι K P)} (h : Chained a log b) (caller : Option ι) :
    Chained a (log ++ [⟨caller, b, d⟩]) d := by
  induction log generalizing a with
  | nil => exact ⟨h.symm, rfl⟩
  | cons c cs ih => exact ⟨h.1, ih h.2⟩

variable [DecidableEq K] [DecidableEq P]

/-- The entry is a whole round of the call, made on the store it starts from, or a write
    of no loop. -/
def Commit.Atomic (loops : ι → Loop K P R) (keys : List K) (c : Commit ι K P) : Prop :=
  match c.caller with
  | some i => ∃ seen writes after revision now, (loops i).plan seen c.before.docs = .commit writes after ∧
      c.before.tryCommit keys c.before.docs writes revision now = .ok (some c.after) ∧
      c.after.docs = c.before.docs.written writes revision now
  | none => ∃ w revision now, c.before.apply w revision now = .ok c.after

structure Inv (loops : ι → Loop K P R) (keys : List K) (start : DocStore K P) (s : Sys ι K P R) : Prop where
  wellFormed : WellFormed s.store
  holding : ∀ i seen snap writes after, s.phase i = .holding seen snap writes after →
    Seen s.store snap ∧ (loops i).plan seen snap = .commit writes after
  logged : ∀ c ∈ s.log, c.Atomic loops keys
  chained : Chained start s.log s.store

variable {loops : ι → Loop K P R} {keys : List K}

variable {store : DocStore K P} {start : DocStore K P}

theorem fresh_inv (h : WellFormed store) : Inv loops keys store (Sys.fresh loops store) where
  wellFormed := h
  holding _ _ _ _ _ hi := absurd hi again_ne_holding
  logged c hc := by cases hc
  chained := rfl

theorem Inv.log_snoc {s : Sys ι K P R} (h : Inv loops keys start s) {c : Commit ι K P}
    (hc : c.Atomic loops keys) : ∀ c' ∈ s.log ++ [c], c'.Atomic loops keys := by
  intro c' hc'
  rcases List.mem_append.mp hc' with hc' | hc'
  · exact h.logged c' hc'
  · obtain rfl := List.mem_singleton.mp hc'
    exact hc

variable [DecidableEq ι]

/-- What the other calls hold stays seen when the store grows. -/
theorem Inv.keep_holding {s : Sys ι K P R} (h : Inv loops keys start s) {st : DocStore K P}
    (hg : Grows s.store st) {i : ι} {ph : Phase K P R}
    (hph : ∀ seen snap writes after, ph = .holding seen snap writes after →
      Seen st snap ∧ (loops i).plan seen snap = .commit writes after) (j : ι) (seen : List (Docs K P))
    (snap : Docs K P) (writes : K → Option P) (after : Option R)
    (hj : (s.setPhase i ph).phase j = .holding seen snap writes after) :
    Seen st snap ∧ (loops j).plan seen snap = .commit writes after := by
  rw [setPhase_phase] at hj
  split at hj
  · next hij => subst hij; exact hph seen snap writes after hj
  · obtain ⟨hseen, hplan⟩ := h.holding j seen snap writes after hj
    exact ⟨hg.seen hseen, hplan⟩

theorem stepTo_inv (hkeys : ∀ k, k ∈ keys) {s s' : Sys ι K P R}
    (hstep : StepTo loops keys s s') (h : Inv loops keys start s) : Inv loops keys start s' := by
  cases hstep with
  | idle => exact h
  | read i seen hi =>
    refine ⟨h.wellFormed, ?_, h.logged, h.chained⟩
    refine h.keep_holding (.refl _) fun seen' snap writes after hph => ?_
    obtain ⟨rfl, rfl, hplan⟩ := planned_holding hph
    exact ⟨h.wellFormed.seen, hplan⟩
  | refused i seen snap writes after hi ph hph =>
    refine ⟨h.wellFormed, ?_, h.logged, h.chained⟩
    refine h.keep_holding (.refl _) fun seen' snap' writes' after' heq => ?_
    rcases hph with ⟨e, rfl⟩ | rfl
    · cases heq
    · exact absurd heq again_ne_holding
  | committed i seen snap writes after hi revision now st hst =>
    obtain ⟨hseen, hplan⟩ := h.holding i seen snap writes after hi
    obtain ⟨hbefore, hafter, hg⟩ := tryCommit_some hkeys hseen hst
    refine ⟨hg.wellFormed h.wellFormed, ?_, h.log_snoc ?_, h.chained.snoc _⟩
    · exact h.keep_holding hg fun seen' snap' writes' after' heq => absurd heq committed_ne_holding
    · subst hbefore
      exact ⟨seen, writes, after, revision, now, hplan, hst, hafter⟩
  | wrote w revision now st hst =>
    have hg := apply_grows hst
    refine ⟨hg.wellFormed h.wellFormed, ?_, h.log_snoc ⟨w, revision, now, hst⟩, h.chained.snoc _⟩
    intro i seen snap writes after hi
    obtain ⟨hseen, hplan⟩ := h.holding i seen snap writes after hi
    exact ⟨hg.seen hseen, hplan⟩

theorem run_inv (hkeys : ∀ k, k ∈ keys) (h : WellFormed store) (es : List (CallEv ι K P)) :
    Inv loops keys store (run (stepCall loops keys) (Sys.fresh loops store) es) :=
  inv_run_all (stepCall loops keys) (fun s e hs => stepTo_inv hkeys (stepCall_to loops keys s e) hs) (fresh_inv h) es

/-! ## The atomic run behind an interleaving -/

/-- A round of a loop in one step, or a write of no loop. -/
inductive AtomicEv (K P R : Type)
  | attempt (l : Loop K P R) (seen : List (Docs K P)) (revision : Int) (now : String)
  | raw (w : RawWrite K P) (revision : Int) (now : String)

/-- How a round ends. -/
inductive Round (K P R : Type)
  | ended (result : R)
  | committed (st : DocStore K P) (after : Option R)
  | refused

/-- Read, plan and commit at once. -/
def Loop.round (l : Loop K P R) (keys : List K) (seen : List (Docs K P)) (st : DocStore K P) (revision : Int)
    (now : String) : Round K P R :=
  match l.plan seen st.docs with
  | .done r => .ended r
  | .commit writes after =>
    match st.tryCommit keys st.docs writes revision now with
    | .ok (some st') => .committed st' after
    | .ok none => .refused
    | .error e => .ended (l.failed e)

omit [DecidableEq P] in
/-- A round that commits has planned to, and writes what it planned. -/
theorem round_committed (hkeys : ∀ k, k ∈ keys) {l : Loop K P R} {seen : List (Docs K P)} {st st' : DocStore K P}
    {revision : Int} {now : String} {after : Option R} (h : l.round keys seen st revision now = .committed st' after) :
    ∃ writes, l.plan seen st.docs = .commit writes after ∧ st'.docs = st.docs.written writes revision now := by
  unfold Loop.round at h
  split at h
  · cases h
  next writes after' hplan =>
    split at h
    · next st'' hcommit =>
      cases h
      refine ⟨writes, hplan, ?_⟩
      rw [(compareAndPut_some hcommit).2.2.2, change_changesOf_all hkeys]
    · cases h
    · cases h

omit [DecidableEq P] in
/-- A round that ends without committing has planned to, or was stopped by the store. -/
theorem round_ended {l : Loop K P R} {seen : List (Docs K P)} {st : DocStore K P} {revision : Int} {now : String}
    {r : R} (h : l.round keys seen st revision now = .ended r) :
    l.plan seen st.docs = .done r ∨ ∃ e, r = l.failed e := by
  unfold Loop.round at h
  split at h
  · next hplan => cases h; exact .inl hplan
  · split at h
    · cases h
    · cases h
    · next e _ => cases h; exact .inr ⟨e, rfl⟩

def stepAtomic (keys : List K) (st : DocStore K P) : AtomicEv K P R → DocStore K P
  | .attempt l seen revision now =>
    match l.round keys seen st revision now with
    | .committed st' _ => st'
    | _ => st
  | .raw w revision now =>
    match st.apply w revision now with
    | .ok st' => st'
    | .error _ => st

omit [DecidableEq ι] in
theorem Commit.Atomic.step {c : Commit ι K P} (h : c.Atomic loops keys) :
    ∃ e : AtomicEv K P R, stepAtomic keys c.before e = c.after ∧
      ∀ l seen revision now, e = .attempt l seen revision now → ∃ i, l = loops i := by
  unfold Commit.Atomic at h
  split at h
  · next i _ =>
    obtain ⟨seen, writes, after, revision, now, hplan, hcommit, -⟩ := h
    refine ⟨.attempt (loops i) seen revision now, ?_, ?_⟩
    · simp only [stepAtomic, Loop.round, hplan, hcommit]
    · rintro l _ _ _ ⟨⟩
      exact ⟨i, rfl⟩
  · obtain ⟨w, revision, now, hst⟩ := h
    refine ⟨.raw w revision now, ?_, fun l _ _ _ heq => by cases heq⟩
    simp only [stepAtomic, hst]

omit [DecidableEq ι] in
theorem Chained.atomic {a b : DocStore K P} {log : List (Commit ι K P)} (h : Chained a log b)
    (hlog : ∀ c ∈ log, c.Atomic loops keys) :
    ∃ es : List (AtomicEv K P R), run (stepAtomic keys) a es = b ∧
      ∀ l seen revision now, .attempt l seen revision now ∈ es → ∃ i, l = loops i := by
  induction log generalizing a with
  | nil => exact ⟨[], h, fun _ _ _ _ hmem => by cases hmem⟩
  | cons c cs ih =>
    obtain ⟨rfl, hrest⟩ := h
    obtain ⟨e, he, hloop⟩ := (hlog c List.mem_cons_self).step
    obtain ⟨es, hes, hloops⟩ := ih hrest fun c' hc' => hlog c' (List.mem_cons_of_mem _ hc')
    refine ⟨e :: es, by rw [run_cons, he, hes], fun l seen revision now hmem => ?_⟩
    rcases List.mem_cons.mp hmem with heq | hmem
    · exact hloop l seen revision now heq.symm
    · exact hloops l seen revision now hmem

/-- Every interleaving ends in the store of a run of whole rounds, one after the other. -/
theorem run_atomic (hkeys : ∀ k, k ∈ keys) (h : WellFormed store) (es : List (CallEv ι K P)) :
    ∃ as : List (AtomicEv K P R),
      run (stepAtomic keys) store as = (run (stepCall loops keys) (Sys.fresh loops store) es).store ∧
      ∀ l seen revision now, .attempt l seen revision now ∈ as → ∃ i, l = loops i :=
  (run_inv hkeys h es).chained.atomic (run_inv hkeys h es).logged

end serial

/-! ## At most one commit -/

section once

variable {ι K P R : Type} {loops : ι → Loop K P R} {keys : List K}

/-- The loop ends with its first commit. -/
def Loop.Once (l : Loop K P R) : Prop := ∀ seen snap writes after, l.plan seen snap = .commit writes after → after ≠ none

variable [DecidableEq ι]

def commitsBy (i : ι) (log : List (Commit ι K P)) : Nat := log.countP fun c => c.caller = some i

structure OnceInv (loops : ι → Loop K P R) (i : ι) (s : Sys ι K P R) : Prop where
  running : (∀ r, s.phase i ≠ .finished r) → commitsBy i s.log = 0
  finished : ∀ r, s.phase i = .finished r → commitsBy i s.log = 0 ∨
    (commitsBy i s.log = 1 ∧ ∃ seen snap writes, (loops i).plan seen snap = .commit writes (some r))

theorem commitsBy_snoc (i : ι) (log : List (Commit ι K P)) (c : Commit ι K P) :
    commitsBy i (log ++ [c]) = commitsBy i log + if c.caller = some i then 1 else 0 := by
  simp [commitsBy, List.countP_append, List.countP_cons]

/-- A step that leaves the call's phase and its part of the log. -/
theorem OnceInv.frame {i : ι} {s s' : Sys ι K P R} (h : OnceInv loops i s) (hph : s'.phase i = s.phase i)
    (hlog : commitsBy i s'.log = commitsBy i s.log) : OnceInv loops i s' :=
  ⟨fun hr => by rw [hlog]; exact h.running (by rwa [hph] at hr),
    fun r hr => by rw [hlog]; exact h.finished r (by rwa [hph] at hr)⟩

theorem OnceInv.of_zero {i : ι} {s : Sys ι K P R} (h : commitsBy i s.log = 0) : OnceInv loops i s :=
  ⟨fun _ => h, fun _ _ => .inl h⟩

variable [DecidableEq K] [DecidableEq P]

theorem stepTo_once {start : DocStore K P} {s s' : Sys ι K P R} (hstep : StepTo loops keys s s')
    (hinv : Inv loops keys start s) {i : ι} (honce : (loops i).Once) (h : OnceInv loops i s) : OnceInv loops i s' := by
  cases hstep with
  | idle => exact h
  | read j seen hj =>
    by_cases hij : i = j
    · subst hij
      exact .of_zero (h.running fun r hr => by rw [hj] at hr; cases hr)
    · exact h.frame (by rw [setPhase_phase, if_neg hij]) rfl
  | refused j seen snap writes after hj ph hph =>
    by_cases hij : i = j
    · subst hij
      exact .of_zero (h.running fun r hr => by rw [hj] at hr; cases hr)
    · exact h.frame (by rw [setPhase_phase, if_neg hij]) rfl
  | committed j seen snap writes after hj revision now st hst =>
    by_cases hij : i = j
    · subst hij
      have hzero := h.running fun r hr => by rw [hj] at hr; cases hr
      have hplan := (hinv.holding i seen snap writes after hj).2
      cases after with
      | none => exact absurd rfl (honce seen snap writes none hplan)
      | some r =>
        have hphase : (s.setPhase i ((loops i).committed (seen ++ [snap]) (some r))).phase i = .finished r := by
          rw [setPhase_phase, if_pos rfl]; rfl
        refine ⟨fun hr => absurd hphase (hr r), fun r' hr' => .inr ⟨?_, seen, snap, writes, ?_⟩⟩
        · show commitsBy i (s.log ++ [_]) = 1
          rw [commitsBy_snoc, hzero, if_pos rfl]
        · obtain rfl : r = r' := Phase.finished.inj (hphase.symm.trans hr')
          exact hplan
    · refine h.frame (by show (s.setPhase j _).phase i = _; rw [setPhase_phase, if_neg hij]) ?_
      show commitsBy i (s.log ++ [_]) = _
      rw [commitsBy_snoc, if_neg fun heq => hij (Option.some.inj heq).symm, Nat.add_zero]
  | wrote w revision now st hst =>
    refine h.frame rfl ?_
    show commitsBy i (s.log ++ [_]) = _
    rw [commitsBy_snoc, if_neg (fun heq => by cases heq), Nat.add_zero]

theorem run_once (hkeys : ∀ k, k ∈ keys) {store : DocStore K P} (h : WellFormed store) {i : ι}
    (honce : (loops i).Once) (es : List (CallEv ι K P)) :
    OnceInv loops i (run (stepCall loops keys) (Sys.fresh loops store) es) := by
  refine (inv_run_all (stepCall loops keys) (I := fun s => Inv loops keys store s ∧ OnceInv loops i s)
    (fun s e hs => ?_) ⟨fresh_inv h, .of_zero rfl⟩ es).2
  have hstep := stepCall_to loops keys s e
  exact ⟨stepTo_inv hkeys hstep hs.1, stepTo_once hstep hs.1 honce hs.2⟩

end once

end EdgeLb.Lib
