/-
  EdgeLb.Lib.Cell — one key of a table that is replicated by lossy change events, full dumps
  and a coalescing queue, to a remote copy that takes only fresher values.

  The source changes; each change may leave an event, in order, that a later drain folds into
  the one pending operation of the key. A dump compares the source with what the remote side
  has acknowledged and makes the difference pending. A delivery applies the pending operation,
  or does not, and is acknowledged or not. Values carry a stamp; `same` says that two values
  are equal up to it.

  Every sound step keeps `Inv` (`step_inv`), and under it, once a dump was taken, the source
  has not changed since and nothing is pending, the remote copy is the source's (`Inv.agrees`).
-/

import EdgeLb.Lib.Run
import Mathlib.Order.Lattice

namespace EdgeLb.Lib

/-- An event or a pending operation: a value to store, or a removal. -/
abbrev Op (V : Type) := Option V

structure Cell (V σ : Type) where
  source : Option V
  events : List (Op V) := []
  pending : Option (Op V) := none
  acked : Option σ := none
  remote : Option V
  /-- The key was removed from the source. -/
  removed : Bool := false
  /-- A dump was taken and no key of the source has changed since. -/
  settled : Bool := false

/-- What becomes of a delivery: it does not take effect, it does, or it does and is
    acknowledged. -/
inductive Fate
  | lost | applied | acked
  deriving DecidableEq, Repr

/-- `seen`: the change leaves an event. `elsewhere`: another key of the source changes.
    `deliver arrive`: a value pending arrives changed by `arrive`. -/
inductive CellEvent (V : Type)
  | put (v : V) (seen : Bool)
  | refresh (v : V)
  | remove (seen : Bool)
  | elsewhere
  | drain
  | dump
  | deliver (arrive : V → V) (fate : Fate)
  | idle

namespace Cell

variable {V σ : Type} [LinearOrder σ] (stamp : V → σ)

/-- A pending value is replaced by one that is not older; a removal always counts. -/
def absorb (pending : Option (Op V)) : Op V → Option (Op V)
  | none => some none
  | some v =>
    match pending with
    | some (some w) => if stamp w ≤ stamp v then some (some v) else pending
    | _ => some (some v)

def emit (seen : Bool) (op : Op V) (c : Cell V σ) : Cell V σ :=
  if seen then { c with events := c.events ++ [op] } else c

def dump (c : Cell V σ) : Cell V σ :=
  let pending := match c.source with
    | some u => if c.acked.all (· < stamp u) then absorb stamp c.pending (some u) else c.pending
    | none => if c.acked.isSome then some none else c.pending
  { c with pending, settled := true }

/-- The remote side takes a value when it has none, or an older one. -/
def accepts (remote : Option V) (v : V) : Bool := remote.all fun r => stamp r < stamp v

def deliver (arrive : V → V) (fate : Fate) (c : Cell V σ) : Cell V σ :=
  match c.pending with
  | none => c
  | some op =>
    let remote := if fate = .lost then c.remote else
      match op with
      | none => none
      | some w => if accepts stamp c.remote (arrive w) then some (arrive w) else c.remote
    if fate = .acked then { c with remote, pending := none, acked := op.map stamp } else { c with remote }

def step (c : Cell V σ) : CellEvent V → Cell V σ
  | .put v seen => emit seen (some v) { c with source := some v, settled := false }
  | .refresh v => { c with source := some v, settled := false }
  | .remove seen => emit seen none { c with source := none, removed := true, settled := false }
  | .elsewhere => { c with settled := false }
  | .drain => { c with pending := c.events.foldl (absorb stamp) c.pending, events := [] }
  | .dump => dump stamp c
  | .deliver arrive fate => deliver stamp arrive fate c
  | .idle => c

variable (same : V → V → Prop)

/-- The steps after which the remote copy is the source's.
    - A new value is fresher than every value of the key still on its way, and when it leaves
      no event, no event of the key is waiting.
    - A refreshed value is the same and not older.
    - A removal that leaves no event finds no event waiting and no value pending, and the key
      either acknowledged or not on the remote side.
    - A dump finds no removal waiting.
    - A value delivered is the pending one, and the remote copy is older or the same. -/
def Sound (c : Cell V σ) : CellEvent V → Prop
  | .put v seen =>
    (∀ w, c.pending = some (some w) → stamp w < stamp v) ∧ (∀ w, some w ∈ c.events → stamp w < stamp v) ∧
      (∀ s, c.acked = some s → s < stamp v) ∧ (seen = false → c.events = [])
  | .refresh v => ∃ u, c.source = some u ∧ same u v ∧ stamp u ≤ stamp v
  | .remove seen => seen = false →
    c.events = [] ∧ (c.pending = some none ∨ (c.pending = none ∧ (c.acked.isSome = true ∨ c.remote = none)))
  | .elsewhere => True
  | .drain => True
  | .dump => none ∉ c.events
  | .deliver arrive fate => ∀ w, c.pending = some (some w) →
    same w (arrive w) ∧ (fate ≠ .lost → ∀ r, c.remote = some r → stamp r < stamp (arrive w) ∨ same w r)
  | .idle => True

/-! ## The invariant -/

/-- The remote copy is `u`, or will be when what is pending is delivered. -/
def Reaches (c : Cell V σ) (u : V) : Prop :=
  match c.pending with
  | none => ∃ r, c.remote = some r ∧ same u r
  | some none => False
  | some (some v) => same u v

/-- The last event says what the source is. -/
def Tells (source : Option V) : Op V → Prop
  | some w => ∃ u, source = some u ∧ same u w
  | none => source = none

structure Inv (c : Cell V σ) : Prop where
  tells : ∀ op, c.events.getLast? = some op → Tells same c.source op
  freshest : ∀ w x, c.events.getLast? = some (some w) → some x ∈ c.events → stamp x ≤ stamp w
  pendingLast : ∀ w v, c.events.getLast? = some (some w) → c.pending = some (some v) → stamp w ≤ stamp v → same w v
  pendingLive : ∀ v, c.events = [] → c.pending = some (some v) → c.source ≠ none
  pendingSame : ∀ u v, c.source = some u → c.pending = some (some v) → stamp u ≤ stamp v → same u v
  caught : ∀ u s, c.source = some u → c.acked = some s → stamp u ≤ s → Reaches same c u
  gone : c.source = none → c.events = [] → c.pending = none → c.acked = none → c.removed = true → c.remote = none
  settledLive : c.settled = true → ∀ u, c.source = some u → Reaches same c u
  settledGone : c.settled = true → c.source = none →
    c.events = [] ∧ (∀ v, c.pending ≠ some (some v)) ∧ (c.pending = none → c.removed = true → c.remote = none)

/-! ## Draining -/

section Drain

theorem absorb_isValue (p : Option (Op V)) (v : V) : ∃ x, absorb stamp p (some v) = some (some x) := by
  unfold absorb
  cases p with
  | none => exact ⟨v, rfl⟩
  | some op =>
    cases op with
    | none => exact ⟨v, rfl⟩
    | some w =>
      dsimp only
      split
      · exact ⟨v, rfl⟩
      · exact ⟨w, rfl⟩

variable {stamp}

variable {p : Option (Op V)} {events : List (Op V)}

theorem absorb_value {v x : V} (h : absorb stamp p (some v) = some (some x)) :
    x = v ∨ (p = some (some x) ∧ stamp v < stamp x) := by
  unfold absorb at h
  cases p with
  | none => simpa [eq_comm] using h
  | some op =>
    cases op with
    | none => simpa [eq_comm] using h
    | some w =>
      dsimp only at h
      split at h
      · exact .inl (by simpa [eq_comm] using h)
      next hle =>
        obtain rfl : w = x := by simpa using h
        exact .inr ⟨rfl, lt_of_not_ge hle⟩

theorem mem_of_drained {x : V}
    (h : events.foldl (absorb stamp) p = some (some x)) : some x ∈ events ∨ p = some (some x) := by
  induction events generalizing p with
  | nil => exact .inr h
  | cons op ops ih =>
    rcases ih h with hmem | habsorb
    · exact .inl (List.mem_cons_of_mem _ hmem)
    · cases op with
      | none => simp [absorb] at habsorb
      | some v =>
        rcases absorb_value habsorb with rfl | ⟨hp, -⟩
        · exact .inl (by simp)
        · exact .inr hp

/-- When the freshest event is the last one, the drain leaves it or a fresher pending value. -/
theorem drained_value {w : V} (hlast : events.getLast? = some (some w))
    (hfresh : ∀ x, some x ∈ events → stamp x ≤ stamp w) :
    ∃ x, events.foldl (absorb stamp) p = some (some x) ∧ (x = w ∨ (p = some (some x) ∧ stamp w ≤ stamp x)) := by
  obtain ⟨before, rfl⟩ := List.getLast?_eq_some_iff.mp hlast
  rw [List.foldl_append]
  obtain ⟨x, hx⟩ := absorb_isValue stamp (before.foldl (absorb stamp) p) w
  refine ⟨x, hx, ?_⟩
  rcases absorb_value hx with rfl | ⟨hbefore, hlt⟩
  · exact .inl rfl
  · rcases mem_of_drained hbefore with hmem | hp
    · exact absurd (hfresh x (List.mem_append_left _ hmem)) (not_le_of_gt hlt)
    · exact .inr ⟨hp, le_of_lt hlt⟩

theorem drained_removal (hlast : events.getLast? = some none) : events.foldl (absorb stamp) p = some none := by
  obtain ⟨before, rfl⟩ := List.getLast?_eq_some_iff.mp hlast
  rw [List.foldl_append]
  rfl

end Drain

/-! ## Delivering -/

theorem deliver_frame (c : Cell V σ) (arrive : V → V) (fate : Fate) :
    (deliver stamp arrive fate c).source = c.source ∧ (deliver stamp arrive fate c).events = c.events ∧
      (deliver stamp arrive fate c).removed = c.removed ∧ (deliver stamp arrive fate c).settled = c.settled := by
  unfold deliver
  split
  · exact ⟨rfl, rfl, rfl, rfl⟩
  · dsimp only
    split <;> exact ⟨rfl, rfl, rfl, rfl⟩

/-- What a delivery does to the queue: nothing, or the operation is acknowledged. -/
theorem deliver_cases (c : Cell V σ) (arrive : V → V) (fate : Fate) :
    ((deliver stamp arrive fate c).pending = c.pending ∧ (deliver stamp arrive fate c).acked = c.acked) ∨
      (∃ op, c.pending = some op ∧ (deliver stamp arrive fate c).pending = none ∧
        (deliver stamp arrive fate c).acked = op.map stamp ∧ (op = none → (deliver stamp arrive fate c).remote = none)) := by
  cases hp : c.pending with
  | none => exact .inl (by simp [deliver, hp])
  | some op =>
    by_cases hfate : fate = .acked
    · refine .inr ⟨op, rfl, ?_⟩
      subst hfate
      refine ⟨by simp [deliver, hp], by simp [deliver, hp], ?_⟩
      rintro rfl
      simp [deliver, hp]
    · exact .inl (by simp [deliver, hp, hfate])

/-- A delivery that leaves nothing pending where no value was finds nothing pending, or removes
    the remote copy. -/
theorem deliver_emptied {c : Cell V σ} {arrive : V → V} {fate : Fate} (hno : ∀ x, c.pending ≠ some (some x))
    (h : (deliver stamp arrive fate c).pending = none) :
    deliver stamp arrive fate c = c ∨ (deliver stamp arrive fate c).remote = none := by
  rcases deliver_cases stamp c arrive fate with ⟨hp, -⟩ | ⟨op, hop, -, -, hremote⟩
  · exact .inl (by simp [deliver, hp ▸ h])
  · cases op with
    | none => exact .inr (hremote rfl)
    | some x => exact absurd hop (hno x)

/-! ## One step -/

section Step

variable {stamp same} (heq : Equivalence same) {c : Cell V σ}

theorem start_inv (source remote : Option V) : Inv stamp same ({ source, remote } : Cell V σ) where
  tells := by simp
  freshest := by simp
  pendingLast := by simp
  pendingLive := by simp
  pendingSame := by simp
  caught := by simp
  gone := by simp
  settledLive := by simp
  settledGone := by simp

/-- Without a source and events: no value is pending, and a remote copy of a removed key is
    still to be removed. -/
theorem inv_of_gone (hsource : c.source = none) (hnil : c.events = []) (hvalue : ∀ v, c.pending ≠ some (some v))
    (hgone : c.pending = none → c.acked = none ∨ c.settled = true → c.removed = true → c.remote = none) :
    Inv stamp same c where
  tells := by simp [hnil]
  freshest := by simp [hnil]
  pendingLast := by simp [hnil]
  pendingLive v _ hv := absurd hv (hvalue v)
  pendingSame := by simp [hsource]
  caught := by simp [hsource]
  gone _ _ hp hacked := hgone hp (.inl hacked)
  settledLive := by simp [hsource]
  settledGone hs _ := ⟨hnil, hvalue, fun hp => hgone hp (.inr hs)⟩

include heq

/-- With a source on its way to the remote side it is enough that the events tell of it. -/
theorem inv_of_reaches {u : V} (hsource : c.source = some u) (hreaches : Reaches same c u)
    (htells : ∀ op, c.events.getLast? = some op → Tells same c.source op)
    (hfresh : ∀ w x, c.events.getLast? = some (some w) → some x ∈ c.events → stamp x ≤ stamp w) : Inv stamp same c := by
  have hpending : ∀ v, c.pending = some (some v) → same u v := fun v hv => by simpa [Reaches, hv] using hreaches
  have hlive : ∀ u', c.source = some u' → u' = u := fun u' hu' => Option.some.inj (hu'.symm.trans hsource)
  exact
    { tells := htells
      freshest := hfresh
      pendingLast := by
        intro w v hw hv _
        obtain ⟨u', hu', huw⟩ := htells _ hw
        obtain rfl := hlive u' hu'
        exact heq.trans (heq.symm huw) (hpending v hv)
      pendingLive := by simp [hsource]
      pendingSame := fun u' v hu' hv _ => hlive u' hu' ▸ hpending v hv
      caught := fun u' _ hu' _ _ => hlive u' hu' ▸ hreaches
      gone := by simp [hsource]
      settledLive := fun _ u' hu' => hlive u' hu' ▸ hreaches
      settledGone := by simp [hsource] }

theorem put_inv {v : V} {seen : Bool} (hsound : Sound stamp same c (.put v seen)) :
    Inv stamp same (step stamp c (.put v seen)) := by
  obtain ⟨hpending, hevents, hacked, hunseen⟩ := hsound
  have hcaught : ∀ u s, some v = some u → c.acked = some s → stamp u ≤ s → False := by
    intro u s hu hs hle
    obtain rfl := Option.some.inj hu
    exact absurd (hacked s hs) (not_lt_of_ge hle)
  have hsame : ∀ u x, some v = some u → c.pending = some (some x) → stamp u ≤ stamp x → same u x := by
    intro u x hu hx hle
    obtain rfl := Option.some.inj hu
    exact absurd (hpending x hx) (not_lt_of_ge hle)
  cases seen with
  | false =>
    have hnil := hunseen rfl
    exact
      { tells := by simp [step, emit, hnil]
        freshest := by simp [step, emit, hnil]
        pendingLast := by simp [step, emit, hnil]
        pendingLive := by simp [step, emit]
        pendingSame := hsame
        caught := fun u s hu hs hle => (hcaught u s hu hs hle).elim
        gone := by simp [step, emit]
        settledLive := by simp [step, emit]
        settledGone := by simp [step, emit] }
  | true =>
    exact
      { tells := by
          intro op hop
          obtain rfl : some v = op := by simpa [step, emit] using hop
          exact ⟨v, rfl, heq.refl v⟩
        freshest := by
          intro w x hw hx
          obtain rfl : v = w := by simpa [step, emit] using hw
          simp only [step, emit, if_true, List.mem_append, List.mem_singleton, Option.some.injEq] at hx
          rcases hx with hx | rfl
          · exact le_of_lt (hevents x hx)
          · exact le_refl _
        pendingLast := by
          intro w x hw hx hle
          obtain rfl : v = w := by simpa [step, emit] using hw
          exact absurd (hpending x hx) (not_lt_of_ge hle)
        pendingLive := by simp [step, emit]
        pendingSame := hsame
        caught := fun u s hu hs hle => (hcaught u s hu hs hle).elim
        gone := by simp [step, emit]
        settledLive := by simp [step, emit]
        settledGone := by simp [step, emit] }

omit [LinearOrder σ] in
theorem reaches_congr {u v : V} (huv : same u v) (h : Reaches same c u) : Reaches same c v := by
  unfold Reaches at h ⊢
  cases hp : c.pending with
  | none =>
    rw [hp] at h
    obtain ⟨r, hr, hur⟩ := h
    exact ⟨r, hr, heq.trans (heq.symm huv) hur⟩
  | some op =>
    rw [hp] at h
    cases op with
    | none => exact h
    | some x => exact heq.trans (heq.symm huv) h

theorem refresh_inv (h : Inv stamp same c) {v : V} (hsound : Sound stamp same c (.refresh v)) :
    Inv stamp same (step stamp c (.refresh v)) := by
  obtain ⟨u, hu, huv, hle⟩ := hsound
  exact
    { tells := by
        intro op hop
        have hold := h.tells op hop
        cases op with
        | none =>
          rw [hu] at hold
          cases hold
        | some w =>
          obtain ⟨u', hu', hw⟩ := hold
          obtain rfl := Option.some.inj (hu.symm.trans hu')
          exact ⟨v, rfl, heq.trans (heq.symm huv) hw⟩
      freshest := h.freshest
      pendingLast := h.pendingLast
      pendingLive := by simp [step]
      pendingSame := by
        intro x y hx hy hxy
        obtain rfl := Option.some.inj hx
        exact heq.trans (heq.symm huv) (h.pendingSame u y hu hy (hle.trans hxy))
      caught := by
        intro x s hx hs hxs
        obtain rfl := Option.some.inj hx
        exact reaches_congr heq huv (h.caught u s hu hs (hle.trans hxs))
      gone := by simp [step]
      settledLive := by simp [step]
      settledGone := by simp [step] }

omit heq in
theorem remove_inv {seen : Bool} (hsound : Sound stamp same c (.remove seen)) :
    Inv stamp same (step stamp c (.remove seen)) := by
  cases seen with
  | false =>
    obtain ⟨hnil, hgone⟩ := hsound rfl
    have hvalue : ∀ v, c.pending ≠ some (some v) := by
      intro v hv
      rcases hgone with hp | ⟨hp, -⟩ <;> simp [hv] at hp
    refine inv_of_gone rfl hnil hvalue fun hp hacked _ => ?_
    rcases hgone with hp' | ⟨-, hacked' | hremote⟩
    · cases hp'.symm.trans hp
    · rcases hacked with hacked | hsettled
      · rw [show c.acked = none from hacked] at hacked'
        cases hacked'
      · cases hsettled
    · exact hremote
  | true =>
    exact
      { tells := by
          intro op hop
          obtain rfl : none = op := by simpa [step, emit] using hop
          rfl
        freshest := by simp [step, emit]
        pendingLast := by simp [step, emit]
        pendingLive := by simp [step, emit]
        pendingSame := by simp [step, emit]
        caught := by simp [step, emit]
        gone := by simp [step, emit]
        settledLive := by simp [step, emit]
        settledGone := by simp [step, emit] }

section

variable (h : Inv stamp same c)
include h

theorem drain_inv : Inv stamp same (step stamp c .drain) := by
  cases hlast : c.events.getLast? with
  | none =>
    have hnil : c.events = [] := List.getLast?_eq_none_iff.mp hlast
    have hstep : step stamp c .drain = c := by
      obtain ⟨source, events, pending, acked, remote, removed, settled⟩ := c
      obtain rfl : events = [] := hnil
      rfl
    rw [hstep]
    exact h
  | some op =>
    have htells := h.tells op hlast
    cases op with
    | none =>
      have hdrained : c.events.foldl (absorb stamp) c.pending = some none := drained_removal hlast
      exact inv_of_gone htells rfl (by simp [step, hdrained]) (by simp [step, hdrained])
    | some w =>
      obtain ⟨u, hu, huw⟩ := htells
      obtain ⟨x, hdrained, hx⟩ := drained_value (p := c.pending) hlast (fun x => h.freshest w x hlast)
      have hux : same u x := by
        rcases hx with rfl | ⟨hp, hle⟩
        · exact huw
        · exact heq.trans huw (h.pendingLast w x hlast hp hle)
      have hreaches : Reaches same (step stamp c .drain) u := by simpa [Reaches, step, hdrained] using hux
      exact inv_of_reaches heq hu hreaches (by simp [step]) (by simp [step])

omit heq in
/-- Without a source no value waits: the last event would say that there is one. -/
theorem events_nil_of_gone (hu : c.source = none) (hno : none ∉ c.events) : c.events = [] := by
  cases hlast : c.events.getLast? with
  | none => exact List.getLast?_eq_none_iff.mp hlast
  | some op =>
    have htells := h.tells op hlast
    cases op with
    | none => exact absurd (List.mem_of_getLast? hlast) hno
    | some w =>
      obtain ⟨u, hu', -⟩ := htells
      cases hu.symm.trans hu'

omit heq in
theorem dump_gone_inv (hu : c.source = none) (hno : none ∉ c.events) :
    Inv stamp same (step stamp c .dump) := by
  have hnil := events_nil_of_gone h hu hno
  have hvalue : ∀ v, c.pending ≠ some (some v) := fun v hv => h.pendingLive v hnil hv hu
  have hpending : (step stamp c .dump).pending = if c.acked.isSome then some none else c.pending := by
    simp [step, dump, hu]
  have hother : ∀ v, (step stamp c .dump).pending ≠ some (some v) := by
    intro v
    rw [hpending]
    split
    · simp
    · exact hvalue v
  refine inv_of_gone hu hnil hother fun hp _ hremoved => ?_
  rw [hpending] at hp
  split at hp
  · cases hp
  next hacked => exact h.gone hu hnil hp (by simpa using hacked) hremoved

/-- A dump queues the source's value unless the remote side has acknowledged it. -/
theorem dump_reaches {u : V} (hu : c.source = some u) : Reaches same (step stamp c .dump) u := by
  by_cases hnew : c.acked.all (· < stamp u) = true
  · obtain ⟨x, hx⟩ := absorb_isValue stamp c.pending u
    have hux : same u x := by
      rcases absorb_value hx with rfl | ⟨hp, hlt⟩
      · exact heq.refl x
      · exact h.pendingSame u x hu hp (le_of_lt hlt)
    simpa [Reaches, step, dump, hu, hnew, hx] using hux
  · obtain ⟨s, hs, hle⟩ : ∃ s, c.acked = some s ∧ stamp u ≤ s := by
      cases hacked : c.acked with
      | none => simp [hacked] at hnew
      | some s => exact ⟨s, rfl, by simpa [hacked] using hnew⟩
    have hcaught := h.caught u s hu hs hle
    simpa [Reaches, step, dump, hu, hnew] using hcaught

theorem dump_inv (hsound : Sound stamp same c .dump) : Inv stamp same (step stamp c .dump) := by
  cases hu : c.source with
  | none => exact dump_gone_inv h hu hsound
  | some u => exact inv_of_reaches heq hu (dump_reaches heq h hu) h.tells h.freshest

end

/-- A delivery keeps the remote copy on its way to the source's value. -/
theorem deliver_reaches {arrive : V → V} {u : V} {fate : Fate} (hsound : Sound stamp same c (.deliver arrive fate))
    (h : Reaches same c u) : Reaches same (deliver stamp arrive fate c) u := by
  unfold Reaches at h ⊢
  cases hp : c.pending with
  | none =>
    rw [hp] at h
    simpa [deliver, hp] using h
  | some op =>
    rw [hp] at h
    cases op with
    | none => exact h.elim
    | some w =>
      obtain ⟨hwv, hremote⟩ := hsound w hp
      cases fate with
      | lost => simpa [deliver, hp] using h
      | applied => simpa [deliver, hp] using h
      | acked =>
        have huw : same u w := h
        simp only [deliver, hp, if_true, reduceCtorEq, if_false]
        by_cases hfresh : accepts stamp c.remote (arrive w) = true
        · simpa [hfresh] using heq.trans huw hwv
        · obtain ⟨r, hr, hle⟩ : ∃ r, c.remote = some r ∧ stamp (arrive w) ≤ stamp r := by
            cases hr : c.remote with
            | none => simp [accepts, hr] at hfresh
            | some r => exact ⟨r, rfl, by simpa [accepts, hr] using hfresh⟩
          rcases hremote (by decide) r hr with hlt | hwr
          · exact absurd hlt (not_lt_of_ge hle)
          · rw [if_neg hfresh]
            exact ⟨r, hr, heq.trans huw hwr⟩

theorem deliver_inv (h : Inv stamp same c) {arrive : V → V} {fate : Fate}
    (hsound : Sound stamp same c (.deliver arrive fate)) : Inv stamp same (step stamp c (.deliver arrive fate)) := by
  show Inv stamp same (deliver stamp arrive fate c)
  obtain ⟨hsource, hevents, hremoved, hsettled⟩ := deliver_frame stamp c arrive fate
  have hvalue : ∀ x, (deliver stamp arrive fate c).pending = some (some x) → c.pending = some (some x) := by
    intro x hx
    rcases deliver_cases stamp c arrive fate with ⟨hp, -⟩ | ⟨op, -, hp, -⟩
    · rw [← hp, hx]
    · cases hp.symm.trans hx
  exact
    { tells := by rw [hsource, hevents]; exact h.tells
      freshest := by rw [hevents]; exact h.freshest
      pendingLast := by
        rw [hevents]
        exact fun w x hw hx => h.pendingLast w x hw (hvalue x hx)
      pendingLive := by
        rw [hevents, hsource]
        exact fun x hnil hx => h.pendingLive x hnil (hvalue x hx)
      pendingSame := by
        rw [hsource]
        exact fun u x hu hx => h.pendingSame u x hu (hvalue x hx)
      caught := by
        rw [hsource]
        intro u s hu hs hle
        apply deliver_reaches heq hsound
        rcases deliver_cases stamp c arrive fate with ⟨-, hacked⟩ | ⟨op, hop, -, hacked, -⟩
        · exact h.caught u s hu (hacked ▸ hs) hle
        · cases op with
          | none => simp [hacked] at hs
          | some w =>
            obtain rfl : stamp w = s := by simpa [hacked] using hs
            simpa [Reaches, hop] using h.pendingSame u w hu hop hle
      gone := by
        rw [hsource, hevents, hremoved]
        intro hu hnil hp hacked hremoved
        rcases deliver_emptied stamp (fun x hx => h.pendingLive x hnil hx hu) hp with hself | hremote
        · rw [hself] at hp hacked ⊢
          exact h.gone hu hnil hp hacked hremoved
        · exact hremote
      settledLive := by
        rw [hsettled, hsource]
        exact fun hs u hu => deliver_reaches heq hsound (h.settledLive hs u hu)
      settledGone := by
        rw [hsettled, hsource, hevents, hremoved]
        intro hs hu
        obtain ⟨hnil, hno, hgone⟩ := h.settledGone hs hu
        refine ⟨hnil, fun x hx => hno x (hvalue x hx), fun hp hremoved => ?_⟩
        rcases deliver_emptied stamp hno hp with hself | hremote
        · rw [hself] at hp ⊢
          exact hgone hp hremoved
        · exact hremote }

theorem step_inv (h : Inv stamp same c) (e : CellEvent V) (hsound : Sound stamp same c e) :
    Inv stamp same (step stamp c e) := by
  cases e with
  | put v seen => exact put_inv heq hsound
  | refresh v => exact refresh_inv heq h hsound
  | remove seen => exact remove_inv hsound
  | elsewhere => exact { h with settledLive := by simp [step], settledGone := by simp [step] }
  | drain => exact drain_inv heq h
  | dump => exact dump_inv heq h hsound
  | deliver arrive fate => exact deliver_inv heq h hsound
  | idle => exact h

omit heq in
/-- A settled cell with nothing pending is the source's. -/
theorem Inv.agrees (h : Inv stamp same c) (hsettled : c.settled = true) (hpending : c.pending = none) :
    (∀ u, c.source = some u → ∃ r, c.remote = some r ∧ same u r) ∧
      (c.source = none → c.removed = true → c.remote = none) := by
  refine ⟨fun u hu => ?_, fun hu => (h.settledGone hsettled hu).2.2 hpending⟩
  simpa [Reaches, hpending] using h.settledLive hsettled u hu

end Step

end Cell

end EdgeLb.Lib
