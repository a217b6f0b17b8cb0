/-
  EdgeLb.Ha.Bfd — the liveness loop of the gateway pair and the elections it asks for (`run`,
  `reconcile_election` and `should_promote_local` of `edge-lb/src/runtime/bfd.rs`).

  The BFD session is a library's: what is used of it is its state, what a control packet and
  a detection timeout do to it, and that a timeout does not leave it Up. An election request
  carries the status that was published when it was queued, under which the worker takes it
  up. The channel has room.
-/

import EdgeLb.Config.Active
import EdgeLb.Lib.Run

namespace EdgeLb.Ha

open EdgeLb.Config EdgeLb.Lib

inductive BfdState
  | adminDown | down | init | up
  deriving DecidableEq, Repr

structure Transition where
  source : BfdState
  target : BfdState
  deriving DecidableEq, Repr

/-- `wren_bfd::Session`, for control packets `C`. -/
structure BfdSession (S C : Type) where
  fresh : S
  state : S → BfdState
  onPacket : S → C → S × Option Transition
  onDetectTimeout : S → S
  fresh_not_up : state fresh ≠ .up
  timeout_not_up : ∀ s, state (onDetectTimeout s) ≠ .up

/-- The published status of the session. -/
inductive BfdStatus
  | down | up | negotiating | error
  deriving DecidableEq, Repr

structure ElectionRequest where
  peerWasUp : Bool
  status : BfdStatus
  deriving DecidableEq, Repr

/-! ## The election -/

def shouldPromoteLocal (localName : String) (preferredActive : Option String) (status : BfdStatus)
    (peerWasUp activeIsPeer activePeerReachable : Bool) : Bool :=
  match status with
  | .up => false
  | .down =>
    -- before the first session the preferred gateway may take the role when the record does not
    -- name the peer, and the other one when the peer it names is unreachable
    peerWasUp || (activeIsPeer && !activePeerReachable && preferredActive ≠ some localName) ||
      (!activeIsPeer && preferredActive = some localName)
  | _ => false

/-- What an election comes to: the peer's newer role is adopted, the node is promoted, or
    nothing. -/
inductive Election
  | adopt (peer : String)
  | promote
  | nothing
  deriving DecidableEq, Repr

/-- `reachable` and `newerMaster`: what the peer's control plane and its status answer. -/
def reconcileElection (cfg : FileConfig) (ha : GatewayHaRuntimeConfig) (preferredActive : Option String)
    (stored : Option String) (reachable newerMaster : GatewayHaPeer → Bool) (req : ElectionRequest) : Election :=
  let active := (selectActive cfg (some ha) stored).toOption
  let alreadyLocal := active.any (isLocalGateway cfg)
  let activeIsPeer := active.any fun gw =>
    ha.peers.head?.any fun peer => gw.name = peer.name || showIp gw.underlayIp = peer.underlayIp
  let activePeerReachable := activeIsPeer && !req.peerWasUp && ha.peers.head?.any reachable
  match (ha.peers.head?.filter newerMaster).filter fun _ => req.status = .up && alreadyLocal with
  | some peer => .adopt peer.name
  | none =>
    if shouldPromoteLocal cfg.nodeName preferredActive req.status req.peerWasUp activeIsPeer activePeerReachable &&
        !alreadyLocal then .promote
    else .nothing

/-! ## The loop -/

/-- What the loop meets: a packet that could not be sent, an authenticated packet at `at_`,
    one that is ignored (another source, no valid authentication, malformed, none at all), a
    socket error, and the check of the detection time. Clocks are in milliseconds. -/
inductive BfdEvent (C : Type)
  | sendFailed
  | packet (control : C) (at_ : Nat)
  | ignored
  | receiveFailed
  | check (now : Nat)
  deriving DecidableEq, Repr

structure BfdLoop (S : Type) where
  session : S
  lastRx : Option Nat := none
  wasUp : Bool := false
  status : BfdStatus := .down
  queued : List ElectionRequest := []

section Loop

variable {S C : Type} (B : BfdSession S C) (detection : Nat)

def BfdLoop.start : BfdLoop S := { session := B.fresh }

def isUp (s : S) : Bool := B.state s = .up

def silent (l : BfdLoop S) (now : Nat) : Bool := l.lastRx.all fun received => detection < now - received

def queueElection (peerWasUp : Bool) (l : BfdLoop S) : BfdLoop S :=
  { l with queued := l.queued ++ [{ peerWasUp, status := l.status }] }

/-- An authenticated packet of the peer. -/
def onPacket (l : BfdLoop S) (control : C) (at_ : Nat) : BfdLoop S :=
  let (session, transition) := B.onPacket l.session control
  let wasUp := isUp B session
  let l := { l with session, lastRx := some at_, wasUp, status := if wasUp then .up else .negotiating }
  if transition.isSome then queueElection wasUp l else l

/-- The peer was not heard within the detection time. -/
def onSilence (l : BfdLoop S) : BfdLoop S :=
  let peerWasUp := l.wasUp
  let l := { l with wasUp := false, session := B.onDetectTimeout l.session, status := .down }
  if peerWasUp then queueElection peerWasUp l else l

def stepBfd (l : BfdLoop S) : BfdEvent C → BfdLoop S
  | .sendFailed => { l with status := .error }
  | .packet control at_ => onPacket B l control at_
  | .ignored => l
  | .receiveFailed => { l with status := .error }
  | .check now => if silent detection l now then onSilence B l else l

/-! ## Asked since the session was last Up -/

/-- How the session stands to Up: never there, there, or taken out of it by a detection
    timeout or by a packet. -/
inductive LeftUp
  | never | up | silence | packet
  deriving DecidableEq, Repr

/-- The loop with its history: `mark` requests had been queued when the session was last Up. -/
structure Watched (S : Type) where
  loop : BfdLoop S
  mark : Nat := 0
  left : LeftUp := .never

def Watched.start : Watched S := { loop := BfdLoop.start B }

def leftBy : BfdEvent C → LeftUp
  | .check _ => .silence
  | _ => .packet

def stepWatched (w : Watched S) (e : BfdEvent C) : Watched S :=
  let loop := stepBfd B detection w.loop e
  if isUp B loop.session then { loop, mark := loop.queued.length, left := .up }
  else { loop, mark := w.mark, left := if w.left = .up then leftBy e else w.left }

/-- A request to be taken up with the peer considered down was queued since the session was
    last Up, or since the start. -/
def Asked (w : Watched S) : Prop := ∃ r ∈ w.loop.queued.drop w.mark, r.status = .down

/-- A detection timeout that leaves the session not Up leaves it asked about. -/
def AskedAfter (w : Watched S) : BfdEvent C → Prop
  | .check now => silent detection w.loop now = true →
      isUp B (stepWatched B detection w (.check now : BfdEvent C)).loop.session = false →
      Asked (stepWatched B detection w (.check now : BfdEvent C))
  | _ => True

/-- A detection timeout finds the session Up, or taken out of Up by an earlier timeout. -/
def LeftBySilence (w : Watched S) : BfdEvent C → Prop
  | .check now => silent detection w.loop now = true → w.left = .up ∨ w.left = .silence
  | _ => True

/-! ## What a step does -/

variable {B}

theorem silent_not_up {l : BfdLoop S} {now : Nat} {detection : Nat} (h : silent detection l now = true) :
    isUp B (stepBfd B detection l (.check now : BfdEvent C)).session = false := by
  have hsession : (stepBfd B detection l (.check now : BfdEvent C)).session = B.onDetectTimeout l.session := by
    simp only [stepBfd, h, if_true, onSilence]
    split <;> rfl
  rw [hsession, isUp]
  simpa using B.timeout_not_up l.session

/-- Only a timeout that finds the peer Up asks with the peer considered down. -/
theorem stepBfd_queued (l : BfdLoop S) (e : BfdEvent C) :
    ∃ new, (stepBfd B detection l e).queued = l.queued ++ new ∧
      ((∃ r ∈ new, r.status = .down) ↔ ∃ now, e = .check now ∧ silent detection l now = true ∧ l.wasUp = true) := by
  cases e with
  | sendFailed => exact ⟨[], by simp [stepBfd]⟩
  | ignored => exact ⟨[], by simp [stepBfd]⟩
  | receiveFailed => exact ⟨[], by simp [stepBfd]⟩
  | packet control at_ =>
    cases htransition : (B.onPacket l.session control).2 with
    | none => exact ⟨[], by simp [stepBfd, onPacket, htransition]⟩
    | some transition =>
      refine ⟨_, by simp only [stepBfd, onPacket, htransition, Option.isSome_some, if_true, queueElection]; rfl, ?_⟩
      by_cases hup : isUp B (B.onPacket l.session control).1 = true
      · simp [hup]
      · simp [hup]
  | check now =>
    by_cases hsilent : silent detection l now = true
    · by_cases hup : l.wasUp = true
      · exact ⟨[⟨true, .down⟩], by simp [stepBfd, hsilent, onSilence, hup, queueElection]⟩
      · exact ⟨[], by simp [stepBfd, hsilent, onSilence, hup]⟩
    · exact ⟨[], by simp [stepBfd, hsilent]⟩

theorem stepBfd_wasUp {l : BfdLoop S} (h : l.wasUp = isUp B l.session) (e : BfdEvent C) :
    (stepBfd B detection l e).wasUp = isUp B (stepBfd B detection l e).session := by
  cases e with
  | sendFailed => exact h
  | ignored => exact h
  | receiveFailed => exact h
  | packet control at_ =>
    simp only [stepBfd, onPacket]
    split <;> rfl
  | check now =>
    by_cases hsilent : silent detection l now = true
    · rw [silent_not_up hsilent]
      simp only [stepBfd, hsilent, if_true, onSilence]
      split <;> rfl
    · simp only [stepBfd, hsilent]
      exact h

theorem leftBy_ne_up (e : BfdEvent C) : leftBy e ≠ .up := by
  cases e <;> simp [leftBy]

structure WatchedInv (B : BfdSession S C) (w : Watched S) : Prop where
  wasUp : w.loop.wasUp = isUp B w.loop.session
  up : w.left = .up ↔ isUp B w.loop.session = true
  mark : w.mark ≤ w.loop.queued.length
  upMark : w.left = .up → w.mark = w.loop.queued.length
  asked : w.left = .silence ↔ Asked w

theorem start_watchedInv : WatchedInv B (Watched.start B) where
  wasUp := by
    have h := B.fresh_not_up
    simp [Watched.start, BfdLoop.start, isUp, h]
  up := by
    have h := B.fresh_not_up
    simp [Watched.start, BfdLoop.start, isUp, h]
  mark := by simp [Watched.start, BfdLoop.start]
  upMark := by simp [Watched.start]
  asked := by simp [Watched.start, BfdLoop.start, Asked]

theorem stepWatched_inv {w : Watched S} (h : WatchedInv B w) (e : BfdEvent C) :
    WatchedInv B (stepWatched B detection w e) := by
  have hwas := stepBfd_wasUp detection h.wasUp e
  obtain ⟨new, hqueued, hnew⟩ := stepBfd_queued (B := B) detection w.loop e
  unfold stepWatched
  by_cases hup : isUp B (stepBfd B detection w.loop e).session = true
  · simp only [hup, if_true]
    exact ⟨hwas, by simp [hup], le_refl _, fun _ => rfl, by simp [Asked]⟩
  · simp only [hup]
    have hasked : Asked ⟨stepBfd B detection w.loop e, w.mark, .never⟩ ↔
        Asked w ∨ ∃ r ∈ new, r.status = .down := by
      simp only [Asked, hqueued, List.drop_append_of_le_length h.mark, List.mem_append, or_and_right, exists_or]
    have hmark : w.mark ≤ (stepBfd B detection w.loop e).queued.length := by
      rw [hqueued, List.length_append]
      have := h.mark
      omega
    by_cases hleft : w.left = .up
    · -- the session was Up: nothing is asked since, and a check that takes it out asks
      have hnothing : ¬ Asked w := by simp [Asked, h.upMark hleft]
      have hwasUp : w.loop.wasUp = true := by rw [h.wasUp, h.up.mp hleft]
      refine ⟨hwas, ?_, hmark, ?_, ?_⟩
      · show (if w.left = .up then leftBy e else w.left) = .up ↔ _
        rw [if_pos hleft]
        exact iff_of_false (leftBy_ne_up e) hup
      · show (if w.left = .up then leftBy e else w.left) = .up → _
        rw [if_pos hleft]
        exact fun hleft => absurd hleft (leftBy_ne_up e)
      · show (if w.left = .up then leftBy e else w.left) = .silence ↔ _
        rw [if_pos hleft]
        refine Iff.trans ?_ hasked.symm
        rw [hnew]
        cases e with
        | check now =>
          have hsilent : silent detection w.loop now = true := by
            by_contra hloud
            apply hup
            simp only [stepBfd, hloud]
            exact h.up.mp hleft
          simp [leftBy, hsilent, hwasUp]
        | sendFailed => simp [leftBy, hnothing]
        | packet control at_ => simp [leftBy, hnothing]
        | ignored => simp [leftBy, hnothing]
        | receiveFailed => simp [leftBy, hnothing]
    · have hdown : w.loop.wasUp = false := by
        rw [h.wasUp]
        simpa using fun hw => hleft (h.up.mpr hw)
      refine ⟨hwas, by simp [hleft, hup], hmark, by simp [hleft], ?_⟩
      show (if w.left = .up then leftBy e else w.left) = .silence ↔ _
      rw [if_neg hleft, h.asked]
      refine Iff.trans ?_ hasked.symm
      rw [hnew]
      simp [hdown]

theorem askedAfter_iff {w : Watched S} (h : WatchedInv B w) (e : BfdEvent C) :
    AskedAfter B detection w e ↔ LeftBySilence detection w e := by
  cases e with
  | sendFailed => exact Iff.rfl
  | packet control at_ => exact Iff.rfl
  | ignored => exact Iff.rfl
  | receiveFailed => exact Iff.rfl
  | check now =>
    refine forall_congr' fun hsilent => ?_
    have hdown := silent_not_up (B := B) hsilent
    have hafter := (stepWatched_inv detection h (.check now)).asked
    have hloop : (stepWatched B detection w (.check now)).loop = stepBfd B detection w.loop (.check now) := by
      simp only [stepWatched, hdown]
      rfl
    rw [hloop, ← hafter]
    simp only [hdown, forall_true_left, stepWatched, Bool.false_eq_true, if_false]
    by_cases hleft : w.left = .up
    · simp [hleft, leftBy]
    · simp [hleft]

end Loop

/-- In every run of the loop from its start, every detection timeout leaves an election asked
    for with the peer considered down exactly when every one of them finds the session Up or
    taken out of Up by a timeout. -/
theorem silence_asked_iff {S C : Type} (B : BfdSession S C) (detection : Nat) (es : List (BfdEvent C)) :
    StepsMeet (stepWatched B detection) (AskedAfter B detection) (Watched.start B) es ↔
      StepsMeet (stepWatched B detection) (LeftBySilence detection) (Watched.start B) es :=
  stepsMeet_congr _ (I := WatchedInv B) (fun _ e h _ => stepWatched_inv detection h e) (fun _ e h => askedAfter_iff detection h e)
    start_watchedInv es

/-- After every event the loop remembers the state its session is in, and the peer has been
    asked about as down exactly if a timeout took the session out of Up last. -/
theorem loop_follows_session {S C : Type} (B : BfdSession S C) (detection : Nat) (es : List (BfdEvent C)) :
    let w := run (stepWatched B detection) (Watched.start B) es
    w.loop.wasUp = isUp B w.loop.session ∧ (w.left = .silence ↔ Asked w) := by
  have h := inv_run_all (I := WatchedInv B) (stepWatched B detection) (fun _ e h => stepWatched_inv detection h e)
    start_watchedInv es
  exact ⟨h.wasUp, h.asked⟩

/-! ## A session -/

/-- The states of RFC 5880, 6.8.6, by the state the peer's packet carries. -/
def nextState : BfdState → BfdState → BfdState
  | .adminDown, _ => .adminDown
  | .down, .down => .init
  | .down, .init => .up
  | .down, _ => .down
  | _, .adminDown => .down
  | .init, .down => .init
  | .init, _ => .up
  | .up, .down => .down
  | .up, _ => .up

def stateSession : BfdSession BfdState BfdState where
  fresh := .down
  state := id
  onPacket s received :=
    let target := nextState s received
    (target, if target = s then none else some ⟨s, target⟩)
  onDetectTimeout
    | .adminDown => .adminDown
    | _ => .down
  fresh_not_up := by decide
  timeout_not_up := by intro s; cases s <;> decide

/-- A node whose peer is never heard, and one whose peer says Down before it falls silent, ask
    for no election with the peer considered down. -/
theorem silence_not_asked_about :
    ¬ StepsMeet (stepWatched stateSession 900) (AskedAfter stateSession 900) (Watched.start stateSession) [.check 0] ∧
      ¬ StepsMeet (stepWatched stateSession 900) (AskedAfter stateSession 900) (Watched.start stateSession)
        [.packet .down 0, .packet .init 300, .packet .down 600, .check 1600] := by
  constructor
  · intro h
    obtain ⟨r, hr, hdown⟩ := h.1 (by decide) (by decide)
    revert r
    decide
  · intro h
    obtain ⟨r, hr, hdown⟩ := h.2.2.2.1 (by decide) (by decide)
    revert r
    decide

end EdgeLb.Ha
