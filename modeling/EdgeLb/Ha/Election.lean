/-
  EdgeLb.Ha.Election — two gateways that are both MASTER and elect at the same time
  (`reconcile_election`, `peer_reports_newer_master` and `peer_status_is_newer_master` of
  `edge-lb/src/runtime/bfd.rs` under a session that is Up, `state` and the steps of
  `switch_active_gateway` of `provider/native/ha.rs`, `next_revision` of `storage/mod.rs`).

  The gateway whose record is older adopts the other's role. An election reads its own
  record, its revision and the peer's status one after the other, and then switches in three
  more steps; the steps of the two gateways interleave in any order. Every request reaches
  the other gateway and is answered, and nothing of what `peer_activate` does but its record
  is read by the other election, so it is one step.

  `one_master_iff`: exactly one MASTER is left, in whatever order the steps are taken, when
  the revisions differ and the switch of the older gateway goes through. Nothing decides
  between equal revisions. Meanwhile there is always a MASTER (`newer_stays_master`).
-/

import EdgeLb.Ha.Bfd
import EdgeLb.Ha.Switch

namespace EdgeLb.Ha

open EdgeLb.Config EdgeLb.Lib

/-! ## Revisions -/

/-- `saturating_add(1)`. -/
def revisionAfter (last : Int64) : Int64 := if last = Int64.maxValue then last else last + 1

def nextRevision (now last : Int64) : Int64 := max now (revisionAfter last)

theorem le_revisionAfter (last : Int64) : last ≤ revisionAfter last := by
  unfold revisionAfter
  split
  · exact Int64.le_refl last
  · rename_i hne
    have hmax : Int64.maxValue.toInt = 2 ^ 63 - 1 := rfl
    have hlow := Int64.le_toInt last
    have hlt : last.toInt < 2 ^ 63 - 1 := by
      have hle := Int64.toInt_le last
      have hneq : last.toInt ≠ Int64.maxValue.toInt := fun h => hne (Int64.toInt_inj.mp h)
      omega
    rw [Int64.le_iff_toInt_le, Int64.toInt_add]
    show last.toInt ≤ (last.toInt + 1).bmod (2 ^ 64)
    rw [Int.bmod_eq_of_le] <;> omega

theorem le_nextRevision (now last : Int64) : last ≤ nextRevision now last := by
  have hafter := le_revisionAfter last
  show last ≤ if now ≤ revisionAfter last then revisionAfter last else now
  split
  · exact hafter
  · rename_i hnot
    exact Int64.le_trans hafter (Int64.le_of_lt (Int64.not_le.mp hnot))

/-- The revision of the active-gateway record and the highest one the store knows, which is
    read from it when it is opened and from which the next one is counted. -/
structure Revisions where
  current : Int64
  last : Int64
  floor : current ≤ last
  started : 0 ≤ last

/-- The record is written at `now`. -/
def Revisions.written (now : Int64) (r : Revisions) : Revisions where
  current := nextRevision now r.last
  last := nextRevision now r.last
  floor := Int64.le_refl _
  started := Int64.le_trans r.started (le_nextRevision now r.last)

/-! ## The status of a gateway -/

/-- A gateway with its one peer. The steps of its own switch meet `role`, `restoreRole`,
    `write` and `clock`; those of an activation that the peer asks for meet the others. -/
structure Gateway where
  cfg : FileConfig
  ha : GatewayHaRuntimeConfig
  peer : GatewayHaPeer
  onePeer : ha.peers = [peer]
  role : RoleFaults := {}
  restoreRole : RoleFaults := {}
  write : Option String := none
  clock : Int64 := 0
  activateRole : RoleFaults := {}
  activateWrite : Option String := none
  activateClock : Int64 := 0

/-- What an election has come to. -/
inductive Phase
  | start
  | active
  | asked (localRevision : Int64)
  | adopting
  | released (target : String)
  | told (target : String)
  | done
  deriving DecidableEq

structure Elector where
  node : NodeHa
  revisions : Revisions
  phase : Phase := .start

def activeGatewayRevision (e : Elector) : Option Int64 := e.node.record.map fun _ => e.revisions.current

def localRevision (e : Elector) : Int64 := (activeGatewayRevision e).getD 0

inductive NativeState
  | disabled | master | backup
  deriving DecidableEq, Repr

structure NativeHaState where
  node : String
  activeGateway : Option String
  activeRevision : Option Int64
  state : NativeState
  deriving DecidableEq

/-- `state`. -/
def nativeState (g : Gateway) (e : Elector) : NativeHaState where
  node := g.cfg.nodeName
  activeGateway := previousActive g.cfg g.ha e.node
  activeRevision := activeGatewayRevision e
  state :=
    if !g.ha.enabled then .disabled
    else if localGatewayIsActive g.cfg g.ha e.node then .master
    else .backup

/-- The gateway considers itself MASTER. -/
def Master (g : Gateway) (e : Elector) : Prop := (nativeState g e).state = .master

instance (g : Gateway) (e : Elector) : Decidable (Master g e) := inferInstanceAs (Decidable (_ = _))

def peerStatus (g : Gateway) (e : Elector) : Except (Nat × String) NativeHaState :=
  if g.cfg.nodeRole ≠ .gateway then .error (403, "HA API is only available on gateway nodes")
  else .ok (nativeState g e)

def peerStatusIsNewerMaster (native : NativeHaState) (peer : GatewayHaPeer) (localRevision : Int64) : Bool :=
  native.state = .master &&
    native.activeGateway.any (fun active => active = native.node && (native.node = peer.name || active = peer.name)) &&
    localRevision < native.activeRevision.getD 0

def peerReportsNewerMaster (reply : Except (Nat × String) NativeHaState) (peer : GatewayHaPeer)
    (localRevision : Int64) : Bool :=
  match reply with
  | .error _ => false
  | .ok native => peerStatusIsNewerMaster native peer localRevision

/-! ## The steps of an election -/

/-- The first part of `switch_active_gateway`, up to the local role. -/
def adoptPeer (g : Gateway) (e : Elector) : Elector :=
  match switchTarget g.cfg g.ha g.peer.name with
  | none => { e with phase := .done }
  | some target =>
    let targetIsLocal := isLocalGateway g.cfg target
    if !g.ha.enabled then { e with phase := .told target.name }
    else if !targetIsLocal && !configuredPeer g.ha target then { e with phase := .done }
    else
      match applyLocalHaRole g.ha targetIsLocal true g.role e.node with
      | (node, .error _) => { e with node, phase := .done }
      | (node, .ok _) => { e with node, phase := if targetIsLocal then .told target.name else .released target.name }

/-- `peer_activate` at the gateway that is asked. -/
def activated (g : Gateway) (target : String) (e : Elector) : Elector × Except (Nat × String) Activated :=
  match peerActivate g.cfg (.ok g.ha) (.ok (some target)) g.activateRole g.activateWrite e.node with
  | (node, .error reply) => ({ e with node }, .error reply)
  | (node, .ok reply) => ({ e with node, revisions := e.revisions.written g.activateClock }, .ok reply)

/-- The answer of the peer: a failure gives the role back. -/
def toldPeer (g : Gateway) (target : String) (reply : Except (Nat × String) Activated) (e : Elector) : Elector :=
  if ((answerOf none reply).failure g.peer).isSome || unmatched g.cfg g.ha target then
    { e with node := (applyLocalHaRole g.ha true true g.restoreRole e.node).1, phase := .done }
  else { e with phase := .told target }

def recordTarget (g : Gateway) (target : String) (e : Elector) : Elector :=
  match writeActiveGateway g.write target e.node with
  | (node, .error _) => { e with node, phase := .done }
  | (node, .ok ()) => { node, revisions := e.revisions.written g.clock, phase := .done }

inductive Side
  | a | b
  deriving DecidableEq, Repr

def Side.other : Side → Side
  | .a => .b
  | .b => .a

abbrev Electors := Side → Elector

/-- One step of the election of the gateway `s`. -/
def stepElection (gs : Side → Gateway) (es : Electors) (s : Side) : Electors :=
  let g := gs s
  let e := es s
  match e.phase with
  | .start =>
    -- under a session that is Up a gateway that is not active does nothing
    Function.update es s { e with phase := if localGatewayIsActive g.cfg g.ha e.node then .active else .done }
  | .active => Function.update es s { e with phase := .asked (localRevision e) }
  | .asked localRevision =>
    let newer := peerReportsNewerMaster (peerStatus (gs s.other) (es s.other)) g.peer localRevision
    Function.update es s { e with phase := if newer then .adopting else .done }
  | .adopting => Function.update es s (adoptPeer g e)
  | .released target =>
    let (peer, reply) := activated (gs s.other) target (es s.other)
    Function.update (Function.update es s.other peer) s (toldPeer g target reply e)
  | .told target => Function.update es s (recordTarget g target e)
  | .done => es

theorem Side.other_ne (s : Side) : s.other ≠ s := by cases s <;> decide

theorem Side.other_other (s : Side) : s.other.other = s := by cases s <;> rfl

theorem Side.eq_or_other (s t : Side) : t = s ∨ t = s.other := by cases s <;> cases t <;> decide

/-- The peer's status says that it is MASTER by a newer record than the one of `s`. -/
def seesNewer (gs : Side → Gateway) (es : Electors) (s : Side) (peer : GatewayHaPeer) : Bool :=
  peerReportsNewerMaster (peerStatus (gs s.other) (es s.other)) peer (localRevision (es s))

section

variable (gs : Side → Gateway) {es : Electors} {s : Side} (hstart : (es s).phase = .start)
include hstart

/-- Three steps without the other gateway in between. -/
theorem run_decides :
    run (stepElection gs) es [s, s, s] = Function.update es s { es s with
      phase := if localGatewayIsActive (gs s).cfg (gs s).ha (es s).node && seesNewer gs es s (gs s).peer then .adopting
        else .done } := by
  have hother (e : Elector) : Function.update es s e s.other = es s.other := Function.update_of_ne s.other_ne e es
  cases hlocal : localGatewayIsActive (gs s).cfg (gs s).ha (es s).node with
  | false => simp [stepElection, hstart, hlocal]
  | true =>
    have hrevision (phase : Phase) : localRevision { es s with phase } = localRevision (es s) := rfl
    simp [stepElection, hstart, hlocal, hother, hrevision, seesNewer]

end

/-! ## A pair -/

/-- Two gateways that know each other. In the inventory of either, an entry that goes by the
    name or has the address of one of the two is that gateway, and the names survive being
    written to the record. -/
structure Paired (gs : Side → Gateway) : Prop where
  role : ∀ s, (gs s).cfg.nodeRole = .gateway
  own : ∀ s, ∃ gw ∈ (gs s).cfg.gatewayNodes, gw.name = (gs s).cfg.nodeName
  peerName : ∀ s, (gs s).peer.name = (gs s.other).cfg.nodeName
  peerAddress : ∀ s, parseIp (gs s).peer.underlayIp = some (gs s.other).cfg.underlayIp
  namesApart : ∀ s, (gs s.other).cfg.nodeName ≠ (gs s).cfg.nodeName
  addressesApart : ∀ s, (gs s.other).cfg.underlayIp ≠ (gs s).cfg.underlayIp
  identified : ∀ s t, ∀ gw ∈ allGateways (gs s).cfg (some (gs s).ha),
    gw.answersTo (gs t).cfg.nodeName = true ∨ gw.underlayIp = (gs t).cfg.underlayIp →
      gw.name = (gs t).cfg.nodeName ∧ gw.underlayIp = (gs t).cfg.underlayIp
  plain : ∀ s, trim (gs s).cfg.nodeName = (gs s).cfg.nodeName ∧ (gs s).cfg.nodeName ≠ ""

section Paired

variable {gs : Side → Gateway} (hp : Paired gs)

include hp

/-- Either gateway finds both in its inventory. -/
theorem Paired.known (s t : Side) :
    ∃ gw ∈ allGateways (gs s).cfg (some (gs s).ha), gw.answersTo (gs t).cfg.nodeName = true := by
  rcases Side.eq_or_other s t with rfl | rfl
  · obtain ⟨gw, hmem, hname⟩ := hp.own t
    exact ⟨gw, mem_allGateways hmem, by simp [GatewayNode.answersTo, hname]⟩
  · -- the peer was added to the gateways, or one of them has its name or address
    have hident := hp.identified s s.other
    have hall : allGateways (gs s).cfg (some (gs s).ha) =
        addPeer (gs s).cfg (gs s).cfg.gatewayNodes (gs s).peer := by
      simp [allGateways, hp.role s, (gs s).onePeer]
    rw [hall] at hident ⊢
    unfold addPeer at hident ⊢
    simp only [peerNode, hp.peerAddress s, Option.map_some] at hident ⊢
    split
    · rename_i hany
      rw [if_pos hany] at hident
      obtain ⟨gw, hmem, hgw⟩ := List.any_eq_true.mp hany
      refine ⟨gw, hmem, ?_⟩
      have hthere : gw.answersTo (gs s.other).cfg.nodeName = true ∨ gw.underlayIp = (gs s.other).cfg.underlayIp := by
        rcases Bool.or_eq_true_iff.mp hgw with hname | haddress
        · rw [← hp.peerName s]
          exact .inl (by simpa [GatewayNode.answersTo] using Or.inl (of_decide_eq_true hname))
        · exact .inr (of_decide_eq_true haddress)
      simp [GatewayNode.answersTo, (hident gw hmem hthere).1]
    · exact ⟨_, List.mem_append_right _ (List.mem_singleton_self _), by simp [GatewayNode.answersTo, hp.peerName s]⟩

/-- The gateway that is MASTER is active under its own name. -/
theorem Paired.master_name {s : Side} {n : NodeHa} (h : localGatewayIsActive (gs s).cfg (gs s).ha n = true) :
    previousActive (gs s).cfg (gs s).ha n = some (gs s).cfg.nodeName := by
  unfold localGatewayIsActive at h
  cases hactive : selectActive (gs s).cfg (some (gs s).ha) n.record with
  | error e => simp [hactive] at h
  | ok gw =>
    have hlocal : isLocalGateway (gs s).cfg gw = true := by simpa [hactive] using h
    have hthere : gw.answersTo (gs s).cfg.nodeName = true ∨ gw.underlayIp = (gs s).cfg.underlayIp := by
      simp only [isLocalGateway, Bool.or_eq_true, decide_eq_true_eq] at hlocal
      rcases hlocal with hname | haddress
      · exact .inl (by simp [GatewayNode.answersTo, hname])
      · exact .inr haddress
    have hname := (hp.identified s s gw (selectActive_mem hactive) hthere).1
    simp [previousActive, hactive, Except.toOption, hname]

theorem Paired.isLocal (s t : Side) {gw : GatewayNode} (hname : gw.name = (gs t).cfg.nodeName)
    (haddress : gw.underlayIp = (gs t).cfg.underlayIp) : isLocalGateway (gs s).cfg gw = decide (t = s) := by
  unfold isLocalGateway
  rcases Side.eq_or_other s t with rfl | rfl
  · simp [hname]
  · simp [hname, haddress, hp.namesApart s, hp.addressesApart s, s.other_ne]

/-- A record that names one of the two selects it. -/
theorem Paired.record_selects (s t : Side) (hsource : (gs s).cfg.ha.activeSource ≠ .xds) {n : NodeHa}
    (hrecord : n.record = some (recordText (gs t).cfg.nodeName)) :
    localGatewayIsActive (gs s).cfg (gs s).ha n = decide (t = s) := by
  obtain ⟨htrim, hne⟩ := hp.plain t
  have hread : trim (recordText (gs t).cfg.nodeName) = (gs t).cfg.nodeName := (trim_recordText _).trans htrim
  obtain ⟨gw, hfind⟩ : ∃ gw, (allGateways (gs s).cfg (some (gs s).ha)).find?
      (·.answersTo (trim (recordText (gs t).cfg.nodeName))) = some gw := by
    rw [hread]
    obtain ⟨gw, hmem, hanswers⟩ := hp.known s t
    exact Option.isSome_iff_exists.mp (List.find?_isSome.mpr ⟨gw, hmem, hanswers⟩)
  have hactive := selectActive_stored hsource (by rwa [hread]) hfind
  have hanswers : gw.answersTo (gs t).cfg.nodeName = true := by
    have hsome := List.find?_some hfind
    rwa [hread] at hsome
  obtain ⟨hname, haddress⟩ := hp.identified s t gw (List.mem_of_find?_eq_some hfind) (.inl hanswers)
  rw [localGatewayIsActive, hrecord, hactive]
  exact hp.isLocal s t hname haddress

/-- The peer is the target of the switch, and is not this node. -/
theorem Paired.switchTarget_peer (s : Side) : ∃ target, switchTarget (gs s).cfg (gs s).ha (gs s).peer.name = some target ∧
    target.name = (gs s).peer.name ∧ isLocalGateway (gs s).cfg target = false := by
  have hnot {gw : GatewayNode} (hname : gw.name = (gs s.other).cfg.nodeName)
      (haddress : gw.underlayIp = (gs s.other).cfg.underlayIp) : isLocalGateway (gs s).cfg gw = false := by
    rw [hp.isLocal s s.other hname haddress]
    exact decide_eq_false s.other_ne
  unfold switchTarget
  cases hfind : gatewayByKey (gs s).cfg (gs s).peer.name with
  | some gw =>
    have hanswers : gw.answersTo (gs s.other).cfg.nodeName = true := by
      rw [← hp.peerName s]
      exact List.find?_some hfind
    obtain ⟨hname, haddress⟩ :=
      hp.identified s s.other gw (mem_allGateways (List.mem_of_find?_eq_some hfind)) (.inl hanswers)
    exact ⟨gw, rfl, by rw [hname, hp.peerName s], hnot hname haddress⟩
  | none =>
    obtain ⟨node, hnode⟩ : ∃ node, peerNode (gs s).cfg (gs s).peer = some node := by
      rw [peerNode, hp.peerAddress s]
      exact ⟨_, rfl⟩
    have hshape := hnode
    rw [peerNode, hp.peerAddress s] at hshape
    have hname : node.name = (gs s).peer.name := by rw [← Option.some.inj hshape]
    have haddress : node.underlayIp = (gs s.other).cfg.underlayIp := by rw [← Option.some.inj hshape]
    refine ⟨node, ?_, hname, hnot (hname.trans (hp.peerName s)) haddress⟩
    simp [(gs s).onePeer, hnode]

/-- A gateway that is asked to be active knows itself. -/
theorem Paired.activationTarget_self (s : Side) :
    activationTarget (gs s).cfg (gs s).ha (gs s).cfg.nodeName = some ((gs s).cfg.nodeName, true) := by
  obtain ⟨own, hmem, hown⟩ := hp.own s
  obtain ⟨gw, hfind⟩ : ∃ gw, gatewayByKey (gs s).cfg (gs s).cfg.nodeName = some gw :=
    Option.isSome_iff_exists.mp (List.find?_isSome.mpr ⟨own, hmem, by simp [GatewayNode.answersTo, hown]⟩)
  have hanswers : gw.answersTo (gs s).cfg.nodeName = true := List.find?_some hfind
  obtain ⟨hname, haddress⟩ :=
    hp.identified s s gw (mem_allGateways (List.mem_of_find?_eq_some hfind)) (.inl hanswers)
  have hlocal : isLocalGateway (gs s).cfg gw = true := by simp [isLocalGateway, hname]
  simp [activationTarget, hfind, hname, hlocal]

/-! ### The steps of a pair -/

theorem Paired.adoptPeer_eq (s : Side) (henabled : (gs s).ha.enabled = true) (e : Elector) :
    ∃ node, node.record = e.node.record ∧ adoptPeer (gs s) e = { e with
      node, phase := if roleFails (gs s).ha false (gs s).role e.node then .done else .released (gs s).peer.name } := by
  obtain ⟨target, htarget, hname, hlocal⟩ := hp.switchTarget_peer s
  have hconfigured : configuredPeer (gs s).ha target = true := by simp [configuredPeer, (gs s).onePeer, hname]
  unfold adoptPeer
  simp only [htarget, hlocal, henabled, hconfigured, hname, Bool.not_true, Bool.and_false, Bool.false_eq_true, if_false]
  obtain ⟨node, hrecord, -, ⟨hfails, error, happlied⟩ | ⟨hfails, result, happlied⟩⟩ :=
    applyLocalHaRole_cases (gs s).ha false (gs s).role e.node
  · exact ⟨node, hrecord, by rw [happlied, hfails]; rfl⟩
  · exact ⟨node, hrecord, by rw [happlied, hfails]; rfl⟩

/-- The activation of the gateway itself fails. -/
def activationFails (g : Gateway) (n : NodeHa) : Bool := roleFails g.ha true g.activateRole n || g.activateWrite.isSome

theorem Paired.activated_eq (s : Side) (e : Elector) :
    (∃ node reply, activationFails (gs s) e.node = true ∧ node.record = e.node.record ∧
      activated (gs s) (gs s).cfg.nodeName e = ({ e with node }, .error reply)) ∨
    (∃ node reply, activationFails (gs s) e.node = false ∧
      node.record = some (recordText (gs s).cfg.nodeName) ∧
      activated (gs s) (gs s).cfg.nodeName e =
        ({ e with node, revisions := e.revisions.written (gs s).activateClock }, .ok reply)) := by
  unfold activated peerActivate activate activationFails
  simp only [hp.role s, ne_eq, not_true_eq_false, if_false, hp.activationTarget_self s]
  obtain ⟨node, hrecord, -, ⟨hfails, error, happlied⟩ | ⟨hfails, applied, happlied⟩⟩ :=
    applyLocalHaRole_cases (gs s).ha true (gs s).activateRole e.node
  · rw [happlied, hfails]
    exact .inl ⟨node, _, rfl, hrecord, rfl⟩
  · rw [happlied, hfails]
    cases (gs s).activateWrite with
    | some error => exact .inl ⟨node, _, rfl, hrecord, rfl⟩
    | none => exact .inr ⟨_, _, rfl, rfl, rfl⟩

omit hp in
theorem toldPeer_error (g : Gateway) (target : String) (reply : Nat × String) (e : Elector) :
    ∃ node, node.record = e.node.record ∧ toldPeer g target (.error reply) e = { e with node, phase := .done } := by
  obtain ⟨status, body⟩ := reply
  exact ⟨_, (applyLocalHaRole_spec g.ha true g.restoreRole e.node).1, rfl⟩

omit hp in
theorem toldPeer_ok (g : Gateway) (reply : Activated) (e : Elector) :
    toldPeer g g.peer.name (.ok reply) e = { e with phase := .told g.peer.name } := by
  simp [toldPeer, answerOf, PeerAnswer.failure, unmatched, g.onePeer]

/-! ### What is read of the other -/

omit hp in
theorem master_iff {g : Gateway} {e : Elector} :
    Master g e ↔ g.ha.enabled = true ∧ localGatewayIsActive g.cfg g.ha e.node = true := by
  unfold Master nativeState
  cases g.ha.enabled with
  | false => simp
  | true => cases localGatewayIsActive g.cfg g.ha e.node <;> simp

/-- A newer master is read of a peer that is MASTER by a record with a higher revision. -/
theorem Paired.newer_iff (s : Side) (e : Elector) (own : Int64) :
    peerReportsNewerMaster (peerStatus (gs s.other) e) (gs s).peer own = true ↔
      Master (gs s.other) e ∧ own < localRevision e := by
  have hstatus : peerStatus (gs s.other) e = .ok (nativeState (gs s.other) e) := by simp [peerStatus, hp.role]
  rw [hstatus, peerReportsNewerMaster, peerStatusIsNewerMaster]
  by_cases hmaster : Master (gs s.other) e
  · have hname := hp.master_name (master_iff.mp hmaster).2
    have hstate : (nativeState (gs s.other) e).state = .master := hmaster
    have hactive : (nativeState (gs s.other) e).activeGateway = some (gs s.other).cfg.nodeName := hname
    have hnode : (nativeState (gs s.other) e).node = (gs s.other).cfg.nodeName := rfl
    have hrevision : (nativeState (gs s.other) e).activeRevision.getD 0 = localRevision e := rfl
    simp [hstate, hactive, hnode, hrevision, hp.peerName s, hmaster]
  · have hstate : (nativeState (gs s.other) e).state ≠ .master := hmaster
    simp [hstate, hmaster]

end Paired

/-- The same record at the same revision. -/
def SameRecord (e e₀ : Elector) : Prop := e.node.record = e₀.node.record ∧ e.revisions = e₀.revisions

theorem SameRecord.localRevision_eq {e e₀ : Elector} (h : SameRecord e e₀) : localRevision e = localRevision e₀ := by
  simp [localRevision, activeGatewayRevision, h.1, h.2]

/-- The same but for the phase. -/
def Untouched (e e₀ : Elector) : Prop := e.node = e₀.node ∧ e.revisions = e₀.revisions

theorem Untouched.same {e e₀ : Elector} (h : Untouched e e₀) : SameRecord e e₀ :=
  ⟨congrArg NodeHa.record h.1, h.2⟩

theorem localGatewayIsActive_congr {n n₀ : NodeHa} (cfg : FileConfig) (ha : GatewayHaRuntimeConfig)
    (h : n.record = n₀.record) : localGatewayIsActive cfg ha n = localGatewayIsActive cfg ha n₀ := by
  simp [localGatewayIsActive, h]

/-- Whether a gateway is MASTER is read from its record. -/
theorem master_congr {g : Gateway} {e e₀ : Elector} (h : e.node.record = e₀.node.record) : Master g e ↔ Master g e₀ := by
  rw [master_iff, master_iff, localGatewayIsActive_congr g.cfg g.ha h]

theorem localRevision_le_last (e : Elector) : localRevision e ≤ e.revisions.last := by
  unfold localRevision activeGatewayRevision
  cases e.node.record with
  | none => exact e.revisions.started
  | some text => exact e.revisions.floor

/-- A record is never written with a revision below the one it had. -/
theorem localRevision_le_written {e e' : Elector} {now : Int64} (hrecord : e'.node.record ≠ none)
    (hrevisions : e'.revisions = e.revisions.written now) : localRevision e ≤ localRevision e' := by
  obtain ⟨text, htext⟩ := Option.ne_none_iff_exists'.mp hrecord
  have hwritten : localRevision e' = nextRevision now e.revisions.last := by
    simp [localRevision, activeGatewayRevision, htext, hrevisions, Revisions.written]
  rw [hwritten]
  exact Int64.le_trans (localRevision_le_last e) (le_nextRevision now e.revisions.last)

/-- A MASTER whose record names itself stays MASTER. -/
theorem Paired.master_of_record {gs : Side → Gateway} (hp : Paired gs) {s : Side} {e e₀ : Elector}
    (hmaster : Master (gs s) e₀) (hrecord : e.node.record = some (recordText (gs s).cfg.nodeName)) :
    Master (gs s) e := by
  obtain ⟨henabled, hactive⟩ := master_iff.mp hmaster
  refine master_iff.mpr ⟨henabled, ?_⟩
  by_cases hsource : (gs s).cfg.ha.activeSource = .xds
  · -- the record is not what the active gateway is read from
    rw [← hactive]
    simp [localGatewayIsActive, selectActive, hsource]
  · rw [hp.record_selects s s hsource hrecord]
    exact decide_eq_true rfl

/-- A gateway whose record names its peer is not MASTER. -/
theorem Paired.not_master {gs : Side → Gateway} (hp : Paired gs) {s : Side} {e : Elector}
    (hsource : (gs s).cfg.ha.activeSource ≠ .xds) (hrecord : e.node.record = some (recordText (gs s).peer.name)) :
    ¬ Master (gs s) e := by
  intro hmaster
  rw [hp.peerName s] at hrecord
  have hbackup := hp.record_selects s s.other hsource hrecord
  rw [(master_iff.mp hmaster).2] at hbackup
  exact s.other_ne (of_decide_eq_true hbackup.symm)

/-! ## The older one yields -/

/-- The gateway `s` has the older record, and no step of its switch fails: it releases its
    role, the other accepts the activation and its own record can be written. Its active
    gateway is read from the record. -/
structure Yields (gs : Side → Gateway) (es : Electors) (s : Side) : Prop where
  older : localRevision (es s) < localRevision (es s.other)
  stored : (gs s).cfg.ha.activeSource ≠ .xds
  releases : roleFails (gs s).ha false (gs s).role (es s).node = false
  accepted : activationFails (gs s.other) (es s.other).node = false
  records : (gs s).write = none

/-- The other gateway's record names it, by a revision that is not older than `r`. -/
def Holds (g : Gateway) (r : Int64) (e : Elector) : Prop :=
  e.node.record = some (recordText g.cfg.nodeName) ∧ r ≤ localRevision e

/-- How far `s`, whose record is the older one, has come from `es₀`: `own` is now its own
    state and `other` that of the other gateway. -/
inductive Stage (gs : Side → Gateway) (es₀ : Electors) (s : Side) (own other : Elector) : Prop
  | untouched (hother : Untouched other (es₀ s.other)) (hown : Untouched own (es₀ s))
      (hphase : own.phase = .start ∨ own.phase = .active ∨ own.phase = .asked (localRevision (es₀ s)) ∨
        own.phase = .adopting)
  | released (hother : Untouched other (es₀ s.other)) (hown : SameRecord own (es₀ s))
      (hphase : own.phase = .released (gs s).peer.name)
  | told (hother : Holds (gs s.other) (localRevision (es₀ s)) other) (hown : SameRecord own (es₀ s))
      (hphase : own.phase = .told (gs s).peer.name)
  | yielded (hother : Holds (gs s.other) (localRevision (es₀ s)) other)
      (hown : own.node.record = some (recordText (gs s).peer.name)) (hphase : own.phase = .done)

/-- The other gateway has not read a revision below `r`, and does not adopt. -/
inductive Watching (r : Int64) : Phase → Prop
  | start : Watching r .start
  | active : Watching r .active
  | asked {own : Int64} (h : r ≤ own) : Watching r (.asked own)
  | done : Watching r .done

structure Yielding (gs : Side → Gateway) (es₀ : Electors) (s : Side) (es : Electors) : Prop where
  stage : Stage gs es₀ s (es s) (es s.other)
  watching : Watching (localRevision (es₀ s)) (es s.other).phase

section Yielding

variable {gs : Side → Gateway} (hp : Paired gs) {es₀ : Electors} (hmaster : ∀ s, Master (gs s) (es₀ s)) {s : Side}
  (hy : Yields gs es₀ s)

include hy in
/-- At every stage the other gateway's record is not older than the one of `s` was. -/
theorem Stage.other_revision {own other : Elector} (h : Stage gs es₀ s own other) :
    localRevision (es₀ s) ≤ localRevision other := by
  have hkept (hother : Untouched other (es₀ s.other)) : localRevision (es₀ s) ≤ localRevision other := by
    rw [hother.same.localRevision_eq]
    exact Int64.le_of_lt hy.older
  cases h with
  | untouched hother _ _ => exact hkept hother
  | released hother _ _ => exact hkept hother
  | told hother _ _ => exact hother.2
  | yielded hother _ _ => exact hother.2

include hp hy in
/-- At no stage does the other gateway read of a newer master. -/
theorem Stage.not_newer {own other : Elector} (h : Stage gs es₀ s own other) {revision : Int64}
    (hread : localRevision (es₀ s) ≤ revision) :
    peerReportsNewerMaster (peerStatus (gs s) own) (gs s.other).peer revision = false := by
  have hiff := hp.newer_iff s.other own revision
  rw [s.other_other] at hiff
  have hsame (hrecord : SameRecord own (es₀ s)) : ¬ revision < localRevision own := by
    rw [hrecord.localRevision_eq]
    exact Int64.not_lt.mpr hread
  rw [Bool.eq_false_iff, ne_eq, hiff]
  rintro ⟨hmaster', hlt⟩
  cases h with
  | untouched _ hown _ => exact hsame hown.same hlt
  | released _ hown _ => exact hsame hown hlt
  | told _ hown _ => exact hsame hown hlt
  | yielded _ hown _ => exact hp.not_master hy.stored hown hmaster'

include hp hmaster hy

section

variable {es : Electors} (h : Yielding gs es₀ s es)
include h

theorem Yielding.step_own : Yielding gs es₀ s (stepElection gs es s) := by
  have hnext {e : Elector} (hstage : Stage gs es₀ s e (es s.other)) : Yielding gs es₀ s (Function.update es s e) := by
    refine ⟨?_, ?_⟩
    · rwa [Function.update_self, Function.update_of_ne s.other_ne]
    · rw [Function.update_of_ne s.other_ne]
      exact h.watching
  obtain ⟨henabled, hmaster₀⟩ := master_iff.mp (hmaster s)
  cases h.stage with
  | untouched hother hown hphase =>
    rcases hphase with hphase | hphase | hphase | hphase
    · have hactive : localGatewayIsActive (gs s).cfg (gs s).ha (es s).node = true := by rwa [hown.1]
      simp only [stepElection, hphase, hactive, if_true]
      exact hnext (.untouched hother hown (.inr (.inl rfl)))
    · simp only [stepElection, hphase, hown.same.localRevision_eq]
      exact hnext (.untouched hother hown (.inr (.inr (.inl rfl))))
    · -- the other gateway is still MASTER, by the newer record
      have hnewer : peerReportsNewerMaster (peerStatus (gs s.other) (es s.other)) (gs s).peer (localRevision (es₀ s))
          = true := by
        rw [hp.newer_iff s, master_congr hother.same.1, hother.same.localRevision_eq]
        exact ⟨hmaster s.other, hy.older⟩
      simp only [stepElection, hphase, hnewer, if_true]
      exact hnext (.untouched hother hown (.inr (.inr (.inr rfl))))
    · obtain ⟨node, hrecord, hadopt⟩ := hp.adoptPeer_eq s henabled (es s)
      rw [hown.1, hy.releases] at hadopt
      simp only [stepElection, hphase, hadopt]
      exact hnext (.released hother ⟨hrecord.trans hown.same.1, hown.2⟩ rfl)
  | released hother hown hphase =>
    rcases hp.activated_eq s.other (es s.other) with ⟨_, _, hfailed, _⟩ | ⟨node, reply, -, hrecord, hactivated⟩
    · rw [hother.1, hy.accepted] at hfailed
      cases hfailed
    · rw [← hp.peerName s] at hactivated
      simp only [stepElection, hphase, hactivated, toldPeer_ok]
      have hrevision : localRevision (es₀ s) ≤ localRevision
          { es s.other with node, revisions := (es s.other).revisions.written (gs s.other).activateClock } := by
        refine Int64.le_trans (Int64.le_of_lt hy.older) ?_
        rw [← hother.same.localRevision_eq]
        exact localRevision_le_written (by simp [hrecord]) rfl
      refine ⟨?_, ?_⟩
      · rw [Function.update_self, Function.update_of_ne s.other_ne, Function.update_self]
        exact .told ⟨hrecord, hrevision⟩ hown rfl
      · rw [Function.update_of_ne s.other_ne, Function.update_self]
        exact h.watching
  | told hother hown hphase =>
    simp only [stepElection, hphase, recordTarget, writeActiveGateway, hy.records]
    exact hnext (.yielded hother rfl rfl)
  | yielded hother hown hphase =>
    simp only [stepElection, hphase]
    exact h

omit hmaster in
theorem Yielding.step_other :
    Yielding gs es₀ s (stepElection gs es s.other) := by
  have hkept {phase : Phase} (hwatching : Watching (localRevision (es₀ s)) phase) :
      Yielding gs es₀ s (Function.update es s.other { es s.other with phase }) := by
    refine ⟨?_, by rwa [Function.update_self]⟩
    rw [Function.update_self, Function.update_of_ne s.other_ne.symm]
    cases h.stage with
    | untouched hother hown hphase => exact .untouched hother hown hphase
    | released hother hown hphase => exact .released hother hown hphase
    | told hother hown hphase => exact .told hother hown hphase
    | yielded hother hown hphase => exact .yielded hother hown hphase
  have hwatching := h.watching
  cases hphase : (es s.other).phase with
  | start =>
    simp only [stepElection, hphase]
    split
    · exact hkept .active
    · exact hkept .done
  | active =>
    simp only [stepElection, hphase]
    exact hkept (.asked (h.stage.other_revision hy))
  | asked own =>
    rw [hphase] at hwatching
    cases hwatching with
    | asked hread =>
      simp only [stepElection, hphase, s.other_other, h.stage.not_newer hp hy hread, Bool.false_eq_true, if_false]
      exact hkept .done
  | adopting | released target | told target =>
    rw [hphase] at hwatching
    cases hwatching
  | done =>
    simp only [stepElection, hphase]
    exact h

theorem Yielding.step (t : Side) :
    Yielding gs es₀ s (stepElection gs es t) := by
  rcases Side.eq_or_other s t with rfl | rfl
  · exact h.step_own hp hmaster hy
  · exact h.step_other hp hy

/-- When both are done, the older one has yielded. -/
theorem Yielding.one_master (hdone : (es s).phase = .done) :
    ∃! t, Master (gs t) (es t) := by
  cases h.stage with
  | untouched _ _ hphase => simp [hdone] at hphase
  | released _ _ hphase => simp [hdone] at hphase
  | told _ _ hphase => simp [hdone] at hphase
  | yielded hother hown _ =>
    refine ⟨s.other, hp.master_of_record (hmaster s.other) hother.1, fun t ht => ?_⟩
    rcases Side.eq_or_other s t with rfl | rfl
    · exact absurd ht (hp.not_master hy.stored hown)
    · rfl

end

/-- Every run goes this way. -/
theorem yielding_run (hstart : ∀ t, (es₀ t).phase = .start) (order : List Side) :
    Yielding gs es₀ s (run (stepElection gs) es₀ order) := by
  refine inv_run_all (stepElection gs) (fun _ t h => h.step hp hmaster hy t) ⟨?_, ?_⟩ order
  · exact .untouched ⟨rfl, rfl⟩ ⟨rfl, rfl⟩ (.inl (hstart s))
  · rw [hstart s.other]
    exact .start

end Yielding

/-! ## Both stay -/

section Stay

variable {gs : Side → Gateway} (hp : Paired gs)

theorem run_done {es : Electors} {s : Side} (h : (es s).phase = .done) (n : Nat) :
    run (stepElection gs) es (List.replicate n s) = es := by
  have hstep : stepElection gs es s = es := by simp only [stepElection, h]
  induction n with
  | zero => rfl
  | succ n ih => rw [List.replicate_succ, run_cons, hstep, ih]

omit hp in
/-- Both gateways are done and MASTER when the two are, one by one. -/
theorem stay_of {es : Electors} (s : Side) (hs : (es s).phase = .done ∧ Master (gs s) (es s))
    (hother : (es s.other).phase = .done ∧ Master (gs s.other) (es s.other)) (t : Side) :
    (es t).phase = .done ∧ Master (gs t) (es t) := by
  rcases Side.eq_or_other s t with rfl | rfl
  · exact hs
  · exact hother

include hp

/-- The adoption of a gateway that does not yield ends with the other gateway and itself
    MASTER. -/
theorem Paired.adoption_keeps {es : Electors} {s : Side} (hphase : (es s).phase = .adopting)
    (hother : (es s.other).phase = .done) (hmaster : ∀ t, Master (gs t) (es t)) (hyields : ¬ Yields gs es s)
    (holder : localRevision (es s) < localRevision (es s.other)) (t : Side) :
    (run (stepElection gs) es [s, s, s] t).phase = .done ∧ Master (gs t) (run (stepElection gs) es [s, s, s] t) := by
  obtain ⟨node, hrecord, hadopt⟩ := hp.adoptPeer_eq s (master_iff.mp (hmaster s)).1 (es s)
  rw [run_cons]
  simp only [stepElection, hphase, hadopt]
  cases hreleases : roleFails (gs s).ha false (gs s).role (es s).node with
  | true =>
    simp only [if_true]
    rw [show [s, s] = List.replicate 2 s from rfl, run_done (by rw [Function.update_self])]
    refine stay_of s ?_ ?_ t
    · rw [Function.update_self]
      exact ⟨rfl, (master_congr hrecord).mpr (hmaster s)⟩
    · rw [Function.update_of_ne s.other_ne]
      exact ⟨hother, hmaster s.other⟩
  | false =>
    rw [run_cons]
    simp only [stepElection, Function.update_self, Bool.false_eq_true, if_false, Function.update_of_ne s.other_ne]
    rcases hp.activated_eq s.other (es s.other) with ⟨node', reply, -, hrecord', hactivated⟩ |
        ⟨node', reply, haccepted, hrecord', hactivated⟩
    · rw [← hp.peerName s] at hactivated
      obtain ⟨back, hback, htold⟩ := toldPeer_error (gs s) (gs s).peer.name reply
        { es s with node, phase := .released (gs s).peer.name }
      simp only [hactivated, htold]
      rw [show [s] = List.replicate 1 s from rfl, run_done (by rw [Function.update_self])]
      refine stay_of s ?_ ?_ t
      · rw [Function.update_self]
        exact ⟨rfl, (master_congr (hback.trans hrecord)).mpr (hmaster s)⟩
      · rw [Function.update_of_ne s.other_ne, Function.update_self]
        exact ⟨hother, (master_congr hrecord').mpr (hmaster s.other)⟩
    · rw [← hp.peerName s] at hactivated
      simp only [hactivated, toldPeer_ok, run_cons, run_nil, stepElection, Function.update_self, recordTarget]
      have hheld : Master (gs s.other) { es s.other with
          node := node', revisions := (es s.other).revisions.written (gs s.other).activateClock } :=
        hp.master_of_record (hmaster s.other) hrecord'
      cases hwrite : (gs s).write with
      | some error =>
        simp only [writeActiveGateway]
        refine stay_of s ?_ ?_ t
        · rw [Function.update_self]
          exact ⟨rfl, (master_congr hrecord).mpr (hmaster s)⟩
        · rw [Function.update_of_ne s.other_ne, Function.update_of_ne s.other_ne, Function.update_self]
          exact ⟨hother, hheld⟩
      | none =>
        -- every step went through, so the record is not what the role is read from
        have hsource : (gs s).cfg.ha.activeSource = .xds := by
          by_contra hsource
          exact hyields ⟨holder, hsource, hreleases, haccepted, hwrite⟩
        simp only [writeActiveGateway]
        refine stay_of s ?_ ?_ t
        · rw [Function.update_self]
          obtain ⟨henabled, hactive⟩ := master_iff.mp (hmaster s)
          refine ⟨rfl, master_iff.mpr ⟨henabled, ?_⟩⟩
          rw [← hactive]
          simp [localGatewayIsActive, selectActive, hsource]
        · rw [Function.update_of_ne s.other_ne, Function.update_of_ne s.other_ne, Function.update_self]
          exact ⟨hother, hheld⟩

/-- A gateway whose record is not the older one does nothing. -/
theorem Paired.newer_stays {es : Electors} {s : Side} (hstart : (es s).phase = .start)
    (hnewer : ¬ localRevision (es s) < localRevision (es s.other)) :
    run (stepElection gs) es [s, s, s] = Function.update es s { es s with phase := .done } := by
  have hsees : seesNewer gs es s (gs s).peer = false := by
    rw [Bool.eq_false_iff, ne_eq, seesNewer, hp.newer_iff s]
    exact fun h => hnewer h.2
  rw [run_decides gs hstart]
  simp [hsees]

/-- The newer one first, then the older one. -/
theorem Paired.both_stay {es : Electors} (hstart : ∀ s, (es s).phase = .start) (hmaster : ∀ s, Master (gs s) (es s))
    (hnone : ¬ ∃ s, Yields gs es s) :
    ∃ order, ∀ t, (run (stepElection gs) es order t).phase = .done ∧ Master (gs t) (run (stepElection gs) es order t) := by
  obtain ⟨s, hnewer⟩ : ∃ s : Side, ¬ localRevision (es s.other) < localRevision (es s) := by
    by_cases hlt : localRevision (es .a) < localRevision (es .b)
    · exact ⟨.a, fun h => Int64.lt_irrefl (Int64.lt_trans hlt h)⟩
    · exact ⟨.b, hlt⟩
  have hfirst := hp.newer_stays (s := s.other) (hstart s.other) (by rwa [s.other_other])
  generalize hafter : Function.update es s.other { es s.other with phase := .done } = after at hfirst
  have hown : after s = es s := by rw [← hafter, Function.update_of_ne s.other_ne.symm]
  have hother : after s.other = { es s.other with phase := .done } := by rw [← hafter, Function.update_self]
  have hstart' : (after s).phase = .start := by rw [hown]; exact hstart s
  have hmaster' (t : Side) : Master (gs t) (after t) := by
    rcases Side.eq_or_other s t with rfl | rfl
    · rw [hown]
      exact hmaster t
    · rw [hother]
      exact hmaster s.other
  have hrevision : localRevision (after s.other) = localRevision (es s.other) := by rw [hother]; rfl
  by_cases holder : localRevision (es s) < localRevision (es s.other)
  · have hsees : seesNewer gs after s (gs s).peer = true := by
      rw [seesNewer, hp.newer_iff s, hrevision, hown]
      exact ⟨hmaster' s.other, holder⟩
    have hsecond := run_decides gs hstart'
    rw [(master_iff.mp (hmaster' s)).2, hsees] at hsecond
    refine ⟨[s.other, s.other, s.other] ++ ([s, s, s] ++ [s, s, s]), ?_⟩
    rw [run_append, run_append, hfirst, hsecond]
    refine hp.adoption_keeps ?_ ?_ (fun t => ?_) ?_ ?_
    · rw [Function.update_self]
      rfl
    · rw [Function.update_of_ne s.other_ne, hother]
    · rcases Side.eq_or_other s t with rfl | rfl
      · rw [Function.update_self]
        exact hmaster' t
      · rw [Function.update_of_ne s.other_ne]
        exact hmaster' s.other
    · rintro ⟨-, hsource, hreleases, haccepted, hrecords⟩
      rw [Function.update_self, hown] at hreleases
      rw [Function.update_of_ne s.other_ne, hother] at haccepted
      exact hnone ⟨s, holder, hsource, hreleases, haccepted, hrecords⟩
    · rw [Function.update_self, Function.update_of_ne s.other_ne, hrevision, hown]
      exact holder
  · refine ⟨[s.other, s.other, s.other] ++ [s, s, s], fun t => ?_⟩
    rw [run_append, hfirst, hp.newer_stays hstart' (by rw [hrevision, hown]; exact holder)]
    refine stay_of s ?_ ?_ t
    · rw [Function.update_self]
      exact ⟨rfl, hmaster' s⟩
    · rw [Function.update_of_ne s.other_ne, hother]
      exact ⟨rfl, hmaster s.other⟩

end Stay

/-- Of two gateways that are both MASTER exactly one is left, in whatever order their elections
    are interleaved, exactly when the one with the older record yields. -/
theorem one_master_iff {gs : Side → Gateway} (hp : Paired gs) {es : Electors} (hstart : ∀ s, (es s).phase = .start)
    (hmaster : ∀ s, Master (gs s) (es s)) :
    (∀ order : List Side, (∀ s, (run (stepElection gs) es order s).phase = .done) →
      ∃! s, Master (gs s) (run (stepElection gs) es order s)) ↔ ∃ s, Yields gs es s := by
  constructor
  · intro hone
    by_contra hnone
    obtain ⟨order, horder⟩ := hp.both_stay hstart hmaster hnone
    obtain ⟨s, -, hunique⟩ := hone order fun t => (horder t).1
    exact s.other_ne (hunique s.other (horder s.other).2)
  · rintro ⟨s, hy⟩ order hdone
    exact (yielding_run hp hmaster hy hstart order).one_master hp hmaster hy (hdone s)

/-- While the older one yields, the other is MASTER after every step of either. -/
theorem newer_stays_master {gs : Side → Gateway} (hp : Paired gs) {es : Electors} (hstart : ∀ s, (es s).phase = .start)
    (hmaster : ∀ s, Master (gs s) (es s)) {s : Side} (hy : Yields gs es s) (order : List Side) :
    Master (gs s.other) (run (stepElection gs) es order s.other) := by
  cases (yielding_run hp hmaster hy hstart order).stage with
  | untouched hother _ _ => exact (master_congr hother.same.1).mpr (hmaster s.other)
  | released hother _ _ => exact (master_congr hother.same.1).mpr (hmaster s.other)
  | told hother _ _ => exact hp.master_of_record (hmaster s.other) hother.1
  | yielded hother _ _ => exact hp.master_of_record (hmaster s.other) hother.1

/-! ## A pair of gateways -/

def pairAddress : Side → IpAddr
  | .a => .v4 0xc000020b
  | .b => .v4 0xc000020c

def pairName : Side → String
  | .a => "gateway-a"
  | .b => "gateway-b"

/-- Gateways that know themselves from their configuration and the other one as their peer. -/
def hookGateway (s : Side) : Gateway where
  cfg :=
    { nodeRole := .gateway, nodeName := pairName s, underlayIp := pairAddress s
      network := { gatewayIp := pairAddress s }
      gatewayNodes := [⟨pairName s, pairAddress s, pairAddress s, "10.255.255.1/24"⟩] }
  ha := { enabled := true, peers := [{ name := pairName s.other, underlayIp := showIp (pairAddress s.other) }] }
  peer := { name := pairName s.other, underlayIp := showIp (pairAddress s.other) }
  onePeer := rfl

theorem hookGateway_paired : Paired hookGateway where
  role s := rfl
  own s := ⟨_, List.mem_singleton_self _, rfl⟩
  peerName s := rfl
  peerAddress s := by cases s <;> decide
  namesApart s := by cases s <;> decide
  addressesApart s := by cases s <;> decide
  identified s t := by cases s <;> cases t <;> decide
  plain s := by cases s <;> decide

/-- Before the first record is written. -/
def unrecorded (_ : Side) : Elector :=
  { node := {}, revisions := { current := 0, last := 0, floor := Int64.le_refl 0, started := Int64.le_refl 0 } }

/-- Both are MASTER without a record, and remain so. -/
theorem unrecorded_both_master :
    Paired hookGateway ∧ (∀ s, Master (hookGateway s) (unrecorded s)) ∧
      ∀ s, (run (stepElection hookGateway) unrecorded [.a, .a, .a, .b, .b, .b] s).phase = .done ∧
        Master (hookGateway s) (run (stepElection hookGateway) unrecorded [.a, .a, .a, .b, .b, .b] s) := by
  refine ⟨hookGateway_paired, fun s => ?_, fun s => ?_⟩
  · cases s <;> decide
  · cases s <;> decide

/-- Each gateway names itself in its record, and that of `a` is the newer one. -/
def skewed (s : Side) : Elector :=
  { node := { record := some (recordText (pairName s)), hookRole := some .master }
    revisions :=
      match s with
      | .a => { current := 5, last := 5, floor := by decide, started := by decide }
      | .b => { current := 3, last := 3, floor := by decide, started := by decide } }

theorem skewed_master (s : Side) : Master (hookGateway s) (skewed s) := by cases s <;> decide

theorem skewed_yields : Yields hookGateway skewed .b := ⟨by decide, by decide, by decide, by decide, rfl⟩

/-- `a` asks between the activation that `b` asked of it and the record that `b` then writes. -/
theorem skewed_one_master :
    ∃! s, Master (hookGateway s)
      (run (stepElection hookGateway) skewed [.b, .b, .b, .b, .b, .a, .a, .a, .b] s) := by
  refine (one_master_iff hookGateway_paired (fun s => rfl) fun s => ?_).mpr ⟨.b, ?_⟩ _ fun s => ?_
  · exact skewed_master s
  · exact skewed_yields
  · cases s <;> decide

/-- `b` has asked `a` to be active and not yet written its own record. -/
theorem skewed_stays_master :
    Master (hookGateway .a) (run (stepElection hookGateway) skewed [.b, .b, .a, .b, .b, .b] .a) := by
  exact newer_stays_master hookGateway_paired (fun s => rfl) skewed_master skewed_yields _

end EdgeLb.Ha
