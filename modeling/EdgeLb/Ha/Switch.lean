/-
  EdgeLb.Ha.Switch — switching the active gateway (`switch_active_gateway` of
  `edge-lb/src/provider/native/ha.rs`), with the two rollbacks.

  A switch changes three things on two machines: the role of the node, the peer's selection
  and the node's own record. Its external steps fail by a pattern that is given with the
  request. What a failed switch leaves behind is compared with what it found, and the
  requests after which nothing is left behind are described in terms of what they found and
  of the steps that failed.
-/

import EdgeLb.Config.Validate
import EdgeLb.Ha.Role
import EdgeLb.Lib.Run

namespace EdgeLb.Ha

open EdgeLb.Config EdgeLb.Lib

/-- `selections`: the text each peer has in its own record, by the peer's name. -/
structure HaWorld where
  node : NodeHa
  selections : String → Option String

/-! ## Telling the peers -/

/-- What comes of the activation asked of a peer. Without an answer the peer may have
    selected the gateway all the same. -/
inductive PeerAnswer
  | accepted (selected : String)
  | rejected (status : Nat) (body : String)
  | noAnswer (selected : Option String) (error : String)
  deriving DecidableEq, Repr

/-- The name the peer writes to its record. -/
def PeerAnswer.selects : PeerAnswer → Option String
  | .accepted selected => some selected
  | .rejected _ _ => none
  | .noAnswer selected _ => selected

def PeerAnswer.failure (peer : GatewayHaPeer) : PeerAnswer → Option String
  | .accepted _ => none
  | .rejected status body => some s!"peer active-gateway sync to {peer.name} failed with HTTP {status}: {body}"
  | .noAnswer _ error => some error

/-- A call that reached the peer, whose answer arrived or was lost. -/
def answerOf (lost : Option String) (reply : Except (Nat × String) Activated) : PeerAnswer :=
  match lost, reply with
  | none, .ok activated => .accepted activated.gateway
  | none, .error (status, body) => .rejected status body
  | some error, reply => .noAnswer (reply.toOption.map (·.gateway)) error

def answered (answer : PeerAnswer) (old : Option String) : Option String := (answer.selects.map recordText).or old

def tellPeers (answers : GatewayHaPeer → PeerAnswer) :
    List GatewayHaPeer → (String → Option String) → (String → Option String) × Except String Unit
  | [], sel => (sel, .ok ())
  | peer :: rest, sel =>
    let sel := Function.update sel peer.name (answered (answers peer) (sel peer.name))
    match (answers peer).failure peer with
    | some e => (sel, .error e)
    | none => tellPeers answers rest sel

variable (cfg : FileConfig)

/-- The gateway is neither this node nor a peer, which is noticed after the peers were told. -/
def unmatched (ha : GatewayHaRuntimeConfig) (gateway : String) : Bool :=
  !ha.peers.isEmpty && gateway ≠ cfg.nodeName && !ha.peers.any fun peer => peer.name = gateway

def notifyPeersOfActiveGateway (ha : GatewayHaRuntimeConfig) (answers : GatewayHaPeer → PeerAnswer)
    (gateway : String) (w : HaWorld) : HaWorld × Except String Unit :=
  match tellPeers answers ha.peers w.selections with
  | (selections, .error e) => ({ w with selections }, .error e)
  | (selections, .ok ()) =>
    ({ w with selections }, bailIf (unmatched cfg ha gateway) "failover target is not the configured HA peer")

/-! ## The switch -/

/-- The failures of one switch, step by step: each step is taken at most once going forward
    and at most once going back. -/
structure Faults where
  notify : GatewayHaPeer → PeerAnswer
  role : RoleFaults := {}
  restoreNotify : GatewayHaPeer → PeerAnswer
  restoreRole : RoleFaults := {}
  write : Option String := none

inductive SwitchError
  | failed (message : String)
  | rollbackFailed (message : String)
  deriving DecidableEq, Repr

structure SwitchActiveResult where
  gateway : String
  vip : Option String
  garpAnnounced : Bool
  vipBound : Bool
  deriving DecidableEq, Repr

abbrev Switched := HaWorld × Except SwitchError SwitchActiveResult

def switchTarget (ha : GatewayHaRuntimeConfig) (key : String) : Option GatewayNode :=
  (gatewayByKey cfg key).or (ha.peers.findSome? fun peer =>
    if peer.name ≠ key && peer.underlayIp ≠ key then none else peerNode cfg peer)

def localGatewayIsActive (ha : GatewayHaRuntimeConfig) (n : NodeHa) : Bool :=
  match selectActive cfg (some ha) n.record with
  | .ok gw => isLocalGateway cfg gw
  | .error _ => false

def previousActive (ha : GatewayHaRuntimeConfig) (n : NodeHa) : Option String :=
  (selectActive cfg (some ha) n.record).toOption.map (·.name)

def restoreLocalMasterAfterFailedHandoff (ha : GatewayHaRuntimeConfig) (f : Faults) (target handoffError : String)
    (w : HaWorld) : Switched :=
  match applyLocalHaRole ha true true f.restoreRole w.node with
  | (node, .error rollbackError) =>
    ({ w with node }, .error (.rollbackFailed
      s!"peer active-gateway sync to {target} failed after local demotion: {handoffError}; local role restore also failed: {rollbackError}"))
  | (node, .ok _) => ({ w with node }, .error (.failed handoffError))

def restorePeerAfterFailedLocalTakeover (ha : GatewayHaRuntimeConfig) (f : Faults)
    (previous : Option String) (target takeoverError : String) (w : HaWorld) : Switched :=
  match previous with
  | none => (w, .error (.failed takeoverError))
  | some previous =>
    match notifyPeersOfActiveGateway cfg ha f.restoreNotify previous w with
    | (w, .error rollbackError) =>
      (w, .error (.rollbackFailed
        s!"local takeover of {target} failed after peer demotion: {takeoverError}; peer role restore to {previous} also failed: {rollbackError}"))
    | (w, .ok ()) => (w, .error (.failed takeoverError))

/-- The record is the last step of every switch. -/
def recordSwitch (ha : GatewayHaRuntimeConfig) (f : Faults) (target : String) (applied : LocalHaRoleResult)
    (w : HaWorld) : Switched :=
  match writeActiveGateway f.write target w.node with
  | (node, .error e) => ({ w with node }, .error (.failed e))
  | (node, .ok ()) =>
    ({ w with node }, .ok { gateway := target, vip := ha.vip.privateVip, garpAnnounced := applied.garpAnnounced,
                            vipBound := applied.vipBound })

/-- The node takes the role itself; `told` when the peers were told first. -/
def takeOver (ha : GatewayHaRuntimeConfig) (f : Faults) (previous : Option String) (target : String)
    (told : Bool) (w : HaWorld) : Switched :=
  match applyLocalHaRole ha true true f.role w.node with
  | (node, .error e) =>
    if told then restorePeerAfterFailedLocalTakeover cfg ha f previous target e { w with node }
    else ({ w with node }, .error (.failed e))
  | (node, .ok applied) => recordSwitch ha f target applied { w with node }

/-- The node gives the role up and the peer takes it. -/
def handOff (ha : GatewayHaRuntimeConfig) (f : Faults) (target : String) (w : HaWorld) : Switched :=
  match applyLocalHaRole ha false true f.role w.node with
  | (node, .error e) => ({ w with node }, .error (.failed e))
  | (node, .ok _) =>
    match notifyPeersOfActiveGateway cfg ha f.notify target { w with node } with
    | (w, .error e) => restoreLocalMasterAfterFailedHandoff ha f target e w
    | (w, .ok ()) => recordSwitch ha f target {} w

def configuredPeer (ha : GatewayHaRuntimeConfig) (target : GatewayNode) : Bool :=
  ha.peers.any fun peer => peer.name = target.name || peer.underlayIp = showIp target.underlayIp

/-- The role is changed before the record; whether the peers are told first is `coordinate`. -/
def switchActiveGatewayInner (ha : GatewayHaRuntimeConfig) (key : String) (coordinate : Bool)
    (f : Faults) (w : HaWorld) : Switched :=
  match switchTarget cfg ha key with
  | none => (w, .error (.failed s!"unknown gateway {debugStr key}"))
  | some target =>
    let targetIsLocal := isLocalGateway cfg target
    let previous := previousActive cfg ha w.node
    if !ha.enabled then recordSwitch ha f target.name {} w
    else if !targetIsLocal && !configuredPeer ha target then
      (w, .error (.failed "failover target is not the configured HA peer"))
    else if !targetIsLocal then handOff cfg ha f target.name w
    else if coordinate && !localGatewayIsActive cfg ha w.node then
      match notifyPeersOfActiveGateway cfg ha f.notify target.name w with
      | (w, .error e) => (w, .error (.failed e))
      | (w, .ok ()) => takeOver cfg ha f previous target.name true w
    else takeOver cfg ha f previous target.name false w

def switchActiveGateway (ha : GatewayHaRuntimeConfig) (key : String) : Faults → HaWorld → Switched :=
  switchActiveGatewayInner cfg ha key false

def switchActiveGatewayCoordinated (ha : GatewayHaRuntimeConfig) (key : String) :
    Faults → HaWorld → Switched :=
  switchActiveGatewayInner cfg ha key true

/-! ## What a failed switch leaves behind -/

/-- Equal in the local record, the local role and the peers' selections. -/
structure Same (a b : HaWorld) : Prop where
  record : a.node.record = b.node.record
  role : a.node.role = b.node.role
  selections : a.selections = b.selections

/-- A switch that answers an error of its own, not of a rollback, has changed nothing. -/
def Undone (w : HaWorld) (x : Switched) : Prop := ∀ e, x.2 = .error (.failed e) → Same x.1 w

/-- Telling the peers fails. -/
def notifyFails (ha : GatewayHaRuntimeConfig) (answers : GatewayHaPeer → PeerAnswer) (gateway : String) : Bool :=
  ha.peers.any (fun peer => ((answers peer).failure peer).isSome) || unmatched cfg ha gateway

/-- The peers selected nothing that they had not selected before. -/
def Unmoved (ha : GatewayHaRuntimeConfig) (answers : GatewayHaPeer → PeerAnswer) (w : HaWorld) : Prop :=
  ∀ peer ∈ ha.peers, ∀ name ∈ (answers peer).selects, w.selections peer.name = some (recordText name)

instance (ha : GatewayHaRuntimeConfig) (answers : GatewayHaPeer → PeerAnswer) (w : HaWorld) :
    Decidable (Unmoved ha answers w) := by
  unfold Unmoved
  infer_instance

/-- A local takeover whose error leaves nothing behind. A failed notification is not taken
    back; a failed promotion is taken back at the peers, to what this node saw as active; a
    failed write of the record is not taken back. -/
def TakeoverUndoes (ha : GatewayHaRuntimeConfig) (f : Faults) (target : String) (told : Bool) (w : HaWorld) : Prop :=
  if told = true ∧ notifyFails cfg ha f.notify target = true then Unmoved ha f.notify w
  else if roleFails ha true f.role w.node then
    if told then
      match previousActive cfg ha w.node with
      | none => roleKept ha true f.role w.node = true ∧ Unmoved ha f.notify w
      | some previous =>
        notifyFails cfg ha f.restoreNotify previous = true ∨
          (roleKept ha true f.role w.node = true ∧ Unmoved ha f.restoreNotify w)
    else roleKept ha true f.role w.node = true
  else if f.write.isSome then
    roleKept ha true f.role w.node = true ∧ (told = true → Unmoved ha f.notify w)
  else True

/-- A handoff whose error leaves nothing behind. A failed demotion is not taken back; after a
    failed notification the node is made MASTER; a failed write is not taken back. -/
def HandoffUndoes (ha : GatewayHaRuntimeConfig) (f : Faults) (target : String) (w : HaWorld) : Prop :=
  if roleFails ha false f.role w.node then roleKept ha false f.role w.node = true
  else if notifyFails cfg ha f.notify target then
    roleFails ha true f.restoreRole { w.node with vipBound := w.node.vipBound && f.role.unseen } = true ∨
      (isMaster ha w.node = true ∧ Unmoved ha f.notify w)
  else if f.write.isSome then roleKept ha false f.role w.node = true ∧ Unmoved ha f.notify w
  else True

structure SwitchRequest where
  key : String
  coordinate : Bool := false
  faults : Faults

/-- The requests whose errors leave nothing behind, by what they find and by the steps that
    fail. -/
def Undoes (cfg : FileConfig) (ha : GatewayHaRuntimeConfig) (req : SwitchRequest) (w : HaWorld) : Prop :=
  match switchTarget cfg ha req.key with
  | none => True
  | some target =>
    if !ha.enabled then True
    else if !isLocalGateway cfg target then
      if configuredPeer ha target then HandoffUndoes cfg ha req.faults target.name w else True
    else
      TakeoverUndoes cfg ha req.faults target.name (req.coordinate && !localGatewayIsActive cfg ha w.node) w

instance (cfg : FileConfig) (ha : GatewayHaRuntimeConfig) (f : Faults) (target : String) (told : Bool) (w : HaWorld) :
    Decidable (TakeoverUndoes cfg ha f target told w) := by
  unfold TakeoverUndoes
  cases previousActive cfg ha w.node <;> infer_instance

instance (cfg : FileConfig) (ha : GatewayHaRuntimeConfig) (f : Faults) (target : String) (w : HaWorld) :
    Decidable (HandoffUndoes cfg ha f target w) := by
  unfold HandoffUndoes
  infer_instance

instance (cfg : FileConfig) (ha : GatewayHaRuntimeConfig) (req : SwitchRequest) (w : HaWorld) :
    Decidable (Undoes cfg ha req w) := by
  unfold Undoes
  cases switchTarget cfg ha req.key <;> infer_instance

/-! ## One step at a time -/

theorem tellPeers_answers (answers : GatewayHaPeer → PeerAnswer) (peers : List GatewayHaPeer)
    (sel : String → Option String) :
    Answers (peers.any fun peer => ((answers peer).failure peer).isSome) (tellPeers answers peers sel).2 := by
  induction peers generalizing sel with
  | nil => exact answers_ok ()
  | cons peer rest ih =>
    unfold tellPeers
    cases hfailure : (answers peer).failure peer with
    | some e =>
      simp only [List.any_cons, hfailure, Option.isSome_some, Bool.true_or]
      exact answers_error e
    | none =>
      simp only [List.any_cons, hfailure, Option.isSome_none, Bool.false_or]
      exact ih _

theorem bailIf_answers (c : Bool) (msg : String) : Answers c (bailIf c msg) := by
  cases c with
  | true => exact answers_error msg
  | false => exact answers_ok ()

section

variable (ha : GatewayHaRuntimeConfig) (answers : GatewayHaPeer → PeerAnswer) (gateway : String) (w : HaWorld)
include ha

theorem notify_answers :
    Answers (notifyFails cfg ha answers gateway) (notifyPeersOfActiveGateway cfg ha answers gateway w).2 := by
  unfold notifyPeersOfActiveGateway notifyFails
  rcases (tellPeers_answers answers ha.peers w.selections).cases with ⟨hany, e, htold⟩ | ⟨hany, a, htold⟩
  · rw [htold, hany]
    exact answers_error e
  · rw [htold, hany]
    exact bailIf_answers _ _

theorem notify_node : (notifyPeersOfActiveGateway cfg ha answers gateway w).1.node = w.node := by
  unfold notifyPeersOfActiveGateway
  split <;> rfl

end

variable {ha : GatewayHaRuntimeConfig}

/-- With one peer, only its selection changes, as it answers. -/
theorem notify_selections {peer : GatewayHaPeer} (hpeers : ha.peers = [peer])
    (cfg : FileConfig) (answers : GatewayHaPeer → PeerAnswer) (gateway : String) (w : HaWorld) :
    (notifyPeersOfActiveGateway cfg ha answers gateway w).1.selections =
      Function.update w.selections peer.name (answered (answers peer) (w.selections peer.name)) := by
  unfold notifyPeersOfActiveGateway
  rw [hpeers]
  unfold tellPeers
  cases (answers peer).failure peer with
  | some e => rfl
  | none => rfl

theorem answered_eq_self {answer : PeerAnswer} {old : Option String} :
    answered answer old = old ↔ ∀ name ∈ answer.selects, old = some (recordText name) := by
  unfold answered
  cases answer.selects with
  | none => simp
  | some name => simp [eq_comm]

theorem notify_unmoved {peer : GatewayHaPeer} (hpeers : ha.peers = [peer])
    (cfg : FileConfig) (answers : GatewayHaPeer → PeerAnswer) (gateway : String) (w : HaWorld) :
    (notifyPeersOfActiveGateway cfg ha answers gateway w).1.selections = w.selections ↔ Unmoved ha answers w := by
  rw [notify_selections hpeers, Function.update_eq_self_iff, answered_eq_self, Unmoved, hpeers]
  simp

theorem undone_failed {w w' : HaWorld} {e : String} : Undone w (w', .error (.failed e)) ↔ Same w' w :=
  ⟨fun h => h e rfl, fun h _ _ => h⟩

theorem undone_rollbackFailed {w w' : HaWorld} {e : String} : Undone w (w', .error (.rollbackFailed e)) := by
  intro e' h
  cases h

theorem same_iff {w w' : HaWorld} (hrecord : w'.node.record = w.node.record) :
    Same w' w ↔ w'.node.role = w.node.role ∧ w'.selections = w.selections :=
  ⟨fun h => ⟨h.role, h.selections⟩, fun h => ⟨hrecord, h.1, h.2⟩⟩

theorem recordSwitch_undone (ha : GatewayHaRuntimeConfig) (f : Faults) (target : String) (applied : LocalHaRoleResult)
    (w w' : HaWorld) : Undone w (recordSwitch ha f target applied w') ↔ (f.write.isSome = true → Same w' w) := by
  unfold recordSwitch
  cases f.write with
  | some e =>
    show Undone w (w', .error (.failed e)) ↔ _
    simp [undone_failed]
  | none =>
    refine ⟨fun _ h => ?_, fun _ e h => ?_⟩
    · simp at h
    · cases h

/-! ## The two ways of switching -/

section Switch

variable {ha : GatewayHaRuntimeConfig} {peer : GatewayHaPeer} (hpeers : ha.peers = [peer]) (cfg : FileConfig)
  (f : Faults) (target : String)

include hpeers

/-- The peer's second answer is the one that stays. -/
theorem restored_selections (w w' : HaWorld) (answers answers' : GatewayHaPeer → PeerAnswer) (gateway gateway' : String)
    (hw : w'.selections = (notifyPeersOfActiveGateway cfg ha answers gateway w).1.selections)
    (hanswered : notifyFails cfg ha answers' gateway' = false) :
    (notifyPeersOfActiveGateway cfg ha answers' gateway' w').1.selections = w.selections ↔ Unmoved ha answers' w := by
  have haccepted : ∃ name, answers' peer = .accepted name := by
    simp only [notifyFails, hpeers, List.any_cons, List.any_nil, Bool.or_eq_false_iff] at hanswered
    obtain ⟨⟨hnone, -⟩, -⟩ := hanswered
    cases hanswer : answers' peer with
    | accepted name => exact ⟨name, rfl⟩
    | rejected status body =>
      rw [hanswer] at hnone
      cases hnone
    | noAnswer selected error =>
      rw [hanswer] at hnone
      cases hnone
  obtain ⟨name, haccepted⟩ := haccepted
  rw [notify_selections hpeers, hw, notify_selections hpeers, Function.update_idem, Function.update_eq_self_iff,
    haccepted, Unmoved, hpeers]
  simp [answered, PeerAnswer.selects, haccepted, eq_comm]

omit hpeers in
theorem takeOver_undone (previous : Option String) (w : HaWorld) :
    Undone w (takeOver cfg ha f previous target false w) ↔ TakeoverUndoes cfg ha f target false w := by
  unfold TakeoverUndoes takeOver
  obtain ⟨node, hrecord, hrole, hcases⟩ := applyLocalHaRole_cases ha true f.role w.node
  have hsame : Same { w with node } w ↔ _ := same_iff hrecord
  rcases hcases with ⟨hfails, e, happlied⟩ | ⟨hfails, a, happlied⟩
  · simp [happlied, hfails, undone_failed, hsame, hrole]
  · by_cases hwrite : f.write.isSome = true
    · simp [happlied, hfails, recordSwitch_undone, hsame, hrole, hwrite]
    · simp [happlied, hfails, recordSwitch_undone, hwrite]

theorem takeOver_told_undone {w told : HaWorld} (hanswered : notifyFails cfg ha f.notify target = false)
    (hnode : told.node = w.node)
    (htold : told.selections = (notifyPeersOfActiveGateway cfg ha f.notify target w).1.selections) :
    Undone w (takeOver cfg ha f (previousActive cfg ha w.node) target true told) ↔
      TakeoverUndoes cfg ha f target true w := by
  have hunmoved := notify_unmoved hpeers cfg f.notify target w
  rw [← htold] at hunmoved
  unfold TakeoverUndoes takeOver
  obtain ⟨node, hrecord, hrole, hcases⟩ := applyLocalHaRole_cases ha true f.role w.node
  have hsame : Same { told with node } w ↔ _ := same_iff hrecord
  rw [hnode]
  simp only [hanswered, Bool.false_eq_true, and_false, if_false, if_true]
  rcases hcases with ⟨hfails, e, happlied⟩ | ⟨hfails, a, happlied⟩
  · simp only [happlied, hfails, if_true]
    cases previousActive cfg ha w.node with
    | none => simp [restorePeerAfterFailedLocalTakeover, undone_failed, hsame, hrole, hunmoved]
    | some previous =>
      have hback := restored_selections hpeers cfg w { told with node } f.notify f.restoreNotify target previous htold
      have hrestored := notify_node cfg ha f.restoreNotify previous { told with node }
      simp only [restorePeerAfterFailedLocalTakeover]
      rcases (notify_answers cfg ha f.restoreNotify previous { told with node }).cases with
        ⟨hrestoreFails, rollbackError, hanswer⟩ | ⟨hrestoreFails, a, hanswer⟩
      · rw [hanswer]
        simp [undone_rollbackFailed, hrestoreFails]
      · rw [hanswer]
        have hsame : Same (notifyPeersOfActiveGateway cfg ha f.restoreNotify previous { told with node }).1 w ↔ _ :=
          same_iff (by rw [hrestored]; exact hrecord)
        simp [undone_failed, hsame, hback hrestoreFails, hrestored, hrole, hrestoreFails]
  · by_cases hwrite : f.write.isSome = true
    · simp [happlied, hfails, recordSwitch_undone, hsame, hrole, hwrite, hunmoved]
    · simp [happlied, hfails, recordSwitch_undone, hwrite]

theorem handOff_undone (w : HaWorld) : Undone w (handOff cfg ha f target w) ↔ HandoffUndoes cfg ha f target w := by
  have hrestored := restored_role ha f.role f.restoreRole w.node
  unfold HandoffUndoes handOff
  obtain ⟨node, hrecord, hrole, ⟨hfails, e, happlied⟩ | ⟨hfails, a, happlied⟩⟩ :=
    applyLocalHaRole_cases ha false f.role w.node
  · have hsame : Same { w with node } w ↔ _ := same_iff hrecord
    simp [happlied, hfails, undone_failed, hsame, hrole]
  · obtain ⟨hrestoreFails, hrestored⟩ := hrestored hfails
    rw [happlied] at hrestoreFails hrestored ⊢
    have hnode := notify_node cfg ha f.notify target { w with node }
    have hunmoved := notify_unmoved hpeers cfg f.notify target { w with node }
    have hmoved : Unmoved ha f.notify { w with node } ↔ Unmoved ha f.notify w := Iff.rfl
    have hanswers := notify_answers cfg ha f.notify target { w with node }
    simp only [hfails, Bool.false_eq_true, if_false]
    generalize notifyPeersOfActiveGateway cfg ha f.notify target { w with node } = told at hnode hunmoved hanswers ⊢
    obtain ⟨v, result⟩ := told
    have hnode : v.node = node := hnode
    rcases hanswers.cases with ⟨hnotifyFails, e, hanswer⟩ | ⟨hnotifyFails, a, hanswer⟩
    · obtain ⟨back, hrecord', -, ⟨hback, e', happlied'⟩ | ⟨hback, a', happlied'⟩⟩ :=
        applyLocalHaRole_cases ha true f.restoreRole node
      · simp [hanswer, restoreLocalMasterAfterFailedHandoff, hnode, happlied', undone_rollbackFailed, hnotifyFails,
          ← hrestoreFails, hback]
      · have hsame : Same { v with node := back } w ↔ _ := same_iff (hrecord'.trans hrecord)
        have hrestored := hrestored hback
        rw [happlied'] at hrestored
        simp [hanswer, restoreLocalMasterAfterFailedHandoff, hnode, happlied', undone_failed, hsame, hrestored, hunmoved,
          hmoved, hnotifyFails, ← hrestoreFails, hback]
    · have hsame : Same v w ↔ _ := same_iff (by rw [hnode]; exact hrecord)
      by_cases hwrite : f.write.isSome = true
      · simp [hanswer, recordSwitch_undone, hsame, hwrite, hunmoved, hmoved, hnode, hrole, hnotifyFails]
      · simp [hanswer, recordSwitch_undone, hwrite, hnotifyFails]

end Switch

/-- A failed switch leaves nothing behind exactly when the request, what it finds and the steps
    that fail are as `Undoes` says. -/
theorem switch_undone_iff {cfg : FileConfig}
    (hpeer : ha.enabled = true → ∃ peer, ha.peers = [peer]) (req : SwitchRequest) (w : HaWorld) :
    Undone w (switchActiveGatewayInner cfg ha req.key req.coordinate req.faults w) ↔ Undoes cfg ha req w := by
  have hself : Same w w := ⟨rfl, rfl, rfl⟩
  unfold switchActiveGatewayInner Undoes
  cases switchTarget cfg ha req.key with
  | none => simp [undone_failed, hself]
  | some target =>
    by_cases henabled : ha.enabled = true
    · obtain ⟨peer, hpeers⟩ := hpeer henabled
      by_cases hlocal : isLocalGateway cfg target = true
      · simp only [henabled, hlocal, Bool.not_true, Bool.false_and, Bool.false_eq_true, if_false]
        cases htold : req.coordinate && !localGatewayIsActive cfg ha w.node with
        | false => exact takeOver_undone cfg req.faults target.name (previousActive cfg ha w.node) w
        | true =>
          have hnode := notify_node cfg ha req.faults.notify target.name w
          have hunmoved := notify_unmoved hpeers cfg req.faults.notify target.name w
          simp only [if_true]
          rcases (notify_answers cfg ha req.faults.notify target.name w).cases with
            ⟨hfails, e, hanswer⟩ | ⟨hfails, a, hanswer⟩
          · rw [hanswer]
            have hsame : Same (notifyPeersOfActiveGateway cfg ha req.faults.notify target.name w).1 w ↔ _ :=
              same_iff (by rw [hnode])
            simp [TakeoverUndoes, hfails, undone_failed, hsame, hnode, hunmoved]
          · rw [hanswer]
            exact takeOver_told_undone hpeers cfg req.faults target.name hfails hnode rfl
      · by_cases hconfigured : configuredPeer ha target = true
        · simp only [henabled, hlocal, hconfigured, Bool.not_true, Bool.not_false, Bool.and_false,
            Bool.false_eq_true, if_false, if_true]
          exact handOff_undone hpeers cfg req.faults target.name w
        · simp [henabled, hlocal, hconfigured, undone_failed, hself]
    · simp only [henabled, Bool.not_false, if_true, iff_true]
      exact (recordSwitch_undone ha req.faults target.name {} w w).mpr fun _ => hself

/-! ## Runs of requests -/

/-- Between requests anything may happen to the pair. -/
inductive SwitchEvent
  | request (req : SwitchRequest)
  | outside (w : HaWorld)

def stepSwitch (ha : GatewayHaRuntimeConfig) (w : HaWorld) : SwitchEvent → HaWorld
  | .request req => (switchActiveGatewayInner cfg ha req.key req.coordinate req.faults w).1
  | .outside w' => w'

def UndoneStep (ha : GatewayHaRuntimeConfig) (w : HaWorld) : SwitchEvent → Prop
  | .request req => Undone w (switchActiveGatewayInner cfg ha req.key req.coordinate req.faults w)
  | .outside _ => True

def UndoesStep (ha : GatewayHaRuntimeConfig) (w : HaWorld) : SwitchEvent → Prop
  | .request req => Undoes cfg ha req w
  | .outside _ => True

theorem switches_undone_iff {cfg : FileConfig} {ha : GatewayHaRuntimeConfig}
    (hpeer : ha.enabled = true → ∃ peer, ha.peers = [peer]) (w : HaWorld) (es : List SwitchEvent) :
    StepsMeet (stepSwitch cfg ha) (UndoneStep cfg ha) w es ↔ StepsMeet (stepSwitch cfg ha) (UndoesStep cfg ha) w es := by
  refine stepsMeet_congr _ (I := fun _ => True) (fun _ _ _ _ => trivial) (fun w e _ => ?_) trivial es
  cases e with
  | request req => exact switch_undone_iff hpeer req w
  | outside w' => exact Iff.rfl

/-! ## A pair of gateways -/

def gatewayPair : FileConfig :=
  { nodeRole := .gateway, nodeName := "gateway-a", underlayIp := .v4 0xc000020b
    gatewayNodes := [⟨"gateway-a", .v4 0xc000020b, .v4 0xc000020b, "10.255.255.1/24"⟩,
      ⟨"gateway-b", .v4 0xc000020c, .v4 0xc000020c, "10.255.255.1/24"⟩] }

def hookPair : GatewayHaRuntimeConfig :=
  { enabled := true, peers := [{ name := "gateway-b", underlayIp := "192.0.2.12" }], vip := { provider := .hook } }

/-- `gateway-a` with both records naming `active`. -/
def agreedOn (active : String) (role : HaRole) : HaWorld :=
  { node := { record := some (recordText active), hookRole := some role }
    selections := fun _ => some (recordText active) }

/-- A request to hand over to `gateway-b`, which does not answer. -/
def unansweredHandoff : SwitchRequest :=
  { key := "gateway-b"
    faults := { notify := fun _ => .noAnswer none "timed out", restoreNotify := fun _ => .noAnswer none "timed out" } }

/-- A BACKUP asked once more to hand over to the MASTER, which does not answer, is promoted. -/
theorem backup_promoted_by_failed_handoff :
    let x := switchActiveGateway gatewayPair hookPair "gateway-b" unansweredHandoff.faults (agreedOn "gateway-b" .backup)
    x.2 = .error (.failed "timed out") ∧ x.1.node.hookRole = some .master ∧
      ¬ StepsMeet (stepSwitch gatewayPair hookPair) (UndoneStep gatewayPair hookPair) (agreedOn "gateway-b" .backup)
        [.request unansweredHandoff] := by
  intro x
  have hfailed : x.2 = .error (.failed "timed out") := by decide
  have hmaster : x.1.node.role = (false, some .master) := by decide
  refine ⟨hfailed, (Prod.mk.inj hmaster).2, fun h => ?_⟩
  have hsame : Same x.1 (agreedOn "gateway-b" .backup) := h.1 "timed out" hfailed
  have hrole := hsame.role
  rw [hmaster] at hrole
  revert hrole
  decide

/-- The same request finds the MASTER and leaves it so. -/
theorem master_kept_by_failed_handoff :
    StepsMeet (stepSwitch gatewayPair hookPair) (UndoneStep gatewayPair hookPair) (agreedOn "gateway-a" .master)
      [.request unansweredHandoff] := by
  refine (switches_undone_iff (fun _ => ⟨_, rfl⟩) _ _).mpr ⟨?_, trivial⟩
  show Undoes gatewayPair hookPair unansweredHandoff (agreedOn "gateway-a" .master)
  decide

end EdgeLb.Ha
