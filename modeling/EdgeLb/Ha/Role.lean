/-
  EdgeLb.Ha.Role — the role of one gateway (`apply_local_ha_role`, `apply_managed_hook_state`
  and `write_active_gateway` of `edge-lb/src/provider/native/ha.rs`, `peer_activate` of
  `api/handlers/ha.rs`).

  A node holds the text of its active-gateway record, whether the VIP is bound and the role
  its hooks last put it in. Every external step may fail; what it then leaves behind is the
  step's own: an address that did not bind is not bound, an address that was bound stays so
  when announcing it fails, and a role hook that ran has run when its verification fails.
-/

import EdgeLb.Config.Active

namespace EdgeLb.Ha

open EdgeLb.Config EdgeLb.Lib

inductive HaRole
  | master | backup
  deriving DecidableEq, Repr

def roleOf (localActive : Bool) : HaRole := if localActive then .master else .backup

structure ManagedHookState where
  state : HaRole
  vip : String
  deriving DecidableEq, Repr

structure NodeHa where
  record : Option String := none
  vipBound : Bool := false
  hookRole : Option HaRole := none
  lastHook : Option ManagedHookState := none
  deriving DecidableEq, Repr

/-- The local VIP/hook role. -/
def NodeHa.role (n : NodeHa) : Bool × Option HaRole := (n.vipBound, n.hookRole)

/-- The error of each step that fails. `unseen`: the kernel does not answer whether the VIP is
    bound, which is read as not bound. -/
structure RoleFaults where
  roleHook : Option String := none
  verifyHook : Option String := none
  unseen : Bool := false
  bind : Option String := none
  announce : Option String := none
  release : Option String := none
  deriving DecidableEq, Repr

structure LocalHaRoleResult where
  garpAnnounced : Bool := false
  vipBound : Bool := false
  deriving DecidableEq, Repr

/-- A step that answers its error, if it has one. -/
def orFail {α : Type} (fault : Option String) (a : α) : Except String α :=
  match fault with
  | some e => .error e
  | none => .ok a

/-! ## The hooks -/

/-- `promote` or `demote`, then `verify`. -/
def runManagedHookState (role : HaRole) (f : RoleFaults) (n : NodeHa) : NodeHa × Except String Unit :=
  match f.roleHook with
  | some e => (n, .error e)
  | none => ({ n with hookRole := some role }, orFail f.verifyHook ())

/-- Answers whether the hooks ran. -/
def applyManagedHookState (ha : GatewayHaRuntimeConfig) (role : HaRole) (vipOverride : Option String) (force : Bool)
    (f : RoleFaults) (n : NodeHa) : NodeHa × Except String Bool :=
  let desired : ManagedHookState := { state := role, vip := (vipOverride.or ha.vip.privateVip).getD "" }
  if !force && n.lastHook = some desired then (n, .ok false)
  else
    match runManagedHookState role f n with
    | (n, .error e) => (n, .error e)
    | (n, .ok ()) => ({ n with lastHook := some desired }, .ok true)

/-! ## The VIP -/

def seenBound (f : RoleFaults) (n : NodeHa) : Bool := n.vipBound && !f.unseen

/-- Bind and announce, unless the VIP is there. -/
def takeVip (f : RoleFaults) (n : NodeHa) : NodeHa × Except String LocalHaRoleResult :=
  if seenBound f n then (n, .ok { vipBound := true })
  else
    match f.bind with
    | some e => (n, .error e)
    | none => ({ n with vipBound := true }, orFail f.announce { garpAnnounced := true, vipBound := true })

def releaseVip (f : RoleFaults) (n : NodeHa) : NodeHa × Except String LocalHaRoleResult :=
  if seenBound f n then
    match f.release with
    | some e => (n, .error e)
    | none => ({ n with vipBound := false }, .ok {})
  else (n, .ok {})

def applyLocalHaRole (ha : GatewayHaRuntimeConfig) (localActive force : Bool) (f : RoleFaults) (n : NodeHa) :
    NodeHa × Except String LocalHaRoleResult :=
  if !ha.enabled then (n, .ok {})
  else if ha.vip.provider = .hook then
    (applyManagedHookState ha (roleOf localActive) none force f n).map id (·.map fun _ => {})
  else if ha.vip.provider ≠ .l2 then (n, .ok {})
  else
    match ha.vip.privateVip with
    | none => (n, .ok {})
    | some vip =>
      if (parseIpv4 vip).isNone then (n, .error s!"bad private VIP {vip}")
      else if localActive then takeVip f n
      else releaseVip f n

def recordText (name : String) : String := s!"{name}\n"

/-- The record is read without its line break. -/
theorem trim_recordText (name : String) : trim (recordText name) = trim name := by
  have hpush : recordText name = name.push '\n' := by
    apply String.toList_injective
    simp [recordText, toString]
  rw [hpush]
  exact trim_push (by decide) name

def writeActiveGateway (fault : Option String) (name : String) (n : NodeHa) : NodeHa × Except String Unit :=
  match fault with
  | some e => (n, .error e)
  | none => ({ n with record := some (recordText name) }, .ok ())

/-! ## Activation asked for by the peer -/

structure Activated where
  localActive : Bool
  gateway : String
  localGateway : String
  garpAnnounced : Bool
  vipBound : Bool
  deriving DecidableEq, Repr

variable (cfg : FileConfig)

/-- The name to record, and whether it is this node. -/
def activationTarget (ha : GatewayHaRuntimeConfig) (key : String) : Option (String × Bool) :=
  ((gatewayByKey cfg key).map fun gw => (gw.name, isLocalGateway cfg gw)).or
    ((ha.peers.find? fun peer => peer.name = key || peer.underlayIp = key).map fun peer => (peer.name, false))

/-- `peer_activate` once the body is read: the role, then the record. -/
def activate (ha : GatewayHaRuntimeConfig) (key : String) (f : RoleFaults) (write : Option String)
    (n : NodeHa) : NodeHa × Except (Nat × String) Activated :=
  match activationTarget cfg ha key with
  | none => (n, .error (409, "activation target is not a configured gateway"))
  | some (gateway, localActive) =>
    -- without HA the role has no steps, and the record is all there is
    match applyLocalHaRole ha localActive true f n with
    | (n, .error e) => (n, .error (500, s!"applying HA takeover state: {e}"))
    | (n, .ok applied) =>
      let vipBound := if ha.enabled && ha.vip.provider = .l2 && !localActive && ha.vip.privateVip.isSome
        then seenBound f n else applied.vipBound
      match writeActiveGateway write gateway n with
      | (n, .error e) => (n, .error (500, s!"writing active gateway: {e}"))
      | (n, .ok ()) =>
        (n, .ok { localActive, gateway, localGateway := cfg.nodeName, garpAnnounced := applied.garpAnnounced, vipBound })

/-- `body` is the field `gateway` of the request, when the request is JSON and the field a text. -/
def peerActivate (ha : Except String GatewayHaRuntimeConfig) (body : Except String (Option String))
    (f : RoleFaults) (write : Option String) (n : NodeHa) : NodeHa × Except (Nat × String) Activated :=
  if cfg.nodeRole ≠ .gateway then (n, .error (403, "HA API is only available on gateway nodes"))
  else
    match body, ha with
    | .error e, _ => (n, .error (400, s!"bad activation JSON: {e}"))
    | .ok none, _ => (n, .error (400, "body must be \x7b\"gateway\": \"<name or ip>\"\x7d"))
    | .ok (some _), .error e => (n, .error (500, s!"loading HA config: {e}"))
    | .ok (some key), .ok ha => activate cfg ha key f write n

/-! ## What a role change comes to -/

/-- What carries the role: nothing, the hooks, or the VIP, whose text may be no address. -/
inductive RoleMeans
  | nothing | hook | badVip (text : String) | vip
  deriving DecidableEq, Repr

def roleMeans (ha : GatewayHaRuntimeConfig) : RoleMeans :=
  if !ha.enabled then .nothing
  else
    match ha.vip.provider, ha.vip.privateVip with
    | .hook, _ => .hook
    | .l2, some vip => if (parseIpv4 vip).isNone then .badVip vip else .vip
    | _, _ => .nothing

/-- The change to the role fails. -/
def roleFails (ha : GatewayHaRuntimeConfig) (localActive : Bool) (f : RoleFaults) (n : NodeHa) : Bool :=
  match roleMeans ha with
  | .nothing => false
  | .hook => f.roleHook.isSome || f.verifyHook.isSome
  | .badVip _ => true
  | .vip =>
    if localActive then !seenBound f n && (f.bind.isSome || f.announce.isSome) else seenBound f n && f.release.isSome

/-- The change, failed or not, leaves the role as it was: its first step failed, or there was
    nothing to change. -/
def roleKept (ha : GatewayHaRuntimeConfig) (localActive : Bool) (f : RoleFaults) (n : NodeHa) : Bool :=
  match roleMeans ha with
  | .nothing | .badVip _ => true
  | .hook => f.roleHook.isSome || n.hookRole = some (roleOf localActive)
  | .vip => if localActive then n.vipBound || f.bind.isSome else !seenBound f n || f.release.isSome

/-- The node is MASTER by what carries the role. -/
def isMaster (ha : GatewayHaRuntimeConfig) (n : NodeHa) : Bool :=
  match roleMeans ha with
  | .nothing | .badVip _ => true
  | .hook => n.hookRole = some .master
  | .vip => n.vipBound

/-- The role steps as the source orders them, by what carries the role. -/
theorem applyLocalHaRole_means (ha : GatewayHaRuntimeConfig) (localActive force : Bool) (f : RoleFaults) (n : NodeHa) :
    applyLocalHaRole ha localActive force f n =
      match roleMeans ha with
      | .nothing => (n, .ok {})
      | .hook => (applyManagedHookState ha (roleOf localActive) none force f n).map id (·.map fun _ => {})
      | .badVip text => (n, .error s!"bad private VIP {text}")
      | .vip => if localActive then takeVip f n else releaseVip f n := by
  unfold applyLocalHaRole roleMeans
  cases ha.enabled with
  | false => rfl
  | true =>
    cases ha.vip.provider with
    | hook => rfl
    | bgp => rfl
    | l2 =>
      cases ha.vip.privateVip with
      | none => rfl
      | some vip =>
        by_cases hvip : (parseIpv4 vip).isNone = true
        · simp [hvip]
        · simp [hvip]

/-- A step that answers its error or goes through. -/
def Answers {α : Type} (fails : Bool) (x : Except String α) : Prop :=
  if fails then ∃ e, x = .error e else ∃ a, x = .ok a

theorem answers_error {α : Type} (e : String) : Answers true (.error e : Except String α) := ⟨e, rfl⟩

theorem answers_ok {α : Type} (a : α) : Answers false (.ok a) := ⟨a, rfl⟩

theorem orFail_answers {α : Type} (fault : Option String) (a : α) : Answers fault.isSome (orFail fault a) := by
  cases fault with
  | none => exact answers_ok a
  | some e => exact answers_error e

theorem Answers.map {α β : Type} {fails : Bool} {x : Except String α} (h : Answers fails x) (g : α → β) :
    Answers fails (x.map g) := by
  cases fails with
  | true =>
    obtain ⟨e, rfl⟩ := h
    exact answers_error e
  | false =>
    obtain ⟨a, rfl⟩ := h
    exact answers_ok (g a)

/-- The answer of a step that leaves a state behind. -/
theorem Answers.cases {α β : Type} {fails : Bool} {x : β × Except String α} (h : Answers fails x.2) :
    (fails = true ∧ ∃ e, x = (x.1, .error e)) ∨ (fails = false ∧ ∃ a, x = (x.1, .ok a)) := by
  cases fails with
  | true =>
    obtain ⟨e, he⟩ := h
    exact .inl ⟨rfl, e, Prod.ext rfl he⟩
  | false =>
    obtain ⟨a, ha⟩ := h
    exact .inr ⟨rfl, a, Prod.ext rfl ha⟩

theorem applyManagedHookState_forced (ha : GatewayHaRuntimeConfig) (role : HaRole) (vip : Option String)
    (f : RoleFaults) (n : NodeHa) :
    let x := applyManagedHookState ha role vip true f n
    x.1.record = n.record ∧ x.1.role = (n.vipBound, if f.roleHook.isSome then n.hookRole else some role) ∧
      Answers (f.roleHook.isSome || f.verifyHook.isSome) x.2 := by
  cases hrole : f.roleHook with
  | some e =>
    simp only [applyManagedHookState, runManagedHookState, hrole]
    exact ⟨rfl, rfl, answers_error e⟩
  | none =>
    cases hverify : f.verifyHook with
    | some e =>
      simp only [applyManagedHookState, runManagedHookState, hrole, hverify, orFail]
      exact ⟨rfl, rfl, answers_error e⟩
    | none =>
      simp only [applyManagedHookState, runManagedHookState, hrole, hverify, orFail]
      exact ⟨rfl, rfl, answers_ok true⟩

theorem takeVip_spec (f : RoleFaults) (n : NodeHa) :
    (takeVip f n).1.record = n.record ∧ (takeVip f n).1.role = (n.vipBound || f.bind.isNone, n.hookRole) ∧
      Answers (!seenBound f n && (f.bind.isSome || f.announce.isSome)) (takeVip f n).2 := by
  unfold takeVip
  by_cases hseen : seenBound f n = true
  · have hbound : n.vipBound = true := by
      unfold seenBound at hseen
      simp at hseen
      exact hseen.1
    rw [if_pos hseen, hseen]
    exact ⟨rfl, by simp [NodeHa.role, hbound], answers_ok _⟩
  · rw [if_neg hseen, Bool.eq_false_iff.mpr hseen]
    cases f.bind with
    | some e => exact ⟨rfl, by simp [NodeHa.role], answers_error e⟩
    | none => exact ⟨rfl, by simp [NodeHa.role], orFail_answers _ _⟩

theorem releaseVip_spec (f : RoleFaults) (n : NodeHa) :
    (releaseVip f n).1.record = n.record ∧
      (releaseVip f n).1.role = (if seenBound f n && f.release.isNone then false else n.vipBound, n.hookRole) ∧
      Answers (seenBound f n && f.release.isSome) (releaseVip f n).2 := by
  unfold releaseVip
  by_cases hseen : seenBound f n = true
  · simp only [hseen, if_true, Bool.true_and]
    cases f.release with
    | some e => exact ⟨rfl, by simp [NodeHa.role], answers_error e⟩
    | none => exact ⟨rfl, by simp [NodeHa.role], answers_ok _⟩
  · rw [if_neg hseen, Bool.eq_false_iff.mpr hseen]
    exact ⟨rfl, by simp [NodeHa.role], answers_ok _⟩

section Spec

variable (ha : GatewayHaRuntimeConfig) (localActive : Bool) (f : RoleFaults) (n : NodeHa)

theorem applyLocalHaRole_spec :
    let x := applyLocalHaRole ha localActive true f n
    x.1.record = n.record ∧ Answers (roleFails ha localActive f n) x.2 := by
  rw [applyLocalHaRole_means]
  unfold roleFails
  cases roleMeans ha with
  | nothing => exact ⟨rfl, answers_ok _⟩
  | badVip text => exact ⟨rfl, answers_error _⟩
  | hook =>
    obtain ⟨hrecord, -, hanswers⟩ := applyManagedHookState_forced ha (roleOf localActive) none f n
    exact ⟨hrecord, hanswers.map _⟩
  | vip =>
    cases localActive with
    | true => exact ⟨(takeVip_spec f n).1, (takeVip_spec f n).2.2⟩
    | false => exact ⟨(releaseVip_spec f n).1, (releaseVip_spec f n).2.2⟩

theorem applyLocalHaRole_role :
    (applyLocalHaRole ha localActive true f n).1.role = n.role ↔ roleKept ha localActive f n = true := by
  rw [applyLocalHaRole_means]
  unfold roleKept
  cases roleMeans ha with
  | nothing => simp
  | badVip text => simp
  | hook =>
    show (applyManagedHookState ha (roleOf localActive) none true f n).1.role = n.role ↔ _
    rw [(applyManagedHookState_forced ha (roleOf localActive) none f n).2.1]
    cases f.roleHook with
    | some e => simp [NodeHa.role]
    | none => simp [NodeHa.role, eq_comm]
  | vip =>
    cases localActive with
    | true =>
      show (takeVip f n).1.role = n.role ↔ _
      rw [(takeVip_spec f n).2.1, NodeHa.role]
      cases f.bind <;> cases n.vipBound <;> simp
    | false =>
      show (releaseVip f n).1.role = n.role ↔ _
      rw [(releaseVip_spec f n).2.1, NodeHa.role, seenBound]
      cases f.release <;> cases n.vipBound <;> cases f.unseen <;> simp

theorem applyLocalHaRole_cases : ∃ node, node.record = n.record ∧
    (node.role = n.role ↔ roleKept ha localActive f n = true) ∧
    ((roleFails ha localActive f n = true ∧ ∃ e, applyLocalHaRole ha localActive true f n = (node, .error e)) ∨
      (roleFails ha localActive f n = false ∧ ∃ a, applyLocalHaRole ha localActive true f n = (node, .ok a))) := by
  obtain ⟨hrecord, hanswers⟩ := applyLocalHaRole_spec ha localActive f n
  exact ⟨_, hrecord, applyLocalHaRole_role ha localActive f n, hanswers.cases⟩

end Spec

/-- A node that was demoted and is then promoted is MASTER, whatever it was before. -/
theorem restored_role (ha : GatewayHaRuntimeConfig) (f g : RoleFaults) (n : NodeHa)
    (hdemoted : roleFails ha false f n = false) :
    let after := (applyLocalHaRole ha false true f n).1
    roleFails ha true g after = roleFails ha true g { n with vipBound := n.vipBound && f.unseen } ∧
      (roleFails ha true g after = false →
        ((applyLocalHaRole ha true true g after).1.role = n.role ↔ isMaster ha n = true)) := by
  intro after
  have hafter : after = (applyLocalHaRole ha false true f n).1 := rfl
  rw [applyLocalHaRole_means] at hafter ⊢
  unfold roleFails isMaster at *
  cases hmeans : roleMeans ha with
  | nothing =>
    simp only [hmeans] at hafter ⊢
    simp [hafter]
  | badVip text => simp [hmeans] at hdemoted
  | hook =>
    simp only [hmeans] at hafter hdemoted ⊢
    refine ⟨trivial, fun hrestored => ?_⟩
    have hrole : after.role = (n.vipBound, some .backup) := by
      rw [hafter]
      show (applyManagedHookState ha .backup none true f n).1.role = _
      rw [(applyManagedHookState_forced ha .backup none f n).2.1]
      simp at hdemoted
      simp [hdemoted]
    show (applyManagedHookState ha .master none true g after).1.role = n.role ↔ _
    rw [(applyManagedHookState_forced ha .master none g after).2.1]
    obtain ⟨hbound, -⟩ := Prod.mk.inj hrole
    simp at hrestored
    simp [hrestored, hbound, NodeHa.role, eq_comm]
  | vip =>
    simp only [hmeans] at hafter hdemoted ⊢
    have hrole : after.role = (n.vipBound && f.unseen, n.hookRole) := by
      rw [hafter]
      show (releaseVip f n).1.role = _
      rw [(releaseVip_spec f n).2.1]
      simp only [Bool.false_eq_true, if_false] at hdemoted
      unfold seenBound at *
      revert hdemoted
      cases f.release <;> cases n.vipBound <;> cases f.unseen <;> simp
    obtain ⟨hbound, hhook⟩ := Prod.mk.inj hrole
    refine ⟨by simp [seenBound, hbound], fun hrestored => ?_⟩
    show (takeVip g after).1.role = n.role ↔ _
    rw [(takeVip_spec g after).2.1, hbound, hhook, NodeHa.role]
    simp only [if_true, seenBound, hbound] at hrestored
    revert hrestored
    cases g.bind <;> cases n.vipBound <;> cases f.unseen <;> cases g.unseen <;> simp

end EdgeLb.Ha
