/-
  EdgeLb.Storage.LocalVips — the VIPs that a listener has on one gateway only
  (`edge-lb/src/storage/proxy_replication.rs`).

  A snapshot carries no `vip_ips`: `shared` clears them, and `receive_on` refuses a snapshot
  that has any. A gateway that takes a snapshot over writes the snapshot's configuration as it
  came, and the VIPs it had itself are gone.

  Proved, for every run of two gateways: the steps that receive a snapshot leave the VIPs of the
  listeners they keep exactly when each one that is committed changes none of the documents, or
  lists no listener that has VIPs here (`received_vips_kept_iff`).
-/

import EdgeLb.Storage.Pair

namespace EdgeLb.Storage

open EdgeLb.Config EdgeLb.Lib

def ProxyConfig.listener? (config : ProxyConfig) (name : String) : Option Listener :=
  config.listeners.find? fun l => l.name = name

/-- A listener that both have has the same VIPs in both. -/
def KeepsVips (before after : ProxyConfig) : Prop :=
  ∀ name l l', before.listener? name = some l → after.listener? name = some l' → l'.vipIps = l.vipIps

theorem KeepsVips.refl (config : ProxyConfig) : KeepsVips config config := by
  intro name l l' hl hl'
  rw [Option.some.inj (hl'.symm.trans hl)]

/-- A configuration without VIPs keeps those of the listeners that have none. -/
theorem keepsVips_plain {before after : ProxyConfig} (hplain : shared after = after) : KeepsVips before after ↔
    ∀ name l l', before.listener? name = some l → after.listener? name = some l' → l.vipIps = [] := by
  have hnone : ∀ name l', after.listener? name = some l' → l'.vipIps = [] := by
    intro name l' hl'
    have hmem : l' ∈ after.listeners := List.mem_of_find?_eq_some hl'
    rw [← hplain] at hmem
    obtain ⟨l₀, -, rfl⟩ := List.mem_map.mp hmem
    rfl
  constructor
  · intro h name l l' hl hl'
    rw [← h name l l' hl hl', hnone name l' hl']
  · intro h name l l' hl hl'
    rw [h name l l' hl hl', hnone name l' hl']

section

variable {P H : Type} [DecidableEq P] [DecidableEq H] (F : Format P H) (cfg : Node → FileConfig)

/-- The snapshot is what is stored here, or every listener it lists has no VIPs here. -/
def NoVipsLost (docs : Docs Key P) (before : ProxyConfig) (s : Snapshot H) : Prop :=
  (F.contentHash (shared before) = s.contentHash ∧ (docs .listeners).isSome ∧ (docs .targetGroups).isSome) ∨
    ∀ name l l', before.listener? name = some l → s.config.listener? name = some l' → l.vipIps = []

/-- A received snapshot leaves the VIPs, and what it changes comes from the peer. -/
def VipsKept (s : Pair P H) : PairEv P H → Prop
  | .receive x snapshot revision now => ∀ before after, readConfig F (cfg x) (s.store x).docs = .ok before →
    readConfig F (cfg x) ((stepPair F cfg s (.receive x snapshot revision now)).store x).docs = .ok after →
    KeepsVips before after ∧ (after = before ∨ shared after = shared snapshot.config)
  | _ => True

def VipsSafe (s : Pair P H) : PairEv P H → Prop
  | .receive x snapshot revision now => (x.other, snapshot) ∈ s.sent → ∀ st after before,
    s.round F x (.receive (cfg x) snapshot) revision now = .committed st after →
    readConfig F (cfg x) (s.store x).docs = .ok before → NoVipsLost F (s.store x).docs before snapshot
  | _ => True

variable {F cfg}

theorem vipsKept_of_same {s : Pair P H} {x : Node} {snapshot : Snapshot H} {revision : Int} {now : String}
    (hsame : (stepPair F cfg s (.receive x snapshot revision now)).store x = s.store x) :
    VipsKept F cfg s (.receive x snapshot revision now) := by
  intro before after hbefore hafter
  rw [hsame] at hafter
  obtain rfl := Except.ok.inj (hbefore.symm.trans hafter)
  exact ⟨.refl before, .inl rfl⟩

theorem vipsKept_iff (s : Pair P H) (e : PairEv P H) : VipsKept F cfg s e ↔ VipsSafe F cfg s e := by
  cases e with
  | receive x snapshot revision now =>
    by_cases hsent : (x.other, snapshot) ∈ s.sent
    · cases hround : s.round F x (.receive (cfg x) snapshot) revision now with
      | committed st reply =>
        obtain ⟨writes, hplan, hdocs⟩ := round_eq_committed F hround
        obtain ⟨b, peer, business, hread, -, -, -, rfl, -, hplain, hkeep, -⟩ := receivePlan_commit hplan
        obtain ⟨hconfig, -, -⟩ := read_eq_ok.mp hread
        have hstore : ((stepPair F cfg s (.receive x snapshot revision now)).store x) = st := by
          simp only [stepPair, if_pos hsent, hround, commit_store, if_true]
        have hkept : VipsKept F cfg s (.receive x snapshot revision now) ↔
            KeepsVips b.config (if business then snapshot.config else b.config) := by
          have hafter : readConfig F (cfg x) st.docs = .ok (if business then snapshot.config else b.config) := by
            rw [hdocs]
            cases business with
            | true => exact readConfig_written ..
            | false => exact hconfig
          have hpeer : (if business then snapshot.config else b.config) = b.config ∨
              shared (if business then snapshot.config else b.config) = shared snapshot.config := by
            cases business with
            | true => exact .inr rfl
            | false => exact .inl rfl
          simp only [VipsKept, hstore, hconfig, hafter, Except.ok.injEq]
          exact ⟨fun h => (h _ _ rfl rfl).1, fun h _ _ hb ha => hb ▸ ha ▸ ⟨h, hpeer⟩⟩
        have hsafe : VipsSafe F cfg s (.receive x snapshot revision now) ↔
            NoVipsLost F (s.store x).docs b.config snapshot := by
          simp [VipsSafe, hsent, hround, hconfig]
        rw [hkept, hsafe, NoVipsLost, ← hkeep]
        cases business with
        | true => simpa using keepsVips_plain hplain
        | false => simpa using KeepsVips.refl b.config
      | ended r =>
        refine iff_of_true (vipsKept_of_same ?_) (by simp [VipsSafe, hround])
        simp only [stepPair, if_pos hsent, hround]
      | refused =>
        refine iff_of_true (vipsKept_of_same ?_) (by simp [VipsSafe, hround])
        simp only [stepPair, if_pos hsent, hround]
    · refine iff_of_true (vipsKept_of_same ?_) fun h => absurd h hsent
      simp only [stepPair, if_neg hsent]
  | _ => exact Iff.rfl

/-- In a run from any state, every received snapshot leaves the VIPs just when no committed one
    writes over a listener that has some. -/
theorem received_vips_kept_iff (s : Pair P H) (es : List (PairEv P H)) :
    StepsMeet (stepPair F cfg) (VipsKept F cfg) s es ↔ StepsMeet (stepPair F cfg) (VipsSafe F cfg) s es :=
  stepsMeet_congr (stepPair F cfg) (I := fun _ => True) (fun _ _ _ _ => trivial) (fun s e _ => vipsKept_iff s e) trivial es

end

/-! ## A gateway that was MASTER -/

/-- The listener `web`, with these VIPs and the groups named. -/
def webConfig (vipIps : List IpAddr) (groups : List String) : ProxyConfig :=
  { listeners := [{ name := "web", port := 80, targetPort := 8080, targetGroup := "web", vipIps }],
    targetGroups := groups.map fun name => { name } }

def webSnapshot (source : String) (sequence : Nat) (groups : List String) : Snapshot (Option ProxyConfig) :=
  { sequence, source, pairingId := "P", contentHash := some (webConfig [] groups), config := webConfig [] groups }

/-- `a` sets a VIP as MASTER, `b` follows and becomes MASTER, and adds a group. -/
def masterChanges : List PlainEv :=
  pairUp .a "P" "a" 1 ++ pairUp .b "P" "a" 1 ++
    [.mutate .a (fun _ _ => .ok (webConfig [.v4 0xcb007114] ["web"], ())) 4 "t", .outgoing .a 5 "t",
      .receive .b (webSnapshot "a" 1 ["web"]) 4 "t", .active .a (.text "b") 6 "t", .active .b (.text "b") 5 "t",
      .mutate .b (addGroup "sip") 6 "t", .outgoing .b 7 "t"]

def storedConfig (es : List PlainEv) (x : Node) : Except String ProxyConfig :=
  readConfig plainFormat (gatewayCfg x) ((runPlain es).store x).docs

theorem received_edit_erases_vips :
    let edited := webSnapshot "b" 2 ["web", "sip"]
    (Node.b, edited) ∈ (runPlain masterChanges).sent ∧
      storedConfig masterChanges .a = .ok (webConfig [.v4 0xcb007114] ["web"]) ∧
      storedConfig (masterChanges ++ [.receive .a edited 7 "t"]) .a = .ok (webConfig [] ["web", "sip"]) := by
  decide

end EdgeLb.Storage
