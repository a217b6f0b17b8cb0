/-
  EdgeLb.Storage.Pair — two gateways that replicate their proxy configuration
  (`edge-lb/src/storage/proxy_replication.rs`, `runtime/proxy_replication.rs`).

  Each gateway has a store of its own. `outgoing_on` hands a snapshot to the network, which
  may deliver it any number of times, at any later time and in any order, or never; so may
  it the receipts. HA configuration, secret and active selection are written at any time,
  so roles and pairings change freely; a gateway's peer is always the other one. A round of
  a loop is one step here, as `run_atomic` allows.

  `past` remembers every state a gateway has stored: the cursor with its configuration, in
  the order they were committed.

  Proved, for cursors of a pairing (the cursor of a standalone gateway names none), in every
  run in which a gateway does not come back to a pairing after storing a cursor outside it
  (`replication_agrees`): a cursor that is not pending has been stored by the peer; the
  sequences a gateway stores within a pairing do not decrease; and two stored states of one
  version have the same content. A gateway that comes back takes old snapshots for new ones
  and numbers its own versions again (`returning_replica_goes_back`).
-/

import EdgeLb.Storage.Serial

namespace EdgeLb.Storage

open EdgeLb.Config EdgeLb.Lib

/-- What a version is known by: everything of the cursor but its delivery. -/
def SyncState.version {H : Type} (s : SyncState H) : Receipt H :=
  { sequence := s.sequence, source := s.source, pairingId := s.pairingId, contentHash := s.contentHash }

/-! ## What the loops commit -/

section plans

variable {P H T : Type} [DecidableEq H] {F : Format P H}

variable {after : Option (Reply H T)} {cfg : FileConfig} {docs : Docs Key P} {writes : Key → Option P}
  {s : Snapshot H}

theorem outgoingPlan_commit (h : outgoingPlan F cfg docs = .commit writes after) :
    ∃ b sync p peer, read F cfg docs = .ok b ∧ b.scope = .master p peer ∧
      b.localVersion F cfg b.config = .ok sync ∧ writes = commitWrites F b.config sync false := by
  unfold outgoingPlan at h
  split at h
  · cases h
  next b hb =>
    split at h
    · next p peer hscope =>
      split at h
      · split at h
        · cases h
        next sync hsync =>
          cases h
          exact ⟨b, sync, p, peer, hb, hscope, hsync, rfl⟩
      · cases h
    · cases h

/-- A snapshot is sent of a fresh cursor only. -/
theorem outgoingPlan_done {peer : GatewayHaPeer} {snapshot : Snapshot H}
    {pending : Bool} (h : outgoingPlan (T := T) F cfg docs = .done (.outgoing (.ok (some (peer, snapshot, pending))))) :
    ∃ b p peer, read F cfg docs = .ok b ∧ b.scope = .master p peer ∧ b.sync.source = cfg.nodeName ∧
      b.sync.pairingId = p ∧ b.sync.contentHash = F.contentHash (shared b.config) ∧ snapshot = b.snapshot := by
  unfold outgoingPlan at h
  split at h
  · cases h
  next b hb =>
    split at h
    · next p peer hscope =>
      split at h
      · split at h <;> cases h
      next hfresh =>
        cases h
        have hfresh' : b.sync.source = cfg.nodeName ∧ b.sync.pairingId = p ∧
            b.sync.contentHash = F.contentHash (shared b.config) := by
          simpa [Bundle.stale, not_or] using hfresh
        exact ⟨b, p, _, hb, hscope, hfresh'.1, hfresh'.2.1, hfresh'.2.2, rfl⟩
    · cases h

theorem shared_of_plain {config : ProxyConfig} (h : (config.listeners.any fun l => !l.vipIps.isEmpty) = false) :
    shared config = config := by
  have hmap : config.listeners.map (fun l => { l with vipIps := [] }) = config.listeners := by
    refine (List.map_congr_left fun l hl => ?_).trans (List.map_id _)
    have hl' := List.any_eq_false.mp h l hl
    have hvips : l.vipIps = [] := by simpa using hl'
    rw [id_eq, ← hvips]
  unfold shared
  rw [hmap]

/-- An accepted snapshot is plain, and its digest fits. -/
theorem check_ok (h : s.check F cfg = .ok ()) :
    shared s.config = s.config ∧ F.contentHash s.config = s.contentHash := by
  unfold Snapshot.check at h
  split at h
  · cases h
  next hvalid =>
    simp only [not_or, ne_eq, not_not, Bool.not_eq_true] at hvalid
    exact ⟨shared_of_plain hvalid.2.1, hvalid.2.2⟩

theorem receivePlan_commit (h : receivePlan F cfg s docs = .commit writes after) :
    ∃ b peer business, read F cfg docs = .ok b ∧ b.scope = .backup s.pairingId peer ∧ s.source = peer.name ∧
      (s.pairingId = b.sync.pairingId → b.sync.sequence < s.sequence) ∧
      writes = commitWrites F s.config s.cursor business ∧
      F.contentHash (shared (if business then s.config else b.config)) = s.contentHash ∧
      shared s.config = s.config ∧
      (business = false ↔ F.contentHash (shared b.config) = s.contentHash ∧ (docs .listeners).isSome ∧
        (docs .targetGroups).isSome) ∧
      ∃ changed, after = some (.receive (.ok (s.receipt, changed))) := by
  unfold receivePlan at h
  dsimp only at h
  split at h
  · cases h
  next hcheck =>
    obtain ⟨hplain, hhash⟩ := check_ok hcheck
    split at h
    · cases h
    next b hb =>
      split at h
      · next p peer hscope =>
        split at h
        · cases h
        next hpeer =>
          simp only [not_or, ne_eq, not_not] at hpeer
          split at h
          · cases h
          next hstale =>
            split at h
            · split at h <;> cases h
            next hsame =>
              cases h
              refine ⟨b, peer, _, hb, by rw [hpeer.1]; exact hscope, hpeer.2, fun hp => ?_, rfl, ?_, hplain, ?_, _, rfl⟩
              · have h1 : ¬ s.sequence < b.sync.sequence := fun hlt => hstale ⟨hp, hlt⟩
                have h2 : s.sequence ≠ b.sync.sequence := fun heq => hsame ⟨hp, heq⟩
                omega
              · split
                · rw [hplain, hhash]
                · next hkeep =>
                  simp only [decide_eq_true_eq, not_or, ne_eq, not_not] at hkeep
                  exact hkeep.1
              · simp only [decide_eq_false_iff_not, not_or, ne_eq, not_not, Option.isNone_iff_eq_none, Option.isSome_iff_ne_none]
      · cases h

/-- A snapshot accepted without a commit is the one stored. -/
theorem receivePlan_done {r : Receipt H} {changed : Bool}
    (h : receivePlan (T := T) F cfg s docs = .done (.receive (.ok (r, changed)))) :
    ∃ b peer, read F cfg docs = .ok b ∧ b.scope = .backup s.pairingId peer ∧ b.sync.pairingId = s.pairingId ∧
      b.sync.version = r := by
  unfold receivePlan at h
  dsimp only at h
  split at h
  · cases h
  split at h
  · cases h
  next b hb =>
    split at h
    · next p peer hscope =>
      split at h
      · cases h
      next hpeer =>
        simp only [not_or, ne_eq, not_not] at hpeer
        split at h
        · cases h
        split at h
        · next hsame =>
          split at h
          · cases h
          next hfits =>
            simp only [not_or, ne_eq, not_not] at hfits
            cases h
            refine ⟨b, peer, hb, by rw [hpeer.1]; exact hscope, hsame.1.symm, ?_⟩
            simp only [SyncState.version, Snapshot.receipt, hfits.1, hfits.2.1, hsame.1, hsame.2]
        · cases h
    · cases h

theorem recordPlan_commit {error : Option String} (h : recordPlan F cfg s error docs = .commit writes after) :
    ∃ b peer, read F cfg docs = .ok b ∧ b.scope = .master s.pairingId peer ∧ b.sync.sequence = s.sequence ∧
      b.sync.source = s.source ∧ b.sync.contentHash = s.contentHash ∧
      writes = commitWrites F b.config (b.sync.recorded error) false := by
  unfold recordPlan at h
  split at h
  · cases h
  next b hb =>
    split at h
    · next p peer hscope =>
      split at h
      · cases h
      next hfits =>
        simp only [not_or, ne_eq, not_not] at hfits
        split at h
        · cases h
        · cases h
          exact ⟨b, peer, hb, by rw [hscope, hfits.1], hfits.2.1, hfits.2.2.1, hfits.2.2.2, rfl⟩
    · cases h

end plans

/-! ## The pair -/

inductive Node
  | a | b
  deriving DecidableEq, Repr

def Node.other : Node → Node
  | .a => .b
  | .b => .a

@[simp] theorem Node.other_other (x : Node) : x.other.other = x := by cases x <;> rfl

theorem Node.eq_or_other (x y : Node) : y = x ∨ y = x.other := by cases x <;> cases y <;> simp [Node.other]

structure Pair (P H : Type) where
  store : Node → DocStore Key P
  past : Node → List (Bundle H)
  /-- The snapshots handed to the network, by their sender. -/
  sent : List (Node × Snapshot H)
  /-- The receipts answered, by the gateway that answered. -/
  receipts : List (Node × Receipt H)

def Scope.pairing? : Scope → Option String
  | .standalone => none
  | .master p _ => some p
  | .backup p _ => some p

section

variable {P H : Type} (F : Format P H) (cfg : Node → FileConfig)

def Pair.setStore (s : Pair P H) (x : Node) (st : DocStore Key P) : Pair P H :=
  { s with store := Function.update s.store x st }

/-- A commit at `x`, remembered. -/
def Pair.commit (s : Pair P H) (x : Node) (st : DocStore Key P) : Pair P H :=
  { s.setStore x st with
    past := Function.update s.past x (s.past x ++ (read F (cfg x) st.docs).toOption.toList) }

/-! ## The invariant -/

/-- No return: if the gateway has stored a cursor in the pairing it is in, its cursor is
    still in that pairing. -/
def NoReturn (s : Pair P H) (x : Node) : Prop :=
  ∀ b, read F (cfg x) (s.store x).docs = .ok b → ∀ p, b.scope.pairing? = some p →
    (∃ b' ∈ s.past x, b'.sync.pairingId = p) → b.sync.pairingId = p

/-- The same version of a pairing, numbered by the same gateway. -/
def SyncState.sameVersion (s t : SyncState H) : Prop :=
  s.pairingId ≠ "" ∧ s.pairingId = t.pairingId ∧ s.sequence = t.sequence ∧ s.source = t.source

/-- Later in the same pairing, the sequence is no lower. -/
def SyncState.NotBefore (s t : SyncState H) : Prop :=
  s.pairingId = t.pairingId → s.pairingId ≠ "" → s.sequence ≤ t.sequence

def StoredAt (s : Pair P H) (x : Node) (v : Receipt H) : Prop := ∃ b ∈ s.past x, b.sync.version = v

structure PairInv (s : Pair P H) : Prop where
  peers : ∀ x ha, decodeDoc F.ha ((s.store x).docs .ha) = .ok (some ha) →
    ∀ peer ∈ ha.peers, peer.name = (cfg x.other).nodeName
  current : ∀ x sync config, readSync F (s.store x).docs = .ok sync →
    readConfig F (cfg x) (s.store x).docs = .ok config →
    (s.past x = [] ∧ sync = defaultSync F) ∨
      ∃ l last, s.past x = l ++ [last] ∧ last.sync = sync ∧ last.config = config
  digest : ∀ x, ∀ b ∈ s.past x, b.sync.contentHash = F.contentHash (shared b.config)
  source : ∀ x, ∀ b ∈ s.past x, b.sync.source = (cfg x).nodeName ∨
    b.sync.source = (cfg x.other).nodeName ∧ StoredAt s x.other b.sync.version
  acked : ∀ x, ∀ b ∈ s.past x, b.sync.pending = false → b.sync.pairingId ≠ "" →
    StoredAt s x.other b.sync.version
  ordered : ∀ x, (s.past x).Pairwise fun b b' => b.sync.NotBefore b'.sync
  unique : ∀ x, ∀ b ∈ s.past x, ∀ b' ∈ s.past x, b.sync.sameVersion b'.sync → b.sync.source = (cfg x).nodeName →
    b.sync.contentHash = b'.sync.contentHash
  sent : ∀ m ∈ s.sent, m.2.source = (cfg m.1).nodeName ∧ StoredAt s m.1 m.2.receipt
  receipts : ∀ m ∈ s.receipts, StoredAt s m.1 m.2

/-- A state that `x` may store next. -/
structure Fits (s : Pair P H) (x : Node) (b : Bundle H) : Prop where
  digest : b.sync.contentHash = F.contentHash (shared b.config)
  source : b.sync.source = (cfg x).nodeName ∨
    b.sync.source = (cfg x.other).nodeName ∧ StoredAt s x.other b.sync.version
  acked : b.sync.pending = false → b.sync.pairingId ≠ "" → StoredAt s x.other b.sync.version
  ordered : ∀ b' ∈ s.past x, b'.sync.NotBefore b.sync
  unique : ∀ b' ∈ s.past x, b'.sync.sameVersion b.sync → b'.sync.source = (cfg x).nodeName →
    b'.sync.contentHash = b.sync.contentHash

variable {F cfg}

theorem setStore_store (s : Pair P H) (x y : Node) (st : DocStore Key P) :
    (s.setStore x st).store y = if y = x then st else s.store y := by
  simp only [Pair.setStore, Function.update_apply]

variable {b : Bundle H} {s : Pair P H} {st : DocStore Key P} {x : Node} {config : ProxyConfig}

theorem commit_past (hread : read F (cfg x) st.docs = .ok b) (y : Node) :
    (s.commit F cfg x st).past y = if y = x then s.past x ++ [b] else s.past y := by
  simp only [Pair.commit, Function.update_apply, hread]
  rfl

theorem commit_store (s : Pair P H) (x y : Node) (st : DocStore Key P) :
    (s.commit F cfg x st).store y = if y = x then st else s.store y := setStore_store s x y st

theorem StoredAt.commit {x y : Node} {v : Receipt H}
    (hread : read F (cfg x) st.docs = .ok b) (h : StoredAt s y v) : StoredAt (s.commit F cfg x st) y v := by
  obtain ⟨b', hb', hv⟩ := h
  refine ⟨b', ?_, hv⟩
  rw [commit_past hread]
  split
  · next hyx => subst hyx; exact List.mem_append_left _ hb'
  · exact hb'

theorem commit_mem (hread : read F (cfg x) st.docs = .ok b) : b ∈ (s.commit F cfg x st).past x := by
  rw [commit_past hread, if_pos rfl]
  exact List.mem_append_right _ (List.mem_singleton_self b)

theorem mem_commit_past {x y : Node} {b b' : Bundle H}
    (hread : read F (cfg x) st.docs = .ok b) (h : b' ∈ (s.commit F cfg x st).past y) :
    b' ∈ s.past y ∨ (y = x ∧ b' = b) := by
  rw [commit_past hread] at h
  split at h
  · next hyx =>
    rcases List.mem_append.mp h with h | h
    · exact .inl (hyx ▸ h)
    · exact .inr ⟨hyx, List.mem_singleton.mp h⟩
  · exact .inl h

theorem sameVersion_symm {s t : SyncState H} (h : s.sameVersion t) : t.sameVersion s :=
  ⟨h.2.1 ▸ h.1, h.2.1.symm, h.2.2.1.symm, h.2.2.2.symm⟩

/-- A commit of a state that fits keeps the invariant. -/
theorem commit_inv (h : PairInv F cfg s)
    (hread : read F (cfg x) st.docs = .ok b) (hha : st.docs .ha = (s.store x).docs .ha) (hfits : Fits F cfg s x b) :
    PairInv F cfg (s.commit F cfg x st) where
  peers y ha hdoc := by
    rw [commit_store] at hdoc
    split at hdoc
    · next hyx => subst hyx; rw [hha] at hdoc; exact h.peers y ha hdoc
    · exact h.peers y ha hdoc
  current y sync config hsync hconfig := by
    rw [commit_store] at hsync hconfig
    by_cases hyx : y = x
    · subst hyx
      rw [if_pos rfl] at hsync hconfig
      obtain ⟨hconfig', -, hsync'⟩ := read_eq_ok.mp hread
      refine .inr ⟨s.past y, b, by rw [commit_past hread, if_pos rfl], ?_, ?_⟩
      · exact Except.ok.inj (hsync'.symm.trans hsync)
      · exact Except.ok.inj (hconfig'.symm.trans hconfig)
    · rw [if_neg hyx] at hsync hconfig
      rw [commit_past hread, if_neg hyx]
      exact h.current y sync config hsync hconfig
  digest y b' hb' := by
    rcases mem_commit_past hread hb' with hb' | ⟨-, rfl⟩
    · exact h.digest y b' hb'
    · exact hfits.digest
  source y b' hb' := by
    rcases mem_commit_past hread hb' with hb' | ⟨rfl, rfl⟩
    · exact (h.source y b' hb').imp id fun hs => ⟨hs.1, hs.2.commit hread⟩
    · exact hfits.source.imp id fun hs => ⟨hs.1, hs.2.commit hread⟩
  acked y b' hb' hpending hpair := by
    rcases mem_commit_past hread hb' with hb' | ⟨rfl, rfl⟩
    · exact (h.acked y b' hb' hpending hpair).commit hread
    · exact (hfits.acked hpending hpair).commit hread
  ordered y := by
    rw [commit_past hread]
    split
    · refine List.pairwise_append.mpr ⟨h.ordered x, List.pairwise_singleton _ _, fun b' hb' b'' hb'' => ?_⟩
      rw [List.mem_singleton.mp hb'']
      exact hfits.ordered b' hb'
    · exact h.ordered y
  unique y b₁ h₁ b₂ h₂ hsame hown := by
    rcases mem_commit_past hread h₁ with hold₁ | ⟨rfl, rfl⟩
    · rcases mem_commit_past hread h₂ with hold₂ | ⟨rfl, rfl⟩
      · exact h.unique y b₁ hold₁ b₂ hold₂ hsame hown
      · exact hfits.unique b₁ hold₁ hsame hown
    · rcases mem_commit_past hread h₂ with hold₂ | ⟨-, rfl⟩
      · exact (hfits.unique b₂ hold₂ (sameVersion_symm hsame) (hsame.2.2.2 ▸ hown)).symm
      · rfl
  sent m hm := ⟨(h.sent m hm).1, (h.sent m hm).2.commit hread⟩
  receipts m hm := (h.receipts m hm).commit hread

/-! ## What may be stored next -/

/-- A scope of a pair names its one peer, and a pairing that is not empty. -/
theorem readScope_ok {cfg : FileConfig} {ha : GatewayHaRuntimeConfig} {docs : Docs Key P} {scope : Scope}
    (h : readScope F cfg ha docs = .ok scope) :
    scope = .standalone ∨ ∃ peer p, ha.peers = [peer] ∧ p ≠ "" ∧ (scope = .master p peer ∨ scope = .backup p peer) := by
  unfold readScope at h
  split at h
  · cases h; exact .inl rfl
  split at h
  · next peer hpeers =>
    simp only [bind_eq_ok] at h
    obtain ⟨_, -, secret, -, _, hbail, active, -, hscope⟩ := h
    have hid : secret.sessionTokenId.isEmpty = false := by
      have := bailIf_eq_ok.mp hbail
      simp only [Bool.or_eq_false_iff] at this
      exact this.1.1.1
    refine .inr ⟨peer, secret.sessionTokenId, hpeers, ?_, ?_⟩
    · rintro hempty
      rw [hempty] at hid
      cases hid
    · split at hscope
      · cases hscope; exact .inl rfl
      split at hscope
      · cases hscope; exact .inr rfl
      · cases hscope
  · cases h

theorem pairing_ne_empty {cfg : FileConfig} {docs : Docs Key P} (hread : read F cfg docs = .ok b)
    {p : String} (hp : b.scope.pairing? = some p) : p ≠ "" := by
  obtain ⟨-, ⟨ha, -, hscope⟩, -⟩ := read_eq_ok.mp hread
  rcases readScope_ok hscope with hs | ⟨peer, q, -, hq, hs | hs⟩
  · rw [hs] at hp; cases hp
  · rw [hs] at hp; cases hp; exact hq
  · rw [hs] at hp; cases hp; exact hq

theorem localVersion_ok {cfg : FileConfig} {sync : SyncState H} (h : b.localVersion F cfg config = .ok sync) :
    sync.sequence = b.sync.sequence + 1 ∧ sync.source = cfg.nodeName ∧
      sync.contentHash = F.contentHash (shared config) ∧
      (b.scope.pairing? = some sync.pairingId ∧ sync.pending = true ∨ sync.pairingId = "") := by
  have hnext : ∀ p pending, nextVersion F cfg b.sync config p pending = .ok sync →
      sync = { sequence := b.sync.sequence + 1, source := cfg.nodeName, pairingId := p,
               contentHash := F.contentHash (shared config), pending, lastError := none } := by
    intro p pending hok
    obtain ⟨-, hok⟩ := seq_eq_ok.mp hok
    exact (Except.ok.inj hok).symm
  unfold Bundle.localVersion at h
  split at h
  · next p peer hscope =>
    rw [hnext p true h]
    exact ⟨rfl, rfl, rfl, .inl ⟨by rw [hscope]; rfl, rfl⟩⟩
  · rw [hnext "" false h]
    exact ⟨rfl, rfl, rfl, .inr rfl⟩
  · cases h

section

variable (h : PairInv F cfg s)
include h

/-- What is stored now: nothing yet, or the last state of the past. -/
theorem PairInv.last (hread : read F (cfg x) (s.store x).docs = .ok b) :
    (s.past x = [] ∧ b.sync = defaultSync F) ∨
      ∃ l last, s.past x = l ++ [last] ∧ last.sync = b.sync ∧ last.config = b.config := by
  obtain ⟨hconfig, -, hsync⟩ := read_eq_ok.mp hread
  exact h.current x b.sync b.config hsync hconfig

/-- A cursor of a pairing has been stored. -/
theorem PairInv.stored (hread : read F (cfg x) (s.store x).docs = .ok b) (hp : b.sync.pairingId ≠ "") :
    ∃ last ∈ s.past x, last.sync = b.sync ∧ last.config = b.config := by
  rcases h.last hread with ⟨-, hdefault⟩ | ⟨l, last, hpast, hsync, hconfig⟩
  · rw [hdefault] at hp; exact absurd rfl hp
  · exact ⟨last, by simp [hpast], hsync, hconfig⟩

/-- In the pairing the gateway is in, no stored sequence is above the cursor's. -/
theorem PairInv.bound (hstay : NoReturn F cfg s x) (hread : read F (cfg x) (s.store x).docs = .ok b) {p : String}
    (hp : b.scope.pairing? = some p) {b' : Bundle H} (hb' : b' ∈ s.past x) (hpair : b'.sync.pairingId = p) :
    b.sync.pairingId = p ∧ b'.sync.sequence ≤ b.sync.sequence := by
  have hcur := hstay b hread p hp ⟨b', hb', hpair⟩
  refine ⟨hcur, ?_⟩
  rcases h.last hread with ⟨hnil, -⟩ | ⟨l, last, hpast, hsync, -⟩
  · rw [hnil] at hb'; cases hb'
  · have hord := h.ordered x
    rw [hpast] at hb' hord
    rcases List.mem_append.mp hb' with hb' | hb'
    · have hle := (List.pairwise_append.mp hord).2.2 b' hb' last (List.mem_singleton_self _)
      rw [← hsync]
      exact hle (by rw [hpair, hsync, hcur]) (by rw [hpair]; exact pairing_ne_empty hread hp)
    · rw [List.mem_singleton.mp hb', hsync]

theorem fits_local (hstay : NoReturn F cfg s x) (hread : read F (cfg x) (s.store x).docs = .ok b) {sync : SyncState H}
    (hver : b.localVersion F (cfg x) config = .ok sync) : Fits F cfg s x ⟨config, sync, b.scope⟩ := by
  obtain ⟨hseq, hsource, hhash, hpair⟩ := localVersion_ok hver
  -- the new sequence is above every one stored in its pairing
  have hbelow : ∀ b' ∈ s.past x, b'.sync.pairingId = sync.pairingId → b'.sync.pairingId ≠ "" →
      b'.sync.sequence < sync.sequence := by
    intro b' hb' heq hne
    rcases hpair with ⟨hp, -⟩ | hempty
    · have := (h.bound hstay hread hp hb' heq).2
      omega
    · exact absurd (heq.trans hempty) hne
  refine ⟨hhash, .inl hsource, fun hpending hne => ?_, fun b' hb' heq hne => ?_, fun b' hb' hsame _ => ?_⟩
  · rcases hpair with ⟨-, htrue⟩ | hempty
    · rw [htrue] at hpending; cases hpending
    · exact absurd hempty hne
  · exact (hbelow b' hb' heq hne).le
  · exact absurd hsame.2.2.1 (hbelow b' hb' hsame.2.1 hsame.1).ne

theorem fits_received (hnames : ∀ x, (cfg x).nodeName ≠ (cfg x.other).nodeName)
    (hstay : NoReturn F cfg s x) (hread : read F (cfg x) (s.store x).docs = .ok b)
    {snapshot : Snapshot H} {peer : GatewayHaPeer} (hscope : b.scope = .backup snapshot.pairingId peer)
    (hnew : snapshot.pairingId = b.sync.pairingId → b.sync.sequence < snapshot.sequence)
    (hsent : (x.other, snapshot) ∈ s.sent) (hhash : F.contentHash (shared config) = snapshot.contentHash) :
    Fits F cfg s x ⟨config, snapshot.cursor, b.scope⟩ := by
  obtain ⟨hsource, hstored⟩ := h.sent _ hsent
  have hp : b.scope.pairing? = some snapshot.pairingId := by rw [hscope]; rfl
  refine ⟨hhash.symm, .inr ⟨hsource, hstored⟩, fun _ _ => hstored, fun b' hb' heq hne => ?_, fun b' hb' hsame hown => ?_⟩
  · obtain ⟨hcur, hle⟩ := h.bound hstay hread hp hb' heq
    exact hle.trans (hnew hcur.symm).le
  · exact absurd (hown.symm.trans (hsame.2.2.2.trans hsource)) (hnames x)

theorem fits_recorded (hstay : NoReturn F cfg s x) (hread : read F (cfg x) (s.store x).docs = .ok b)
    {snapshot : Snapshot H} {peer : GatewayHaPeer} (hscope : b.scope = .master snapshot.pairingId peer)
    (hseq : b.sync.sequence = snapshot.sequence) (hsource : b.sync.source = snapshot.source)
    (hhash : b.sync.contentHash = snapshot.contentHash) (hsent : (x, snapshot) ∈ s.sent) {error : Option String}
    (hack : error = none → StoredAt s x.other snapshot.receipt) :
    Fits F cfg s x { b with sync := b.sync.recorded error } := by
  obtain ⟨-, b₀, hb₀, hversion⟩ := h.sent _ hsent
  have hp : b.scope.pairing? = some snapshot.pairingId := by rw [hscope]; rfl
  have hpair₀ : b₀.sync.pairingId = snapshot.pairingId := congrArg Receipt.pairingId hversion
  -- the snapshot's pairing is the cursor's, since it has been stored there
  have hcur := (h.bound hstay hread hp hb₀ hpair₀).1
  obtain ⟨last, hmem, hlast, hconfig⟩ := h.stored hread (hcur ▸ pairing_ne_empty hread hp)
  have hv : (b.sync.recorded error).version = snapshot.receipt := by
    simp only [SyncState.version, SyncState.recorded, Snapshot.receipt, hseq, hsource, hhash, hcur]
  refine ⟨?_, ?_, fun hpending _ => ?_, fun b' hb' heq hne => ?_, fun b' hb' hsame hown => ?_⟩
  · show b.sync.contentHash = F.contentHash (shared b.config)
    rw [← hlast, ← hconfig]
    exact h.digest x last hmem
  · show b.sync.source = _ ∨ b.sync.source = _ ∧ StoredAt s x.other (b.sync.recorded error).version
    rw [← hlast]
    exact h.source x last hmem
  · cases error with
    | none => rw [hv]; exact hack rfl
    | some e => cases hpending
  · exact (h.bound hstay hread hp hb' (heq.trans hcur)).2
  · show b'.sync.contentHash = b.sync.contentHash
    rw [← hlast]
    refine h.unique x b' hb' last hmem ⟨hsame.1, ?_, ?_, ?_⟩ hown
    · rw [hlast]; exact hsame.2.1
    · rw [hlast]; exact hsame.2.2.1
    · rw [hlast]; exact hsame.2.2.2

/-- Writing the HA documents leaves what is stored. -/
theorem setStore_inv
    (hkeep : ∀ k ∈ [Key.listeners, .targetGroups, .proxyReplication], st.docs k = (s.store x).docs k)
    (hpeers : ∀ ha, decodeDoc F.ha (st.docs .ha) = .ok (some ha) →
      ∀ peer ∈ ha.peers, peer.name = (cfg x.other).nodeName) : PairInv F cfg (s.setStore x st) where
  peers y ha hdoc := by
    rw [setStore_store] at hdoc
    split at hdoc
    · next hyx => subst hyx; exact hpeers ha hdoc
    · exact h.peers y ha hdoc
  current y sync config hsync hconfig := by
    rw [setStore_store] at hsync hconfig
    split at hsync
    · next hyx =>
      subst hyx
      rw [if_pos rfl] at hconfig
      simp only [readSync, readConfig, hkeep .listeners (by simp), hkeep .targetGroups (by simp),
        hkeep .proxyReplication (by simp)] at hsync hconfig
      exact h.current y sync config hsync hconfig
    · next hyx =>
      rw [if_neg hyx] at hconfig
      exact h.current y sync config hsync hconfig
  digest := h.digest
  source := h.source
  acked := h.acked
  ordered := h.ordered
  unique := h.unique
  sent := h.sent
  receipts := h.receipts

end

/-! ## Agreement -/

/-- Every stored state of a version has a twin at the gateway that numbered it. -/
theorem PairInv.origin (h : PairInv F cfg s) (hb : b ∈ s.past x) :
    ∃ z, ∃ b' ∈ s.past z, b'.sync.version = b.sync.version ∧ b'.sync.source = (cfg z).nodeName := by
  rcases h.source x b hb with hown | ⟨hother, b', hb', hversion⟩
  · exact ⟨x, b, hb, rfl, hown⟩
  · exact ⟨x.other, b', hb', hversion, (congrArg Receipt.source hversion).trans hother⟩

theorem PairInv.same_content (h : PairInv F cfg s) (hinj : Function.Injective F.contentHash)
    (hnames : ∀ x, (cfg x).nodeName ≠ (cfg x.other).nodeName) {x y : Node} {b b' : Bundle H} (hb : b ∈ s.past x)
    (hb' : b' ∈ s.past y) (hsame : b.sync.sameVersion b'.sync) : shared b.config = shared b'.config := by
  obtain ⟨z, c, hc, hversion, hsource⟩ := h.origin hb
  obtain ⟨z', c', hc', hversion', hsource'⟩ := h.origin hb'
  have hfield {α : Type} (f : Receipt H → α) : f c.sync.version = f b.sync.version := congrArg f hversion
  have hfield' {α : Type} (f : Receipt H → α) : f c'.sync.version = f b'.sync.version := congrArg f hversion'
  have hsources : c.sync.source = c'.sync.source := by
    rw [show c.sync.source = b.sync.source from hfield Receipt.source,
      show c'.sync.source = b'.sync.source from hfield' Receipt.source, hsame.2.2.2]
  -- one source, so one gateway numbered both
  have hz : z = z' := by
    rcases Node.eq_or_other z z' with rfl | rfl
    · rfl
    · exact absurd (hsource.symm.trans (hsources.trans hsource')) (hnames z)
  subst hz
  have hsame' : c.sync.sameVersion c'.sync := by
    refine ⟨?_, ?_, ?_, hsources⟩
    · rw [show c.sync.pairingId = b.sync.pairingId from hfield Receipt.pairingId]; exact hsame.1
    · rw [show c.sync.pairingId = b.sync.pairingId from hfield Receipt.pairingId,
        show c'.sync.pairingId = b'.sync.pairingId from hfield' Receipt.pairingId, hsame.2.1]
    · rw [show c.sync.sequence = b.sync.sequence from hfield Receipt.sequence,
        show c'.sync.sequence = b'.sync.sequence from hfield' Receipt.sequence, hsame.2.2.1]
  have hhash := h.unique z c hc c' hc' hsame' hsource
  rw [show c.sync.contentHash = b.sync.contentHash from hfield Receipt.contentHash,
    show c'.sync.contentHash = b'.sync.contentHash from hfield' Receipt.contentHash, h.digest x b hb,
    h.digest y b' hb'] at hhash
  exact hinj hhash

theorem PairInv.acknowledged (h : PairInv F cfg s) (hread : read F (cfg x) (s.store x).docs = .ok b)
    (hpending : b.sync.pending = false) (hpair : b.sync.pairingId ≠ "") :
    ∃ b' ∈ s.past x.other, b'.sync.version = b.sync.version ∧
      F.contentHash (shared b'.config) = b.sync.contentHash := by
  obtain ⟨last, hmem, hlast, -⟩ := h.stored hread hpair
  rw [← hlast] at hpending hpair ⊢
  obtain ⟨b', hb', hversion⟩ := h.acked x last hmem hpending hpair
  refine ⟨b', hb', hversion, ?_⟩
  rw [← h.digest x.other b' hb']
  exact congrArg Receipt.contentHash hversion

end

/-! ## Steps -/

inductive PairEv (P H : Type)
  | mutate (x : Node) (update : Update Unit) (revision : Int) (now : String)
  | outgoing (x : Node) (revision : Int) (now : String)
  | receive (x : Node) (s : Snapshot H) (revision : Int) (now : String)
  | record (x : Node) (s : Snapshot H) (error : Option String) (revision : Int) (now : String)
  | ha (x : Node) (value : GatewayHaRuntimeConfig) (revision : Int) (now : String)
  | secret (x : Node) (value : Option GatewayHaPeerSecrets) (revision : Int) (now : String)
  | active (x : Node) (payload : P) (revision : Int) (now : String)

def PairEv.node {P H : Type} : PairEv P H → Node
  | .mutate x _ _ _ | .outgoing x _ _ | .receive x _ _ _ | .record x _ _ _ _ | .ha x _ _ _ | .secret x _ _ _
  | .active x _ _ _ => x

section steps

variable {P H : Type} [DecidableEq P] [DecidableEq H] (F : Format P H) (cfg : Node → FileConfig)

def Pair.write (s : Pair P H) (x : Node) (w : RawWrite Key P) (revision : Int) (now : String) : Pair P H :=
  match (s.store x).apply w revision now with
  | .ok st => s.setStore x st
  | .error _ => s

def Pair.round (s : Pair P H) (x : Node) (call : Call H Unit) (revision : Int) (now : String) :
    Round Key P (Reply H Unit) :=
  (call.loop F).round KEYS [] (s.store x) revision now

/-- The receipt in a reply that accepts a snapshot. -/
def Reply.receipts {T : Type} (x : Node) : Option (Reply H T) → List (Node × Receipt H)
  | some (.receive (.ok (r, _))) => [(x, r)]
  | _ => []

def Reply.snapshots {T : Type} (x : Node) : Reply H T → List (Node × Snapshot H)
  | .outgoing (.ok (some (_, snapshot, _))) => [(x, snapshot)]
  | _ => []

/-- A delivery of `s` succeeded at the peer of `x`. -/
def Pair.acknowledged (s : Pair P H) (x : Node) (snapshot : Snapshot H) : Prop :=
  (x.other, snapshot.receipt) ∈ s.receipts

instance (s : Pair P H) (x : Node) (snapshot : Snapshot H) : Decidable (s.acknowledged x snapshot) :=
  inferInstanceAs (Decidable (_ ∈ _))

def stepPair (s : Pair P H) : PairEv P H → Pair P H
  | .mutate x update revision now =>
    match s.round F x (.mutate (cfg x) update) revision now with
    | .committed st _ => s.commit F cfg x st
    | _ => s
  | .outgoing x revision now =>
    match s.round F x (.outgoing (cfg x)) revision now with
    | .committed st _ => s.commit F cfg x st
    | .ended r => { s with sent := s.sent ++ r.snapshots x }
    | .refused => s
  | .receive x snapshot revision now =>
    if (x.other, snapshot) ∈ s.sent then
      match s.round F x (.receive (cfg x) snapshot) revision now with
      | .committed st after =>
        { s.commit F cfg x st with receipts := s.receipts ++ Reply.receipts x after }
      | .ended r => { s with receipts := s.receipts ++ Reply.receipts x (some r) }
      | .refused => s
    else s
  | .record x snapshot error revision now =>
    if (x, snapshot) ∈ s.sent ∧ (error = none → s.acknowledged x snapshot) then
      match s.round F x (.record (cfg x) snapshot error) revision now with
      | .committed st _ => s.commit F cfg x st
      | _ => s
    else s
  | .ha x value revision now =>
    if ∀ peer ∈ value.peers, peer.name = (cfg x.other).nodeName then
      s.write x (.put .ha (F.ha.encode value)) revision now
    else s
  | .secret x value revision now =>
    match value with
    | some v => s.write x (.put .haPeerSecret (F.secret.encode v)) revision now
    | none => s.write x (.delete .haPeerSecret) revision now
  | .active x payload revision now => s.write x (.put .haActiveGateway payload) revision now

variable {s : Pair P H}

theorem round_eq_committed {x : Node} {call : Call H Unit} {revision : Int} {now : String}
    {st : DocStore Key P} {after : Option (Reply H Unit)} (h : s.round F x call revision now = .committed st after) :
    ∃ writes, (call.loop F).plan [] (s.store x).docs = .commit writes after ∧
      st.docs = (s.store x).docs.written writes revision now :=
  round_committed mem_KEYS h

variable {F cfg}

/-- Nothing stored, sent or answered yet, and each gateway's peer is the other. -/
structure Start (F : Format P H) (cfg : Node → FileConfig) (s : Pair P H) : Prop where
  noCursor : ∀ x, (s.store x).docs .proxyReplication = none
  past : ∀ x, s.past x = []
  sent : s.sent = []
  receipts : s.receipts = []
  peers : ∀ x ha, decodeDoc F.ha ((s.store x).docs .ha) = .ok (some ha) →
    ∀ peer ∈ ha.peers, peer.name = (cfg x.other).nodeName

omit [DecidableEq P] [DecidableEq H] in
theorem start_inv (h : Start F cfg s) : PairInv F cfg s where
  peers := h.peers
  current x sync config hsync _ := by
    simp only [readSync, h.noCursor x] at hsync
    cases hsync
    exact .inl ⟨h.past x, rfl⟩
  digest x b hb := by rw [h.past x] at hb; cases hb
  source x b hb := by rw [h.past x] at hb; cases hb
  acked x b hb := by rw [h.past x] at hb; cases hb
  ordered x := by rw [h.past x]; exact .nil
  unique x b hb := by rw [h.past x] at hb; cases hb
  sent m hm := by rw [h.sent] at hm; cases hm
  receipts m hm := by rw [h.receipts] at hm; cases hm

section

variable (h : PairInv F cfg s) {x : Node}
include h

omit [DecidableEq H] in
/-- A write of one document that holds neither the configuration nor the cursor. -/
theorem write_inv {w : RawWrite Key P} {revision : Int} {now : String}
    {key : Key} {doc : Option (StoredDocument P)} (hkey : key ∉ [Key.listeners, .targetGroups, .proxyReplication])
    (hw : ∀ st, (s.store x).apply w revision now = .ok st → st.docs = (s.store x).docs.set key doc)
    (hpeers : ∀ ha, decodeDoc F.ha ((s.store x).docs.set key doc .ha) = .ok (some ha) →
      ∀ peer ∈ ha.peers, peer.name = (cfg x.other).nodeName) : PairInv F cfg (s.write x w revision now) := by
  unfold Pair.write
  split
  · next st hst =>
    refine setStore_inv h (fun k hk => ?_) fun ha hdoc => ?_
    · rw [hw st hst]
      refine set_of_ne _ (fun heq => hkey ?_) _
      rwa [heq] at hk
    · rw [hw st hst] at hdoc
      exact hpeers ha hdoc
  · exact h

omit [DecidableEq P] in
/-- A snapshot handed out describes what its sender has stored. -/
theorem sent_stored {r : Reply H Unit} (hplan : outgoingPlan F (cfg x) (s.store x).docs = .done r) :
    ∀ m ∈ r.snapshots x, m.2.source = (cfg m.1).nodeName ∧ StoredAt s m.1 m.2.receipt := by
  intro m hm
  unfold Reply.snapshots at hm
  split at hm
  · next peer snapshot pending =>
    obtain ⟨b, p, peer', hread, hscope, hsource, hpair, hhash, rfl⟩ := outgoingPlan_done hplan
    rw [List.mem_singleton.mp hm]
    have hne : b.sync.pairingId ≠ "" := hpair ▸ pairing_ne_empty hread (by rw [hscope]; rfl)
    obtain ⟨last, hmem, hlast, -⟩ := h.stored hread hne
    exact ⟨hsource, last, hmem, by rw [hlast]; rfl⟩
  · cases hm

omit [DecidableEq P] in
/-- A receipt answered without a commit is for what is stored. -/
theorem received_stored {snapshot : Snapshot H} {r : Reply H Unit}
    (hplan : receivePlan F (cfg x) snapshot (s.store x).docs = .done r) :
    ∀ m ∈ Reply.receipts x (some r), StoredAt s m.1 m.2 := by
  intro m hm
  unfold Reply.receipts at hm
  split at hm
  · next receipt changed heq =>
    cases heq
    obtain ⟨b, peer, hread, hscope, hp, hversion⟩ := receivePlan_done hplan
    rw [List.mem_singleton.mp hm]
    have hne : b.sync.pairingId ≠ "" := hp ▸ pairing_ne_empty hread (by rw [hscope]; rfl)
    obtain ⟨last, hmem, hlast, -⟩ := h.stored hread hne
    exact ⟨last, hmem, by rw [hlast, hversion]⟩
  · cases hm

end

section step

variable {s : Pair P H} (h : PairInv F cfg s) {x : Node} (hstay : NoReturn F cfg s x)
include h hstay

theorem mutate_inv (update : Update Unit) (revision : Int) (now : String) :
    PairInv F cfg (stepPair F cfg s (.mutate x update revision now)) := by
  delta stepPair
  dsimp only
  split
  · next st after hround =>
    obtain ⟨writes, hplan, hdocs⟩ := round_eq_committed F hround
    obtain ⟨b, state, result, sync, hread, -, -, hver, rfl, -⟩ := mutatePlan_commit hplan
    exact commit_inv h (by rw [hdocs]; exact read_written hread ..) (by rw [hdocs]; rfl) (fits_local h hstay hread hver)
  · exact h

theorem outgoing_inv (revision : Int) (now : String) : PairInv F cfg (stepPair F cfg s (.outgoing x revision now)) := by
  delta stepPair
  dsimp only
  split
  · next st after hround =>
    obtain ⟨writes, hplan, hdocs⟩ := round_eq_committed F hround
    obtain ⟨b, sync, p, peer, hread, -, hver, rfl⟩ := outgoingPlan_commit hplan
    exact commit_inv h (by rw [hdocs]; exact read_written_cursor hread ..) (by rw [hdocs]; rfl)
      (fits_local h hstay hread hver)
  · next r hround =>
    refine { h with sent := fun m hm => ?_ }
    rcases List.mem_append.mp hm with hm | hm
    · exact h.sent m hm
    · rcases round_ended hround with hplan | ⟨e, rfl⟩
      · exact sent_stored h hplan m hm
      · cases hm
  · exact h

/-- Only what the peer sent is received. -/
theorem receive_inv (hnames : ∀ x, (cfg x).nodeName ≠ (cfg x.other).nodeName) (snapshot : Snapshot H) (revision : Int)
    (now : String) : PairInv F cfg (stepPair F cfg s (.receive x snapshot revision now)) := by
  delta stepPair
  dsimp only
  split
  · next hsent =>
    split
    · next st after hround =>
      obtain ⟨writes, hplan, hdocs⟩ := round_eq_committed F hround
      obtain ⟨b, peer, business, hread, hscope, -, hnew, rfl, hhash, -, -, changed, rfl⟩ := receivePlan_commit hplan
      have hread' : read F (cfg x) st.docs =
          .ok ⟨if business then snapshot.config else b.config, snapshot.cursor, b.scope⟩ := by
        rw [hdocs]
        cases business with
        | true => exact read_written hread ..
        | false => exact read_written_cursor hread ..
      have hinv := commit_inv h hread' (by rw [hdocs]; rfl) (fits_received h hnames hstay hread hscope hnew hsent hhash)
      refine { hinv with receipts := fun m hm => ?_ }
      rcases List.mem_append.mp hm with hm | hm
      · exact hinv.receipts m hm
      · rw [List.mem_singleton.mp hm]
        exact ⟨_, commit_mem hread', rfl⟩
    · next r hround =>
      refine { h with receipts := fun m hm => ?_ }
      rcases List.mem_append.mp hm with hm | hm
      · exact h.receipts m hm
      · rcases round_ended hround with hplan | ⟨e, rfl⟩
        · exact received_stored h hplan m hm
        · cases hm
    · exact h
  · exact h

/-- Only what was sent is recorded, and as delivered only what the peer answered. -/
theorem record_inv (snapshot : Snapshot H) (error : Option String) (revision : Int) (now : String) :
    PairInv F cfg (stepPair F cfg s (.record x snapshot error revision now)) := by
  delta stepPair
  dsimp only
  split
  · next hguard =>
    split
    · next st after hround =>
      obtain ⟨writes, hplan, hdocs⟩ := round_eq_committed F hround
      obtain ⟨b, peer, hread, hscope, hseq, hsource, hhash, rfl⟩ := recordPlan_commit hplan
      refine commit_inv h (by rw [hdocs]; exact read_written_cursor hread ..) (by rw [hdocs]; rfl) ?_
      exact fits_recorded h hstay hread hscope hseq hsource hhash hguard.1 fun he => h.receipts _ (hguard.2 he)
    · exact h
  · exact h

end step

theorem stepPair_inv (hnames : ∀ x, (cfg x).nodeName ≠ (cfg x.other).nodeName) (h : PairInv F cfg s)
    (e : PairEv P H) (hstay : NoReturn F cfg s e.node) : PairInv F cfg (stepPair F cfg s e) := by
  cases e with
  | mutate x update revision now => exact mutate_inv h hstay update revision now
  | outgoing x revision now => exact outgoing_inv h hstay revision now
  | receive x snapshot revision now => exact receive_inv h hstay hnames snapshot revision now
  | record x snapshot error revision now => exact record_inv h hstay snapshot error revision now
  | ha x value revision now =>
    simp only [stepPair]
    split
    · next hvalue =>
      refine write_inv h (by decide) (fun _ => apply_put) fun ha hdoc => ?_
      have hdoc' : decodeDoc F.ha (some ⟨F.ha.encode value, revision, now⟩) = .ok (some ha) := hdoc
      rw [decodeDoc_encode] at hdoc'
      obtain rfl := Option.some.inj (Except.ok.inj hdoc')
      exact hvalue
    · exact h
  | secret x value revision now =>
    cases value with
    | some v => exact write_inv h (by decide) (fun _ => apply_put) fun ha hdoc => h.peers x ha hdoc
    | none => exact write_inv h (by decide) (fun _ => apply_delete) fun ha hdoc => h.peers x ha hdoc
  | active x payload revision now => exact write_inv h (by decide) (fun _ => apply_put) fun ha hdoc => h.peers x ha hdoc

theorem replication_agrees (hinj : Function.Injective F.contentHash)
    (hnames : ∀ x, (cfg x).nodeName ≠ (cfg x.other).nodeName) {s : Pair P H} (hstart : Start F cfg s)
    {es : List (PairEv P H)} (hstays : StepsMeet (stepPair F cfg) (fun s e => NoReturn F cfg s e.node) s es) :
    let t := run (stepPair F cfg) s es
    (∀ x b, read F (cfg x) (t.store x).docs = .ok b → b.sync.pending = false → b.sync.pairingId ≠ "" →
      ∃ b' ∈ t.past x.other, b'.sync.version = b.sync.version ∧
        F.contentHash (shared b'.config) = b.sync.contentHash) ∧
      (∀ x, (t.past x).Pairwise fun b b' => b.sync.NotBefore b'.sync) ∧
      ∀ x y, ∀ b ∈ t.past x, ∀ b' ∈ t.past y, b.sync.sameVersion b'.sync → shared b.config = shared b'.config := by
  intro t
  have h : PairInv F cfg t :=
    inv_run (stepPair F cfg) (I := PairInv F cfg) (fun _ e hs he => stepPair_inv hnames hs e he) (start_inv hstart)
      hstays
  exact ⟨fun x b hread hpending hpair => h.acknowledged hread hpending hpair, h.ordered,
    fun x y b hb b' hb' hsame => h.same_content hinj hnames hb hb' hsame⟩

/-- Nothing is made up on the way: what is sent its sender has stored, what is acknowledged was
    stored where it was answered, and what is stored was numbered and stored by one of the two. -/
theorem replicas_have_origin (hnames : ∀ x, (cfg x).nodeName ≠ (cfg x.other).nodeName) {s : Pair P H}
    (hstart : Start F cfg s) {es : List (PairEv P H)}
    (hstays : StepsMeet (stepPair F cfg) (fun s e => NoReturn F cfg s e.node) s es) :
    let t := run (stepPair F cfg) s es
    (∀ m ∈ t.sent, m.2.source = (cfg m.1).nodeName ∧ StoredAt t m.1 m.2.receipt) ∧
      (∀ m ∈ t.receipts, StoredAt t m.1 m.2) ∧
      ∀ x, ∀ b ∈ t.past x, b.sync.contentHash = F.contentHash (shared b.config) ∧
        ∃ z, (cfg z).nodeName = b.sync.source ∧ StoredAt t z b.sync.version := by
  intro t
  have h : PairInv F cfg t :=
    inv_run (stepPair F cfg) (I := PairInv F cfg) (fun _ e hs he => stepPair_inv hnames hs e he) (start_inv hstart)
      hstays
  refine ⟨h.sent, h.receipts, fun x b hb => ⟨h.digest x b hb, ?_⟩⟩
  obtain ⟨z, b', hb', hversion, hsource⟩ := h.origin hb
  exact ⟨z, hsource.symm.trans (congrArg Receipt.source hversion), b', hb', hversion⟩

end steps

/-! ## Runs that come back

Gateways `a` and `b`. In the first run `a` serves alone and is then made MASTER of a pair;
in the second it leaves the pairing, edits its configuration alone, comes back and is handed
an old snapshot; in the third it comes back as MASTER and numbers a version again. -/

section runs

instance (s t : SyncState (Option ProxyConfig)) : Decidable (s.NotBefore t) :=
  inferInstanceAs (Decidable (_ → _ → _))

instance (s t : SyncState (Option ProxyConfig)) : Decidable (s.sameVersion t) :=
  inferInstanceAs (Decidable (_ ∧ _ ∧ _ ∧ _))

abbrev PlainEv := PairEv Payload (Option ProxyConfig)

def gatewayCfg : Node → FileConfig
  | .a => { nodeRole := .gateway, nodeName := "a", underlayIp := .v4 0xc0000201,
            network := { underlayDev := "eth0", vxlanDev := "vx0" } }
  | .b => { nodeRole := .gateway, nodeName := "b", underlayIp := .v4 0xc0000202,
            network := { underlayDev := "eth0", vxlanDev := "vx0" } }

def peerOf : Node → GatewayHaPeer
  | .a => { name := "b", underlayIp := "192.0.2.2" }
  | .b => { name := "a", underlayIp := "192.0.2.1" }

/-- Nothing stored anywhere. -/
def blankPair : Pair Payload (Option ProxyConfig) :=
  { store := fun _ => emptyStore, past := fun _ => [], sent := [], receipts := [] }

/-- Pair `x` under `pairing`, with `active` selected. -/
def pairUp (x : Node) (pairing active : String) (revision : Int) : List PlainEv :=
  [.ha x { enabled := true, peers := [peerOf x] } revision "t",
    .secret x (some { peerName := (peerOf x).name, peerUnderlayIp := (peerOf x).underlayIp, sessionToken := "token",
                      sessionTokenId := pairing }) (revision + 1) "t",
    .active x (.text active) (revision + 2) "t"]

def withGroups (names : List String) : ProxyConfig := { targetGroups := names.map fun name => { name } }

def snapshotOf (source pairing : String) (sequence : Nat) (names : List String) : Snapshot (Option ProxyConfig) :=
  { sequence, source, pairingId := pairing, contentHash := some (withGroups names), config := withGroups names }

def aloneThenMaster : List PlainEv := [.mutate .a (addGroup "web") 1 "t"] ++ pairUp .a "P" "a" 2

def leavesAndComesBack : List PlainEv :=
  pairUp .b "P" "b" 1 ++
    [.outgoing .b 4 "t", .outgoing .b 5 "t", .mutate .b (addGroup "web") 6 "t", .outgoing .b 7 "t"] ++
    pairUp .a "P" "b" 1 ++
    [.receive .a (snapshotOf "b" "P" 2 ["web"]) 4 "t", .ha .a {} 5 "t", .mutate .a (addGroup "sip") 6 "t"] ++
    pairUp .a "P" "b" 7 ++ [.receive .a (snapshotOf "b" "P" 1 []) 10 "t"]

def numbersAgain : List PlainEv :=
  pairUp .a "P" "a" 1 ++ [.mutate .a (addGroup "web") 4 "t", .mutate .a (addGroup "sip") 5 "t"] ++
    pairUp .b "Q" "b" 1 ++ [.outgoing .b 4 "t", .outgoing .b 5 "t"] ++
    pairUp .a "Q" "b" 6 ++ [.receive .a (snapshotOf "b" "Q" 1 []) 9 "t"] ++
    pairUp .a "P" "a" 10 ++ [.mutate .a (addGroup "dns") 13 "t"]

def runPlain (es : List PlainEv) : Pair Payload (Option ProxyConfig) := run (stepPair plainFormat gatewayCfg) blankPair es

theorem returning_replica_goes_back :
    -- a cursor that is not pending, at the MASTER, of a version the peer never stored
    ((read plainFormat (gatewayCfg .a) ((runPlain aloneThenMaster).store .a).docs).map
        (fun b => (b.scope, b.sync.pending, b.sync.version)) =
        .ok (.master "P" (peerOf .a), false, (snapshotOf "a" "" 1 ["web"]).receipt) ∧
      (runPlain aloneThenMaster).past .b = []) ∧
    -- a stored sequence that goes down within the pairing P
    (((runPlain leavesAndComesBack).past .a).map (fun b => (b.sync.pairingId, b.sync.sequence)) =
        [("P", 2), ("", 3), ("P", 1)] ∧
      ¬ ((runPlain leavesAndComesBack).past .a).Pairwise fun b b' => b.sync.NotBefore b'.sync) ∧
    -- two states of the version 2 of gateway a in the pairing P
    ∃ b ∈ (runPlain numbersAgain).past .a, ∃ b' ∈ (runPlain numbersAgain).past .a,
      b.sync.sameVersion b'.sync ∧ shared b.config ≠ shared b'.config := by
  decide

instance (s : Pair Payload (Option ProxyConfig)) (x : Node) : Decidable (NoReturn plainFormat gatewayCfg s x) :=
  match h : read plainFormat (gatewayCfg x) (s.store x).docs with
  | .error _ => .isTrue fun b hb => by rw [h] at hb; cases hb
  | .ok b => decidable_of_iff (∀ p ∈ b.scope.pairing?, (∃ b' ∈ s.past x, b'.sync.pairingId = p) → b.sync.pairingId = p) (by
      constructor
      · intro hall b' hb' p hp
        rw [h] at hb'
        obtain rfl := Except.ok.inj hb'
        exact hall p hp
      · exact fun hall p hp => hall b h p hp)

/-- `b` edits its configuration, sends it, and hears that it arrived. -/
def delivered : List PlainEv :=
  pairUp .b "P" "b" 1 ++ pairUp .a "P" "b" 1 ++
    [.mutate .b (addGroup "web") 4 "t", .outgoing .b 5 "t", .receive .a (snapshotOf "b" "P" 1 ["web"]) 4 "t",
      .record .b (snapshotOf "b" "P" 1 ["web"]) none 6 "t"]

theorem delivered_version_stored_at_peer :
    (read plainFormat (gatewayCfg .b) ((runPlain delivered).store .b).docs).map (fun b => b.sync.pending) = .ok false ∧
      ∃ b' ∈ (runPlain delivered).past .a, b'.sync.version = (snapshotOf "b" "P" 1 ["web"]).receipt ∧
        plainFormat.contentHash (shared b'.config) = some (withGroups ["web"]) := by
  refine ⟨by decide, ?_⟩
  have hinj : Function.Injective plainFormat.contentHash := Option.some_injective _
  have hnames : ∀ x, (gatewayCfg x).nodeName ≠ (gatewayCfg x.other).nodeName := by intro x; cases x <;> decide
  have hstart : Start plainFormat gatewayCfg blankPair :=
    ⟨fun _ => rfl, fun _ => rfl, rfl, rfl, fun _ _ hdoc => by cases hdoc⟩
  have hstays : StepsMeet (stepPair plainFormat gatewayCfg) (fun s e => NoReturn plainFormat gatewayCfg s e.node)
      blankPair delivered := by decide
  exact (replication_agrees hinj hnames hstart hstays).1 .b
    ⟨withGroups ["web"], (snapshotOf "b" "P" 1 ["web"]).cursor, .master "P" (peerOf .b)⟩ (by decide) rfl (by decide)

theorem delivered_receipts_stored : let t := runPlain delivered
    t.receipts ≠ [] ∧ ∀ m ∈ t.receipts, StoredAt t m.1 m.2 := by
  have hnames : ∀ x, (gatewayCfg x).nodeName ≠ (gatewayCfg x.other).nodeName := by intro x; cases x <;> decide
  have hstart : Start plainFormat gatewayCfg blankPair :=
    ⟨fun _ => rfl, fun _ => rfl, rfl, rfl, fun _ _ hdoc => by cases hdoc⟩
  exact ⟨by decide, (replicas_have_origin hnames hstart (by decide)).2.1⟩

end runs

end EdgeLb.Storage
