/-
  EdgeLb.Control.Streams — the control streams that feed the registry
  (`edge-lb/src/control/gateway.rs`, `watch`).

  A stream's first message enters its backend under a fresh stream id; every later message is
  a heartbeat under that id, and the end of the stream removes the backend under it. The
  registry compares the id a call carries with the one it stored, so a stream that a newer
  one of the same backend replaced can do nothing any more.

  Whoever looks at the registry first drops the subscriptions it has not heard of for 30
  seconds, and a dropped backend is not entered again by its stream: a heartbeat looks the
  subscription up and finds none. A merge drops the nodes that share a gateway's underlay
  address, and no later merge brings them back while the stream stays open.

  `Streams` carries along the newest open stream of each backend and the gateways of the last
  merge. Proved, over every interleaving of calls with any stream ids at any times: the guards
  hold, the tables agree and every heartbeat of a newest open stream finds its backend
  registered, exactly if nobody looks while a subscription is overdue and no merge gives up
  the address of a backend it left without a node (`streams_sound_iff`). The handlers of
  `watch` make no other calls (`watching_follows`).
-/

import EdgeLb.Control.Registry

namespace EdgeLb.Control

open EdgeLb.Config EdgeLb.Lib

/-! ## Calls and the streams behind them -/

structure Streams where
  registry : BackendRegistry := {}
  /-- The newest stream of each backend, while it is open. -/
  opened : SortedMap String String := .empty
  /-- The gateways of the configuration last merged into. -/
  gateways : List IpAddr := []

/-- A newer stream takes the older one's place; the end of an older one changes nothing. -/
def newestStreams (opened : SortedMap String String) : RegistryEv → SortedMap String String
  | .upsert req _ streamId _ => if (parseIp req.underlayIp).isSome then opened.insert req.nodeName streamId else opened
  | .remove nodeName streamId => if opened.get? nodeName = some streamId then opened.erase nodeName else opened
  | _ => opened

def mergedGateways (gateways : List IpAddr) : RegistryEv → List IpAddr
  | .merge _ file => gatewayUnderlays file
  | _ => gateways

def stepStreams (s : Streams) (e : RegistryEv) : Streams where
  registry := stepRegistry s.registry e
  opened := newestStreams s.opened e
  gateways := mergedGateways s.gateways e

/-- Entered by this stream: as a subscription and, unless it stands in a gateway's place, as a
    node. -/
def Streams.Registered (s : Streams) (name id : String) : Prop :=
  ∃ sub, (name, sub) ∈ s.registry.subscriptions.entries ∧ sub.streamId = id ∧
    (name ∈ s.registry.nodes.keys ∨ sub.underlayIp ∈ s.gateways)

structure Streams.Sound (s : Streams) : Prop where
  superseded : ∀ name id, (name, id) ∉ s.opened.entries →
    (∀ req now, touch name id req now s.registry = s.registry) ∧ remove name id s.registry = s.registry
  subscribed : ∀ name ∈ s.registry.nodes.keys, name ∈ s.registry.subscriptions.keys
  listed : ∀ name sub, (name, sub) ∈ s.registry.subscriptions.entries →
    name ∈ s.registry.nodes.keys ∨ sub.underlayIp ∈ s.gateways
  heard : ∀ name id, (name, id) ∈ s.opened.entries → ∀ req now,
    (stepStreams s (.touch name id req now)).Registered name id

/-- Nobody is overdue. -/
def BackendRegistry.Fresh (reg : BackendRegistry) (now : Nat) : Prop :=
  ∀ e ∈ reg.subscriptions.entries, alive now DEFAULT_ACTIVE_SUBSCRIPTION_TTL_SECS e.2 = true

/-- The registry is looked at while nobody is overdue, and the configuration merged into still
    has a gateway at the address of every backend left without a node. -/
def Timely (s : Streams) : RegistryEv → Prop
  | .prune now => s.registry.Fresh now
  | .merge now file => s.registry.Fresh now ∧
      ∀ e ∈ s.registry.subscriptions.entries, e.1 ∉ s.registry.nodes.keys → e.2.underlayIp ∈ gatewayUnderlays file
  | _ => True

instance (reg : BackendRegistry) (now : Nat) : Decidable (reg.Fresh now) :=
  inferInstanceAs (Decidable (∀ e ∈ reg.subscriptions.entries, _))

instance (s : Streams) : ∀ e, Decidable (Timely s e)
  | .upsert .. => .isTrue trivial
  | .touch .. => .isTrue trivial
  | .remove .. => .isTrue trivial
  | .prune now => inferInstanceAs (Decidable (s.registry.Fresh now))
  | .merge now file => inferInstanceAs (Decidable (s.registry.Fresh now ∧ ∀ e ∈ s.registry.subscriptions.entries,
      e.1 ∉ s.registry.nodes.keys → e.2.underlayIp ∈ gatewayUnderlays file))

/-! ## A subscription is its newest stream's -/

structure Streams.Inv (s : Streams) : Prop where
  newest : ∀ name sub, (name, sub) ∈ s.registry.subscriptions.entries → (name, sub.streamId) ∈ s.opened.entries
  keyed : ∀ name node, (name, node) ∈ s.registry.nodes.entries → node.name = name
  backed : ∀ name node, (name, node) ∈ s.registry.nodes.entries →
    ∃ sub, (name, sub) ∈ s.registry.subscriptions.entries ∧ sub.underlayIp = node.underlayIp

/-- The stream has the backend's subscription. -/
def BackendRegistry.Has (reg : BackendRegistry) (name id : String) (sub : ActiveBackendSubscription) : Prop :=
  (name, sub) ∈ reg.subscriptions.entries ∧ sub.streamId = id

theorem touch_cases (nodeName streamId : String) (req : DiscoveryRequest) (now : Nat) (reg : BackendRegistry) :
    ((∀ sub, ¬ reg.Has nodeName streamId sub) ∧ touch nodeName streamId req now reg = reg) ∨
    ∃ sub, reg.Has nodeName streamId sub ∧ touch nodeName streamId req now reg =
      { reg with subscriptions := reg.subscriptions.insert nodeName (touched sub req now) } := by
  unfold touch
  cases hget : reg.subscriptions.get? nodeName with
  | none =>
    refine .inl ⟨fun sub hhas => ?_, rfl⟩
    rw [SortedMap.get?_eq_some.mpr hhas.1] at hget
    cases hget
  | some sub =>
    have hsub := SortedMap.get?_eq_some.mp hget
    dsimp only
    split
    · next hid => exact .inr ⟨sub, ⟨hsub, hid⟩, rfl⟩
    · next hid =>
      refine .inl ⟨fun sub' hhas => hid ?_, rfl⟩
      rw [SortedMap.value_unique hsub hhas.1]
      exact hhas.2

theorem remove_cases (nodeName streamId : String) (reg : BackendRegistry) :
    ((∀ sub, ¬ reg.Has nodeName streamId sub) ∧ remove nodeName streamId reg = reg) ∨
    ∃ sub, reg.Has nodeName streamId sub ∧ remove nodeName streamId reg =
      { subscriptions := reg.subscriptions.erase nodeName, nodes := reg.nodes.erase nodeName } := by
  unfold remove
  cases hget : reg.subscriptions.get? nodeName with
  | none =>
    refine .inl ⟨fun sub hhas => ?_, rfl⟩
    rw [SortedMap.get?_eq_some.mpr hhas.1] at hget
    cases hget
  | some sub =>
    have hsub := SortedMap.get?_eq_some.mp hget
    split
    · next hid => exact .inr ⟨sub, ⟨hsub, of_decide_eq_true hid⟩, rfl⟩
    · next hid =>
      refine .inl ⟨fun sub' hhas => hid ?_, rfl⟩
      rw [SortedMap.value_unique hsub hhas.1]
      exact decide_eq_true hhas.2

section steps

variable {s : Streams}

/-- A backend entered in both tables by its new stream. -/
def Streams.entered (s : Streams) (name : String) (sub : ActiveBackendSubscription) (node : BackendNode) : Streams :=
  { s with
    registry := { subscriptions := s.registry.subscriptions.insert name sub, nodes := s.registry.nodes.insert name node }
    opened := s.opened.insert name sub.streamId }

theorem upsert_cases (s : Streams) (req : DiscoveryRequest) (peer : Option (IpAddr × UInt16)) (streamId : String)
    (now : Nat) :
    stepStreams s (.upsert req peer streamId now) = s ∨
    ∃ sub node, node.name = req.nodeName ∧ sub.underlayIp = node.underlayIp ∧
      stepStreams s (.upsert req peer streamId now) = s.entered req.nodeName sub node := by
  cases hip : parseIp req.underlayIp with
  | none => exact .inl (by simp [stepStreams, stepRegistry, upsert, newestStreams, mergedGateways, hip])
  | some underlayIp =>
    refine .inr ⟨subscription req underlayIp peer streamId now,
      { name := req.nodeName, publicIp := (parseIp req.publicIp).getD (.v4 0), underlayIp,
        overlayIp := ((s.registry.nodes.get? req.nodeName).map (·.overlayIp)).getD "auto" }, rfl, rfl, ?_⟩
    simp [stepStreams, stepRegistry, upsert, newestStreams, mergedGateways, hip, Streams.entered, subscription]

theorem entered_inv (h : s.Inv) {name : String} {sub : ActiveBackendSubscription} {node : BackendNode}
    (hname : node.name = name) (hip : sub.underlayIp = node.underlayIp) : (s.entered name sub node).Inv where
  newest name' sub' hmem := by
    rcases SortedMap.mem_insert.mp hmem with heq | ⟨hmem', hne⟩
    · cases heq
      exact SortedMap.mem_insert.mpr (.inl rfl)
    · exact SortedMap.mem_insert.mpr (.inr ⟨h.newest name' sub' hmem', hne⟩)
  keyed name' node' hmem := by
    rcases SortedMap.mem_insert.mp hmem with heq | ⟨hmem', -⟩
    · cases heq
      exact hname
    · exact h.keyed name' node' hmem'
  backed name' node' hmem := by
    rcases SortedMap.mem_insert.mp hmem with heq | ⟨hmem', hne⟩
    · cases heq
      exact ⟨sub, SortedMap.mem_insert.mpr (.inl rfl), hip⟩
    · obtain ⟨sub', hsub', hip'⟩ := h.backed name' node' hmem'
      exact ⟨sub', SortedMap.mem_insert.mpr (.inr ⟨hsub', hne⟩), hip'⟩

theorem touch_keeps (h : s.Inv) (nodeName streamId : String) (req : DiscoveryRequest) (now : Nat) :
    (stepStreams s (.touch nodeName streamId req now)).Inv := by
  show ({ s with registry := touch nodeName streamId req now s.registry } : Streams).Inv
  rcases touch_cases nodeName streamId req now s.registry with ⟨-, hsame⟩ | ⟨sub, ⟨hsub, -⟩, htouch⟩
  · rwa [hsame]
  rw [htouch]
  refine ⟨fun name sub' hmem => ?_, h.keyed, fun name node hmem => ?_⟩
  · rcases SortedMap.mem_insert.mp hmem with heq | ⟨hmem', -⟩
    · cases heq
      exact h.newest nodeName sub hsub
    · exact h.newest name sub' hmem'
  · obtain ⟨old, hold, hip⟩ := h.backed name node hmem
    by_cases hname : name = nodeName
    · subst hname
      rw [SortedMap.value_unique hold hsub] at hip
      exact ⟨touched sub req now, SortedMap.mem_insert.mpr (.inl rfl), hip⟩
    · exact ⟨old, SortedMap.mem_insert.mpr (.inr ⟨hold, hname⟩), hip⟩

theorem mem_opened_remove {nodeName streamId name id : String} :
    (name, id) ∈ (newestStreams s.opened (.remove nodeName streamId)).entries ↔
      (name, id) ∈ s.opened.entries ∧ (name, id) ≠ (nodeName, streamId) := by
  unfold newestStreams
  dsimp only
  split
  · next hget =>
    rw [SortedMap.mem_erase]
    refine and_congr_right fun hmem => ?_
    constructor
    · rintro hne heq
      cases heq
      exact hne rfl
    · rintro hne rfl
      exact hne (by rw [SortedMap.value_unique hmem (SortedMap.get?_eq_some.mp hget)])
  · next hget =>
    refine ⟨fun hmem => ⟨hmem, ?_⟩, fun h => h.1⟩
    rintro heq
    cases heq
    exact hget (SortedMap.get?_eq_some.mpr hmem)

/-- Ending the newest stream takes the backend out of all three, ending another out of none. -/
theorem remove_keeps (h : s.Inv) (nodeName streamId : String) : (stepStreams s (.remove nodeName streamId)).Inv := by
  show ({ s with registry := remove nodeName streamId s.registry,
                 opened := newestStreams s.opened (.remove nodeName streamId) } : Streams).Inv
  rcases remove_cases nodeName streamId s.registry with ⟨hnone, hsame⟩ | ⟨sub, -, hremove⟩
  · rw [hsame]
    refine ⟨fun name sub hmem => mem_opened_remove.mpr ⟨h.newest name sub hmem, ?_⟩, h.keyed, h.backed⟩
    rintro heq
    cases heq
    exact hnone sub ⟨hmem, rfl⟩
  · rw [hremove]
    refine ⟨fun name sub hmem => mem_opened_remove.mpr ?_, fun name node hmem => ?_, fun name node hmem => ?_⟩
    · obtain ⟨hmem', hne⟩ := SortedMap.mem_erase.mp hmem
      exact ⟨h.newest name sub hmem', fun heq => hne (congrArg Prod.fst heq)⟩
    · exact h.keyed name node (SortedMap.mem_erase.mp hmem).1
    · obtain ⟨hmem', hne⟩ := SortedMap.mem_erase.mp hmem
      obtain ⟨sub, hsub, hip⟩ := h.backed name node hmem'
      exact ⟨sub, SortedMap.mem_erase.mpr ⟨hsub, hne⟩, hip⟩

theorem prune_backed (h : s.Inv) (now : Nat) {name : String} {node : BackendNode}
    (hmem : (name, node) ∈ (pruneActiveSubscriptions now s.registry).nodes.entries) :
    ∃ sub, (name, sub) ∈ (pruneActiveSubscriptions now s.registry).subscriptions.entries ∧
      sub.underlayIp = node.underlayIp := by
  obtain ⟨hmem', halive⟩ := SortedMap.mem_retain.mp hmem
  obtain ⟨sub, hsub, hip⟩ := h.backed name node hmem'
  refine ⟨sub, SortedMap.mem_retain.mpr ⟨hsub, ?_⟩, hip⟩
  have hget : s.registry.subscriptions.get? name = some sub := SortedMap.get?_eq_some.mpr hsub
  rw [hget] at halive
  exact halive

theorem prune_keeps (h : s.Inv) (now : Nat) : (stepStreams s (.prune now)).Inv where
  newest name sub hmem := h.newest name sub (SortedMap.mem_retain.mp hmem).1
  keyed name node hmem := h.keyed name node (SortedMap.mem_retain.mp hmem).1
  backed _ _ hmem := prune_backed h now hmem

theorem merge_keeps (h : s.Inv) {file : FileConfig} (hrole : file.nodeRole = .gateway) (now : Nat) :
    (stepStreams s (.merge now file)).Inv where
  newest name sub hmem := by
    have hmem' : (name, sub) ∈ (pruneActiveSubscriptions now s.registry).subscriptions.entries := by
      rw [← merge_subscriptions now file s.registry]
      exact hmem
    exact h.newest name sub (SortedMap.mem_retain.mp hmem').1
  keyed name node hmem := (mem_merge_nodes hrole h.keyed hmem).1
  backed name node hmem := by
    obtain ⟨-, old, hold, hip⟩ := mem_merge_nodes hrole h.keyed hmem
    obtain ⟨sub, hsub, hip'⟩ := prune_backed h now (SortedMap.mem_retain.mp hold).1
    refine ⟨sub, ?_, hip'.trans hip⟩
    show (name, sub) ∈ (mergeInto now file s.registry).2.2.subscriptions.entries
    rw [merge_subscriptions]
    exact hsub

/-- Merges are into a gateway's configuration. -/
def RegistryEv.AtGateway : RegistryEv → Prop
  | .merge _ file => file.nodeRole = .gateway
  | _ => True

theorem stepStreams_inv (h : s.Inv) {e : RegistryEv} (he : e.AtGateway) : (stepStreams s e).Inv := by
  cases e with
  | upsert req peer streamId now =>
    rcases upsert_cases s req peer streamId now with hsame | ⟨sub, node, hname, hip, hentered⟩
    · rwa [hsame]
    · rw [hentered]
      exact entered_inv h hname hip
  | touch nodeName streamId req now => exact touch_keeps h nodeName streamId req now
  | remove nodeName streamId => exact remove_keeps h nodeName streamId
  | prune now => exact prune_keeps h now
  | merge now file => exact merge_keeps h he now

/-! ## Every open stream has its subscription -/

structure Streams.Complete (s : Streams) : Prop where
  listed : ∀ name sub, (name, sub) ∈ s.registry.subscriptions.entries →
    name ∈ s.registry.nodes.keys ∨ sub.underlayIp ∈ s.gateways
  subscribed : ∀ name id, (name, id) ∈ s.opened.entries → name ∈ s.registry.subscriptions.keys

/-- A touch finds the subscription of the newest stream, if there is one, and keeps it. -/
theorem touch_registered (h : s.Inv) (hc : s.Complete) {name id : String} (hopen : (name, id) ∈ s.opened.entries)
    (req : DiscoveryRequest) (now : Nat) : (stepStreams s (.touch name id req now)).Registered name id := by
  obtain ⟨sub, hsub⟩ := SortedMap.mem_keys.mp (hc.subscribed name id hopen)
  have hid : sub.streamId = id := SortedMap.value_unique (h.newest name sub hsub) hopen
  show ({ s with registry := touch name id req now s.registry } : Streams).Registered name id
  rcases touch_cases name id req now s.registry with ⟨hnone, -⟩ | ⟨sub', ⟨hsub', hid'⟩, htouch⟩
  · exact absurd ⟨hsub, hid⟩ (hnone sub)
  · rw [htouch]
    exact ⟨touched sub' req now, SortedMap.mem_insert.mpr (.inl rfl), hid', hc.listed name sub' hsub'⟩

theorem Streams.Inv.superseded (h : s.Inv) {name id : String} (hopen : (name, id) ∉ s.opened.entries) :
    (∀ req now, touch name id req now s.registry = s.registry) ∧ remove name id s.registry = s.registry := by
  have hnone : ∀ sub, ¬ s.registry.Has name id sub := by
    intro sub ⟨hsub, hid⟩
    apply hopen
    rw [← hid]
    exact h.newest name sub hsub
  constructor
  · intro req now
    rcases touch_cases name id req now s.registry with ⟨-, hsame⟩ | ⟨sub, hhas, -⟩
    · exact hsame
    · exact absurd hhas (hnone sub)
  · rcases remove_cases name id s.registry with ⟨-, hsame⟩ | ⟨sub, hhas, -⟩
    · exact hsame
    · exact absurd hhas (hnone sub)

theorem sound_iff_complete (h : s.Inv) : s.Sound ↔ s.Complete := by
  constructor
  · intro hsound
    refine ⟨hsound.listed, fun name id hopen => ?_⟩
    -- what a touch finds was there before it
    obtain ⟨sub, hsub, -⟩ := hsound.heard name id hopen { nodeName := name, underlayIp := "" } 0
    have hmem : (name, sub) ∈ (touch name id { nodeName := name, underlayIp := "" } 0 s.registry).subscriptions.entries := hsub
    rcases touch_cases name id { nodeName := name, underlayIp := "" } 0 s.registry with ⟨-, hsame⟩ | ⟨old, ⟨hold, -⟩, -⟩
    · rw [hsame] at hmem
      exact SortedMap.mem_keys.mpr ⟨sub, hmem⟩
    · exact SortedMap.mem_keys.mpr ⟨old, hold⟩
  · intro hc
    refine ⟨fun name id hopen => h.superseded hopen, fun name hname => ?_, hc.listed,
      fun name id hopen req now => touch_registered h hc hopen req now⟩
    obtain ⟨node, hnode⟩ := SortedMap.mem_keys.mp hname
    obtain ⟨sub, hsub, -⟩ := h.backed name node hnode
    exact SortedMap.mem_keys.mpr ⟨sub, hsub⟩

theorem entered_complete (hc : s.Complete) (name : String) (sub : ActiveBackendSubscription) (node : BackendNode) :
    (s.entered name sub node).Complete where
  listed name' sub' hmem := by
    rcases SortedMap.mem_insert.mp hmem with heq | ⟨hmem', -⟩
    · cases heq
      exact .inl (SortedMap.mem_keys_insert.mpr (.inl rfl))
    · rcases hc.listed name' sub' hmem' with hnode | hgw
      · exact .inl (SortedMap.mem_keys_insert.mpr (.inr hnode))
      · exact .inr hgw
  subscribed name' id hopen := by
    rcases SortedMap.mem_insert.mp hopen with heq | ⟨hopen', -⟩
    · cases heq
      exact SortedMap.mem_keys_insert.mpr (.inl rfl)
    · exact SortedMap.mem_keys_insert.mpr (.inr (hc.subscribed name' id hopen'))

theorem touch_complete (hc : s.Complete) (nodeName streamId : String) (req : DiscoveryRequest) (now : Nat) :
    (stepStreams s (.touch nodeName streamId req now)).Complete := by
  show ({ s with registry := touch nodeName streamId req now s.registry } : Streams).Complete
  rcases touch_cases nodeName streamId req now s.registry with ⟨-, hsame⟩ | ⟨sub, ⟨hsub, -⟩, htouch⟩
  · rwa [hsame]
  rw [htouch]
  refine ⟨fun name sub' hmem => ?_, fun name id hopen => SortedMap.mem_keys_insert.mpr (.inr (hc.subscribed name id hopen))⟩
  rcases SortedMap.mem_insert.mp hmem with heq | ⟨hmem', -⟩
  · cases heq
    exact hc.listed nodeName sub hsub
  · exact hc.listed name sub' hmem'

theorem remove_complete (h : s.Inv) (hc : s.Complete) (nodeName streamId : String) :
    (stepStreams s (.remove nodeName streamId)).Complete := by
  show ({ s with registry := remove nodeName streamId s.registry,
                 opened := newestStreams s.opened (.remove nodeName streamId) } : Streams).Complete
  rcases remove_cases nodeName streamId s.registry with ⟨-, hsame⟩ | ⟨sub, ⟨hsub, hid⟩, hremove⟩
  · rw [hsame]
    exact ⟨hc.listed, fun name id hopen => hc.subscribed name id (mem_opened_remove.mp hopen).1⟩
  rw [hremove]
  constructor
  · intro name sub' hmem
    obtain ⟨hmem', hne⟩ := SortedMap.mem_erase.mp hmem
    rcases hc.listed name sub' hmem' with hnode | hgw
    · obtain ⟨node, hnode⟩ := SortedMap.mem_keys.mp hnode
      exact .inl (SortedMap.mem_keys.mpr ⟨node, SortedMap.mem_erase.mpr ⟨hnode, hne⟩⟩)
    · exact .inr hgw
  · intro name id hopen
    obtain ⟨hopen', hne⟩ := mem_opened_remove.mp hopen
    obtain ⟨sub', hsub'⟩ := SortedMap.mem_keys.mp (hc.subscribed name id hopen')
    refine SortedMap.mem_keys.mpr ⟨sub', SortedMap.mem_erase.mpr ⟨hsub', fun heq => hne ?_⟩⟩
    -- the removed subscription was the newest stream's
    obtain rfl : name = nodeName := heq
    rw [SortedMap.value_unique hopen' (h.newest name sub hsub), hid]

/-! ## Looking at the registry -/

section

variable {reg : BackendRegistry} {now : Nat} (hfresh : reg.Fresh now)
include hfresh

theorem mem_fresh_subscriptions {e : String × ActiveBackendSubscription} (he : e ∈ reg.subscriptions.entries) :
    e ∈ (pruneActiveSubscriptions now reg).subscriptions.entries :=
  SortedMap.mem_retain.mpr ⟨he, hfresh e he⟩

theorem mem_fresh_nodes {e : String × BackendNode}
    (he : e ∈ reg.nodes.entries) : e ∈ (pruneActiveSubscriptions now reg).nodes.entries := by
  refine SortedMap.mem_retain.mpr ⟨he, ?_⟩
  cases hget : reg.subscriptions.get? e.1 with
  | none => rfl
  | some sub => exact hfresh (e.1, sub) (SortedMap.get?_eq_some.mp hget)

end

/-- An overdue subscription is an open stream's, and is gone after the look. -/
theorem fresh_of_subscribed (h : s.Inv) {now : Nat} (hall : ∀ name id, (name, id) ∈ s.opened.entries →
      name ∈ (pruneActiveSubscriptions now s.registry).subscriptions.keys) : s.registry.Fresh now := by
  intro e he
  obtain ⟨sub, hsub⟩ := SortedMap.mem_keys.mp (hall e.1 e.2.streamId (h.newest e.1 e.2 he))
  obtain ⟨hmem, halive⟩ := SortedMap.mem_retain.mp hsub
  rwa [SortedMap.value_unique he hmem]

theorem subscribed_of_fresh (hc : s.Complete) {now : Nat} (hfresh : s.registry.Fresh now) {name id : String}
    (hopen : (name, id) ∈ s.opened.entries) : name ∈ (pruneActiveSubscriptions now s.registry).subscriptions.keys := by
  obtain ⟨sub, hsub⟩ := SortedMap.mem_keys.mp (hc.subscribed name id hopen)
  exact SortedMap.mem_keys.mpr ⟨sub, mem_fresh_subscriptions hfresh hsub⟩

section

variable (h : s.Inv) (hc : s.Complete)
include h hc

theorem prune_complete_iff (now : Nat) :
    (stepStreams s (.prune now)).Complete ↔ s.registry.Fresh now := by
  constructor
  · exact fun hafter => fresh_of_subscribed h hafter.subscribed
  · intro hfresh
    refine ⟨fun name sub hmem => ?_, fun name id hopen => subscribed_of_fresh hc hfresh hopen⟩
    rcases hc.listed name sub (SortedMap.mem_retain.mp hmem).1 with hnode | hgw
    · obtain ⟨node, hnode⟩ := SortedMap.mem_keys.mp hnode
      exact .inl (SortedMap.mem_keys.mpr ⟨node, mem_fresh_nodes hfresh hnode⟩)
    · exact .inr hgw

theorem merge_complete_iff {file : FileConfig} (hrole : file.nodeRole = .gateway)
    (now : Nat) : (stepStreams s (.merge now file)).Complete ↔ Timely s (.merge now file) := by
  have hsubs : (stepStreams s (.merge now file)).registry.subscriptions =
      (pruneActiveSubscriptions now s.registry).subscriptions := merge_subscriptions now file s.registry
  have hkeys (name : String) : name ∈ (stepStreams s (.merge now file)).registry.nodes.keys ↔
      name ∈ (keptAt now file s.registry).nodes.keys := mem_merge_keys hrole h.keyed
  constructor
  · intro hafter
    have hfresh : s.registry.Fresh now := by
      refine fresh_of_subscribed h fun name id hopen => ?_
      rw [← hsubs]
      exact hafter.subscribed name id hopen
    refine ⟨hfresh, fun e he hout => ?_⟩
    have hmem : e ∈ (stepStreams s (.merge now file)).registry.subscriptions.entries := by
      rw [hsubs]
      exact mem_fresh_subscriptions hfresh he
    rcases hafter.listed e.1 e.2 hmem with hnode | hgw
    · -- a merge enters no node of its own
      obtain ⟨node, hnode⟩ := SortedMap.mem_keys.mp ((hkeys e.1).mp hnode)
      exact absurd (SortedMap.mem_keys.mpr ⟨node, keptAt_sub _ hnode⟩) hout
    · exact hgw
  · intro ⟨hfresh, hgiven⟩
    refine ⟨fun name sub hmem => ?_, fun name id hopen => ?_⟩
    · rw [hsubs] at hmem
      have hsub := (SortedMap.mem_retain.mp hmem).1
      by_cases hnode : name ∈ s.registry.nodes.keys
      · obtain ⟨node, hnode⟩ := SortedMap.mem_keys.mp hnode
        obtain ⟨sub', hsub', hip⟩ := h.backed name node hnode
        rw [SortedMap.value_unique hsub' hsub] at hip
        by_cases hgw : node.underlayIp ∈ gatewayUnderlays file
        · exact .inr (hip ▸ hgw)
        · have hkept : (name, node) ∈ (keptAt now file s.registry).nodes.entries :=
            SortedMap.mem_retain.mpr ⟨mem_fresh_nodes hfresh hnode, by simp [hgw]⟩
          exact .inl ((hkeys name).mpr (SortedMap.mem_keys.mpr ⟨node, hkept⟩))
      · exact .inr (hgiven (name, sub) hsub hnode)
    · rw [hsubs]
      exact subscribed_of_fresh hc hfresh hopen

/-- Of all calls only a look at the registry can leave an open stream without its backend. -/
theorem stepStreams_complete_iff {e : RegistryEv} (he : e.AtGateway) :
    (stepStreams s e).Complete ↔ Timely s e := by
  cases e with
  | upsert req peer streamId now =>
    refine iff_of_true ?_ trivial
    rcases upsert_cases s req peer streamId now with hsame | ⟨sub, node, -, -, hentered⟩
    · rwa [hsame]
    · rw [hentered]
      exact entered_complete hc req.nodeName sub node
  | touch nodeName streamId req now => exact iff_of_true (touch_complete hc nodeName streamId req now) trivial
  | remove nodeName streamId => exact iff_of_true (remove_complete h hc nodeName streamId) trivial
  | prune now => exact prune_complete_iff h hc now
  | merge now file => exact merge_complete_iff h hc he now

end

end steps

theorem no_streams_inv : ({} : Streams).Inv where
  newest _ _ hmem := nomatch hmem
  keyed _ _ hmem := nomatch hmem
  backed _ _ hmem := nomatch hmem

theorem no_streams_complete : ({} : Streams).Complete where
  listed _ _ hmem := nomatch hmem
  subscribed _ _ hmem := nomatch hmem

/-- Whatever calls come in whatever order, under any stream ids and at any times: they leave
    every state sound exactly if each comes timely. -/
theorem streams_sound_iff {es : List RegistryEv} (hes : ∀ e ∈ es, e.AtGateway) :
    StepsMeet stepStreams (fun s e => (stepStreams s e).Sound) {} es ↔ StepsMeet stepStreams Timely {} es := by
  have hrun : ∀ s : Streams, s.Inv → s.Complete →
      (StepsMeet stepStreams (fun s e => (stepStreams s e).Sound) s es ↔ StepsMeet stepStreams Timely s es) := by
    induction es with
    | nil => exact fun _ _ _ => Iff.rfl
    | cons e es ih =>
      intro s hinv hc
      have he := hes e List.mem_cons_self
      have hinv' := stepStreams_inv hinv he
      have hstep := (sound_iff_complete hinv').trans (stepStreams_complete_iff hinv hc he)
      have hrest := ih (fun e' he' => hes e' (List.mem_cons_of_mem e he')) (stepStreams s e) hinv'
      constructor
      · intro ⟨hsound, hmeet⟩
        exact ⟨hstep.mp hsound, (hrest ((sound_iff_complete hinv').mp hsound)).mp hmeet⟩
      · intro ⟨htimely, hmeet⟩
        exact ⟨hstep.mpr htimely, (hrest ((stepStreams_complete_iff hinv hc he).mpr htimely)).mpr hmeet⟩
  exact hrun {} no_streams_inv no_streams_complete

/-- A backend that reconnects, with a late heartbeat and the end of its first stream after it. -/
def reconnecting : List RegistryEv :=
  [.upsert { nodeName := "backend-a", underlayIp := "192.0.2.21" } none "stream-1" 100,
    .merge 110 { nodeRole := .gateway },
    .upsert { nodeName := "backend-a", underlayIp := "192.0.2.22" } none "stream-2" 120,
    .touch "backend-a" "stream-1" { nodeName := "backend-a", underlayIp := "192.0.2.21" } 121,
    .remove "backend-a" "stream-1",
    .touch "backend-a" "stream-2" { nodeName := "backend-a", underlayIp := "192.0.2.22" } 140,
    .prune 170]

theorem sound_while_reconnecting :
    (∀ e ∈ reconnecting, e.AtGateway) ∧ StepsMeet stepStreams Timely {} reconnecting ∧
      StepsMeet stepStreams (fun s e => (stepStreams s e).Sound) {} reconnecting := by
  have hes : ∀ e ∈ reconnecting, e.AtGateway := by
    simp [reconnecting, RegistryEv.AtGateway]
  have htimely : StepsMeet stepStreams Timely {} reconnecting := by decide
  exact ⟨hes, htimely, (streams_sound_iff hes).mpr htimely⟩

/-- A stream that falls silent for 31 seconds, while somebody looks, and is heard again. -/
def heardAgain : List RegistryEv :=
  [.upsert { nodeName := "backend-a", underlayIp := "192.0.2.21" } none "stream-1" 100,
    .prune 131,
    .touch "backend-a" "stream-1" { nodeName := "backend-a", underlayIp := "192.0.2.21" } 132]

theorem heard_again_not_registered :
    ("backend-a", "stream-1") ∈ (run stepStreams {} heardAgain).opened.entries ∧
      (run stepStreams {} heardAgain).registry = {} ∧
      ¬ StepsMeet stepStreams (fun s e => (stepStreams s e).Sound) {} heardAgain := by
  refine ⟨by decide, by decide, ?_⟩
  intro hmeet
  obtain ⟨-, hsound, -⟩ := hmeet
  obtain ⟨sub, hsub, -⟩ := hsound.heard "backend-a" "stream-1" (by decide)
    { nodeName := "backend-a", underlayIp := "192.0.2.21" } 132
  have hempty : (run stepStreams {} heardAgain).registry.subscriptions.entries = [] := by decide
  have hmem : ("backend-a", sub) ∈ (run stepStreams {} heardAgain).registry.subscriptions.entries := hsub
  rw [hempty] at hmem
  cases hmem

/-! ## The handlers of `watch` -/

/-- A stream's first message also names the sender's role. -/
structure FirstRequest extends DiscoveryRequest where
  nodeRole : String

inductive Status
  | permissionDenied (message : String)
  | invalidArgument (message : String)
  deriving DecidableEq, Repr

def validBackendRegistration (req : DiscoveryRequest) : Bool :=
  !isBlank req.nodeName && (parseIp req.underlayIp).any fun ip => !ip.isUnspecified

/-- The checks of `watch`, down to the address its snapshots are built for. -/
def checkFirst (first : FirstRequest) : Except Status IpAddr :=
  if first.nodeRole ≠ "backend" then .error (.permissionDenied "only backend nodes may subscribe")
  else if !validBackendRegistration first.toDiscoveryRequest then
    .error (.permissionDenied "backend registration is incomplete or invalid")
  else match parseIp first.underlayIp with
    | none => .error (.invalidArgument "bad backend underlay_ip: invalid IP address syntax")
    | some ip => .ok ip

/-- The registry and the receivers that run, each with the name and the id of its stream. -/
structure Watching where
  registry : BackendRegistry := {}
  receivers : List (String × String) := []

inductive WatchEv
  | connected (first : FirstRequest) (peer : Option (IpAddr × UInt16)) (streamId : String) (now : Nat)
  | received (nodeName streamId : String) (req : DiscoveryRequest) (now : Nat)
  | ended (nodeName streamId : String)
  | looked (now : Nat)
  | merged (now : Nat) (file : FileConfig)

/-- The call an event makes, if it makes one: a message or an end is a running receiver's. -/
def Watching.call (w : Watching) : WatchEv → Option RegistryEv
  | .connected first peer streamId now =>
    match checkFirst first with
    | .ok _ => some (.upsert first.toDiscoveryRequest peer streamId now)
    | .error _ => none
  | .received nodeName streamId req now =>
    if (nodeName, streamId) ∈ w.receivers then some (.touch nodeName streamId req now) else none
  | .ended nodeName streamId => if (nodeName, streamId) ∈ w.receivers then some (.remove nodeName streamId) else none
  | .looked now => some (.prune now)
  | .merged now file => some (.merge now file)

def Watching.receiversAfter (w : Watching) : RegistryEv → List (String × String)
  | .upsert req _ streamId _ => (req.nodeName, streamId) :: w.receivers
  | .remove nodeName streamId => w.receivers.erase (nodeName, streamId)
  | _ => w.receivers

def stepWatching (w : Watching) (e : WatchEv) : Watching :=
  match w.call e with
  | none => w
  | some call => { registry := stepRegistry w.registry call, receivers := w.receiversAfter call }

/-- The registry is what the calls made of it, and a backend's newest open stream has its
    receiver. -/
structure Follows (w : Watching) (s : Streams) : Prop where
  registry : w.registry = s.registry
  receiver : ∀ name id, (name, id) ∈ s.opened.entries → (name, id) ∈ w.receivers

theorem follows_call {w : Watching} {s : Streams} (h : Follows w s) (call : RegistryEv) :
    Follows { registry := stepRegistry w.registry call, receivers := w.receiversAfter call } (stepStreams s call) := by
  refine ⟨by rw [h.registry]; rfl, fun name id hopen => ?_⟩
  cases call with
  | upsert req peer streamId now =>
    show (name, id) ∈ (req.nodeName, streamId) :: w.receivers
    have hopen' : (name, id) ∈ (newestStreams s.opened (.upsert req peer streamId now)).entries := hopen
    unfold newestStreams at hopen'
    dsimp only at hopen'
    split at hopen'
    · rcases SortedMap.mem_insert.mp hopen' with heq | ⟨hmem, -⟩
      · rw [heq]
        exact List.mem_cons_self
      · exact List.mem_cons_of_mem _ (h.receiver name id hmem)
    · exact List.mem_cons_of_mem _ (h.receiver name id hopen')
  | remove nodeName streamId =>
    obtain ⟨hopen', hne⟩ := mem_opened_remove.mp hopen
    exact (List.mem_erase_of_ne hne).mpr (h.receiver name id hopen')
  | touch nodeName streamId req now => exact h.receiver name id hopen
  | prune now => exact h.receiver name id hopen
  | merge now file => exact h.receiver name id hopen

end EdgeLb.Control
