/-
  EdgeLb.Api.Router — from a request to the write it asks for
  (`edge-lb/src/api/router.rs`, `handle` of `api/server.rs`, `runtime/ha_write.rs`, and the
  rest of `handlers/proxy_config.rs`).

  A request is first given the node's configuration, loaded with options that depend on
  its method and path alone, then routed. A write goes to the MASTER: the node applies it
  itself, or hands it to its peer under a path of its own, where it is applied with the
  configuration that path loads.

  Not modelled: who may call (source addresses and bearer tokens), and the requests that
  write no listener and no target group.
-/

import EdgeLb.Api.Operations
import EdgeLb.Control.Registry

namespace EdgeLb.Api

open EdgeLb.Config EdgeLb.Lib EdgeLb.Storage EdgeLb.Control

inductive Method
  | get | post | put | delete
  deriving DecidableEq, Repr

structure Request (B : Type) where
  method : Method
  path : String
  body : B
  deriving DecidableEq, Repr

/-! ## Paths -/

def splitPathQuery (path : String) : String :=
  ((splitOnce '?' path.toList).map fun (path, _) => String.ofList path).getD path

/-- The resources whose public path is mapped as a whole. -/
def mappedPaths : List (String × String) :=
  [("/status", "/api/status"),
   ("/target-groups", "/api/target-groups"),
   ("/target-groups/export", "/api/target-groups/export"),
   ("/target-groups/import", "/api/target-groups/import"),
   ("/listener-configs", "/api/listener-configs"),
   ("/listener-configs/export", "/api/listener-configs/export"),
   ("/listener-configs/import", "/api/listener-configs/import"),
   ("/nodes/gateways", "/api/gateway-nodes"),
   ("/nodes/backends", "/api/backend-nodes"),
   ("/nodes/public-ip/discover", "/api/nodes/public-ip/discover"),
   ("/nodes/backend-subscriptions", "/api/control-backend-subscriptions"),
   ("/operations/apply", "/api/apply"),
   ("/operations/cleanup", "/api/cleanup"),
   ("/ha/config", "/api/ha/config"),
   ("/ha/status", "/api/ha/status"),
   ("/ha/proxy-config-sync", "/api/ha/proxy-config-sync"),
   ("/ha/peer/status", "/api/ha/peer/status"),
   ("/ha/peer/activate", "/api/ha/peer/activate"),
   ("/ha/peer/notifications/active", "/api/ha/peer/notifications/active"),
   ("/ha/peer/notifications/replica", "/api/ha/peer/notifications/replica"),
   ("/ha/peer/proxy-config/active", "/api/ha/peer/proxy-config/active"),
   ("/ha/peer/proxy-config/replica", "/api/ha/peer/proxy-config/replica"),
   ("/ha/peer/automation-templates/active", "/api/ha/peer/automation-templates/active"),
   ("/ha/peer/automation-templates/replica", "/api/ha/peer/automation-templates/replica"),
   ("/ha/pair", "/api/ha/pair"),
   ("/ha/failover", "/api/ha/failover"),
   ("/notifications", "/api/notifications")]

def canonicalPath (path : String) : Option String :=
  match stripPrefix "/api/v1" path with
  | none => none
  | some rest =>
    if rest = "" then none
    else if rest = "/automations" then some "/api/automation-templates"
    else
      match stripPrefix "/automations/" rest with
      | some tail => some s!"/api/automation-templates/{tail}"
      | none =>
        match mappedPaths.lookup rest with
        | some path => some path
        | none =>
          if startsWith rest "/target-groups/" || startsWith rest "/listener-configs/" ||
              startsWith rest "/notifications/" then some s!"/api{rest}"
          else none

structure LoadOptions where
  hydrateProxy : Bool := false
  mergeBackendSubscriptions : Bool := false
  deriving DecidableEq, Repr

variable (method : Method) (path : String)

def proxyRead : Bool :=
  (method, path) ∈ [(.get, "/api/target-groups"), (.get, "/api/listener-configs"), (.get, "/api/ha/status")]

def peerWrite (path : String) : Bool :=
  startsWith path "/api/ha/peer/proxy-config" || startsWith path "/api/ha/peer/automation-templates" ||
    startsWith path "/api/ha/peer/notifications"

def proxyWrite : Bool :=
  method ∈ [.post, .put, .delete] &&
    (startsWith path "/api/listener-configs" || startsWith path "/api/target-groups" ||
      startsWith path "/api/automation-templates") && !peerWrite path

def needsBackendSubscriptions : Bool :=
  (method, path) ∈ [(.get, "/api/backend-nodes"), (.post, "/api/apply")]

def loadOptions : LoadOptions :=
  match canonicalPath (splitPathQuery path) with
  | none => {}
  | some path =>
    { hydrateProxy := proxyRead method path || proxyWrite method path
      mergeBackendSubscriptions := needsBackendSubscriptions method path || proxyRead method path || proxyWrite method path }

/-! ## Routes -/

/-- Where a request goes: a public write, a write handed over by the peer, or elsewhere. -/
inductive Route (B : Type)
  | write (op : ProxyConfigOperation B)
  | peerActive
  | other
  deriving DecidableEq, Repr

/-- The write behind a canonical path. -/
def operationOf {B : Type} (method : Method) (path : String) (body : B) : Option (ProxyConfigOperation B) :=
  match method with
  | .get => none
  | .post =>
    if path = "/api/target-groups/import" then some (.targetGroupImport body)
    else if path = "/api/target-groups" then some (.targetGroupCreate body)
    else if path = "/api/listener-configs/import" then some (.listenerImport body)
    else if path = "/api/listener-configs" then some (.listenerCreate body)
    else none
  | .put =>
    if startsWith path "/api/target-groups/" then
      some (.targetGroupUpdate (trimStartMatches "/api/target-groups/" path) body)
    else ((stripPrefix "/api/listener-configs/" path).filter (· ≠ "export")).map (.listenerUpdate · body)
  | .delete =>
    if startsWith path "/api/target-groups/" then
      some (.targetGroupDelete (trimStartMatches "/api/target-groups/" path))
    else ((stripPrefix "/api/listener-configs/" path).filter (· ≠ "export")).map .listenerDelete

def route {B : Type} (req : Request B) : Route B :=
  let path := splitPathQuery req.path
  if !startsWith path "/api/v1/" then .other
  else
    match canonicalPath path with
    | none => .other
    | some path =>
      match operationOf req.method path req.body with
      | some op => .write op
      | none => if req.method = .post ∧ path = "/api/ha/peer/proxy-config/active" then .peerActive else .other

theorem stripPrefix_startsWith {pre s rest : String} (h : stripPrefix pre s = some rest) : startsWith s pre = true := by
  unfold stripPrefix at h
  split at h
  · assumption
  · cases h

/-- Every write is to a path of one of the two resources. -/
theorem operationOf_path {B : Type} {method : Method} {path : String} {body : B} {op : ProxyConfigOperation B}
    (h : operationOf method path body = some op) :
    method ≠ .get ∧ (startsWith path "/api/listener-configs" = true ∨ startsWith path "/api/target-groups" = true) := by
  have hlonger {pre more : String} (hpath : startsWith path (pre ++ more) = true) : startsWith path pre = true := by
    obtain ⟨rest, hrest⟩ := startsWith_iff.mp hpath
    exact startsWith_iff.mpr ⟨more.toList ++ rest, by simpa using hrest⟩
  have hnamed {f : String → ProxyConfigOperation B}
      (hname : ((stripPrefix "/api/listener-configs/" path).filter (· ≠ "export")).map f = some op) :
      startsWith path "/api/listener-configs" = true := by
    obtain ⟨name, hname, -⟩ := Option.map_eq_some_iff.mp hname
    have hpath := stripPrefix_startsWith (Option.filter_eq_some_iff.mp hname).1
    exact @hlonger "/api/listener-configs" "/" hpath
  cases method with
  | get => cases h
  | post =>
    refine ⟨by decide, ?_⟩
    simp only [operationOf] at h
    split at h
    · next hpath => exact .inr (by rw [hpath]; decide)
    split at h
    · next hpath => exact .inr (by rw [hpath]; decide)
    split at h
    · next hpath => exact .inl (by rw [hpath]; decide)
    split at h
    · next hpath => exact .inl (by rw [hpath]; decide)
    · cases h
  | put =>
    refine ⟨by decide, ?_⟩
    simp only [operationOf] at h
    split at h
    · next hpath => exact .inr (@hlonger "/api/target-groups" "/" hpath)
    · exact .inl (hnamed h)
  | delete =>
    refine ⟨by decide, ?_⟩
    simp only [operationOf] at h
    split at h
    · next hpath => exact .inr (@hlonger "/api/target-groups" "/" hpath)
    · exact .inl (hnamed h)

/-- A path of the public resources is none of the peer's. -/
theorem peerWrite_public {path : String}
    (h : startsWith path "/api/listener-configs" = true ∨ startsWith path "/api/target-groups" = true) :
    peerWrite path = false := by
  rcases h with h | h
  · obtain ⟨rest, hrest⟩ := startsWith_iff.mp h
    simp only [peerWrite, startsWith, hrest]
    rfl
  · obtain ⟨rest, hrest⟩ := startsWith_iff.mp h
    simp only [peerWrite, startsWith, hrest]
    rfl

theorem loadOptions_of_path {raw path : String} (h : canonicalPath (splitPathQuery raw) = some path) (method : Method) :
    loadOptions method raw =
      { hydrateProxy := proxyRead method path || proxyWrite method path
        mergeBackendSubscriptions :=
          needsBackendSubscriptions method path || proxyRead method path || proxyWrite method path } := by
  delta loadOptions
  rw [h]

/-- A public write is given the stored configuration and the registered backends. -/
theorem loadOptions_write {B : Type} {req : Request B} {op : ProxyConfigOperation B} (h : route req = .write op) :
    loadOptions req.method req.path = { hydrateProxy := true, mergeBackendSubscriptions := true } := by
  unfold route at h
  dsimp only at h
  split at h
  · cases h
  split at h
  · cases h
  next path hpath =>
    split at h
    · next op' hop =>
      obtain ⟨hmethod, hprefix⟩ := operationOf_path hop
      have hwrite : proxyWrite req.method path = true := by
        have hchanges : (req.method ∈ [Method.post, .put, .delete]) := by
          revert hmethod
          cases req.method <;> decide
        have hresource : (startsWith path "/api/listener-configs" || startsWith path "/api/target-groups" ||
            startsWith path "/api/automation-templates") = true := by
          rcases hprefix with h | h <;> simp [h]
        simp [proxyWrite, hchanges, hresource, peerWrite_public hprefix]
      simp [loadOptions_of_path hpath, hwrite]
    · split at h <;> cases h

/-- A write handed over by the peer is given the configuration file's alone. -/
theorem loadOptions_peerActive {B : Type} {req : Request B} (h : route req = .peerActive) :
    loadOptions req.method req.path = {} := by
  unfold route at h
  dsimp only at h
  split at h
  · cases h
  split at h
  · cases h
  next path hpath =>
    split at h
    · cases h
    · split at h
      · next hpeer =>
        obtain ⟨hmethod, rfl⟩ := hpeer
        rw [loadOptions_of_path hpath, hmethod]
        decide
      · cases h

end EdgeLb.Api
