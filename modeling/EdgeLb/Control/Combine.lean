/-
  EdgeLb.Control.Combine — the gateways' snapshots as one (`combine_gateway_responses` of
  `edge-lb/src/control/snapshot.rs`), and what a gateway sends (`response_for_backend`).

  A gateway sends the network it serves, itself, and the return path to itself; the version
  is the hash of that. A backend sorts what it has by gateway, takes the network of the
  first, and of the nodes and paths the first of every key; the version is the hash of the
  sorted versions in one string.

  Proved, for responses of different gateways (`gateway_responses_combine`): their order does
  not matter; every return path is there once; and combined snapshots of one version are the
  same, unless the hash takes two of the texts it was given for one.

  SHA-256 is a parameter, `digest`, of which only the width is known.
-/

import EdgeLb.Control.BackendApply
import EdgeLb.Lib.Group
import EdgeLb.Lib.Protobuf
import Mathlib.Data.String.Basic
import Mathlib.Data.List.Destutter

namespace EdgeLb.Control

open EdgeLb.Common EdgeLb.Config EdgeLb.Lib EdgeLb.Lib.Protobuf

/-! ## The encoding of a snapshot -/

namespace Pb

def Network.encode (n : Network) : Bytes :=
  message (string 2 n.gatewayIp ++ string 4 n.gatewayVxlanDev ++ uint32 5 n.vni ++ uint32 6 n.vxlanPort ++
    uint32 7 n.vxlanMtu ++ uint32 8 n.dscp ++ string 9 n.overlayCidr)

def GatewayNode.encode (g : GatewayNode) : Bytes :=
  message (string 1 g.name ++ string 3 g.underlayIp ++ string 4 g.overlayIp)

def GatewayReturnPath.encode (path : GatewayReturnPath) : Bytes :=
  message (string 1 path.gateway ++ string 2 path.gatewayUnderlayIp ++ string 3 path.gatewayOverlayIp ++
    string 4 path.backendOverlayIp ++ uint32 5 path.dscp ++ uint32 6 path.mark ++ uint32 7 path.routeTableId)

/-- `encode_to_vec`. -/
def ConfigSnapshot.encode (s : ConfigSnapshot) : Bytes :=
  message (repeated 2 Network.encode s.network.toList ++ repeated 3 GatewayNode.encode s.gatewayNodes ++
    repeated 6 GatewayReturnPath.encode s.gatewayReturnPaths)

/-! A record is read off its fields, tag by tag. -/

theorem Network.encode_injective : Function.Injective Network.encode := by
  intro a b h
  have hfields := message_inj h
  have hat (tag : Nat) := congrArg (fieldsAt tag) hfields
  simp only [fieldsAt_append, fieldsAt_string, fieldsAt_uint32] at hat
  have h2 := string_inj (by simpa using hat 2)
  have h4 := string_inj (by simpa using hat 4)
  have h5 := uint32_inj (by simpa using hat 5)
  have h6 := uint32_inj (by simpa using hat 6)
  have h7 := uint32_inj (by simpa using hat 7)
  have h8 := uint32_inj (by simpa using hat 8)
  have h9 := string_inj (by simpa using hat 9)
  cases a
  cases b
  simp_all

theorem GatewayNode.encode_injective : Function.Injective GatewayNode.encode := by
  intro a b h
  have hfields := message_inj h
  have hat (tag : Nat) := congrArg (fieldsAt tag) hfields
  simp only [fieldsAt_append, fieldsAt_string] at hat
  have h1 := string_inj (by simpa using hat 1)
  have h3 := string_inj (by simpa using hat 3)
  have h4 := string_inj (by simpa using hat 4)
  cases a
  cases b
  simp_all

theorem GatewayReturnPath.encode_injective : Function.Injective GatewayReturnPath.encode := by
  intro a b h
  have hfields := message_inj h
  have hat (tag : Nat) := congrArg (fieldsAt tag) hfields
  simp only [fieldsAt_append, fieldsAt_string, fieldsAt_uint32] at hat
  have h1 := string_inj (by simpa using hat 1)
  have h2 := string_inj (by simpa using hat 2)
  have h3 := string_inj (by simpa using hat 3)
  have h4 := string_inj (by simpa using hat 4)
  have h5 := uint32_inj (by simpa using hat 5)
  have h6 := uint32_inj (by simpa using hat 6)
  have h7 := uint32_inj (by simpa using hat 7)
  cases a
  cases b
  simp_all

theorem ConfigSnapshot.encode_injective : Function.Injective ConfigSnapshot.encode := by
  intro a b h
  have hfields := message_inj h
  have hat (tag : Nat) := congrArg (fieldsAt tag) hfields
  simp only [fieldsAt_append, fieldsAt_repeated] at hat
  have hnetwork := repeated_inj Network.encode_injective (by simpa using hat 2)
  have hnodes := repeated_inj GatewayNode.encode_injective (by simpa using hat 3)
  have hpaths := repeated_inj GatewayReturnPath.encode_injective (by simpa using hat 6)
  have hoption : a.network = b.network := by
    cases ha : a.network <;> cases hb : b.network <;> simp_all
  cases a
  cases b
  simp_all

end Pb

/-! ## What a gateway sends -/

def EDGE_MARK_BASE : UInt32 := 0x1000
def EDGE_TABLE_BASE : UInt32 := 1000
def EDGE_MAX_GATEWAY_SLOTS : UInt32 := 6
def EDGE_DSCP_MASK : UInt32 := 0x3f
def EDGE_SLOT_STRIDE : UInt32 := 64

def returnMark (dscp gatewaySlot : UInt32) : UInt32 :=
  let slot := min gatewaySlot (EDGE_MAX_GATEWAY_SLOTS - 1)
  EDGE_MARK_BASE ||| ((slot + 1) <<< 6) ||| (dscp &&& EDGE_DSCP_MASK)

def returnTableId (dscp gatewaySlot : UInt32) : UInt32 :=
  let slot := min gatewaySlot (EDGE_MAX_GATEWAY_SLOTS - 1)
  EDGE_TABLE_BASE + (slot + 1) * EDGE_SLOT_STRIDE + (dscp &&& EDGE_DSCP_MASK)

/-- IPv4 before IPv6, each by its number. -/
def underlayOrder : IpAddr → Nat
  | .v4 bits => bits.toNat
  | .v6 groups => 2 ^ 32 + groups.toList.foldl (fun n group => n * 65536 + group.toNat) 0

/-- The place of a gateway among the sorted underlay addresses. -/
def gatewaySlot (gateways : List GatewayNode) (gatewayUnderlay : IpAddr) : UInt32 :=
  let underlays := ((gateways.map (·.underlayIp)).insertionSort fun a b => underlayOrder a ≤ underlayOrder b).destutter
    fun a b => a ≠ b
  UInt32.ofNat ((underlays.findIdx? fun ip => ip = gatewayUnderlay).getD 0)

/-- The gateway's entry for itself, or what its settings say. -/
def sourceGateway (cfg : FileConfig) : GatewayNode :=
  (cfg.gatewayNodes.find? fun gw => gw.name = cfg.nodeName ∨ gw.underlayIp = cfg.underlayIp).getD
    { name := cfg.nodeName, publicIp := cfg.publicIp, underlayIp := cfg.underlayIp, overlayIp := cfg.gateway.overlayIp }

def overlayAddr (value name : String) : Except String IpAddr :=
  orBail (parseIp (String.ofList (value.toList.takeWhile (· ≠ '/')))) s!"bad {name} {debugStr value}"

def fromConfigForBackend (cfg : FileConfig) (backendUnderlay : IpAddr) : Except String Pb.ConfigSnapshot := do
  let n := cfg.network
  let source := sourceGateway cfg
  let gatewayOverlayIp ← overlayAddr source.overlayIp "gateway overlay_ip"
  let backendOverlayIp :=
    ((cfg.backendNodesEffective.find? fun backend => backend.underlayIp = backendUnderlay).map (·.overlayIp)).getD ""
  let slot := gatewaySlot cfg.gatewayNodes source.underlayIp
  return {
    network := some {
      gatewayIp := showIp source.underlayIp, overlayCidr := n.overlayCidr, gatewayVxlanDev := n.vxlanDev
      vni := UInt32.ofNat n.vni, vxlanPort := n.vxlanPort.toUInt32, vxlanMtu := UInt32.ofNat n.vxlanMtu, dscp := n.dscp }
    gatewayNodes := [{ name := source.name, underlayIp := showIp source.underlayIp, overlayIp := source.overlayIp }]
    gatewayReturnPaths := [{
      gateway := source.name, gatewayUnderlayIp := showIp source.underlayIp, gatewayOverlayIp := showIp gatewayOverlayIp
      backendOverlayIp, dscp := n.dscp, mark := returnMark n.dscp slot, routeTableId := returnTableId n.dscp slot }] }

section digest

variable (digest : Bytes → String)

def snapshotVersion (snapshot : Pb.ConfigSnapshot) : String := digest snapshot.encode

def responseForBackend (cfg : FileConfig) (backendUnderlay : IpAddr) : Except String Pb.DiscoveryResponse := do
  let snapshot ← fromConfigForBackend cfg backendUnderlay
  return { version := snapshotVersion digest snapshot, snapshot := some snapshot }

/-- The hash of a text, which a backend takes of the versions. -/
def digestText (text : String) : String := digest (utf8 text)

/-- The version is that of the snapshot. -/
def Versioned (resp : Pb.DiscoveryResponse) : Prop :=
  ∀ snapshot, resp.snapshot = some snapshot → resp.version = snapshotVersion digest snapshot

/-- What a path is told apart by. -/
def pathKey (path : Pb.GatewayReturnPath) : String × String × UInt32 × UInt32 × UInt32 :=
  (path.gatewayUnderlayIp, path.gatewayOverlayIp, path.dscp, path.mark, path.routeTableId)

/-- A snapshot of a gateway's own return paths. -/
structure OwnPaths (snapshot : Pb.ConfigSnapshot) : Prop where
  own : ∀ path ∈ snapshot.gatewayReturnPaths, path.gatewayUnderlayIp = snapshotGatewayKey snapshot
  apart : (snapshot.gatewayReturnPaths.map pathKey).Nodup

theorem responseForBackend_sends {cfg : FileConfig} {backendUnderlay : IpAddr} {resp : Pb.DiscoveryResponse}
    (h : responseForBackend digest cfg backendUnderlay = .ok resp) :
    Versioned digest resp ∧ ∃ snapshot, resp.snapshot = some snapshot ∧ OwnPaths snapshot := by
  obtain ⟨snapshot, hsnapshot, hresp⟩ := bind_eq_ok.mp h
  obtain rfl := Except.ok.inj hresp
  obtain ⟨overlay, -, hsnapshot⟩ := bind_eq_ok.mp hsnapshot
  obtain rfl := Except.ok.inj hsnapshot
  refine ⟨fun s hs => ?_, _, rfl, ⟨?_, List.nodup_singleton _⟩⟩
  · rw [← Option.some.inj hs]
  · intro path hpath
    rw [List.mem_singleton.mp hpath]
    rfl

end digest

/-! ## The first of every key -/

section firstByKey

variable {α κ : Type} [DecidableEq κ] (key : α → κ)

def keepFirst (out : List α) (x : α) : List α := if key x ∈ out.map key then out else out ++ [x]

variable {key}

theorem mem_keepFirst {out xs : List α} {y : α} (h : y ∈ xs.foldl (keepFirst key) out) : y ∈ out ∨ y ∈ xs := by
  induction xs generalizing out with
  | nil => exact .inl h
  | cons x xs ih =>
    rcases ih h with hout | hxs
    · unfold keepFirst at hout
      split at hout
      · exact .inl hout
      · rcases List.mem_append.mp hout with hout | hx
        · exact .inl hout
        · exact .inr (List.mem_cons.mpr (.inl (List.mem_singleton.mp hx)))
    · exact .inr (List.mem_cons_of_mem _ hxs)

theorem keys_keepFirst {out : List α} (xs : List α) (hout : (out.map key).Nodup) :
    ((xs.foldl (keepFirst key) out).map key).Nodup ∧
      ∀ x, x ∈ out ∨ x ∈ xs → key x ∈ (xs.foldl (keepFirst key) out).map key := by
  induction xs generalizing out with
  | nil => exact ⟨hout, fun x hx => List.mem_map_of_mem (hx.resolve_right List.not_mem_nil)⟩
  | cons x xs ih =>
    rw [List.foldl_cons]
    by_cases hmem : key x ∈ out.map key
    · rw [keepFirst, if_pos hmem]
      obtain ⟨hnodup, hall⟩ := ih hout
      refine ⟨hnodup, fun y hy => ?_⟩
      rcases hy with hy | hy
      · exact hall y (.inl hy)
      · rcases List.mem_cons.mp hy with rfl | hy
        · -- its key is that of an element kept before
          obtain ⟨z, hz, hkey⟩ := List.mem_map.mp hmem
          rw [← hkey]
          exact hall z (.inl hz)
        · exact hall y (.inr hy)
    · rw [keepFirst, if_neg hmem]
      have hnodup : ((out ++ [x]).map key).Nodup := by
        rw [List.map_append, List.nodup_append]
        refine ⟨hout, List.nodup_singleton _, ?_⟩
        rintro k hk k' hk' rfl
        rw [List.map_singleton, List.mem_singleton] at hk'
        exact hmem (hk' ▸ hk)
      obtain ⟨hresult, hall⟩ := ih hnodup
      refine ⟨hresult, fun y hy => ?_⟩
      rcases hy with hy | hy
      · exact hall y (.inl (List.mem_append_left _ hy))
      · rcases List.mem_cons.mp hy with rfl | hy
        · exact hall _ (.inl (List.mem_append_right _ (List.mem_singleton_self _)))
        · exact hall y (.inr hy)

/-- An element of every key, and no key twice. -/
theorem count_firstByKey [BEq κ] [LawfulBEq κ] {xs : List α} {x : α} (hx : x ∈ xs) :
    ((firstByKey key xs).map key).count (key x) = 1 := by
  have hkeys : (([] : List α).map key).Nodup := List.nodup_nil
  obtain ⟨hnodup, hall⟩ := keys_keepFirst xs hkeys
  exact List.count_eq_one_of_mem hnodup (hall x (.inr hx))

theorem mem_of_mem_firstByKey {xs : List α} {x : α} (h : x ∈ firstByKey key xs) : x ∈ xs :=
  (mem_keepFirst h).resolve_left List.not_mem_nil

theorem foldl_keepFirst_of_nodup {out xs : List α} (h : ((out ++ xs).map key).Nodup) :
    xs.foldl (keepFirst key) out = out ++ xs := by
  induction xs generalizing out with
  | nil => rw [List.foldl_nil, List.append_nil]
  | cons x xs ih =>
    have hassoc : out ++ x :: xs = (out ++ [x]) ++ xs := by rw [List.append_assoc, List.singleton_append]
    have hfree : key x ∉ out.map key := by
      rw [List.map_append, List.map_cons, List.nodup_append] at h
      intro hmem
      exact h.2.2 _ hmem _ List.mem_cons_self rfl
    rw [List.foldl_cons, keepFirst, if_neg hfree, hassoc]
    rw [hassoc] at h
    exact ih h

theorem firstByKey_of_nodup {xs : List α} (h : (xs.map key).Nodup) : firstByKey key xs = xs := by
  rw [← List.nil_append xs] at h
  exact foldl_keepFirst_of_nodup h

end firstByKey

/-! ## What a backend has -/

variable (responses : List Pb.DiscoveryResponse)

/-- The versions and snapshots that were received. -/
def available : List (String × Pb.ConfigSnapshot) :=
  responses.filterMap fun resp => resp.snapshot.map fun snapshot => (resp.version, snapshot)

def snapshotsOf : List Pb.ConfigSnapshot := responses.filterMap (·.snapshot)

/-- No two responses are of one gateway. -/
def DistinctGateways (responses : List Pb.DiscoveryResponse) : Prop :=
  ((snapshotsOf responses).map snapshotGatewayKey).Nodup

instance (responses : List Pb.DiscoveryResponse) : Decidable (DistinctGateways responses) :=
  inferInstanceAs (Decidable (List.Nodup _))

def byGateway (a b : String × Pb.ConfigSnapshot) : Prop := snapshotGatewayKey a.2 ≤ snapshotGatewayKey b.2

instance : DecidableRel byGateway := fun a b => inferInstanceAs (Decidable (snapshotGatewayKey a.2 ≤ snapshotGatewayKey b.2))

instance : IsTrans (String × Pb.ConfigSnapshot) byGateway := ⟨fun _ _ _ => le_trans⟩

instance : Std.Total byGateway := ⟨fun _ _ => le_total _ _⟩

/-- The text whose hash is the combined version. -/
def versionsText : String :=
  String.join (((available responses).map (·.1)).insertionSort (· ≤ ·))

theorem map_available :
    (available responses).map (·.2) = snapshotsOf responses := by
  rw [available, snapshotsOf, List.map_filterMap]
  refine List.filterMap_congr fun resp _ => ?_
  cases resp.snapshot with
  | none => rfl
  | some snapshot => rfl

/-- The combination of what is sorted already. -/
def combineSorted (sha : String → String) (sorted : List (String × Pb.ConfigSnapshot)) : Except String Combined :=
  match sorted with
  | [] => .error "no xDS snapshots available"
  | first :: _ =>
    .ok {
      version := sha (String.join ((sorted.map (·.1)).insertionSort (· ≤ ·)))
      snapshot := { first.2 with
        gatewayNodes := firstByKey (fun gateway => (gateway.underlayIp, gateway.name)) (sorted.flatMap (·.2.gatewayNodes))
        gatewayReturnPaths := firstByKey pathKey (sorted.flatMap (·.2.gatewayReturnPaths)) } }

theorem combine_eq_sorted (sha : String → String) (responses : List Pb.DiscoveryResponse) :
    combineGatewayResponses sha responses = combineSorted sha ((available responses).insertionSort byGateway) := rfl

section combined

variable {digest : Bytes → String} {xs ys : List Pb.DiscoveryResponse} {combined : Combined}

section

variable (h : combineGatewayResponses (digestText digest) xs = .ok combined)
include h

/-- The text that is hashed, whatever the order of the responses. -/
theorem version_combined :
    combined.version = digestText digest (versionsText xs) := by
  have hversion : String.join ((((available xs).insertionSort byGateway).map (·.1)).insertionSort (· ≤ ·)) =
      versionsText xs := by
    refine congrArg String.join (insertionSort_eq_of_perm ?_ ((List.perm_insertionSort _ _).map _))
    exact fun a _ b _ => le_antisymm
  rw [combine_eq_sorted] at h
  cases hsorted : (available xs).insertionSort byGateway with
  | nil => simp [hsorted, combineSorted] at h
  | cons first rest =>
    rw [hsorted] at h hversion
    obtain rfl := Except.ok.inj h
    exact congrArg (digestText digest) hversion

theorem paths_combined :
    combined.snapshot.gatewayReturnPaths =
      firstByKey pathKey (((available xs).insertionSort byGateway).flatMap (·.2.gatewayReturnPaths)) := by
  rw [combine_eq_sorted] at h
  cases hsorted : (available xs).insertionSort byGateway with
  | nil => simp [hsorted, combineSorted] at h
  | cons first rest =>
    rw [hsorted] at h
    obtain rfl := Except.ok.inj h
    rfl

end

section

variable (hx : DistinctGateways xs) (hperm : (available ys).Perm (available xs))
include hx hperm

/-- Different gateways sort in one way. -/
theorem sorted_eq_of_perm :
    (available ys).insertionSort byGateway = (available xs).insertionSort byGateway := by
  refine insertionSort_eq_of_perm (fun a ha b hb hab hba => ?_) hperm
  have hnodup : ((available xs).map fun e => snapshotGatewayKey e.2).Nodup := by
    have hmap : (available xs).map (fun e => snapshotGatewayKey e.2) = (snapshotsOf xs).map snapshotGatewayKey := by
      rw [← map_available, List.map_map]
      rfl
    rw [hmap]
    exact hx
  exact List.inj_on_of_nodup_map hnodup ha hb (le_antisymm hab hba)

theorem combine_perm :
    combineGatewayResponses (digestText digest) ys = combineGatewayResponses (digestText digest) xs := by
  rw [combine_eq_sorted, combine_eq_sorted, sorted_eq_of_perm hx hperm]

end

/-! ### The paths -/

/-- All the paths that were sent. -/
def pathsOf (responses : List Pb.DiscoveryResponse) : List Pb.GatewayReturnPath :=
  (snapshotsOf responses).flatMap (·.gatewayReturnPaths)

theorem sortedPaths_perm (xs : List Pb.DiscoveryResponse) :
    (((available xs).insertionSort byGateway).flatMap (·.2.gatewayReturnPaths)).Perm (pathsOf xs) := by
  have hpaths : pathsOf xs = (available xs).flatMap (·.2.gatewayReturnPaths) := by
    rw [pathsOf, ← map_available, List.flatMap_map]
  rw [hpaths]
  exact (List.perm_insertionSort _ _).flatMap_right _

/-- Every path that was sent is there once, as far as its key tells, and no other. -/
structure PathsOnce (sent : List Pb.GatewayReturnPath) (snapshot : Pb.ConfigSnapshot) : Prop where
  once : ∀ path ∈ sent, (snapshot.gatewayReturnPaths.map pathKey).count (pathKey path) = 1
  sent : ∀ path ∈ snapshot.gatewayReturnPaths, path ∈ sent

theorem pathsOnce_combined (h : combineGatewayResponses (digestText digest) xs = .ok combined) :
    PathsOnce (pathsOf xs) combined.snapshot := by
  constructor
  · intro path hpath
    rw [paths_combined h]
    exact count_firstByKey ((sortedPaths_perm xs).mem_iff.mpr hpath)
  · intro path hpath
    rw [paths_combined h] at hpath
    exact (sortedPaths_perm xs).mem_iff.mp (mem_of_mem_firstByKey hpath)

/-- The paths of different gateways have different keys. -/
theorem nodup_ownPaths {snapshots : List Pb.ConfigSnapshot} (hkeys : (snapshots.map snapshotGatewayKey).Nodup)
    (hown : ∀ snapshot ∈ snapshots, OwnPaths snapshot) :
    ((snapshots.flatMap (·.gatewayReturnPaths)).map pathKey).Nodup := by
  induction snapshots with
  | nil => exact List.nodup_nil
  | cons snapshot snapshots ih =>
    obtain ⟨hhead, hown⟩ := List.forall_mem_cons.mp hown
    rw [List.map_cons, List.nodup_cons] at hkeys
    rw [List.flatMap_cons, List.map_append, List.nodup_append]
    refine ⟨hhead.apart, ih hkeys.2 hown, ?_⟩
    rintro k hk k' hk' rfl
    obtain ⟨path, hpath, rfl⟩ := List.mem_map.mp hk
    obtain ⟨path', hpath', hkey⟩ := List.mem_map.mp hk'
    obtain ⟨other, hother, hpath'⟩ := List.mem_flatMap.mp hpath'
    have hunderlay : path'.gatewayUnderlayIp = path.gatewayUnderlayIp := congrArg Prod.fst hkey
    rw [(hown other hother).own path' hpath', hhead.own path hpath] at hunderlay
    exact hkeys.1 (hunderlay ▸ List.mem_map_of_mem hother)

/-- When every gateway sends its own paths, these are the combined ones. -/
theorem ownPaths_combined (hx : DistinctGateways xs) (hown : ∀ snapshot ∈ snapshotsOf xs, OwnPaths snapshot)
    (h : combineGatewayResponses (digestText digest) xs = .ok combined) :
    combined.snapshot.gatewayReturnPaths.Perm (pathsOf xs) := by
  have hperm := sortedPaths_perm xs
  have hnodup := (hperm.map pathKey).nodup_iff.mpr (nodup_ownPaths hx hown)
  rw [paths_combined h, firstByKey_of_nodup hnodup]
  exact hperm

/-! ### The version -/

/-- What is hashed for a list of responses: each snapshot, and the versions together. -/
def hashed (responses : List Pb.DiscoveryResponse) : List Bytes :=
  (snapshotsOf responses).map (·.encode) ++ [utf8 (versionsText responses)]

/-- The hash is 64 hexadecimal digits, and tells the inputs apart. -/
structure CollisionFree (digest : Bytes → String) (inputs : List Bytes) : Prop where
  width : ∀ bs, (digest bs).length = 64
  apart : ∀ a ∈ inputs, ∀ b ∈ inputs, digest a = digest b → a = b

theorem available_of_versioned (hversioned : ∀ resp ∈ xs, Versioned digest resp) :
    available xs = (snapshotsOf xs).map fun snapshot => (snapshotVersion digest snapshot, snapshot) := by
  rw [available, snapshotsOf, List.map_filterMap]
  refine List.filterMap_congr fun resp hresp => ?_
  cases hsnapshot : resp.snapshot with
  | none => rfl
  | some snapshot => rw [Option.map_some, Option.map_some, hversioned resp hresp snapshot hsnapshot]

theorem versions_of_versioned (hversioned : ∀ resp ∈ xs, Versioned digest resp) :
    (available xs).map (·.1) = (snapshotsOf xs).map (snapshotVersion digest) := by
  rw [available_of_versioned hversioned, List.map_map]
  rfl

/-- A string of versions has one reading, since they have one length. -/
theorem versions_perm (hwidth : ∀ bs, (digest bs).length = 64) (hx : ∀ resp ∈ xs, Versioned digest resp)
    (hy : ∀ resp ∈ ys, Versioned digest resp) (h : versionsText xs = versionsText ys) :
    ((available xs).map (·.1)).Perm ((available ys).map (·.1)) := by
  have hlength {rs : List Pb.DiscoveryResponse} (hrs : ∀ resp ∈ rs, Versioned digest resp) :
      ∀ version ∈ ((available rs).map (·.1)).insertionSort (· ≤ ·), version.toList.length = 64 := by
    intro version hversion
    rw [List.mem_insertionSort, versions_of_versioned hrs] at hversion
    obtain ⟨snapshot, -, rfl⟩ := List.mem_map.mp hversion
    rw [String.length_toList]
    exact hwidth snapshot.encode
  have htext := congrArg String.toList h
  rw [versionsText, versionsText, String.toList_join, String.toList_join] at htext
  have hlists := flatMap_inj_of_length (by decide) (hlength hx) (hlength hy) htext
  have hsorted := List.map_injective_iff.mpr (fun _ _ => String.toList_inj.mp) hlists
  have hperm := (List.perm_insertionSort (· ≤ ·) ((available xs).map (·.1))).symm
  rw [hsorted] at hperm
  exact hperm.trans (List.perm_insertionSort _ _)

theorem available_perm_of_version {combined' : Combined} (hx : ∀ resp ∈ xs, Versioned digest resp)
    (hy : ∀ resp ∈ ys, Versioned digest resp) (hfree : CollisionFree digest (hashed xs ++ hashed ys))
    (h : combineGatewayResponses (digestText digest) xs = .ok combined)
    (h' : combineGatewayResponses (digestText digest) ys = .ok combined') (hversion : combined.version = combined'.version) :
    (available xs).Perm (available ys) := by
  rw [version_combined h, version_combined h'] at hversion
  have htexts : versionsText xs = versionsText ys := by
    refine utf8_inj (hfree.apart _ ?_ _ ?_ hversion)
    · simp [hashed]
    · simp [hashed]
  have hperm := versions_perm hfree.width hx hy htexts
  rw [versions_of_versioned hx, versions_of_versioned hy] at hperm
  rw [available_of_versioned hx, available_of_versioned hy]
  refine (perm_of_map_perm (fun s hs t ht hst => ?_) hperm).map _
  refine Pb.ConfigSnapshot.encode_injective (hfree.apart _ ?_ _ ?_ hst)
  · exact List.mem_append_left _ (List.mem_append_left _ (List.mem_map_of_mem hs))
  · exact List.mem_append_right _ (List.mem_append_left _ (List.mem_map_of_mem ht))

end combined

/-- Responses of different gateways: in whatever order they come, the combined snapshot and its
    version are the same; every return path that was sent is in it once, and these are just the
    gateways' own when each sends its own; and the snapshots of two such lists are the same when
    their versions are, if versions are hashes that tell apart what is hashed. -/
theorem gateway_responses_combine (digest : Bytes → String) {xs : List Pb.DiscoveryResponse} (hx : DistinctGateways xs) :
    (∀ ys : List Pb.DiscoveryResponse, ys.Perm xs →
      combineGatewayResponses (digestText digest) ys = combineGatewayResponses (digestText digest) xs) ∧
    (∀ combined, combineGatewayResponses (digestText digest) xs = .ok combined →
      PathsOnce (pathsOf xs) combined.snapshot ∧
        ((∀ snapshot ∈ snapshotsOf xs, OwnPaths snapshot) →
          combined.snapshot.gatewayReturnPaths.Perm (pathsOf xs) ∧ (pathsOf xs).Nodup)) ∧
    ∀ ys combined combined', (∀ resp ∈ xs ++ ys, Versioned digest resp) →
      CollisionFree digest (hashed xs ++ hashed ys) → combineGatewayResponses (digestText digest) xs = .ok combined →
      combineGatewayResponses (digestText digest) ys = .ok combined' → combined.version = combined'.version →
      combined.snapshot = combined'.snapshot := by
  refine ⟨fun ys hperm => combine_perm hx (hperm.filterMap _), fun combined h => ?_, ?_⟩
  · refine ⟨pathsOnce_combined h, fun hown => ⟨ownPaths_combined hx hown h, ?_⟩⟩
    exact List.Nodup.of_map pathKey (nodup_ownPaths hx hown)
  · intro ys combined combined' hversioned hfree h h' hversion
    have hperm := available_perm_of_version (fun r hr => hversioned r (List.mem_append_left _ hr))
      (fun r hr => hversioned r (List.mem_append_right _ hr)) hfree h h' hversion
    have heq : combineGatewayResponses (digestText digest) ys = combineGatewayResponses (digestText digest) xs :=
      combine_perm hx hperm.symm
    rw [h, h'] at heq
    rw [Except.ok.inj heq]

/-! ## Two gateways -/

/-- A gateway of a site with the gateways 192.0.2.11 and 192.0.2.16. -/
def siteGateway (name overlayCidr : String) (dscp : UInt32) : FileConfig :=
  { nodeRole := .gateway
    nodeName := name
    network := { overlayCidr, vxlanDev := "edge-hub", dscp }
    gatewayNodes := [
      { name := "gateway-a", publicIp := .v4 0xcb00710a, underlayIp := .v4 0xc000020b, overlayIp := "10.255.12.1/24" },
      { name := "gateway-b", publicIp := .v4 0xcb00710b, underlayIp := .v4 0xc0000210, overlayIp := "10.255.16.1/24" }] }

def siteSnapshot (name overlayCidr : String) (dscp : UInt32) : Pb.ConfigSnapshot :=
  (fromConfigForBackend (siteGateway name overlayCidr dscp) (.v4 0xc0000216)).toOption.getD ⟨none, [], []⟩

def snapshotA : Pb.ConfigSnapshot := siteSnapshot "gateway-a" "10.255.12.0/24" 46
def snapshotB : Pb.ConfigSnapshot := siteSnapshot "gateway-b" "10.255.16.0/24" 40

def versionA : String := "5a803ad61de1088457120f9616a025a7f4036460cf6b95aa8b84fcf9d8e6b671"
def versionB : String := "2e1048654f8f4c07e710126437b715fb291e70045d45a4485cfe068f511807cf"
def versionAB : String := "1bb3df19d9f366289b3a9566e0bb4e8cae72565ec6aab98d037b786501c18d63"

/-- SHA-256 of the two snapshots and of their versions; for anything else that of nothing. -/
def siteDigest (bs : Bytes) : String :=
  if bs = snapshotA.encode then versionA
  else if bs = snapshotB.encode then versionB
  else if bs = utf8 (versionB ++ versionA) then versionAB
  else "e3b0c44298fc1c149afbf4c8996fb92427ae41e4649b934ca495991b7852b855"

def responseA : Pb.DiscoveryResponse := { version := versionA, snapshot := some snapshotA }
def responseB : Pb.DiscoveryResponse := { version := versionB, snapshot := some snapshotB }

theorem siteDigest_width (bs : Bytes) : (siteDigest bs).length = 64 := by
  unfold siteDigest
  split
  · decide
  · split
    · decide
    · split
      · decide
      · decide

theorem siteDigest_snapshotA : siteDigest snapshotA.encode = versionA := if_pos rfl

theorem siteDigest_snapshotB : siteDigest snapshotB.encode = versionB := by
  have hapart : snapshotB.encode ≠ snapshotA.encode := fun h =>
    absurd (Pb.ConfigSnapshot.encode_injective h) (by decide)
  exact (if_neg hapart).trans (if_pos rfl)

theorem siteDigest_versions : siteDigest (utf8 (versionB ++ versionA)) = versionAB := by
  have hA : utf8 (versionB ++ versionA) ≠ snapshotA.encode := fun h => absurd (congrArg List.head? h) (by decide)
  have hB : utf8 (versionB ++ versionA) ≠ snapshotB.encode := fun h => absurd (congrArg List.head? h) (by decide)
  exact (if_neg hA).trans ((if_neg hB).trans (if_pos rfl))

theorem site_responses :
    responseForBackend siteDigest (siteGateway "gateway-a" "10.255.12.0/24" 46) (.v4 0xc0000216) = .ok responseA ∧
      responseForBackend siteDigest (siteGateway "gateway-b" "10.255.16.0/24" 40) (.v4 0xc0000216) = .ok responseB := by
  have hA : fromConfigForBackend (siteGateway "gateway-a" "10.255.12.0/24" 46) (.v4 0xc0000216) = .ok snapshotA := by
    decide
  have hB : fromConfigForBackend (siteGateway "gateway-b" "10.255.16.0/24" 40) (.v4 0xc0000216) = .ok snapshotB := by
    decide
  refine ⟨?_, ?_⟩
  · rw [responseForBackend, hA, responseA, ← siteDigest_snapshotA]
    rfl
  · rw [responseForBackend, hB, responseB, ← siteDigest_snapshotB]
    rfl

theorem site_collisionFree : CollisionFree siteDigest (hashed [responseA, responseB] ++ hashed [responseB, responseA]) := by
  have hinputs : hashed [responseA, responseB] ++ hashed [responseB, responseA] =
      [snapshotA.encode, snapshotB.encode, utf8 (versionB ++ versionA),
        snapshotB.encode, snapshotA.encode, utf8 (versionB ++ versionA)] := rfl
  have hAB : versionA ≠ versionB ∧ versionA ≠ versionAB ∧ versionB ≠ versionAB := by decide
  refine ⟨siteDigest_width, ?_⟩
  rw [hinputs]
  simp only [List.forall_mem_cons, siteDigest_snapshotA, siteDigest_snapshotB, siteDigest_versions]
  simp [hAB, hAB.1.symm, hAB.2.1.symm, hAB.2.2.symm]

/-- The combined snapshot of the site: a path to each gateway, whoever answered first. -/
theorem site_combined :
    DistinctGateways [responseA, responseB] ∧
      combineGatewayResponses (digestText siteDigest) [responseB, responseA] =
        combineGatewayResponses (digestText siteDigest) [responseA, responseB] ∧
      ∃ combined, combineGatewayResponses (digestText siteDigest) [responseA, responseB] = .ok combined ∧
        combined.version = versionAB ∧
        combined.snapshot.gatewayReturnPaths.Perm (snapshotA.gatewayReturnPaths ++ snapshotB.gatewayReturnPaths) ∧
        ∀ combined', combineGatewayResponses (digestText siteDigest) [responseB, responseA] = .ok combined' →
          combined.version = combined'.version → combined.snapshot = combined'.snapshot := by
  have hdistinct : DistinctGateways [responseA, responseB] := by decide
  obtain ⟨horder, hpaths, hversions⟩ := gateway_responses_combine siteDigest hdistinct
  obtain ⟨hversionA, sentA, hsentA, hownA⟩ := responseForBackend_sends siteDigest site_responses.1
  obtain ⟨hversionB, sentB, hsentB, hownB⟩ := responseForBackend_sends siteDigest site_responses.2
  obtain ⟨combined, hcombined, hversion⟩ : ∃ combined, combineGatewayResponses (digestText siteDigest)
      [responseA, responseB] = .ok combined ∧ combined.version = versionAB := ⟨_, rfl, by decide⟩
  refine ⟨hdistinct, horder _ (List.Perm.swap ..), combined, hcombined, hversion, ?_, ?_⟩
  · refine ((hpaths combined hcombined).2 ?_).1
    rw [show snapshotsOf [responseA, responseB] = [snapshotA, snapshotB] from rfl, List.forall_mem_cons,
      List.forall_mem_singleton, Option.some.inj hsentA, Option.some.inj hsentB]
    exact ⟨hownA, hownB⟩
  · intro combined' hcombined' heq
    refine hversions _ _ _ ?_ site_collisionFree hcombined hcombined' heq
    simp only [List.cons_append, List.nil_append, List.forall_mem_cons]
    exact ⟨hversionA, hversionB, hversionB, hversionA, fun _ h => absurd h List.not_mem_nil⟩

end EdgeLb.Control
