/-
  EdgeLb.Role.Mirror — the overlay addresses a backend claims, one for each gateway
  (`ha_backend_overlay_addrs` of `edge-lb/src/role/backend.rs`).

  The backend's host number, taken from its own overlay address, is carried over into the
  prefix of each gateway. An address that is the gateway's, another backend's or the network's
  is passed over; whether the number fits the gateway's prefix is not looked at.

  `mirror_sound_iff`: an address that is claimed is a host of the gateway's prefix, apart from
  the gateway's and from what any other backend claims there, exactly when the number is
  smaller than that of the broadcast address.
-/

import EdgeLb.Config.Overlay
import EdgeLb.Lib.Prefix

namespace EdgeLb.Role

open EdgeLb.Config EdgeLb.Lib

/-- Both callers drop the error. -/
def parseIpv4Cidr (value : String) : Option (UInt32 × Nat) := do
  let (ip, len) ← splitOnce '/' value.toList
  let ip ← parseIpv4 (String.ofList ip)
  let len ← parseUnsigned 256 len
  return (ip, len)

def mask (len : Nat) : UInt32 := if len = 0 then 0 else 0xffffffff <<< UInt32.ofNat (32 - min len 32)

def hostOffset (ip : UInt32) (len : Nat) : UInt32 := ip &&& ~~~mask len

def networkAddr (ip : UInt32) (len : Nat) : UInt32 := ip &&& mask len

def saturatingAdd (a b : UInt32) : UInt32 := UInt32.ofNat (min (a.toNat + b.toNat) 0xffffffff)

def localBackend (file : FileConfig) : Option BackendNode :=
  (file.backendNodesEffective.find? (·.name = file.nodeName)).or file.backendNodesEffective.head?

/-- The addresses of the other backends. -/
def takenElsewhere (file : FileConfig) (node : BackendNode) : List UInt32 :=
  (file.backendNodesEffective.filter (·.name ≠ node.name)).filterMap fun other => (parseIpv4Cidr other.overlayIp).map (·.1)

def mirrorIn (offset : UInt32) (taken : List UInt32) (gateway : GatewayNode) : Option (UInt32 × Nat) := do
  let (gatewayIp, len) ← parseIpv4Cidr gateway.overlayIp
  let network := networkAddr gatewayIp len
  let candidate := saturatingAdd network offset
  if candidate = gatewayIp || candidate ∈ taken || candidate = network then none
  else some (candidate, len)

/-- What the loop makes of one gateway. -/
def mirrorAt (file : FileConfig) (gateway : GatewayNode) : Option (UInt32 × Nat) := do
  let node ← localBackend file
  let (ip, len) ← parseIpv4Cidr node.overlayIp
  mirrorIn (hostOffset ip len) (takenElsewhere file node) gateway

def haBackendOverlayAddrs (file : FileConfig) : List String :=
  file.gatewayNodes.filterMap fun gateway => (mirrorAt file gateway).map fun (ip, len) => overlayText ip len

/-! ## Masks -/

theorem mask_clears (len : Nat) : Clears (mask len) (32 - len) := by
  refine ⟨Nat.sub_le 32 len, ?_⟩
  by_cases hlen : len ≤ 32
  · have hall : ∀ n ≤ 32, (~~~mask n).toNat = 2 ^ (32 - n) - 1 := by decide
    exact hall len hlen
  · have hmin : min len 32 = 32 := by omega
    have hzero : 32 - len = 0 := by omega
    have hne : len ≠ 0 := by omega
    simp only [mask, hmin, hne, if_false, hzero]
    decide

theorem saturatingAdd_toNat (a b : UInt32) : (saturatingAdd a b).toNat = min (a.toNat + b.toNat) 0xffffffff := by
  rw [saturatingAdd, UInt32.toNat_ofNat']
  exact Nat.mod_eq_of_lt (by omega)

/-- The last address of a prefix. -/
def broadcastAddr (ip : UInt32) (len : Nat) : UInt32 := saturatingAdd (networkAddr ip len) (~~~mask len)

theorem broadcastAddr_toNat (ip : UInt32) (len : Nat) :
    (broadcastAddr ip len).toNat = (networkAddr ip len).toNat + (2 ^ (32 - len) - 1) := by
  have hfits := (mask_clears len).start_add_le ip
  have hpos := Nat.two_pow_pos (32 - len)
  rw [broadcastAddr, saturatingAdd_toNat, (mask_clears len).low]
  simp only [networkAddr] at hfits ⊢
  omega

/-! ## Mirrors -/

section

variable {file : FileConfig} {gateway : GatewayNode} {node : BackendNode} {ip gatewayIp mirror : UInt32} {len glen : Nat}

theorem mirrorIn_eq_some {offset : UInt32} {taken : List UInt32} (hgateway : parseIpv4Cidr gateway.overlayIp = some (gatewayIp, glen)) :
    mirrorIn offset taken gateway = some (mirror, len) ↔
      (saturatingAdd (networkAddr gatewayIp glen) offset = mirror ∧ glen = len) ∧
        mirror ≠ gatewayIp ∧ mirror ∉ taken ∧ mirror ≠ networkAddr gatewayIp glen := by
  simp only [mirrorIn, hgateway, Option.bind_eq_bind, Option.bind_some]
  split
  · next hskip =>
    simp only [Bool.or_eq_true, decide_eq_true_eq] at hskip
    constructor
    · intro h
      cases h
    · rintro ⟨⟨rfl, -⟩, hgw, htaken, hnet⟩
      rcases hskip with (h | h) | h
      · exact absurd h hgw
      · exact absurd h htaken
      · exact absurd h hnet
  · next hpush =>
    simp only [Bool.or_eq_true, decide_eq_true_eq, not_or] at hpush
    simp only [Option.some.injEq, Prod.mk.injEq]
    constructor
    · rintro ⟨rfl, rfl⟩
      exact ⟨⟨rfl, rfl⟩, hpush.1.1, hpush.1.2, hpush.2⟩
    · exact fun h => h.1

/-- Where a backend's node and prefix are known, what it claims is computed from its number. -/
theorem mirrorAt_eq (hlocal : localBackend file = some node) (hnode : parseIpv4Cidr node.overlayIp = some (ip, len)) :
    mirrorAt file gateway = mirrorIn (hostOffset ip len) (takenElsewhere file node) gateway := by
  simp only [mirrorAt, hlocal, hnode, Option.bind_eq_bind, Option.bind_some]

/-- A number below the broadcast address's is carried over as it is. -/
theorem carried_toNat {offset : UInt32} (hfits : offset.toNat + 1 < 2 ^ (32 - glen)) :
    (saturatingAdd (networkAddr gatewayIp glen) offset).toNat = (networkAddr gatewayIp glen).toNat + offset.toNat := by
  have hblock := (mask_clears glen).start_add_le gatewayIp
  rw [saturatingAdd_toNat]
  simp only [networkAddr] at hblock ⊢
  omega

/-- It is a host of the prefix exactly then. -/
theorem carried_host_iff (gatewayIp : UInt32) (glen : Nat) (offset : UInt32) :
    (networkAddr (saturatingAdd (networkAddr gatewayIp glen) offset) glen = networkAddr gatewayIp glen ∧
      saturatingAdd (networkAddr gatewayIp glen) offset ≠ broadcastAddr gatewayIp glen) ↔
    offset.toNat + 1 < 2 ^ (32 - glen) := by
  have hblock := (mask_clears glen).start_add_le gatewayIp
  have hbroadcast := broadcastAddr_toNat gatewayIp glen
  have hsum := saturatingAdd_toNat (networkAddr gatewayIp glen) offset
  have hpos := Nat.two_pow_pos (32 - glen)
  have hinside : networkAddr (saturatingAdd (networkAddr gatewayIp glen) offset) glen = networkAddr gatewayIp glen ↔ _ :=
    (mask_clears glen).start_eq_iff
  rw [hinside, ne_eq, ← UInt32.toNat_inj, hbroadcast, hsum]
  simp only [networkAddr] at hblock ⊢
  omega

/-- A number that fits and any other are carried to different addresses. -/
theorem carried_apart {offset other : UInt32} (hne : other ≠ offset) (hfits : offset.toNat + 1 < 2 ^ (32 - glen)) :
    saturatingAdd (networkAddr gatewayIp glen) other ≠ saturatingAdd (networkAddr gatewayIp glen) offset := by
  have hblock := (mask_clears glen).start_add_le gatewayIp
  have hne' : other.toNat ≠ offset.toNat := fun h => hne (UInt32.toNat_inj.mp h)
  rw [ne_eq, ← UInt32.toNat_inj, carried_toNat hfits, saturatingAdd_toNat]
  simp only [networkAddr] at hblock ⊢
  omega

/-- Backends of different names have different host numbers. -/
def DistinctOffsets (backends : List BackendNode) : Prop :=
  ∀ a ∈ backends, ∀ b ∈ backends, a.name ≠ b.name → ∀ x m y n,
    parseIpv4Cidr a.overlayIp = some (x, m) → parseIpv4Cidr b.overlayIp = some (y, n) → hostOffset x m ≠ hostOffset y n

/-- What is asked of the address claimed in a gateway's prefix. -/
structure SoundMirror (file : FileConfig) (node : BackendNode) (gateway : GatewayNode) (gatewayIp : UInt32) (glen : Nat)
    (mirror : UInt32) : Prop where
  inside : networkAddr mirror glen = networkAddr gatewayIp glen
  notNetwork : mirror ≠ networkAddr gatewayIp glen
  notBroadcast : mirror ≠ broadcastAddr gatewayIp glen
  notGateway : mirror ≠ gatewayIp
  apart : ∀ other ∈ file.backendNodesEffective, other.name ≠ node.name → ∀ claimed,
    mirrorAt { file with nodeName := other.name } gateway = some claimed → claimed.1 ≠ mirror

theorem mem_of_localBackend (h : localBackend file = some node) : node ∈ file.backendNodesEffective := by
  unfold localBackend at h
  rcases Option.or_eq_some_iff.mp h with hfind | ⟨-, hhead⟩
  · exact List.mem_of_find?_eq_some hfind
  · exact List.mem_of_mem_head? hhead

/-- At a backend that is listed, that backend is the local one. -/
theorem localBackend_named {other : BackendNode} (h : other ∈ file.backendNodesEffective) (hne : file.backendNodes ≠ []) :
    ∃ found ∈ file.backendNodesEffective, found.name = other.name ∧
      localBackend { file with nodeName := other.name } = some found := by
  have hsame : ({ file with nodeName := other.name } : FileConfig).backendNodesEffective = file.backendNodesEffective := by
    simp [FileConfig.backendNodesEffective, hne]
  obtain ⟨found, hfound⟩ : ∃ b, file.backendNodesEffective.find? (·.name = other.name) = some b := by
    rw [← Option.isSome_iff_exists, List.find?_isSome]
    exact ⟨other, h, by simp⟩
  refine ⟨found, List.mem_of_find?_eq_some hfound, by simpa using List.find?_some hfound, ?_⟩
  simp only [localBackend, hsame, hfound, Option.some_or]

/-- A backend alone has no others. -/
theorem backendNodes_ne_nil {other : BackendNode} (hlocal : localBackend file = some node)
    (h : other ∈ file.backendNodesEffective) (hne : other.name ≠ node.name) : file.backendNodes ≠ [] := by
  intro hnil
  have hnode := mem_of_localBackend hlocal
  simp only [FileConfig.backendNodesEffective, hnil, List.isEmpty_nil, Bool.not_true, Bool.false_eq_true, if_false] at h hnode
  split at h
  · next hpublic hunderlay =>
    simp only [hpublic, hunderlay, List.mem_singleton] at h hnode
    exact hne (by rw [h, hnode])
  · cases h

/-- An address claimed for a gateway is what it should be exactly when the backend's host
    number is below the broadcast address's in that gateway's prefix. -/
theorem mirror_sound_iff (hoffsets : DistinctOffsets file.backendNodesEffective) (hmem : gateway ∈ file.gatewayNodes)
    (hlocal : localBackend file = some node) (hnode : parseIpv4Cidr node.overlayIp = some (ip, len))
    (hgateway : parseIpv4Cidr gateway.overlayIp = some (gatewayIp, glen)) (h : mirrorAt file gateway = some (mirror, glen)) :
    overlayText mirror glen ∈ haBackendOverlayAddrs file ∧
      (SoundMirror file node gateway gatewayIp glen mirror ↔ (hostOffset ip len).toNat + 1 < 2 ^ (32 - glen)) := by
  have hlisted : overlayText mirror glen ∈ haBackendOverlayAddrs file :=
    List.mem_filterMap.mpr ⟨gateway, hmem, by rw [h, Option.map_some]⟩
  rw [mirrorAt_eq hlocal hnode, mirrorIn_eq_some hgateway] at h
  obtain ⟨⟨rfl, -⟩, hgw, -, hnetwork⟩ := h
  refine ⟨hlisted, fun hsound => ?_, fun hfits => ?_⟩
  · exact (carried_host_iff gatewayIp glen _).mp ⟨hsound.inside, hsound.notBroadcast⟩
  · obtain ⟨hinside, hbroadcast⟩ := (carried_host_iff gatewayIp glen _).mpr hfits
    refine ⟨hinside, hnetwork, hbroadcast, hgw, fun other hother hname claimed hclaimed => ?_⟩
    obtain ⟨found, hfound, hfoundName, hlocal'⟩ := localBackend_named hother (backendNodes_ne_nil hlocal hother hname)
    cases hparse : parseIpv4Cidr found.overlayIp with
    | none =>
      simp only [mirrorAt, hlocal', hparse, Option.bind_eq_bind, Option.bind_some, Option.bind_none] at hclaimed
      cases hclaimed
    | some own =>
      obtain ⟨otherIp, otherLen⟩ := own
      obtain ⟨claimedIp, claimedLen⟩ := claimed
      rw [mirrorAt_eq hlocal' hparse, mirrorIn_eq_some hgateway] at hclaimed
      obtain ⟨⟨rfl, -⟩, -⟩ := hclaimed
      have hdistinct : found.name ≠ node.name := by rw [hfoundName]; exact hname
      exact carried_apart (hoffsets found hfound node (mem_of_localBackend hlocal) hdistinct _ _ _ _ hparse hnode) hfits

end

/-! ## Two prefixes -/

def twoGateways (overlayA overlayB : String) (backends : List BackendNode) : FileConfig :=
  { nodeRole := .backend, nodeName := "backend-1"
    gatewayNodes := [⟨"gateway-a", .v4 0xcb00710a, .v4 0xc000020c, overlayA⟩,
      ⟨"gateway-b", .v4 0xcb00710b, .v4 0xc0000210, overlayB⟩]
    backendNodes := backends }

def backendAt (name overlayIp : String) : BackendNode := ⟨name, .v4 0xc6336414, .v4 0xc000020e, overlayIp⟩

/-- Host 200 of a /24 is carried into a /26, where there is none. -/
theorem long_host_leaves_prefix :
    let file := twoGateways "10.255.12.1/26" "10.255.16.1/24" [backendAt "backend-1" "10.255.16.200/24"]
    haBackendOverlayAddrs file = ["10.255.12.200/26", "10.255.16.200/24"] ∧
      parseIpv4Cidr "10.255.12.200/26" = some (0x0aff0cc8, 26) ∧ parseIpv4Cidr "10.255.12.1/26" = some (0x0aff0c01, 26) ∧
      networkAddr 0x0aff0cc8 26 ≠ networkAddr 0x0aff0c01 26 := by
  decide

/-- Host 2 fits both. -/
theorem short_host_mirrored :
    let file := twoGateways "10.255.12.1/26" "10.255.16.1/24"
      [backendAt "backend-1" "10.255.16.2/24", backendAt "backend-2" "10.255.16.3/24"]
    overlayText 0x0aff0c02 26 ∈ haBackendOverlayAddrs file ∧
      SoundMirror file (backendAt "backend-1" "10.255.16.2/24") ⟨"gateway-a", .v4 0xcb00710a, .v4 0xc000020c, "10.255.12.1/26"⟩
        0x0aff0c01 26 0x0aff0c02 := by
  intro file
  have hoffsets : DistinctOffsets file.backendNodesEffective := by
    intro a ha b hb hne x m y n hx hy
    have hone : parseIpv4Cidr "10.255.16.2/24" = some (0x0aff1002, 24) := by decide
    have htwo : parseIpv4Cidr "10.255.16.3/24" = some (0x0aff1003, 24) := by decide
    have hcases : ∀ c ∈ file.backendNodesEffective,
        c = backendAt "backend-1" "10.255.16.2/24" ∨ c = backendAt "backend-2" "10.255.16.3/24" := by decide
    rcases hcases a ha with rfl | rfl <;> rcases hcases b hb with rfl | rfl
    · exact absurd rfl hne
    · obtain ⟨rfl, rfl⟩ := Prod.mk.inj (Option.some.inj (hone.symm.trans hx))
      obtain ⟨rfl, rfl⟩ := Prod.mk.inj (Option.some.inj (htwo.symm.trans hy))
      decide
    · obtain ⟨rfl, rfl⟩ := Prod.mk.inj (Option.some.inj (htwo.symm.trans hx))
      obtain ⟨rfl, rfl⟩ := Prod.mk.inj (Option.some.inj (hone.symm.trans hy))
      decide
    · exact absurd rfl hne
  have hlocal : localBackend file = some (backendAt "backend-1" "10.255.16.2/24") := by decide
  have hnode : parseIpv4Cidr "10.255.16.2/24" = some (0x0aff1002, 24) := by decide
  have hgateway : parseIpv4Cidr "10.255.12.1/26" = some (0x0aff0c01, 26) := by decide
  have hmirror : mirrorAt file ⟨"gateway-a", .v4 0xcb00710a, .v4 0xc000020c, "10.255.12.1/26"⟩ = some (0x0aff0c02, 26) := by
    decide
  obtain ⟨hlisted, hiff⟩ := mirror_sound_iff hoffsets List.mem_cons_self hlocal hnode hgateway hmirror
  exact ⟨hlisted, hiff.mpr (by decide)⟩

end EdgeLb.Role
