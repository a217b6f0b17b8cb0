/-
  EdgeLb.Config.Overlay — address prefixes of the overlay (`edge-lb/src/config/overlay.rs`).

  A parse error carries the context the source gives it; the cause that the parsers of the
  standard library add behind it is left out.
-/

import EdgeLb.Config.Model
import EdgeLb.Lib.Check

namespace EdgeLb.Config

open EdgeLb.Lib

def parsePrefix (s : String) : Except String (IpAddr × Nat) := do
  let (ip, bits) ← orBail (splitOnce '/' s.toList) "missing /prefix"
  let ip ← orBail (parseIp (String.ofList ip)) "bad address"
  let bits ← orBail (parseUnsigned 256 bits) "bad prefix"
  match ip with
  | .v4 _ => bailIf (32 < bits) "IPv4 prefix out of range"
  | .v6 _ => bailIf (128 < bits) "IPv6 prefix out of range"
  return (ip, bits)

/-- The network mask of an IPv4 prefix. -/
def prefixMask (bits : Nat) : UInt32 := if bits = 0 then 0 else 0xffffffff <<< UInt32.ofNat (32 - bits)

def sameSubnet (a b : IpAddr × Nat) : Bool :=
  match a, b with
  | (.v4 x, m), (.v4 y, n) => m == n && m ≤ 32 && (x &&& prefixMask m) == (y &&& prefixMask m)
  | _, _ => false

def validateOverlayCapacity (cidr : IpAddr × Nat) (neededHosts : Nat) : Except String Unit := do
  bailIf (!cidr.1.isV4) "network.overlay_cidr must be IPv4"
  bailIf (30 < cidr.2) "network.overlay_cidr prefix must be <= 30"
  let usable := 2 ^ (32 - cidr.2) - 2
  bailIf (usable < neededHosts)
    s!"network.overlay_cidr needs at least {neededHosts} usable addresses, got {usable}"

def defaultGatewayOverlay : String := "10.255.255.1/24"
def oldDefaultGatewayOverlay : String := "10.255.255.1/30"
def defaultBackendOverlay : String := "10.255.255.2/24"
def oldDefaultBackendOverlay : String := "10.255.255.2/30"

def overlayNeedsAssignment (value : String) : Bool :=
  let value := trim value
  value == "" || eqIgnoreAsciiCase value "auto" || value == defaultGatewayOverlay || value == oldDefaultGatewayOverlay ||
    value == defaultBackendOverlay || value == oldDefaultBackendOverlay

def underlayDevIsAuto (value : String) : Bool := isBlank value || eqIgnoreAsciiCase (trim value) "auto"

/-- The `hostIndex`-th address of the overlay network, with the network's prefix. -/
def overlayHost (cidr : String) (hostIndex : Nat) : Except String String := do
  let (base, bits) ← parsePrefix cidr
  match base with
  | .v6 _ => .error "network.overlay_cidr must be IPv4"
  | .v4 base =>
    bailIf (30 < bits) "network.overlay_cidr prefix must be <= 30"
    bailIf (hostIndex == 0 || 2 ^ (32 - bits) - 1 ≤ hostIndex)
      s!"network.overlay_cidr {cidr} does not have host index {hostIndex}"
    -- a shift by the whole width is a shift by nothing
    let mask : UInt32 := 0xffffffff <<< UInt32.ofNat (32 - bits)
    return s!"{showIpv4 ((base &&& mask) + UInt32.ofNat hostIndex)}/{bits}"

/-- `with_context`, as the chain prints. -/
def withContext {α : Type} (msg : String) (x : Except String α) : Except String α :=
  x.mapError fun e => s!"{msg}: {e}"

/-! ## Addresses that look like defaults -/

/-- An address with its prefix, as it is printed. -/
def overlayText (bits : UInt32) (len : Nat) : String := s!"{showIpv4 bits}/{len}"

variable {bits : UInt32}

theorem mem_overlayText {len : Nat} (hlen : len < 256) {c : Char} (hc : c ∈ (overlayText bits len).toList) :
    c = '/' ∨ c = '.' ∨ (decDigit? c).isSome = true := by
  have hslash : (toString "/").toList = ['/'] := rfl
  simp only [overlayText, String.toList_append, hslash, List.mem_append, List.mem_singleton] at hc
  rcases hc with (hc | hc) | hc
  · exact .inr (mem_showIpv4 hc)
  · exact .inl hc
  · exact .inr (.inr (digit_of_mem_octet hlen hc))

theorem trim_overlayText {len : Nat} (hlen : len < 256) : trim (overlayText bits len) = overlayText bits len := by
  refine trim_eq_self fun c hc => ?_
  rcases mem_overlayText hlen hc with rfl | rfl | hdigit
  · rfl
  · rfl
  · exact isWhitespace_digit hdigit

theorem parseUnsigned_len : ∀ len ≤ 32, parseUnsigned 256 (toString len).toList = some len := by decide

theorem parsePrefix_overlayText {len : Nat} (hlen : len ≤ 32) :
    parsePrefix (overlayText bits len) = .ok (.v4 bits, len) := by
  have hslash : '/' ∉ (showIpv4 bits).toList := by
    intro hmem
    rcases mem_showIpv4 hmem with heq | hdigit
    · exact absurd heq (by decide)
    · exact absurd hdigit (by decide)
  have hsplit : splitOnce '/' (overlayText bits len).toList = some ((showIpv4 bits).toList, (toString len).toList) := by
    have htext : (overlayText bits len).toList = (showIpv4 bits).toList ++ '/' :: (toString len).toList := by
      simp only [overlayText, String.toList_append, List.append_assoc]
      rfl
    rw [htext]
    exact splitOnce_append hslash
  have hip : parseIp (String.ofList (showIpv4 bits).toList) = some (.v4 bits) := by
    rw [String.ofList_toList]
    exact parseIp_showIp bits
  have hfits : bailIf (32 < len) "IPv4 prefix out of range" = .ok () := by
    rw [bailIf_eq_ok]
    exact decide_eq_false (not_lt.mpr hlen)
  refine bind_eq_ok.mpr ⟨_, orBail_eq_ok.mpr hsplit, ?_⟩
  refine bind_eq_ok.mpr ⟨_, orBail_eq_ok.mpr hip, ?_⟩
  refine bind_eq_ok.mpr ⟨_, orBail_eq_ok.mpr (parseUnsigned_len len hlen), ?_⟩
  exact seq_eq_ok.mpr ⟨hfits, rfl⟩

/-- The addresses of 10.255.255.0 that a configuration has by default. -/
theorem overlayText_looks_default {len : Nat} (hlen : len ≤ 32)
    (h : overlayNeedsAssignment (overlayText bits len) = true) :
    (bits = 0x0affff01 ∨ bits = 0x0affff02) ∧ (len = 24 ∨ len = 30) := by
  have hparse : parsePrefix (overlayText bits len) = .ok (.v4 bits, len) := parsePrefix_overlayText hlen
  have hslash : '/' ∈ (overlayText bits len).toList := by
    simp only [overlayText, String.toList_append, List.mem_append]
    exact .inl (.inr List.mem_cons_self)
  simp only [overlayNeedsAssignment, trim_overlayText (show len < 256 by omega), Bool.or_eq_true, beq_iff_eq] at h
  rcases h with ((((h | h) | h) | h) | h) | h
  · rw [h] at hparse
    cases hparse
  · have hmem : lowerAscii '/' ∈ (overlayText bits len).toList.map lowerAscii := List.mem_map_of_mem hslash
    rw [eq_of_beq h] at hmem
    exact absurd hmem (by decide)
  · rw [h, show parsePrefix defaultGatewayOverlay = .ok (.v4 0x0affff01, 24) by decide] at hparse
    cases hparse
    decide
  · rw [h, show parsePrefix oldDefaultGatewayOverlay = .ok (.v4 0x0affff01, 30) by decide] at hparse
    cases hparse
    decide
  · rw [h, show parsePrefix defaultBackendOverlay = .ok (.v4 0x0affff02, 24) by decide] at hparse
    cases hparse
    decide
  · rw [h, show parsePrefix oldDefaultBackendOverlay = .ok (.v4 0x0affff02, 30) by decide] at hparse
    cases hparse
    decide

/-- What a host address is made of. -/
theorem overlayHost_eq_ok {cidr : String} {index : Nat} {overlay : String} :
    overlayHost cidr index = .ok overlay ↔ ∃ base len, parsePrefix cidr = .ok (.v4 base, len) ∧ len ≤ 30 ∧
      0 < index ∧ index < 2 ^ (32 - len) - 1 ∧
      overlay = overlayText ((base &&& (0xffffffff <<< UInt32.ofNat (32 - len))) + UInt32.ofNat index) len := by
  unfold overlayHost
  rw [bind_eq_ok]
  constructor
  · rintro ⟨⟨base, len⟩, hparse, h⟩
    cases base with
    | v6 groups => cases h
    | v4 base =>
      obtain ⟨hlen, h⟩ := seq_eq_ok.mp h
      obtain ⟨hindex, h⟩ := seq_eq_ok.mp h
      rw [bailIf_eq_ok, decide_eq_false_iff_not, not_lt] at hlen
      rw [bailIf_eq_ok, Bool.or_eq_false_iff, beq_eq_false_iff_ne, decide_eq_false_iff_not, not_le] at hindex
      exact ⟨base, len, hparse, hlen, Nat.pos_of_ne_zero hindex.1, hindex.2, (Except.ok.inj h).symm⟩
  · rintro ⟨base, len, hparse, hlen, hpos, hlt, rfl⟩
    refine ⟨(.v4 base, len), hparse, seq_eq_ok.mpr ⟨?_, seq_eq_ok.mpr ⟨?_, rfl⟩⟩⟩
    · rw [bailIf_eq_ok]
      exact decide_eq_false (not_lt.mpr hlen)
    · rw [bailIf_eq_ok, Bool.or_eq_false_iff, beq_eq_false_iff_ne]
      exact ⟨Nat.ne_of_gt hpos, decide_eq_false (not_le.mpr hlt)⟩

/-- An address of the overlay network. -/
def HostOf (overlayCidr overlay : String) : Prop := ∃ index, overlayHost overlayCidr index = .ok overlay

/-- No address of the network looks like a default. -/
def Plain (overlayCidr : String) : Prop := ∀ overlay, HostOf overlayCidr overlay → overlayNeedsAssignment overlay = false

theorem network_low_bits (base : UInt32) :
    (base &&& (0xffffffff <<< UInt32.ofNat (32 - 24))).toNat % 256 = 0 ∧
      (base &&& (0xffffffff <<< UInt32.ofNat (32 - 30))).toNat % 4 = 0 := by
  constructor
  · rw [UInt32.toNat_and, show (256 : Nat) = 2 ^ 8 by rfl, Nat.and_mod_two_pow]
    exact Nat.and_zero _
  · rw [UInt32.toNat_and, show (4 : Nat) = 2 ^ 2 by rfl, Nat.and_mod_two_pow]
    exact Nat.and_zero _

/-- It is enough to look at the first address a backend gets: the networks whose addresses look
    like defaults are 10.255.255.0/24 and 10.255.255.0/30. -/
theorem plain_iff {cidr : String} :
    Plain cidr ↔ ∀ overlay, overlayHost cidr 2 = .ok overlay → overlayNeedsAssignment overlay = false := by
  constructor
  · intro h overlay hhost
    exact h overlay ⟨2, hhost⟩
  · rintro h overlay ⟨index, hhost⟩
    by_contra hneeds
    obtain ⟨base, len, hparse, hlen, hpos, hlt, rfl⟩ := overlayHost_eq_ok.mp hhost
    obtain ⟨hbits, hlens⟩ := overlayText_looks_default (hlen.trans (by decide)) (by simpa using hneeds)
    obtain ⟨hlow24, hlow30⟩ := network_low_bits base
    -- an address of 10.255.255.0 with index 1 or 2, whichever it is
    have hnetwork : (base &&& (0xffffffff <<< UInt32.ofNat (32 - len))).toNat = 0x0affff00 := by
      have hnat : ((base &&& (0xffffffff <<< UInt32.ofNat (32 - len))).toNat + index) % 2 ^ 32 = 0x0affff01 ∨
          ((base &&& (0xffffffff <<< UInt32.ofNat (32 - len))).toNat + index) % 2 ^ 32 = 0x0affff02 := by
        have hadd : ((base &&& (0xffffffff <<< UInt32.ofNat (32 - len))) + UInt32.ofNat index).toNat =
            ((base &&& (0xffffffff <<< UInt32.ofNat (32 - len))).toNat + index) % 2 ^ 32 := by
          rw [UInt32.toNat_add, UInt32.toNat_ofNat', Nat.add_mod_mod]
        rw [← hadd]
        rcases hbits with hbits | hbits
        · exact .inl (congrArg UInt32.toNat hbits)
        · exact .inr (congrArg UInt32.toNat hbits)
      rcases hlens with rfl | rfl
      · have hbound := (base &&& (0xffffffff <<< UInt32.ofNat (32 - 24))).toNat_lt
        omega
      · have hbound := (base &&& (0xffffffff <<< UInt32.ofNat (32 - 30))).toNat_lt
        omega
    have hbase : base &&& (0xffffffff <<< UInt32.ofNat (32 - len)) = 0x0affff00 := UInt32.toNat_inj.mp hnetwork
    have hsecond : overlayHost cidr 2 = .ok (overlayText (0x0affff00 + UInt32.ofNat 2) len) := by
      refine overlayHost_eq_ok.mpr ⟨base, len, hparse, hlen, by decide, ?_, by rw [hbase]⟩
      rcases hlens with rfl | rfl <;> decide
    have hset := h _ hsecond
    rcases hlens with rfl | rfl
    · exact absurd hset (by decide)
    · exact absurd hset (by decide)

example : parsePrefix "10.255.255.1/24" = .ok (.v4 0x0affff01, 24) := by decide
example : overlayHost "10.44.0.0/24" 2 = .ok "10.44.0.2/24" := by decide
example : sameSubnet (.v4 0x0affff00, 24) (.v4 0x0affff01, 24) = true := by decide

end EdgeLb.Config
