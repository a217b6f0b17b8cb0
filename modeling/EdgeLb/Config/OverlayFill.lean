/-
  EdgeLb.Config.OverlayFill — the addresses that `assign_overlay_ips` hands out
  (`edge-lb/src/config/normalize.rs`).

  The host addresses of the overlay network are all different, and a backend is tried on them
  from the second on. As long as the hosts that gateways and backends have leave one over,
  every backend without an address gets one (`fillOverlays_filled`), and a second run finds all
  as the first has left it (`assignOverlays_again`).
-/

import EdgeLb.Config.OverlayAssign
import EdgeLb.Lib.Prefix

namespace EdgeLb.Config

open EdgeLb.Lib

/-! ## Host addresses -/

theorem prefixMask_clears {len : Nat} (hlen : len ≤ 32) : Clears (prefixMask len) (32 - len) := by
  have hall : ∀ n ≤ 32, (~~~prefixMask n).toNat = 2 ^ (32 - n) - 1 := by decide
  exact ⟨Nat.sub_le 32 len, hall len hlen⟩

/-- The text is an address of the network, with its prefix, and neither its first nor its last. -/
def HostAddress (cidr overlay : String) : Prop :=
  ∃ base len ip, parsePrefix cidr = .ok (.v4 base, len) ∧ overlay = overlayText ip len ∧
    ip &&& prefixMask len = base &&& prefixMask len ∧ ip ≠ base &&& prefixMask len ∧
    ip ≠ (base &&& prefixMask len) ||| ~~~prefixMask len

theorem overlayText_inj {a b : UInt32} {len : Nat} (hlen : len ≤ 32) (h : overlayText a len = overlayText b len) : a = b := by
  have ha : parsePrefix (overlayText a len) = .ok (.v4 a, len) := parsePrefix_overlayText hlen
  rw [h, parsePrefix_overlayText hlen] at ha
  cases ha
  rfl

section

variable {cidr overlay : String} {base : UInt32} {len index : Nat}

theorem overlayHost_toNat (hcidr : parsePrefix cidr = .ok (.v4 base, len)) (h : overlayHost cidr index = .ok overlay) :
    len ≤ 30 ∧ 0 < index ∧ index < 2 ^ (32 - len) - 1 ∧
      ∃ ip : UInt32, overlay = overlayText ip len ∧
        ip.toNat = ((if len = 0 then base else base &&& prefixMask len).toNat + index) % 2 ^ 32 := by
  obtain ⟨base', len', hcidr', hlen, hpos, hlt, rfl⟩ := overlayHost_eq_ok.mp h
  obtain ⟨rfl, rfl⟩ : base = base' ∧ len = len' := by simpa using hcidr.symm.trans hcidr'
  refine ⟨hlen, hpos, hlt, _, rfl, ?_⟩
  have hmask : base &&& (0xffffffff <<< UInt32.ofNat (32 - len)) = if len = 0 then base else base &&& prefixMask len := by
    by_cases hzero : len = 0
    · subst hzero
      simp only [if_true]
      exact UInt32.toNat_inj.mp (by
        rw [UInt32.toNat_and]
        exact Nat.and_two_pow_sub_one_of_lt_two_pow base.toNat_lt)
    · simp only [prefixMask, hzero, if_false]
  rw [hmask, UInt32.toNat_add, UInt32.toNat_ofNat', Nat.add_mod_mod]

theorem overlayHost_inj {i j : Nat} (hi : overlayHost cidr i = .ok overlay) (hj : overlayHost cidr j = .ok overlay) :
    i = j := by
  obtain ⟨base, len, hcidr, -⟩ := overlayHost_eq_ok.mp hi
  obtain ⟨hlen, -, hlti, ip, rfl, hip⟩ := overlayHost_toNat hcidr hi
  obtain ⟨-, -, hltj, ip', htext, hip'⟩ := overlayHost_toNat hcidr hj
  obtain rfl := overlayText_inj (hlen.trans (by decide)) htext
  have hsize : 2 ^ (32 - len) ≤ 2 ^ 32 := Nat.pow_le_pow_right (by decide) (Nat.sub_le 32 len)
  generalize (if len = 0 then base else base &&& prefixMask len).toNat = start at hip hip'
  omega

/-- With a prefix of no bits the mask is lost, and the addresses follow the one that is written. -/
theorem overlayHost_hostAddress (hcidr : parsePrefix cidr = .ok (.v4 base, len))
    (hzero : len = 0 → base.toNat + index < 2 ^ 32 - 1) (h : overlayHost cidr index = .ok overlay) :
    HostAddress cidr overlay := by
  obtain ⟨hlen, hpos, hlt, ip, rfl, hip⟩ := overlayHost_toNat hcidr h
  refine ⟨base, len, ip, hcidr, rfl, ?_⟩
  have hclears := prefixMask_clears (hlen.trans (by decide : 30 ≤ 32))
  have hlast := hclears.last base
  have hblock := hclears.start_add_le base
  rw [hclears.start_eq_iff, ne_eq, ne_eq, ← UInt32.toNat_inj, ← UInt32.toNat_inj, hlast]
  by_cases hlen0 : len = 0
  · subst hlen0
    have hnone : (base &&& prefixMask 0).toNat = 0 := by
      rw [UInt32.toNat_and]
      exact Nat.and_zero _
    have hbound := hzero rfl
    simp only [if_true] at hip
    omega
  · simp only [hlen0, if_false] at hip
    omega

theorem last_host_of_four : HostAddress "10.44.0.0/30" "10.44.0.2/30" := by
  have hcidr : parsePrefix "10.44.0.0/30" = .ok (.v4 0x0a2c0000, 30) := by decide
  have hhost : overlayHost "10.44.0.0/30" 2 = .ok "10.44.0.2/30" := by decide
  exact overlayHost_hostAddress hcidr (by decide) hhost

/-- The network has the hosts before each of its hosts. -/
theorem overlayHost_of_le {i : Nat} (h : overlayHost cidr index = .ok overlay) (hpos : 0 < i) (hle : i ≤ index) :
    ∃ overlay, overlayHost cidr i = .ok overlay := by
  obtain ⟨base, len, hcidr, hlen, -, hlt, -⟩ := overlayHost_eq_ok.mp h
  exact ⟨_, overlayHost_eq_ok.mpr ⟨base, len, hcidr, hlen, hpos, by omega, rfl⟩⟩

end

/-! ## The search for a free address -/

section

variable {cidr : String} {used : List String} {count index n : Nat}

/-- More than `n` hosts are not all in a list of `n`. -/
theorem exists_free_host {hosts : List String} (hhosts : ∀ j < n, ∃ overlay, overlayHost cidr (index + j) = .ok overlay)
    (hused : ∀ j overlay, overlayHost cidr (index + j) = .ok overlay → overlay ∈ used → overlay ∈ hosts)
    (hlt : hosts.length < n) : ∃ j < n, ∃ overlay, overlayHost cidr (index + j) = .ok overlay ∧ overlay ∉ used := by
  by_contra hall
  push Not at hall
  choose! host hhost using hhosts
  have hnodup : ((List.range n).map host).Nodup := by
    refine List.nodup_range.map_on fun i hi j hj heq => ?_
    have hsame := overlayHost_inj (hhost i (List.mem_range.mp hi)) (heq ▸ hhost j (List.mem_range.mp hj))
    omega
  have hsub : (List.range n).map host ⊆ hosts := by
    intro overlay hmem
    obtain ⟨j, hj, rfl⟩ := List.mem_map.mp hmem
    have hj := List.mem_range.mp hj
    exact hused j _ (hhost j hj) (hall j hj _ (hhost j hj))
  have hlength := (List.subperm_of_subset hnodup hsub).length_le
  rw [List.length_map, List.length_range] at hlength
  omega

/-- A free host among the first `n` is enough for the search to end there. -/
theorem firstFreeOverlay_some (hpos : 0 < index) (hn : n ≤ count)
    (hfree : ∃ j < n, ∃ overlay, overlayHost cidr (index + j) = .ok overlay ∧ overlay ∉ used) :
    ∃ j < n, ∃ overlay, overlayHost cidr (index + j) = .ok overlay ∧
      firstFreeOverlay cidr used count index = some overlay := by
  induction count generalizing index n with
  | zero =>
    obtain ⟨j, hj, -⟩ := hfree
    omega
  | succ count ih =>
    obtain ⟨j, hj, overlay, hhost, hnot⟩ := hfree
    obtain ⟨first, hfirst⟩ := overlayHost_of_le hhost hpos (Nat.le_add_right index j)
    simp only [firstFreeOverlay, hfirst]
    by_cases hmem : first ∈ used
    · rw [if_pos hmem]
      cases j with
      | zero => exact absurd (Except.ok.inj (hfirst.symm.trans hhost) ▸ hmem) hnot
      | succ j =>
        rw [show index + (j + 1) = index + 1 + j by omega] at hhost
        have hrest : ∃ j < n - 1, ∃ overlay, overlayHost cidr (index + 1 + j) = .ok overlay ∧ overlay ∉ used :=
          ⟨j, by omega, overlay, hhost, hnot⟩
        obtain ⟨i, hi, found, hfound, hsearch⟩ := ih (Nat.succ_pos index) (by omega) hrest
        exact ⟨i + 1, by omega, found, by rwa [show index + (i + 1) = index + 1 + i by omega], hsearch⟩
    · rw [if_neg hmem]
      exact ⟨0, by omega, first, hfirst, rfl⟩

/-- What was found is found again, as long as it stays free and nothing before it becomes free. -/
theorem firstFreeOverlay_again {used' : List String}
    (hused : ∀ i overlay, index ≤ i → overlayHost cidr i = .ok overlay → overlay ∈ used → overlay ∈ used')
    (hfree : ∀ overlay ∈ firstFreeOverlay cidr used count index, overlay ∉ used') :
    firstFreeOverlay cidr used' count index = firstFreeOverlay cidr used count index := by
  induction count generalizing index with
  | zero => rfl
  | succ count ih =>
    simp only [firstFreeOverlay] at hfree ⊢
    split
    · rfl
    · next overlay hhost =>
      simp only [hhost] at hfree
      by_cases hmem : overlay ∈ used
      · rw [if_pos hmem] at hfree ⊢
        rw [if_pos (hused index overlay le_rfl hhost hmem)]
        exact ih (fun i overlay hi => hused i overlay (by omega)) hfree
      · rw [if_neg hmem] at hfree ⊢
        rw [if_neg (hfree overlay rfl)]

end

/-! ## Every backend gets an address -/

/-- A host's address, up to `last`. -/
def HostUpTo (cidr : String) (last : Nat) (overlay : String) : Prop := ∃ index ≤ last, overlayHost cidr index = .ok overlay

variable {bs : List BackendNode}

/-- A search succeeds as long as the hosts in use and the backends without an address are no
    more than the hosts there are. -/
theorem fillOverlays_filled {cidr : String} {n max : Nat} {used hosts : List String}
    (hhosts : ∀ j < n, ∃ overlay, overlayHost cidr (2 + j) = .ok overlay)
    (hused : ∀ j overlay, overlayHost cidr (2 + j) = .ok overlay → overlay ∈ used → overlay ∈ hosts)
    (hroom : hosts.length + bs.countP (fun b => overlayNeedsAssignment b.overlayIp) ≤ n) (hmax : n < max) :
    Filled (HostUpTo cidr (n + 1)) False used bs (fillOverlays cidr max used bs) := by
  induction bs generalizing used hosts with
  | nil => exact .nil
  | cons b bs ih =>
    simp only [fillOverlays]
    rw [List.countP_cons] at hroom
    split
    · next hneeds =>
      rw [if_pos hneeds] at hroom
      have hfree := exists_free_host hhosts hused (by omega)
      obtain ⟨j, hj, overlay, hhost, hsearch⟩ :=
        firstFreeOverlay_some (by decide) (show n ≤ max - 1 by omega) hfree
      have hused' : ∀ j x, overlayHost cidr (2 + j) = .ok x → x ∈ used ++ [overlay] → x ∈ hosts ++ [overlay] := by
        intro j x hx hmem
        rcases List.mem_append.mp hmem with hmem | hmem
        · exact List.mem_append_left _ (hused j x hx hmem)
        · exact List.mem_append_right _ hmem
      have hroom' : (hosts ++ [overlay]).length + bs.countP (fun b => overlayNeedsAssignment b.overlayIp) ≤ n := by
        rw [List.length_append, List.length_singleton]
        omega
      rw [hsearch]
      exact .fill hneeds ⟨_, by omega, hhost⟩ (firstFreeOverlay_free hsearch) (ih hused' hroom')
    · next hset =>
      rw [if_neg hset] at hroom
      exact .keep (by simpa using hset) (ih hused hroom)

/-- The backend keeps its own address or gets a host's, up to `last`, and changes in nothing else. -/
def KeptOrHost (cidr : String) (last : Nat) (b r : BackendNode) : Prop :=
  (r = b ∧ overlayNeedsAssignment b.overlayIp = false) ∨
    ∃ overlay, HostUpTo cidr last overlay ∧ r = { b with overlayIp := overlay }

/-- The first loop keeps a backend or takes its address away. -/
theorem keepOverlays_forall₂ (taken : List String) (bs : List BackendNode) :
    List.Forall₂ (fun b k => k = b ∨ k = { b with overlayIp := defaultBackendOverlay }) bs (keepOverlays taken bs).1 := by
  induction bs generalizing taken with
  | nil => exact .nil
  | cons b bs ih =>
    simp only [keepOverlays]
    split
    · exact .cons (.inl rfl) (ih taken)
    · split
      · exact .cons (.inr rfl) (ih taken)
      · exact .cons (.inl rfl) (ih _)

theorem Filled.keptOrHost {cidr : String} {last : Nat} {used : List String} {bs kept filled : List BackendNode}
    (h : Filled (HostUpTo cidr last) False used kept filled)
    (hkept : List.Forall₂ (fun b k => k = b ∨ k = { b with overlayIp := defaultBackendOverlay }) bs kept) :
    List.Forall₂ (KeptOrHost cidr last) bs filled := by
  induction h generalizing bs with
  | nil =>
    cases hkept
    exact .nil
  | keep hset _ ih =>
    obtain _ | ⟨hb, hkept⟩ := hkept
    refine .cons ?_ (ih hkept)
    rcases hb with rfl | rfl
    · exact .inl ⟨rfl, hset⟩
    · cases needs_default.symm.trans hset
  | fill _ hhost _ _ ih =>
    obtain _ | ⟨hb, hkept⟩ := hkept
    refine .cons (.inr ⟨_, hhost, ?_⟩) (ih hkept)
    rcases hb with rfl | rfl
    · rfl
    · rfl
  | miss _ hgap => exact hgap.elim

/-- The first loop takes down just the addresses that it keeps. -/
theorem keepOverlays_used (taken : List String) (bs : List BackendNode) :
    (keepOverlays taken bs).2 =
      taken ++ ((keepOverlays taken bs).1.filter (fun b => !overlayNeedsAssignment b.overlayIp)).map (·.overlayIp) := by
  induction bs generalizing taken with
  | nil => simp [keepOverlays]
  | cons b bs ih =>
    simp only [keepOverlays]
    split
    · next hneeds => simp [hneeds, ih taken]
    · next hset =>
      split
      · simp [needs_default, ih taken]
      · simp [hset, ih (taken ++ [b.overlayIp])]

/-- Backends whose addresses are apart all keep them. -/
theorem keepOverlays_eq_self {taken : List String}
    (hfree : ∀ b ∈ bs, overlayNeedsAssignment b.overlayIp = false → b.overlayIp ∉ taken) (hapart : bs.Pairwise OverlaysApart) :
    (keepOverlays taken bs).1 = bs := by
  induction bs generalizing taken with
  | nil => rfl
  | cons b bs ih =>
    obtain ⟨hb, hfree⟩ := List.forall_mem_cons.mp hfree
    obtain ⟨hbapart, hapart⟩ := List.pairwise_cons.mp hapart
    simp only [keepOverlays]
    split
    · rw [ih hfree hapart]
    · next hset =>
      rw [if_neg (hb (by simpa using hset))]
      refine congrArg (b :: ·) (ih (fun x hx hx' hmem => ?_) hapart)
      rcases List.mem_append.mp hmem with hmem | hmem
      · exact hfree x hx hx' hmem
      · exact hset (hbapart x hx (List.mem_singleton.mp hmem).symm)

/-! ## A second run -/

/-- The addresses in use in a first and in a second run: no host has become free, and what has
    come to be in use would be kept. -/
structure UsedAgain (cidr : String) (used used' : List String) : Prop where
  hosts : ∀ index overlay, 2 ≤ index → overlayHost cidr index = .ok overlay → overlay ∈ used → overlay ∈ used'
  old : ∀ overlay ∈ used', overlay ∈ used ∨ overlayNeedsAssignment overlay = false

namespace UsedAgain

variable {cidr overlay : String} {used used' : List String}

section

variable (h : UsedAgain cidr used used')
include h

theorem append (overlay : String) :
    UsedAgain cidr (used ++ [overlay]) (used' ++ [overlay]) := by
  constructor
  · intro index x hindex hhost hmem
    rcases List.mem_append.mp hmem with hmem | hmem
    · exact List.mem_append_left _ (h.hosts index x hindex hhost hmem)
    · exact List.mem_append_right _ hmem
  · intro x hmem
    rcases List.mem_append.mp hmem with hmem | hmem
    · exact (h.old x hmem).imp_left (List.mem_append_left _)
    · exact .inl (List.mem_append_right _ hmem)

theorem append_left (hmem : overlay ∈ used') : UsedAgain cidr (used ++ [overlay]) used' := by
  constructor
  · intro index x hindex hhost hx
    rcases List.mem_append.mp hx with hx | hx
    · exact h.hosts index x hindex hhost hx
    · exact List.mem_singleton.mp hx ▸ hmem
  · exact fun x hx => (h.old x hx).imp_left (List.mem_append_left _)

theorem search_none {count : Nat} (hsearch : firstFreeOverlay cidr used count 2 = none) :
    firstFreeOverlay cidr used' count 2 = none := by
  have hagain : firstFreeOverlay cidr used' count 2 = firstFreeOverlay cidr used count 2 := by
    refine firstFreeOverlay_again h.hosts fun overlay hmem => ?_
    rw [hsearch] at hmem
    cases hmem
  exact hagain.trans hsearch

/-- An address that looks like a default is not kept, so it is free again. -/
theorem search_some {count : Nat} (hsearch : firstFreeOverlay cidr used count 2 = some overlay)
    (hneeds : overlayNeedsAssignment overlay = true) : firstFreeOverlay cidr used' count 2 = some overlay := by
  have hagain : firstFreeOverlay cidr used' count 2 = firstFreeOverlay cidr used count 2 := by
    refine firstFreeOverlay_again h.hosts fun x hx hmem => ?_
    obtain rfl : overlay = x := Option.some.inj (hsearch.symm.trans hx)
    rcases h.old overlay hmem with hmem | hset
    · exact firstFreeOverlay_free hsearch hmem
    · rw [hneeds] at hset
      cases hset
  exact hagain.trans hsearch

end

end UsedAgain

/-- The second loop leaves what it left before. -/
theorem fillOverlays_again {cidr : String} {max : Nat} {used used' : List String} (hused : UsedAgain cidr used used')
    (hset : ∀ b ∈ fillOverlays cidr max used bs, overlayNeedsAssignment b.overlayIp = false → b.overlayIp ∈ used') :
    fillOverlays cidr max used' (fillOverlays cidr max used bs) = fillOverlays cidr max used bs := by
  induction bs generalizing used used' with
  | nil => rfl
  | cons b bs ih =>
    simp only [fillOverlays] at hset ⊢
    by_cases hneeds : overlayNeedsAssignment b.overlayIp = true
    · rw [if_pos hneeds] at hset ⊢
      cases hsearch : firstFreeOverlay cidr used (max - 1) 2 with
      | none =>
        simp only [hsearch] at hset ⊢
        obtain ⟨-, hset⟩ := List.forall_mem_cons.mp hset
        simp only [fillOverlays, if_pos hneeds, hused.search_none hsearch, ih hused hset]
      | some overlay =>
        simp only [hsearch] at hset ⊢
        obtain ⟨hfirst, hset⟩ := List.forall_mem_cons.mp hset
        by_cases hdefault : overlayNeedsAssignment overlay = true
        · have hset' : ∀ x ∈ fillOverlays cidr max (used ++ [overlay]) bs,
              overlayNeedsAssignment x.overlayIp = false → x.overlayIp ∈ used' ++ [overlay] :=
            fun x hx hx' => List.mem_append_left _ (hset x hx hx')
          simp only [fillOverlays, if_pos hdefault, hused.search_some hsearch hdefault, ih (hused.append overlay) hset']
        · have hmem : overlay ∈ used' := hfirst (by simpa using hdefault)
          simp only [fillOverlays, if_neg hdefault, ih (hused.append_left hmem) hset]
    · rw [if_neg hneeds] at hset ⊢
      obtain ⟨-, hset⟩ := List.forall_mem_cons.mp hset
      simp only [fillOverlays, if_neg hneeds, ih hused hset]

section

variable {cidr : String} {gateways : Nat} {taken : List String} {bs : List BackendNode}

theorem keepOverlays_length : (keepOverlays taken bs).1.length = bs.length := (keepOverlays_forall₂ taken bs).length_eq.symm

theorem assignOverlays_length : (assignOverlays cidr gateways taken bs).length = bs.length := by
  have hmap : (assignOverlays cidr gateways taken bs).map (·.name) = bs.map (·.name) := assignOverlays_map fun _ _ => rfl
  simpa using congrArg List.length hmap

/-- Both loops leave what they left before, whatever addresses a gateway gave up or took over
    that no backend is given. -/
theorem assignOverlays_again {taken' : List String}
    (htaken : ∀ index overlay, 2 ≤ index → overlayHost cidr index = .ok overlay → overlay ∈ taken → overlay ∈ taken')
    (htaken' : ∀ overlay ∈ taken', overlay ∈ taken) :
    assignOverlays cidr gateways taken' (assignOverlays cidr gateways taken bs) = assignOverlays cidr gateways taken bs := by
  have hkept := keepOverlays_kept taken bs
  have hfree : ∀ b ∈ assignOverlays cidr gateways taken bs, overlayNeedsAssignment b.overlayIp = false → b.overlayIp ∉ taken' :=
    fun b hb hset hmem => assignOverlays_not_taken hb hset (htaken' _ hmem)
  have hkeep := keepOverlays_eq_self hfree assignOverlays_apart
  have hmax : (assignOverlays cidr gateways taken bs).length = (keepOverlays taken bs).1.length :=
    assignOverlays_length.trans keepOverlays_length.symm
  have hset : ∀ b ∈ assignOverlays cidr gateways taken bs, overlayNeedsAssignment b.overlayIp = false →
      b.overlayIp ∈ (keepOverlays taken' (assignOverlays cidr gateways taken bs)).2 := by
    intro b hb hset
    rw [keepOverlays_used, hkeep]
    exact List.mem_append_right _ (List.mem_map_of_mem (List.mem_filter.mpr ⟨hb, by simp [hset]⟩))
  have hused : UsedAgain cidr (keepOverlays taken bs).2 (keepOverlays taken' (assignOverlays cidr gateways taken bs)).2 := by
    constructor
    · intro index overlay hindex hhost hmem
      rw [keepOverlays_used] at hmem
      rcases List.mem_append.mp hmem with hmem | hmem
      · rw [keepOverlays_used]
        exact List.mem_append_left _ (htaken index overlay hindex hhost hmem)
      · obtain ⟨b, hb, rfl⟩ := List.mem_map.mp hmem
        obtain ⟨hb, hneeds⟩ := List.mem_filter.mp hb
        have hneeds : overlayNeedsAssignment b.overlayIp = false := by simpa using hneeds
        exact hset b ((fillOverlays_any _).mem_of_set hb hneeds) hneeds
    · intro overlay hmem
      rw [keepOverlays_used, hkeep] at hmem
      rcases List.mem_append.mp hmem with hmem | hmem
      · exact .inl (hkept.used overlay (htaken' overlay hmem))
      · obtain ⟨b, hb, rfl⟩ := List.mem_map.mp hmem
        exact .inr (by simpa using (List.mem_filter.mp hb).2)
  have hfill := fillOverlays_again hused hset
  rw [assignOverlays, hkeep, hmax]
  exact hfill

/-- With a host for every backend besides those that gateways have, both loops leave every
    backend with an address of its own. -/
theorem assignOverlays_filled {hosts : List String}
    (hhosts : ∀ j < hosts.length + bs.length, ∃ overlay, overlayHost cidr (2 + j) = .ok overlay)
    (htaken : ∀ j overlay, overlayHost cidr (2 + j) = .ok overlay → overlay ∈ taken → overlay ∈ hosts)
    (hmax : hosts.length < gateways + 256) :
    List.Forall₂ (KeptOrHost cidr (hosts.length + bs.length + 1)) bs (assignOverlays cidr gateways taken bs) ∧
      ((assignOverlays cidr gateways taken bs).map (·.overlayIp)).Nodup ∧
      ∀ b ∈ assignOverlays cidr gateways taken bs, b.overlayIp ∉ taken := by
  have hkept := keepOverlays_kept taken bs
  -- the addresses in use are hosts that gateways have, and those that backends keep
  have hused : ∀ j overlay, overlayHost cidr (2 + j) = .ok overlay → overlay ∈ (keepOverlays taken bs).2 →
      overlay ∈ hosts ++ ((keepOverlays taken bs).1.filter (fun b => !overlayNeedsAssignment b.overlayIp)).map (·.overlayIp) := by
    intro j overlay hhost hmem
    rw [keepOverlays_used] at hmem
    rcases List.mem_append.mp hmem with hmem | hmem
    · exact List.mem_append_left _ (htaken j overlay hhost hmem)
    · exact List.mem_append_right _ hmem
  have hsplit : ((keepOverlays taken bs).1.filter (fun b => !overlayNeedsAssignment b.overlayIp)).length +
      (keepOverlays taken bs).1.countP (fun b => overlayNeedsAssignment b.overlayIp) = bs.length := by
    have hlength : (keepOverlays taken bs).1.length = bs.length := keepOverlays_length
    rw [← hlength, ← List.countP_eq_length_filter, Nat.add_comm]
    simpa using (List.length_eq_countP_add_countP fun b : BackendNode => overlayNeedsAssignment b.overlayIp).symm
  have hfilled : Filled (HostUpTo cidr (hosts.length + bs.length + 1)) False (keepOverlays taken bs).2
      (keepOverlays taken bs).1 (assignOverlays cidr gateways taken bs) := by
    refine fillOverlays_filled hhosts hused ?_ ?_
    · rw [List.length_append, List.length_map]
      omega
    · rw [keepOverlays_length]
      omega
  have hapart := hfilled.apart (fun b hb hset => (hkept.listed b hb hset).1) hkept.apart
  refine ⟨hfilled.keptOrHost (keepOverlays_forall₂ taken bs),
    List.pairwise_map.mpr (hapart.imp fun h heq => (h heq).2), fun b hb hmem => ?_⟩
  rcases hfilled.mem hb with ⟨hb, hset⟩ | hnot
  · exact (hkept.listed b hb (by simpa using hset)).2 hmem
  · exact hnot (hkept.used _ hmem)

/-- The second host is a gateway's. -/
theorem third_host_given : ((assignOverlays "10.44.0.0/29" 1 ["10.44.0.2/29"]
    [⟨"a", .v4 1, .v4 1, "auto"⟩, ⟨"b", .v4 2, .v4 2, "10.44.0.4/29"⟩]).map (·.overlayIp)).Nodup := by
  have hlast : overlayHost "10.44.0.0/29" 4 = .ok "10.44.0.4/29" := by decide
  refine (assignOverlays_filled (fun j hj => ?_) (fun _ _ _ h => h) (by decide)).2.1
  have hj : j < 3 := hj
  exact overlayHost_of_le hlast (by omega) (by omega)

end

end EdgeLb.Config
