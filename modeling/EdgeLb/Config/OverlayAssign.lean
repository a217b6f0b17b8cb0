/-
  EdgeLb.Config.OverlayAssign — which overlay addresses backends keep and which they get
  (`assign_overlay_ips` of `edge-lb/src/config/normalize.rs`).

  The loop goes over the backends twice. First every backend with an address keeps it, unless a
  gateway or a backend before it has the same; then every backend without one gets the first
  host address that is free. A text that `overlay_needs_assignment` takes for a default counts
  as none, whoever put it there.

  Proved: an address that does not look like a default, that no gateway and no other backend
  has, is kept (`assignOverlays_keeps`); afterwards no two backends and no gateway share such an
  address (`assignOverlays_apart`, `assignOverlays_not_taken`).
-/

import EdgeLb.Config.Normalize

namespace EdgeLb.Config

open EdgeLb.Lib

/-- The two loops over the backends, with the addresses already taken. -/
def assignOverlays (overlayCidr : String) (gateways : Nat) (taken : List String) (bs : List BackendNode) :
    List BackendNode :=
  fillOverlays overlayCidr ((keepOverlays taken bs).1.length + gateways + 256) (keepOverlays taken bs).2
    (keepOverlays taken bs).1

/-- The gateways' overlay addresses. -/
def FileConfig.takenOverlays (file : FileConfig) : List String :=
  file.gatewayNodes.map (·.overlayIp) ++ [gatewayOverlay file.network.overlayCidr file.gateway.overlayIp]

/-- What normalisation does to the backends of a settled configuration. -/
theorem FileConfig.Settled.normalize_backendNodes {file : FileConfig} (h : file.Settled) {backends : List BackendNode}
    (hne : backends ≠ []) :
    ({ file with backendNodes := backends } : FileConfig).normalize.backendNodes =
      assignOverlays file.network.overlayCidr file.gatewayNodes.length file.takenOverlays backends := by
  have hcidr : file.foldedNetwork.overlayCidr = file.network.overlayCidr := h.cidr
  have hoverlays : (file.gatewayNodes.map fun g => { g with overlayIp := gatewayOverlay file.network.overlayCidr g.overlayIp }) =
      file.gatewayNodes := by
    conv_rhs => rw [← List.map_id file.gatewayNodes]
    refine List.map_congr_left fun g hg => ?_
    rw [h.overlays g hg]
    rfl
  rw [h.normalize_eq, adoptGateway_backendNodes, bootstrapBackend_of_ne hne]
  simp only [assignOverlayIps, assignOverlays, takenOverlays, hcidr, hoverlays]

/-- Two backends may show one text only when it counts as no address. -/
def OverlaysApart (a b : BackendNode) : Prop :=
  a.overlayIp = b.overlayIp → overlayNeedsAssignment a.overlayIp = true

variable {bs : List BackendNode} {cidr : String} {used : List String}

/-- An address that counts as one belongs to one backend. -/
theorem eq_of_overlay_eq (h : bs.Pairwise OverlaysApart) {a b : BackendNode} (ha : a ∈ bs)
    (hb : b ∈ bs) (heq : a.overlayIp = b.overlayIp) (hset : overlayNeedsAssignment b.overlayIp = false) : a = b := by
  induction bs with
  | nil => cases ha
  | cons x xs ih =>
    obtain ⟨hx, hxs⟩ := List.pairwise_cons.mp h
    have hne : overlayNeedsAssignment b.overlayIp ≠ true := by simp [hset]
    rcases List.mem_cons.mp ha with rfl | ha'
    · rcases List.mem_cons.mp hb with rfl | hb'
      · rfl
      · exact absurd (heq ▸ hx b hb' heq) hne
    · rcases List.mem_cons.mp hb with rfl | hb'
      · exact absurd (hx a ha' heq.symm) hne
      · exact ih hxs ha' hb'

theorem needs_default : overlayNeedsAssignment defaultBackendOverlay = true := by decide

/-! ## The first loop -/

/-- What the first loop leaves: every address in use is taken, none twice. -/
structure Kept (taken : List String) (kept : List BackendNode × List String) : Prop where
  used : ∀ overlay ∈ taken, overlay ∈ kept.2
  listed : ∀ b ∈ kept.1, overlayNeedsAssignment b.overlayIp = false → b.overlayIp ∈ kept.2 ∧ b.overlayIp ∉ taken
  apart : kept.1.Pairwise OverlaysApart

theorem keepOverlays_kept (taken : List String) (bs : List BackendNode) : Kept taken (keepOverlays taken bs) := by
  induction bs generalizing taken with
  | nil => exact ⟨fun _ h => h, by simp [keepOverlays], .nil⟩
  | cons b bs ih =>
    simp only [keepOverlays]
    split
    · next hneeds =>
      have hrest := ih taken
      refine ⟨hrest.used, List.forall_mem_cons.mpr ⟨fun h => ?_, hrest.listed⟩,
        List.pairwise_cons.mpr ⟨fun _ _ _ => hneeds, hrest.apart⟩⟩
      rw [hneeds] at h
      cases h
    · next hset =>
      have hset : overlayNeedsAssignment b.overlayIp = false := by simpa using hset
      split
      · have hrest := ih taken
        refine ⟨hrest.used, List.forall_mem_cons.mpr ⟨fun h => ?_, hrest.listed⟩,
          List.pairwise_cons.mpr ⟨fun _ _ _ => needs_default, hrest.apart⟩⟩
        rw [needs_default] at h
        cases h
      · next hfree =>
        have hrest := ih (taken ++ [b.overlayIp])
        refine ⟨fun overlay h => hrest.used overlay (List.mem_append_left _ h),
          List.forall_mem_cons.mpr ⟨fun _ => ⟨hrest.used _ (by simp), hfree⟩, fun x hx hx' => ?_⟩,
          List.pairwise_cons.mpr ⟨fun x hx heq => ?_, hrest.apart⟩⟩
        · obtain ⟨hused, hnot⟩ := hrest.listed x hx hx'
          exact ⟨hused, fun h => hnot (List.mem_append_left _ h)⟩
        · -- a later backend with this address was not let keep it
          by_contra hb
          have hx' : overlayNeedsAssignment x.overlayIp = false := heq ▸ hset
          exact (hrest.listed x hx hx').2 (by simp [heq])

theorem keepOverlays_mem {taken : List String} {b : BackendNode} (hb : b ∈ bs)
    (hset : overlayNeedsAssignment b.overlayIp = false) (hfree : b.overlayIp ∉ taken)
    (honly : ∀ x ∈ bs, x.overlayIp = b.overlayIp → x = b) : b ∈ (keepOverlays taken bs).1 := by
  induction bs generalizing taken with
  | nil => cases hb
  | cons x bs ih =>
    obtain ⟨hx, hrest⟩ := List.forall_mem_cons.mp honly
    simp only [keepOverlays]
    by_cases hxb : x = b
    · subst hxb
      rw [if_neg (by simp [hset]), if_neg hfree]
      exact List.mem_cons_self
    · have hb : b ∈ bs := (List.mem_cons.mp hb).resolve_left fun h => hxb h.symm
      split
      · exact List.mem_cons_of_mem _ (ih hb hfree hrest)
      · split
        · exact List.mem_cons_of_mem _ (ih hb hfree hrest)
        · refine List.mem_cons_of_mem _ (ih hb ?_ hrest)
          intro hmem
          rcases List.mem_append.mp hmem with hmem | hmem
          · exact hfree hmem
          · exact hxb (hx (List.mem_singleton.mp hmem).symm)

/-! ## The second loop -/

theorem firstFreeOverlay_free {count index : Nat} {overlay : String}
    (h : firstFreeOverlay cidr used count index = some overlay) : overlay ∉ used := by
  induction count generalizing index with
  | zero => cases h
  | succ count ih =>
    simp only [firstFreeOverlay] at h
    split at h
    · cases h
    · split at h
      · exact ih h
      · next hfree =>
        obtain rfl := Option.some.inj h
        exact hfree

/-- The second loop, from `used` on: a backend without an address gets a free one, of which `given` is
    known, or stays as it is where searches may fail (`gaps`). -/
inductive Filled (given : String → Prop) (gaps : Prop) : List String → List BackendNode → List BackendNode → Prop
  | nil {used : List String} : Filled given gaps used [] []
  | keep {used : List String} {bs filled : List BackendNode} {b : BackendNode}
      (set : overlayNeedsAssignment b.overlayIp = false) (rest : Filled given gaps used bs filled) :
      Filled given gaps used (b :: bs) (b :: filled)
  | fill {used : List String} {bs filled : List BackendNode} {b : BackendNode} {overlay : String}
      (needs : overlayNeedsAssignment b.overlayIp = true) (known : given overlay) (free : overlay ∉ used)
      (rest : Filled given gaps (used ++ [overlay]) bs filled) :
      Filled given gaps used (b :: bs) ({ b with overlayIp := overlay } :: filled)
  | miss {used : List String} {bs filled : List BackendNode} {b : BackendNode}
      (needs : overlayNeedsAssignment b.overlayIp = true) (gap : gaps) (rest : Filled given gaps used bs filled) :
      Filled given gaps used (b :: bs) (b :: filled)

theorem fillOverlays_any (max : Nat) : Filled (fun _ => True) True used bs (fillOverlays cidr max used bs) := by
  induction bs generalizing used with
  | nil => exact .nil
  | cons b bs ih =>
    simp only [fillOverlays]
    split
    · next hneeds =>
      split
      · next hsearch => exact .fill hneeds trivial (firstFreeOverlay_free hsearch) ih
      · exact .miss hneeds trivial ih
    · next hset => exact .keep (by simpa using hset) ih

namespace Filled

variable {given : String → Prop} {gaps : Prop} {filled : List BackendNode}

section

variable (h : Filled given gaps used bs filled)
include h

/-- A backend of the result is as it was or has a free address. -/
theorem mem {x : BackendNode} (hx : x ∈ filled) :
    (x ∈ bs ∧ (overlayNeedsAssignment x.overlayIp = true → gaps)) ∨ x.overlayIp ∉ used := by
  induction h with
  | nil => cases hx
  | keep hset _ ih =>
    rcases List.mem_cons.mp hx with rfl | hx
    · refine .inl ⟨List.mem_cons_self, fun hneeds => ?_⟩
      rw [hset] at hneeds
      cases hneeds
    · exact (ih hx).imp_left fun ⟨hmem, hgaps⟩ => ⟨List.mem_cons_of_mem _ hmem, hgaps⟩
  | fill _ _ hfree _ ih =>
    rcases List.mem_cons.mp hx with rfl | hx
    · exact .inr hfree
    · rcases ih hx with ⟨hmem, hgaps⟩ | hnot
      · exact .inl ⟨List.mem_cons_of_mem _ hmem, hgaps⟩
      · exact .inr fun hmem => hnot (List.mem_append_left _ hmem)
  | miss _ hgap _ ih =>
    rcases List.mem_cons.mp hx with rfl | hx
    · exact .inl ⟨List.mem_cons_self, fun _ => hgap⟩
    · exact (ih hx).imp_left fun ⟨hmem, hgaps⟩ => ⟨List.mem_cons_of_mem _ hmem, hgaps⟩

theorem mem_of_set {b : BackendNode} (hb : b ∈ bs) (hset : overlayNeedsAssignment b.overlayIp = false) : b ∈ filled := by
  induction h with
  | nil => cases hb
  | keep _ _ ih | miss _ _ _ ih =>
    rcases List.mem_cons.mp hb with rfl | hb
    · exact List.mem_cons_self
    · exact List.mem_cons_of_mem _ (ih hb)
  | fill hneeds _ _ _ ih =>
    rcases List.mem_cons.mp hb with rfl | hb
    · rw [hset] at hneeds
      cases hneeds
    · exact List.mem_cons_of_mem _ (ih hb)

/-- Not even an address that looks like a default is given twice. -/
theorem apart (hused : ∀ b ∈ bs, overlayNeedsAssignment b.overlayIp = false → b.overlayIp ∈ used)
    (hapart : bs.Pairwise OverlaysApart) :
    filled.Pairwise fun a b => a.overlayIp = b.overlayIp → overlayNeedsAssignment a.overlayIp = true ∧ gaps := by
  induction h with
  | nil => exact .nil
  | keep hset hrest ih =>
    obtain ⟨hb, hused⟩ := List.forall_mem_cons.mp hused
    obtain ⟨hbapart, hapart⟩ := List.pairwise_cons.mp hapart
    refine List.pairwise_cons.mpr ⟨fun x hx heq => ?_, ih hused hapart⟩
    rcases hrest.mem hx with ⟨hx, -⟩ | hnot
    · have hneeds := hbapart x hx heq
      rw [hset] at hneeds
      cases hneeds
    · exact absurd (heq ▸ hb hset) hnot
  | @fill used _ _ _ overlay _ _ hfree hrest ih =>
    obtain ⟨-, hused⟩ := List.forall_mem_cons.mp hused
    obtain ⟨-, hapart⟩ := List.pairwise_cons.mp hapart
    refine List.pairwise_cons.mpr ⟨fun x hx heq => ?_, ih (fun x hx hset => List.mem_append_left _ (hused x hx hset)) hapart⟩
    replace heq : overlay = x.overlayIp := heq
    subst heq
    rcases hrest.mem hx with ⟨hx, hgaps⟩ | hnot
    · -- a backend that was not filled has an address in use, or none
      by_cases hneeds : overlayNeedsAssignment x.overlayIp = true
      · exact ⟨hneeds, hgaps hneeds⟩
      · exact absurd (hused x hx (by simpa using hneeds)) hfree
    · exact absurd (List.mem_append_right used List.mem_cons_self) hnot
  | miss hneeds hgap _ ih =>
    obtain ⟨-, hused⟩ := List.forall_mem_cons.mp hused
    obtain ⟨-, hapart⟩ := List.pairwise_cons.mp hapart
    exact List.pairwise_cons.mpr ⟨fun _ _ _ => ⟨hneeds, hgap⟩, ih hused hapart⟩

end

end Filled

/-! ## Both -/

section

variable {cidr : String} {gateways : Nat} {taken : List String} {bs : List BackendNode}

theorem assignOverlays_map {β : Type} {f : BackendNode → β} (hf : ∀ b overlayIp, f { b with overlayIp } = f b) :
    (assignOverlays cidr gateways taken bs).map f = bs.map f := by
  rw [assignOverlays, fillOverlays_map hf, keepOverlays_map hf]

theorem assignOverlays_keeps {b : BackendNode} (hb : b ∈ bs) (hset : overlayNeedsAssignment b.overlayIp = false)
    (hfree : b.overlayIp ∉ taken) (honly : ∀ x ∈ bs, x.overlayIp = b.overlayIp → x = b) :
    b ∈ assignOverlays cidr gateways taken bs :=
  (fillOverlays_any _).mem_of_set (keepOverlays_mem hb hset hfree honly) hset

theorem assignOverlays_apart : (assignOverlays cidr gateways taken bs).Pairwise OverlaysApart := by
  have hkept := keepOverlays_kept taken bs
  exact ((fillOverlays_any _).apart (fun b hb hset => (hkept.listed b hb hset).1) hkept.apart).imp
    fun h heq => (h heq).1

theorem assignOverlays_not_taken {x : BackendNode} (hx : x ∈ assignOverlays cidr gateways taken bs)
    (hset : overlayNeedsAssignment x.overlayIp = false) : x.overlayIp ∉ taken := by
  have hkept := keepOverlays_kept taken bs
  rcases (fillOverlays_any _).mem hx with ⟨hx, -⟩ | hx
  · exact (hkept.listed x hx hset).2
  · exact fun hmem => hx (hkept.used _ hmem)

end

end EdgeLb.Config
