/-
  EdgeLb.Datapath.Disruption — which buckets of a `consistent_hash` listener change hands when
  one of its targets comes, goes, or changes its health (`desired_consistent_hash_buckets` and
  `choose_consistent_hash_bucket_target` of `edge-lb/src/linux/native_dnat.rs`).

  A bucket's entry is a slot, and the slot's entry the target that owns it. A target that is
  removed lets the ones behind it move up, so that slots change all over the table; owners do
  not, since a score depends on the bucket, the address and the port only and no two backends
  have one score. The first-maximum rule of the scan decides between copies of one backend.

  Proved: a bucket whose owner differs between the two tables is owned by the target in question
  in one of them (`owner_moves_with_target`).
-/

import EdgeLb.Datapath.ConsistentHash

namespace EdgeLb.Datapath

open EdgeLb.Common EdgeLb.Lib EdgeLb.Provider

def targetBackend (t : NativeTarget) : Backend := (t.address, t.port)

namespace Served

variable (g : Served)

/-- The address and port in the slot the bucket's entry names. -/
def owner (bucket : UInt32) : Option Backend :=
  (g.maps.chashBuckets.lookup ⟨g.id, bucket⟩).bind fun v => (g.maps.targets.lookup ⟨g.id, v.targetId⟩).map backendOf

/-- The table's owner is the healthy backend with the highest score. -/
theorem owner_eq {bucket : UInt32} (hbucket : bucket.toNat < 1024) :
    g.owner bucket = (highestTarget bucket (bucketTargets g.observed g.listener)).map fun e => backendOf e.2 := by
  obtain ⟨ids, hids, hmem⟩ := g.assigned
  have hentry : g.maps.chashBuckets.lookup ⟨g.id, bucket⟩ =
      (highestTarget bucket (bucketTargets g.observed g.listener)).map fun e => ⟨e.1⟩ :=
    synced_bucket hids (update_synced hids g.finished) hmem g.consistent hbucket
  rw [owner, hentry]
  cases h : highestTarget bucket (bucketTargets g.observed g.listener) with
  | none => rfl
  | some e =>
    obtain ⟨t, i, hget, ⟨hactive, -⟩, rfl⟩ := mem_bucketTargets_iff.mp (List.argmax_mem h)
    have hlookup : g.maps.targets.lookup ⟨g.id, UInt32.ofNat i⟩ = some (targetValue t) :=
      g.target_iff.mpr ⟨t, i, hget, hactive, rfl, rfl⟩
    show (g.maps.targets.lookup ⟨g.id, UInt32.ofNat i⟩).map backendOf = _
    rw [hlookup]
    rfl

end Served

/-- The two lists differ by one target, which was added, removed, or seen in another state; the
    others are the same, in whatever slots, and in the same state. -/
structure DiffersBy (t : NativeTarget) (g g' : Served) : Prop where
  targets : g'.listener.targets.Perm (t :: g.listener.targets) ∨ g.listener.targets.Perm (t :: g'.listener.targets) ∨
    g.listener.targets.Perm g'.listener.targets ∧ t ∈ g.listener.targets
  health : ∀ u ∈ g.listener.targets, targetBackend u ≠ targetBackend t →
    nativeTargetIsActive g.observed g.listener u = nativeTargetIsActive g'.observed g'.listener u

section

variable {t : NativeTarget} {g g' : Served} (h : DiffersBy t g g')
include h

theorem DiffersBy.mem_iff {u : NativeTarget}
    (hne : targetBackend u ≠ targetBackend t) : u ∈ g.listener.targets ↔ u ∈ g'.listener.targets := by
  have hut : u ≠ t := fun heq => hne (congrArg targetBackend heq)
  rcases h.targets with hadded | hremoved | ⟨hsame, -⟩
  · rw [hadded.mem_iff, List.mem_cons, or_iff_right hut]
  · rw [hremoved.mem_iff, List.mem_cons, or_iff_right hut]
  · exact hsame.mem_iff

/-- The other backends are healthy in both or in neither. -/
theorem DiffersBy.backends {b : Backend} (hne : b ≠ targetBackend t) : b ∈ g.backends ↔ b ∈ g'.backends := by
  unfold Served.backends
  rw [List.mem_map, List.mem_map]
  refine exists_congr fun u => and_congr_left fun hu => ?_
  have hother : targetBackend u ≠ targetBackend t := fun heq => hne (hu.symm.trans heq)
  rw [Served.healthy, Served.healthy, List.mem_filter, List.mem_filter, ← h.mem_iff hother]
  exact and_congr_right fun hmem => by rw [h.health u hmem hother]

end

/-- A bucket whose owner differs between the tables belongs to the target in one of them, and
    every other bucket keeps its owner. -/
theorem owner_moves_with_target (t : NativeTarget) (g g' : Served) (h : DiffersBy t g g') (bucket : UInt32)
    (hbucket : bucket.toNat < 1024) :
    g.owner bucket = g'.owner bucket ∨ g.owner bucket = some (t.address, t.port) ∨
      g'.owner bucket = some (t.address, t.port) := by
  have hinj : Function.Injective fun b => (backendScore bucket b).toNat :=
    fun b b' hscore => backendScore_injective bucket (UInt64.toNat_inj.mp hscore)
  rw [g.owner_eq hbucket, g'.owner_eq hbucket]
  by_cases hmine : (highestTarget bucket (bucketTargets g.observed g.listener)).map (fun e => backendOf e.2) =
      some (t.address, t.port)
  · exact .inr (.inl hmine)
  by_cases hyours : (highestTarget bucket (bucketTargets g'.observed g'.listener)).map (fun e => backendOf e.2) =
      some (t.address, t.port)
  · exact .inr (.inr hyours)
  left
  refine argmax_key_eq_of (fun e : UInt32 × NativeTargetValue => backendOf e.2) hinj
    (P := fun b => b ≠ targetBackend t) ?_ ?_ ?_
  · intro b hb
    exact (g.mem_backends.symm.trans (h.backends hb)).trans g'.mem_backends
  · intro b hb heq
    exact hmine (hb.trans (congrArg some heq))
  · intro b hb heq
    exact hyours (hb.trans (congrArg some heq))

/-- The first of the two servers has gone, and the second moved up. -/
def westLeft : Served where
  listeners := [sipListener 0xc633640a [⟨0x0a000002, 5060, 1⟩]]
  weighed := none
  observed := none
  before := {}
  sync := true
  finished := by rfl
  id := stableListenerId ⟨0xc633640a, 5060, .udp⟩
  listener := sipListener 0xc633640a [⟨0x0a000002, 5060, 1⟩]
  assigned := ⟨_, rfl, by decide⟩
  consistent := rfl

theorem first_server_removed :
    DiffersBy ⟨0x0a000001, 5060, 1⟩ west westLeft ∧
      (west.owner 7 = westLeft.owner 7 ∨ west.owner 7 = some (0x0a000001, 5060) ∨
        westLeft.owner 7 = some (0x0a000001, 5060)) := by
  have hdiffers : DiffersBy ⟨0x0a000001, 5060, 1⟩ west westLeft :=
    ⟨.inr (.inl (List.Perm.refl _)), fun _ _ _ => rfl⟩
  exact ⟨hdiffers, owner_moves_with_target _ west westLeft hdiffers 7 (by decide)⟩

end EdgeLb.Datapath
