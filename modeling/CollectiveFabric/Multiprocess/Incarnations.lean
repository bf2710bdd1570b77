import CollectiveFabric.Group.Construction
import CollectiveFabric.Multiprocess.Model.Coordinator

/-!
# Boots as names

The coordinator finds a worker's rank by its boot, and the runtime a group
by a boot that is in it. Both take the boot for the name of one
participant. The builder refuses two participants of one worker and one
boot; it does not look at workers or boots alone, so a boot that two
workers share, and a worker that is there in two incarnations, are built
in.
-/

namespace CollectiveFabric

variable {g : CollectiveGroup}

/-- **A boot names a participant of the group**, and a worker is there in
one incarnation: no boot is shared, the coordinator's lookup gives every
participant's own rank, and a boot that is in the group is in it once. -/
structure BootsIdentify (g : CollectiveGroup) : Prop where
  boots : (g.participants.toList.map (·.boot)).Nodup
  incarnations : ∀ p ∈ g.participants.toList, ∀ q ∈ g.participants.toList,
    p.worker = q.worker → p.boot = q.boot
  rank : ∀ p ∈ g.participants.toList, rankOfBoot g p.boot.raw = p.rank
  live : ∀ boot, g.isLiveAuthority boot = true →
    ∃! p, p ∈ g.participants.toList ∧ p.boot = boot

/-- The coordinator's lookup, where boots are different. -/
theorem rankOfBoot_eq (h : (g.participants.toList.map (·.boot)).Nodup) {p : Participant}
    (hp : p ∈ g.participants.toList) : rankOfBoot g p.boot.raw = p.rank := by
  have hraw : (g.participants.toList.map (·.boot.raw)).Nodup := by
    refine List.Nodup.of_map (fun raw => (⟨raw⟩ : WorkerBootId)) ?_
    rwa [List.map_map]
  have hfind : g.participants.toList.find? (·.boot.raw = p.boot.raw) = some p :=
    (Common.Keyed.find?_eq_some_iff hraw).2 ⟨hp, rfl⟩
  rw [rankOfBoot, hfind]
  rfl

/-- A boot that is in the group is in it once, where boots are different. -/
theorem existsUnique_of_isLiveAuthority (h : (g.participants.toList.map (·.boot)).Nodup)
    {boot : WorkerBootId} (hlive : g.isLiveAuthority boot = true) :
    ∃! p, p ∈ g.participants.toList ∧ p.boot = boot := by
  obtain ⟨p, hp, hboot⟩ := List.any_eq_true.1 hlive
  have hboot : p.boot = boot := of_decide_eq_true hboot
  refine ⟨p, ⟨hp, hboot⟩, ?_⟩
  rintro q ⟨hq, hq'⟩
  exact List.inj_on_of_nodup_map h hq hp (hq'.trans hboot.symm)

/-- **What `find_group_by_boot` gives** holds the boot. -/
theorem isLiveAuthority_of_findGroupByBoot {rt : Runtime} {id : CollectiveGroupId}
    {boot : WorkerBootId} (h : rt.findGroupByBoot id boot = some g) :
    g.isLiveAuthority boot = true := by
  obtain ⟨entry, hfind, rfl⟩ := Option.map_eq_some_iff.1 h
  have hfound := List.find?_some hfind
  exact (of_decide_eq_true hfound).2

/-- So it holds one participant of the boot, where boots identify. -/
theorem BootsIdentify.of_findGroupByBoot (h : BootsIdentify g) {rt : Runtime}
    {id : CollectiveGroupId} {boot : WorkerBootId} (hfound : rt.findGroupByBoot id boot = some g) :
    ∃! p, p ∈ g.participants.toList ∧ p.boot = boot :=
  h.live boot (isLiveAuthority_of_findGroupByBoot hfound)

/-- **Boots identify** where no worker and no boot is there twice. -/
theorem bootsIdentify_iff_nodup :
    BootsIdentify g ↔ (g.participants.toList.map (·.worker)).Nodup ∧
      (g.participants.toList.map (·.boot)).Nodup := by
  constructor
  · intro h
    refine ⟨?_, h.boots⟩
    -- two places with one worker would have one boot
    have hboots := List.pairwise_map.1 h.boots
    refine List.pairwise_map.2 (hboots.imp_of_mem ?_)
    intro p q hp hq hne hworker
    exact hne (h.incarnations p hp q hq hworker)
  · rintro ⟨hworkers, hboots⟩
    refine ⟨hboots, ?_, fun p hp => rankOfBoot_eq hboots hp,
      fun boot hlive => existsUnique_of_isLiveAuthority hboots hlive⟩
    intro p hp q hq hworker
    rw [List.inj_on_of_nodup_map hworkers hp hq hworker]

/-- **Boots identify the participants of a built group** exactly when no
two of those added share a worker or a boot. -/
theorem bootsIdentify_iff (b : GroupBuilder) (g : CollectiveGroup) (hg : b.build.1 = .ok g) :
    BootsIdentify g ↔
      b.participants.toList.Pairwise fun p q => p.worker ≠ q.worker ∧ p.boot ≠ q.boot := by
  have hworkers := GroupBuilder.map_build (f := (·.worker)) (fun _ _ => rfl) hg
  have hboots := GroupBuilder.map_build (f := (·.boot)) (fun _ _ => rfl) hg
  rw [bootsIdentify_iff_nodup, hworkers.nodup_iff, hboots.nodup_iff, List.pairwise_and_iff,
    List.Nodup, List.Nodup, List.pairwise_map, List.pairwise_map]

/-- Two workers, two boots. -/
theorem bootsIdentify_pair :
    BootsIdentify (GroupBuilder.pairRanked.group GroupBuilder.pairRanked_validate) :=
  (bootsIdentify_iff _ _ GroupBuilder.pair_build).2 (by decide)

namespace GroupBuilder

/-- Two workers of one boot. -/
def sharedBoot : GroupBuilder :=
  (({ id := ⟨7⟩, generation := ⟨1⟩ } : GroupBuilder).addParticipant ⟨1⟩ ⟨1⟩ ⟨5⟩ ⟨1⟩ ⟨1⟩
    ⟨1⟩).addParticipant ⟨2⟩ ⟨2⟩ ⟨5⟩ ⟨1⟩ ⟨2⟩ ⟨1⟩

/-- One worker in two incarnations. -/
def twoIncarnations : GroupBuilder :=
  (({ id := ⟨7⟩, generation := ⟨1⟩ } : GroupBuilder).addParticipant ⟨1⟩ ⟨1⟩ ⟨5⟩ ⟨1⟩ ⟨1⟩
    ⟨1⟩).addParticipant ⟨2⟩ ⟨1⟩ ⟨6⟩ ⟨1⟩ ⟨2⟩ ⟨1⟩

end GroupBuilder

/-- **Both are built**: in the first the lookup by boot 5 gives rank 0 for
the participant of rank 1, in the second worker 1 has two boots. -/
theorem not_bootsIdentify :
    (∃ g, GroupBuilder.sharedBoot.build.1 = .ok g ∧ ¬ BootsIdentify g) ∧
      ∃ g, GroupBuilder.twoIncarnations.build.1 = .ok g ∧ ¬ BootsIdentify g := by
  refine ⟨⟨_, GroupBuilder.build_of_sorted (by decide) (by decide) (by decide +kernel), ?_⟩,
    ⟨_, GroupBuilder.build_of_sorted (by decide) (by decide) (by decide +kernel), ?_⟩⟩
  · intro h
    exact absurd h.boots (by decide)
  · intro h
    have hworkers := (bootsIdentify_iff_nodup.1 h).1
    exact absurd hworkers (by decide)

end CollectiveFabric
