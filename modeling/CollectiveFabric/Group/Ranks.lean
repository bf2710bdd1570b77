import CollectiveFabric.Group.Construction

/-!
# Ranks given to the builder

Rank 0 is the first rank and the null rank. Ranks that fill `0..n-1`
include it, so the builder takes them for missing and ranks by identity:
the ranks given are the ranks had exactly where they follow the identities.
-/

namespace CollectiveFabric

namespace GroupBuilder

variable {b : GroupBuilder} {g : CollectiveGroup} {added : List Added}

/-- Participants with ranks of their own, which fill `0..n-1`. -/
structure ExplicitRanks (added : List Added) : Prop where
  nonempty : added ≠ []
  ids : (added.map (·.id)).Nodup
  boots : (added.map fun a => (a.worker, a.boot)).Nodup
  known : ∀ a ∈ added, a.worker.isNull = false ∧ a.boot.isNull = false
  ranks : (added.map (·.rank.raw.toNat)).Perm (List.range added.length)

/-- The builder returns a group in which everybody has the rank it was
added with. -/
def Honours (b : GroupBuilder) (added : List Added) : Prop :=
  ∃ g, (b.addAll added).build.1 = .ok g ∧ ∀ a ∈ added, g.rankOf a.id = some a.rank

/-- The ranks follow the identities. -/
def RanksFollowIds (added : List Added) : Prop :=
  ∀ a ∈ added, ∀ a' ∈ added, a.id < a'.id → a.rank < a'.rank

/-- Somebody has rank 0, which is null. -/
theorem ExplicitRanks.exists_null (h : ExplicitRanks added) :
    ∃ a ∈ added, a.rank.isNull = true := by
  have hpos : 0 < added.length := List.length_pos_iff.2 h.nonempty
  obtain ⟨a, ha, hzero⟩ := List.mem_map.1 (h.ranks.mem_iff.2 (List.mem_range.2 hpos))
  have hraw : a.rank.raw = 0 := UInt64.toNat_inj.1 hzero
  exact ⟨a, ha, by simp [StrongId.isNull, hraw]⟩

/-- Ranks that fill `0..n-1` and increase are dense. -/
theorem dense_of_increasing {ps : List Participant} (hsize : ps.length < 2 ^ 64)
    (hincreasing : ps.Pairwise fun p q => p.rank < q.rank)
    (hperm : (ps.map (·.rank.raw.toNat)).Perm (List.range ps.length)) : DenseRanks ps := by
  have hsorted : (ps.map (·.rank.raw.toNat)).Pairwise (· < ·) := List.pairwise_map.2 hincreasing
  have hrange : ps.map (·.rank.raw.toNat) = List.range ps.length := by
    refine hperm.eq_of_pairwise ?_ hsorted List.pairwise_lt_range
    intro i j _ _ hij hji
    omega
  intro i p hp
  have hi : i < ps.length := (List.getElem?_eq_some_iff.1 hp).1
  have hrank := congrArg (fun l : List ℕ => l[i]?) hrange
  simp only [List.getElem?_map, hp, Option.map_some, List.getElem?_range hi,
    Option.some.injEq] at hrank
  have hraw : p.rank.raw = UInt64.ofNat i := by
    rw [← UInt64.toNat_inj, hrank, UInt64.toNat_ofNat_of_lt' (lt_trans hi hsize)]
  exact congrArg StrongId.mk hraw

/-- Ranks that follow the identities are dense in their order. -/
theorem dense_sorted (h : ExplicitRanks added) (hsize : added.length < 2 ^ 64)
    (hfollow : RanksFollowIds added) : DenseRanks (sorted added) := by
  have hlength : (sorted added).length = added.length := by
    rw [(sorted_perm added).length_eq, List.length_map]
  have hids : ((sorted added).map (·.id)).Nodup := by
    have hmap := (sorted_perm added).map (·.id)
    rw [List.map_map] at hmap
    exact hmap.nodup_iff.2 h.ids
  refine dense_of_increasing (by rwa [hlength]) ?_ ?_
  · have hboth := (pairwise_mergeSort_id _).and (List.pairwise_map.1 hids)
    refine List.Pairwise.imp_of_mem (fun {p q} hp hq hpq => ?_) hboth
    obtain ⟨a, ha, rfl⟩ := List.mem_map.1 ((sorted_perm added).mem_iff.1 hp)
    obtain ⟨a', ha', rfl⟩ := List.mem_map.1 ((sorted_perm added).mem_iff.1 hq)
    exact hfollow a ha a' ha' (lt_of_le_of_ne hpq.1 hpq.2)
  · have hmap := (sorted_perm added).map (·.rank.raw.toNat)
    rw [List.map_map] at hmap
    rw [hlength]
    exact hmap.trans h.ranks

/-- In a built group the ranks follow the identities. -/
theorem rank_lt_of_build (hg : (b.addAll added).build.1 = .ok g) {id id' : ParticipantId}
    {r r' : RankId} (hid : g.rankOf id = some r) (hid' : g.rankOf id' = some r')
    (hlt : id < id') : r < r' := by
  obtain ⟨p, hp, rfl⟩ := Option.map_eq_some_iff.1 hid
  obtain ⟨p', hp', rfl⟩ := Option.map_eq_some_iff.1 hid'
  have hpid : p.id = id := by simpa using List.find?_some hp
  have hpid' : p'.id = id' := by simpa using List.find?_some hp'
  obtain ⟨i, hi, hip⟩ := List.getElem_of_mem (List.mem_of_find?_eq_some hp)
  obtain ⟨j, hj, hjp⟩ := List.getElem_of_mem (List.mem_of_find?_eq_some hp')
  have hsize := g.participants.size_lt
  have hsorted := List.pairwise_iff_getElem.1 (sorted_of_build hg)
  have hij : i < j := by
    by_contra hge
    have hle : id' ≤ id := by
      rcases eq_or_lt_of_le (not_lt.1 hge) with rfl | hji
      · rw [← hpid, ← hpid', ← hip, ← hjp]
      · rw [← hpid, ← hpid', ← hip, ← hjp]
        exact hsorted j i hj hi hji
    exact absurd hlt (not_lt.2 hle)
  have hrank := g.dense i p (List.getElem?_eq_some_iff.2 ⟨hi, hip⟩)
  have hrank' := g.dense j p' (List.getElem?_eq_some_iff.2 ⟨hj, hjp⟩)
  rw [hrank, hrank']
  change (UInt64.ofNat i).toNat < (UInt64.ofNat j).toNat
  rw [UInt64.toNat_ofNat_of_lt' (lt_trans hi hsize), UInt64.toNat_ofNat_of_lt' (lt_trans hj hsize)]
  exact hij

/-- **Explicit ranks are honoured** exactly where they follow the
identities. -/
theorem honours_iff (b : GroupBuilder) (hempty : b.participants = ∅)
    (hmembership : b.membership.isNull = false) (htopology : b.topology.isNull = false)
    (added : List Added) (hsize : added.length < 2 ^ 64) (h : ExplicitRanks added) :
    Honours b added ↔ RanksFollowIds added := by
  have hnull := h.exists_null
  constructor
  · rintro ⟨g, hg, hranks⟩ a ha a' ha' hlt
    exact rank_lt_of_build hg (hranks a ha) (hranks a' ha') hlt
  · intro hfollow
    have hcon : Constructible b added :=
      ⟨h.nonempty, hmembership, htopology, h.ids, h.boots, h.known⟩
    obtain ⟨g, hg⟩ := (build_iff hempty hsize hnull).2 hcon
    refine ⟨g, hg, fun a ha => ?_⟩
    have hids := nodup_of_build hg
    have hlist := toList_build hempty hsize hnull hg
    rw [ranked_of_dense (dense_sorted h hsize hfollow)] at hlist
    have hmem : a.participant ∈ g.participants.toList := by
      rw [hlist]
      exact (sorted_perm added).mem_iff.2 (List.mem_map_of_mem ha)
    have hfind : g.participant a.id = some a.participant :=
      (Common.Keyed.find?_eq_some_iff hids).2 ⟨hmem, rfl⟩
    rw [CollectiveGroup.rankOf, hfind]
    rfl

/-- Two participants whose ranks go against their identities. -/
def crossed : List Added :=
  [⟨⟨1⟩, ⟨1⟩, ⟨1⟩, ⟨1⟩, ⟨1⟩, ⟨1⟩, ⟨1⟩⟩, ⟨⟨2⟩, ⟨2⟩, ⟨2⟩, ⟨2⟩, ⟨2⟩, ⟨1⟩, ⟨0⟩⟩]

theorem explicitRanks_crossed : ExplicitRanks crossed :=
  ⟨by decide, by decide, by decide, by decide, by decide⟩

/-- The participants with identities 1 and 2 come out with ranks 0 and 1,
whatever they were added with. -/
theorem not_honours_crossed :
    ExplicitRanks crossed ∧ ¬Honours { id := ⟨7⟩, generation := ⟨1⟩ } crossed := by
  refine ⟨explicitRanks_crossed, ?_⟩
  rintro ⟨g, hg, hranks⟩
  have hone := hranks ⟨⟨1⟩, ⟨1⟩, ⟨1⟩, ⟨1⟩, ⟨1⟩, ⟨1⟩, ⟨1⟩⟩ (by simp [crossed])
  have htwo := hranks ⟨⟨2⟩, ⟨2⟩, ⟨2⟩, ⟨2⟩, ⟨2⟩, ⟨1⟩, ⟨0⟩⟩ (by simp [crossed])
  exact absurd (rank_lt_of_build hg hone htwo (by decide)) (by decide)

/-- Ranks in the order of the identities are honoured. -/
theorem honours_straight : Honours { id := ⟨7⟩, generation := ⟨1⟩ }
    [⟨⟨2⟩, ⟨2⟩, ⟨2⟩, ⟨2⟩, ⟨2⟩, ⟨1⟩, ⟨1⟩⟩, ⟨⟨1⟩, ⟨1⟩, ⟨1⟩, ⟨1⟩, ⟨1⟩, ⟨1⟩, ⟨0⟩⟩] :=
  (honours_iff { id := ⟨7⟩, generation := ⟨1⟩ } rfl (by decide) (by decide)
    [⟨⟨2⟩, ⟨2⟩, ⟨2⟩, ⟨2⟩, ⟨2⟩, ⟨1⟩, ⟨1⟩⟩, ⟨⟨1⟩, ⟨1⟩, ⟨1⟩, ⟨1⟩, ⟨1⟩, ⟨1⟩, ⟨0⟩⟩] (by decide)
    ⟨by decide, by decide, by decide, by decide, by decide⟩).2 (by
      simp only [RanksFollowIds]
      decide)

end GroupBuilder

end CollectiveFabric
