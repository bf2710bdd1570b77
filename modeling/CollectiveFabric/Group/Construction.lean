import CollectiveFabric.Common.Keyed
import CollectiveFabric.Group.Building
import Mathlib.Data.List.Nodup

/-!
# Groups of added participants

What a builder makes of a list of `add_participant` calls without ranks.
It validates exactly when the participants are there and told apart; the
group holds them in the order of their identities, ranked by their places;
and the order they were added in leaves no trace.
-/

namespace CollectiveFabric

/-- The arguments of a call of `add_participant`. -/
structure Added where
  id : ParticipantId
  worker : WorkerId
  boot : WorkerBootId
  node : NodeId
  device : DeviceId
  backendGeneration : BackendGeneration
  rank : RankId := {}

/-- The participant the call appends. -/
def Added.participant (a : Added) : Participant :=
  ⟨a.id, a.worker, a.boot, a.node, a.device, a.rank, a.backendGeneration, true⟩

namespace GroupBuilder

variable {b : GroupBuilder} {g : CollectiveGroup} {added added' : List Added}

/-- The builder after a list of calls. -/
def addAll (b : GroupBuilder) (added : List Added) : GroupBuilder :=
  added.foldl (fun b a =>
    b.addParticipant a.id a.worker a.boot a.node a.device a.backendGeneration a.rank) b

/-- **The calls append their participants** and touch nothing else. -/
theorem addAll_eq (b : GroupBuilder) (added : List Added)
    (hsize : b.participants.toList.length + added.length < 2 ^ 64) :
    b.addAll added = { b with
      participants := .ofList (b.participants.toList ++ added.map Added.participant) } := by
  induction added generalizing b with
  | nil => simp only [addAll, List.foldl_nil, List.map_nil, List.append_nil, Vec.ofList_toList]
  | cons a added ih =>
    rw [List.length_cons] at hsize
    have hone : (b.addParticipant a.id a.worker a.boot a.node a.device a.backendGeneration
        a.rank).participants.toList = b.participants.toList ++ [a.participant] := by
      refine List.take_of_length_le ?_
      rw [List.length_append, List.length_singleton]
      omega
    have hrest := ih (b.addParticipant a.id a.worker a.boot a.node a.device a.backendGeneration
      a.rank) (by rw [hone, List.length_append, List.length_singleton]; omega)
    rw [hone, List.append_assoc] at hrest
    exact hrest

theorem toList_addAll (hempty : b.participants = ∅) (hsize : added.length < 2 ^ 64) :
    (b.addAll added).participants.toList = added.map Added.participant := by
  have hnil : b.participants.toList = [] := by rw [hempty]; rfl
  rw [addAll_eq b added (by rw [hnil, List.length_nil]; omega), hnil, List.nil_append]
  refine List.take_of_length_le ?_
  rw [List.length_map]
  omega

/-! ## What validates, exactly -/

theorem mapIdx_eq_of_dense {ps : List Participant} (h : DenseRanks ps) :
    ps.mapIdx (fun i _ => (⟨UInt64.ofNat i⟩ : RankId)) = ps.map (·.rank) := by
  refine List.ext_getElem? fun i => ?_
  rw [List.getElem?_mapIdx, List.getElem?_map]
  cases hp : ps[i]? with
  | none => rfl
  | some p => rw [Option.map_some, Option.map_some, h i p hp]

/-- **What `validate` accepts.** -/
theorem validate_iff : b.validate = .ok () ↔
    b.participants.toList ≠ [] ∧ b.membership.isNull = false ∧ b.topology.isNull = false ∧
      (b.participants.toList.Pairwise fun p q => duplicateOf p q = none) ∧
      DenseRanks b.participants.toList ∧
      ∀ p ∈ b.participants.toList, p.worker.isNull = false ∧ p.boot.isNull = false := by
  constructor
  · intro h
    have hdense := dense_of_validate h
    have hne := ne_nil_of_validate h
    cases hfirst : firstDuplicate b.participants.toList with
    | some message =>
      simp only [validate, hfirst] at h
      split_ifs at h
    | none =>
      simp only [validate, hfirst, mapIdx_eq_of_dense hdense, ne_eq, not_true_eq_false,
        if_false] at h
      split_ifs at h with _ hmembership htopology hnull
      refine ⟨hne, by simpa using hmembership, by simpa using htopology,
        firstDuplicate_eq_none.1 hfirst, hdense, fun p hp => ?_⟩
      have hp' := List.any_eq_false.1 (Bool.not_eq_true _ ▸ hnull) p hp
      simpa using hp'
  · rintro ⟨hne, hmembership, htopology, hpairs, hdense, hnull⟩
    have hany : (b.participants.toList.any fun p => p.worker.isNull || p.boot.isNull) = false := by
      rw [List.any_eq_false]
      intro p hp
      simp [hnull p hp]
    simp [validate, hne, hmembership, htopology, firstDuplicate_eq_none.2 hpairs,
      mapIdx_eq_of_dense hdense, hany]

/-! ## Ranking by identity -/

theorem ranked_dense (ps : List Participant) : DenseRanks (ranked ps) := by
  intro i p hp
  rw [ranked, List.getElem?_mapIdx] at hp
  obtain ⟨q, -, rfl⟩ := Option.map_eq_some_iff.1 hp
  rfl

/-- Dense ranks are all different. -/
theorem nodup_of_dense {ps : List Participant} (h : DenseRanks ps) (hsize : ps.length < 2 ^ 64) :
    (ps.map (·.rank)).Nodup := by
  rw [← mapIdx_eq_of_dense h, List.nodup_iff_pairwise_ne, List.pairwise_iff_getElem]
  intro i j hi hj hij
  rw [List.length_mapIdx] at hi hj
  simp only [List.getElem_mapIdx]
  intro heq
  have hraw := congrArg (fun r : RankId => r.raw.toNat) heq
  have hi' : i < 2 ^ 64 := lt_trans hi hsize
  have hj' : j < 2 ^ 64 := lt_trans hj hsize
  simp only [UInt64.toNat_ofNat_of_lt' hi', UInt64.toNat_ofNat_of_lt' hj'] at hraw
  omega

/-- The participants of the calls in the order of their identities. -/
def sorted (added : List Added) : List Participant :=
  (added.map Added.participant).mergeSort fun p q => p.id ≤ q.id

theorem sorted_perm (added : List Added) : (sorted added).Perm (added.map Added.participant) :=
  List.mergeSort_perm ..

/-- **With a rank missing**, the builder ranks the participants in the
order of their identities. -/
theorem toList_assigned_of_null (hempty : b.participants = ∅) (hsize : added.length < 2 ^ 64)
    (hnull : ∃ a ∈ added, a.rank.isNull = true) :
    (b.addAll added).assigned.participants.toList = ranked (sorted added) := by
  obtain ⟨a, ha, hrank⟩ := hnull
  have hany : (added.map Added.participant).any (·.rank.isNull) = true :=
    List.any_eq_true.2 ⟨a.participant, List.mem_map_of_mem ha, hrank⟩
  rw [toList_assigned, toList_addAll hempty hsize, assignRanks, if_pos hany]
  rfl

theorem exists_addAll (b : GroupBuilder) (added : List Added) :
    ∃ ps, b.addAll added = { b with participants := ps } := by
  induction added generalizing b with
  | nil => exact ⟨b.participants, rfl⟩
  | cons a added ih =>
    obtain ⟨ps, hps⟩ := ih (b.addParticipant a.id a.worker a.boot a.node a.device
      a.backendGeneration a.rank)
    exact ⟨ps, hps⟩

/-- What the builder asks of the participants added to it. -/
structure Constructible (b : GroupBuilder) (added : List Added) : Prop where
  nonempty : added ≠ []
  membership : b.membership.isNull = false
  topology : b.topology.isNull = false
  ids : (added.map (·.id)).Nodup
  boots : (added.map fun a => (a.worker, a.boot)).Nodup
  known : ∀ a ∈ added, a.worker.isNull = false ∧ a.boot.isNull = false

theorem map_sorted {α : Type} {f : Participant → α} (hf : ∀ p r, f { p with rank := r } = f p) :
    ((ranked (sorted added)).map f).Perm (added.map fun a => f a.participant) := by
  rw [map_ranked hf]
  have hperm := (sorted_perm added).map f
  rwa [List.map_map] at hperm

/-- **The ranked participants validate** exactly if they can be built. -/
theorem validate_assigned_iff (hempty : b.participants = ∅) (hsize : added.length < 2 ^ 64)
    (hnull : ∃ a ∈ added, a.rank.isNull = true) :
    (b.addAll added).assigned.validate = .ok () ↔ Constructible b added := by
  have hranked := toList_assigned_of_null hempty hsize hnull
  obtain ⟨ps, hps⟩ := exists_addAll b added
  have hmembership : (b.addAll added).assigned.membership = b.membership := by rw [hps]; rfl
  have htopology : (b.addAll added).assigned.topology = b.topology := by rw [hps]; rfl
  have hlength : (ranked (sorted added)).length = added.length := by
    rw [ranked, List.length_mapIdx, (sorted_perm added).length_eq, List.length_map]
  have hdense := ranked_dense (sorted added)
  have hids : ((ranked (sorted added)).map (·.id)).Nodup ↔ (added.map (·.id)).Nodup :=
    (map_sorted fun _ _ => rfl).nodup_iff
  have hboots : ((ranked (sorted added)).map fun p => (p.worker, p.boot)).Nodup ↔
      (added.map fun a => (a.worker, a.boot)).Nodup := (map_sorted fun _ _ => rfl).nodup_iff
  have hranks := nodup_of_dense hdense (by rwa [hlength])
  have hne : ranked (sorted added) ≠ [] ↔ added ≠ [] := by
    rw [← List.length_pos_iff, hlength, List.length_pos_iff]
  have hknown : (∀ p ∈ ranked (sorted added), p.worker.isNull = false ∧ p.boot.isNull = false) ↔
      ∀ a ∈ added, a.worker.isNull = false ∧ a.boot.isNull = false := by
    have hmem (x : WorkerId × WorkerBootId) :
        x ∈ (ranked (sorted added)).map (fun p => (p.worker, p.boot)) ↔
          x ∈ added.map fun a => (a.worker, a.boot) := (map_sorted fun _ _ => rfl).mem_iff
    constructor
    · intro h a ha
      have hpair := (hmem (a.worker, a.boot)).2 (List.mem_map.2 ⟨a, ha, rfl⟩)
      obtain ⟨p, hp, heq⟩ := List.mem_map.1 hpair
      obtain ⟨hworker, hboot⟩ := Prod.mk.inj heq
      exact hworker ▸ hboot ▸ h p hp
    · intro h p hp
      have hpair := (hmem (p.worker, p.boot)).1 (List.mem_map.2 ⟨p, hp, rfl⟩)
      obtain ⟨a, ha, heq⟩ := List.mem_map.1 hpair
      obtain ⟨hworker, hboot⟩ := Prod.mk.inj heq
      exact hworker ▸ hboot ▸ h a ha
  rw [validate_iff, hranked, hmembership, htopology, pairwise_duplicateOf, hids, hboots, hne,
    hknown]
  constructor
  · rintro ⟨hne, hmembership, htopology, ⟨hids, -, hboots⟩, -, hknown⟩
    exact ⟨hne, hmembership, htopology, hids, hboots, hknown⟩
  · rintro ⟨hne, hmembership, htopology, hids, hboots, hknown⟩
    exact ⟨hne, hmembership, htopology, ⟨hids, hranks, hboots⟩, hdense, hknown⟩

theorem build_iff (hempty : b.participants = ∅) (hsize : added.length < 2 ^ 64)
    (hnull : ∃ a ∈ added, a.rank.isNull = true) :
    (∃ g, (b.addAll added).build.1 = .ok g) ↔ Constructible b added := by
  rw [← validate_assigned_iff hempty hsize hnull]
  constructor
  · rintro ⟨g, hg⟩
    exact (build_ok hg).1
  · intro h
    exact ⟨_, build_of_validate h⟩

/-- **What is built.** -/
theorem toList_build (hempty : b.participants = ∅) (hsize : added.length < 2 ^ 64)
    (hnull : ∃ a ∈ added, a.rank.isNull = true) (hg : (b.addAll added).build.1 = .ok g) :
    g.participants.toList = ranked (sorted added) := by
  obtain ⟨hvalid, rfl⟩ := build_ok hg
  exact toList_assigned_of_null hempty hsize hnull

/-! ## Exactness -/

/-- **Sorting has one result** where the identities are different, however
it is done. -/
theorem eq_sorted {ps : List Participant} (hids : (added.map (·.id)).Nodup)
    (hperm : ps.Perm (added.map Added.participant)) (hsorted : ps.Pairwise ById) :
    ps = sorted added := by
  have hnodup : (ps.map (·.id)).Nodup := by
    have hmap := hperm.map (·.id)
    rw [List.map_map] at hmap
    exact hmap.nodup_iff.2 hids
  refine (hperm.trans (sorted_perm added).symm).eq_of_pairwise ?_ hsorted
    (pairwise_mergeSort_id _)
  intro p q hp hq hpq hqp
  have hq' : q ∈ ps := hperm.mem_iff.2 ((sorted_perm added).mem_iff.1 hq)
  exact List.inj_on_of_nodup_map hnodup hp hq' (le_antisymm hpq hqp)

/-- The group has the added participants, each with the place of its
identity among the others for its rank, and finds them by either. -/
structure BuiltOf (g : CollectiveGroup) (added : List Added) : Prop where
  members : (g.participants.toList.map fun p => { p with rank := {} }).Perm
    (added.map Added.participant)
  increasing : g.participants.toList.Pairwise fun p q => p.id < q.id
  ranks : g.participants.toList.map (·.rank.raw.toNat) = List.range added.length
  inverse : ∀ id r, g.rankOf id = some r ↔ ∃ p, g.participantAt r = some p ∧ p.id = id

/-- Dense ranks count the participants. -/
theorem map_rank_of_dense {ps : List Participant} (h : DenseRanks ps)
    (hsize : ps.length < 2 ^ 64) :
    ps.map (·.rank.raw.toNat) = List.range ps.length := by
  refine List.ext_getElem (by simp) fun i hi _ => ?_
  rw [List.length_map] at hi
  rw [List.getElem_map, List.getElem_range, h i ps[i] (List.getElem?_eq_getElem hi)]
  exact UInt64.toNat_ofNat_of_lt' (lt_trans hi hsize)

/-- Looking up a rank and looking up its participant undo each other. -/
theorem rankOf_iff (hids : (g.participants.toList.map (·.id)).Nodup) (id : ParticipantId)
    (r : RankId) : g.rankOf id = some r ↔ ∃ p, g.participantAt r = some p ∧ p.id = id := by
  have hranks := nodup_of_dense g.dense g.participants.size_lt
  simp only [CollectiveGroup.rankOf, CollectiveGroup.participant, CollectiveGroup.participantAt,
    Option.map_eq_some_iff, Common.Keyed.find?_eq_some_iff hids,
    Common.Keyed.find?_eq_some_iff hranks]
  constructor
  · rintro ⟨p, ⟨hp, hid⟩, hr⟩
    exact ⟨p, ⟨hp, hr⟩, hid⟩
  · rintro ⟨p, ⟨hp, hr⟩, hid⟩
    exact ⟨p, ⟨hp, hid⟩, hr⟩

theorem builtOf (hempty : b.participants = ∅) (hsize : added.length < 2 ^ 64)
    (hnull : ∀ a ∈ added, a.rank = {}) (hne : added ≠ [])
    (hg : (b.addAll added).build.1 = .ok g) : BuiltOf g added := by
  obtain ⟨a, ha⟩ := List.exists_mem_of_ne_nil added hne
  have hsome : ∃ a ∈ added, a.rank.isNull = true := ⟨a, ha, by rw [hnull a ha]; rfl⟩
  have hbuilt := toList_build hempty hsize hsome hg
  have hlength : g.participants.toList.length = added.length := by
    rw [hbuilt, ranked, List.length_mapIdx, (sorted_perm added).length_eq, List.length_map]
  have hids := nodup_of_build hg
  constructor
  · have herased : added.map (fun a => { a.participant with rank := {} }) =
        added.map Added.participant := by
      refine List.map_congr_left fun a ha => ?_
      rw [Added.participant, hnull a ha]
    rw [hbuilt, ← herased]
    exact map_sorted fun _ _ => rfl
  · exact ((sorted_of_build hg).and (List.pairwise_map.1 hids)).imp fun h =>
      lt_of_le_of_ne h.1 h.2
  · rw [map_rank_of_dense g.dense g.participants.size_lt, hlength]
  · exact rankOf_iff hids

/-- The order of the calls leaves no trace. -/
theorem build_perm (hempty : b.participants = ∅) (hsize : added.length < 2 ^ 64)
    (hnull : ∃ a ∈ added, a.rank.isNull = true) (hids : (added.map (·.id)).Nodup)
    (hperm : added'.Perm added) (hg : (b.addAll added).build.1 = .ok g) :
    (b.addAll added').build.1 = .ok g := by
  have hnull' : ∃ a ∈ added', a.rank.isNull = true := by
    obtain ⟨a, ha, hrank⟩ := hnull
    exact ⟨a, hperm.mem_iff.2 ha, hrank⟩
  have hsize' : added'.length < 2 ^ 64 := by rwa [hperm.length_eq]
  have hsorted : sorted added' = sorted added :=
    eq_sorted hids ((sorted_perm added').trans (hperm.map _)) (pairwise_mergeSort_id _)
  have hlist :
      (b.addAll added').assigned.participants = (b.addAll added).assigned.participants := by
    ext1
    rw [toList_assigned_of_null hempty hsize' hnull', toList_assigned_of_null hempty hsize hnull,
      hsorted]
  obtain ⟨ps, hps⟩ := exists_addAll b added
  obtain ⟨ps', hps'⟩ := exists_addAll b added'
  have hassigned : (b.addAll added').assigned = (b.addAll added).assigned := by
    rw [hps, hps'] at hlist ⊢
    simpa [assigned] using hlist
  obtain ⟨hvalid, rfl⟩ := build_ok hg
  rw [build_of_validate (hassigned ▸ hvalid)]
  simp only [hassigned]

/-- **Group construction is exact.** A builder to which participants were
added without ranks returns a group exactly when they can be built; the
group has those participants, ranked by their identities; and it is the
same group, with the same digest, whatever order they were added in. -/
theorem construction_exact (b : GroupBuilder) (hempty : b.participants = ∅)
    (added : List Added) (hsize : added.length < 2 ^ 64) (hnull : ∀ a ∈ added, a.rank = {}) :
    ((∃ g, (b.addAll added).build.1 = .ok g) ↔ Constructible b added) ∧
      ∀ g, (b.addAll added).build.1 = .ok g →
        BuiltOf g added ∧
          ∀ added', added'.Perm added → (b.addAll added').build.1 = .ok g := by
  by_cases hne : added = []
  · subst hne
    -- nobody was added: `validate` throws
    have hfails (g : CollectiveGroup) : (b.addAll []).build.1 ≠ .ok g := by
      intro hg
      obtain ⟨hvalid, -⟩ := build_ok hg
      have hnil : (b.addAll []).assigned.participants.toList = [] := by
        refine List.eq_nil_of_length_eq_zero ?_
        rw [toList_assigned, toList_addAll hempty hsize, length_assignRanks]
        rfl
      exact ne_nil_of_validate hvalid hnil
    refine ⟨⟨fun ⟨g, hg⟩ => absurd hg (hfails g), fun h => absurd rfl h.nonempty⟩, ?_⟩
    exact fun g hg => absurd hg (hfails g)
  · obtain ⟨a, ha⟩ := List.exists_mem_of_ne_nil added hne
    have hsome : ∃ a ∈ added, a.rank.isNull = true := ⟨a, ha, by rw [hnull a ha]; rfl⟩
    have hiff := build_iff hempty hsize hsome
    refine ⟨hiff, fun g hg => ⟨builtOf hempty hsize hnull hne hg, fun added' hperm => ?_⟩⟩
    exact build_perm hempty hsize hsome (hiff.1 ⟨g, hg⟩).ids hperm hg

/-- Two participants, the higher identity first. -/
theorem construction_exact_two :
    let b : GroupBuilder := { id := ⟨7⟩, generation := ⟨1⟩ }
    let added : List Added :=
      [⟨⟨2⟩, ⟨2⟩, ⟨2⟩, ⟨2⟩, ⟨2⟩, ⟨1⟩, {}⟩, ⟨⟨1⟩, ⟨1⟩, ⟨1⟩, ⟨1⟩, ⟨1⟩, ⟨1⟩, {}⟩]
    ∃ g, (b.addAll added).build.1 = .ok g ∧ BuiltOf g added := by
  intro b added
  obtain ⟨hiff, hbuilt⟩ := construction_exact b rfl added (by decide) (by decide)
  obtain ⟨g, hg⟩ := hiff.2
    ⟨by decide, by decide, by decide, by decide, by decide, by decide⟩
  exact ⟨g, hg, (hbuilt g hg).1⟩

end GroupBuilder

end CollectiveFabric
