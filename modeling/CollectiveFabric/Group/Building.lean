import CollectiveFabric.Group.Model.Group
import Mathlib.Data.List.Nodup

/-!
# What the builder returns

A group the builder returns has its participants in the order of their
identities, ranked by their places: rank 0 is the null rank, so ranks given
beforehand are given anew. Built again from its own participants, it comes
out as it was.
-/

namespace CollectiveFabric

namespace GroupBuilder

variable {b : GroupBuilder} {g : CollectiveGroup}

/-- The builder after `build` has assigned the ranks. -/
def assigned (b : GroupBuilder) : GroupBuilder :=
  { b with participants := .ofList (assignRanks b.participants.toList) }

/-- The group of a builder that validates. -/
def group (b : GroupBuilder) (h : b.validate = .ok ()) : CollectiveGroup :=
  ⟨b.id, b.generation, b.membership, b.topology, b.health, b.backend, b.lifecycle, b.provenance,
    b.participants, dense_of_validate h⟩

/-- **What `build` returns** once the ranks it assigned validate. -/
theorem build_of_validate (h : b.assigned.validate = .ok ()) :
    b.build.1 = .ok (b.assigned.group h) := by
  simp only [build]
  split
  · next e he => exact absurd (h.symm.trans he) (by simp)
  · rfl

theorem build_ok (h : b.build.1 = .ok g) :
    ∃ hvalid : b.assigned.validate = .ok (), g = b.assigned.group hvalid := by
  simp only [build] at h
  split at h
  · cases h
  · next hvalid =>
    cases h
    exact ⟨hvalid, rfl⟩

/-- A builder that validates has participants. -/
theorem ne_nil_of_validate (h : b.validate = .ok ()) : b.participants.toList ≠ [] := by
  intro hnil
  simp [validate, hnil] at h

/-- The order of the participants' identities. -/
def ById (p q : Participant) : Prop := p.id ≤ q.id

instance (p q : Participant) : Decidable (ById p q) :=
  inferInstanceAs (Decidable (p.id ≤ q.id))

theorem pairwise_mergeSort_id (ps : List Participant) :
    (ps.mergeSort fun p q => p.id ≤ q.id).Pairwise ById := by
  have htrans (a b c : Participant) (hab : decide (a.id ≤ b.id) = true)
      (hbc : decide (b.id ≤ c.id) = true) : decide (a.id ≤ c.id) = true :=
    decide_eq_true ((of_decide_eq_true hab).trans (of_decide_eq_true hbc))
  have htotal (a b : Participant) : (decide (a.id ≤ b.id) || decide (b.id ≤ a.id)) = true := by
    simpa using le_total a.id b.id
  exact (List.pairwise_mergeSort htrans htotal ps).imp fun hle => of_decide_eq_true hle

/-- The participants ranked by their places. -/
def ranked (ps : List Participant) : List Participant :=
  ps.mapIdx fun i p => { p with rank := ⟨UInt64.ofNat i⟩ }

/-- Ranking by places changes nothing but the ranks. -/
theorem map_ranked {α : Type} {f : Participant → α} (hf : ∀ p r, f { p with rank := r } = f p)
    (ps : List Participant) : (ranked ps).map f = ps.map f :=
  List.ext_getElem (by simp [ranked]) fun i _ _ => by simp [ranked, hf]

theorem ranked_of_dense {ps : List Participant} (h : DenseRanks ps) : ranked ps = ps := by
  refine List.ext_getElem? fun i => ?_
  rw [ranked, List.getElem?_mapIdx]
  cases hp : ps[i]? with
  | none => rfl
  | some p =>
    rw [Option.map_some, ← h i p hp]

theorem pairwise_ranked {ps : List Participant} (h : ps.Pairwise ById) :
    (ranked ps).Pairwise ById := by
  rw [List.pairwise_iff_getElem] at h ⊢
  intro i j hi hj hij
  simp only [ranked, List.length_mapIdx] at hi hj
  simpa [ById, ranked] using h i j hi hj hij

/-- A dense nonempty list has a null rank: the first. -/
theorem any_null_of_dense {ps : List Participant} (h : DenseRanks ps) (hne : ps ≠ []) :
    ps.any (·.rank.isNull) = true := by
  obtain ⟨p, rest, rfl⟩ := List.exists_cons_of_ne_nil hne
  have hrank : p.rank = ⟨UInt64.ofNat 0⟩ := h 0 p rfl
  simp [hrank, StrongId.isNull]

/-- Participants in the order of their identities are ranked as they
stand. -/
theorem assignRanks_of_sorted {ps : List Participant} (hnull : ps.any (·.rank.isNull) = true)
    (hsorted : ps.Pairwise ById) : assignRanks ps = ranked ps := by
  have hsort : (ps.mergeSort fun p q => p.id ≤ q.id) = ps :=
    List.mergeSort_of_pairwise (hsorted.imp fun h => decide_eq_true (p := _ ≤ _) h)
  rw [assignRanks, if_pos hnull, hsort]
  rfl

/-- **Ranking again changes nothing** of dense ranks in the order of the
identities. -/
theorem assignRanks_fixed {ps : List Participant} (hdense : DenseRanks ps) (hne : ps ≠ [])
    (hsorted : ps.Pairwise ById) : assignRanks ps = ps := by
  rw [assignRanks_of_sorted (any_null_of_dense hdense hne) hsorted, ranked_of_dense hdense]

theorem length_assignRanks (ps : List Participant) : (assignRanks ps).length = ps.length := by
  unfold assignRanks
  split_ifs <;> simp

theorem toList_assigned (b : GroupBuilder) :
    b.assigned.participants.toList = assignRanks b.participants.toList := by
  have hlt := b.participants.size_lt
  refine List.take_of_length_le ?_
  rw [length_assignRanks]
  omega

/-- **Building participants in the order of their identities**, when those
ranked as they stand validate. -/
theorem build_of_sorted (hnull : b.participants.toList.any (·.rank.isNull) = true)
    (hsorted : b.participants.toList.Pairwise ById)
    (hvalid : { b with participants := .ofList (ranked b.participants.toList) }.validate = .ok ()) :
    b.build.1 =
      .ok ({ b with participants := .ofList (ranked b.participants.toList) }.group hvalid) := by
  have hassigned :
      b.assigned = { b with participants := .ofList (ranked b.participants.toList) } := by
    rw [assigned, assignRanks_of_sorted hnull hsorted]
  simp only [← hassigned] at hvalid ⊢
  exact build_of_validate hvalid

/-- Building what is ranked already. -/
theorem build_of_fixed (hfixed : b.assigned = b) (hvalid : b.validate = .ok ()) :
    b.build.1 = .ok (b.group hvalid) := by
  have h := @build_of_validate b (by rw [hfixed]; exact hvalid)
  simpa only [hfixed] using h

/-- **The participants of a built group** are in the order of their
identities. -/
theorem sorted_of_build (h : b.build.1 = .ok g) : g.participants.toList.Pairwise ById := by
  obtain ⟨hvalid, rfl⟩ := build_ok h
  have hdense := dense_of_validate hvalid
  have hne := ne_nil_of_validate hvalid
  change b.assigned.participants.toList.Pairwise ById
  rw [toList_assigned] at hdense hne ⊢
  have hnull := any_null_of_dense hdense hne
  unfold assignRanks at hnull ⊢
  split_ifs at hnull ⊢ with hany
  · exact pairwise_ranked (pairwise_mergeSort_id _)
  · -- explicit ranks are all different from rank 0, and the first one is not
    rw [List.any_eq_true] at hnull
    obtain ⟨p, hp, hrank⟩ := hnull
    exact absurd (List.any_eq_true.2 ⟨p, (List.mem_mergeSort.1 hp), hrank⟩) hany

/-! ## What validates -/

/-- What `validate` reads. -/
theorem validate_congr {b b' : GroupBuilder} (hparticipants : b.participants = b'.participants)
    (hmembership : b.membership = b'.membership) (htopology : b.topology = b'.topology) :
    b.validate = b'.validate := by
  simp only [validate, hparticipants, hmembership, htopology]

theorem pairwise_of_firstDuplicate {ps : List Participant} (h : firstDuplicate ps = none) :
    ps.Pairwise fun p q => duplicateOf p q = none := by
  induction ps with
  | nil => exact .nil
  | cons p ps ih =>
    rw [firstDuplicate, Option.or_eq_none_iff, List.findSome?_eq_none_iff] at h
    exact .cons h.1 (ih h.2)

theorem firstDuplicate_eq_none {ps : List Participant} :
    firstDuplicate ps = none ↔ ps.Pairwise fun p q => duplicateOf p q = none := by
  refine ⟨pairwise_of_firstDuplicate, fun h => ?_⟩
  induction h with
  | nil => rfl
  | cons hp _ ih =>
    rw [firstDuplicate, Option.or_eq_none_iff, List.findSome?_eq_none_iff]
    exact ⟨hp, ih⟩

/-- No two participants share an identity, a rank or a worker's boot. -/
theorem pairwise_duplicateOf {ps : List Participant} :
    (ps.Pairwise fun p q => duplicateOf p q = none) ↔
      (ps.map (·.id)).Nodup ∧ (ps.map (·.rank)).Nodup ∧
        (ps.map fun p => (p.worker, p.boot)).Nodup := by
  have hnone (p q : Participant) : duplicateOf p q = none ↔
      p.id ≠ q.id ∧ p.rank ≠ q.rank ∧ (p.worker, p.boot) ≠ (q.worker, q.boot) := by
    unfold duplicateOf
    split_ifs <;> simp_all
  simp only [hnone, List.pairwise_and_iff, List.Nodup, List.pairwise_map]

/-- **What validates has no identity and no rank twice.** -/
theorem nodup_of_validate (h : b.validate = .ok ()) :
    (b.participants.toList.map (·.id)).Nodup ∧ (b.participants.toList.map (·.rank)).Nodup := by
  have hfirst : firstDuplicate b.participants.toList = none := by
    cases hfirst : firstDuplicate b.participants.toList with
    | none => rfl
    | some message =>
      simp only [validate, hfirst] at h
      split_ifs at h
  obtain ⟨hids, hranks, -⟩ := pairwise_duplicateOf.1 (firstDuplicate_eq_none.1 hfirst)
  exact ⟨hids, hranks⟩

/-- A built group has no identity twice. -/
theorem nodup_of_build (h : b.build.1 = .ok g) : (g.participants.toList.map (·.id)).Nodup := by
  obtain ⟨hvalid, rfl⟩ := build_ok h
  exact (nodup_of_validate hvalid).1

/-! ## Builders in use -/

/-- The builders a program comes to: new ones without participants, and what
setters, `add_participant` and `build` make of them. -/
inductive Assembled : GroupBuilder → Prop
  | new {b : GroupBuilder} (h : b.participants = ∅) : Assembled b
  | set {b b' : GroupBuilder} (hb : Assembled b) (h : b'.participants = b.participants) :
      Assembled b'
  | add {b : GroupBuilder} (hb : Assembled b) (id : ParticipantId) (worker : WorkerId)
      (boot : WorkerBootId) (node : NodeId) (device : DeviceId) (backendGen : BackendGeneration)
      (rank : RankId) : Assembled (b.addParticipant id worker boot node device backendGen rank)
  | build {b : GroupBuilder} (hb : Assembled b) : Assembled b.build.2

theorem mem_assignRanks {ps : List Participant} {p : Participant} (h : p ∈ assignRanks ps) :
    ∃ q ∈ ps, ∃ r, p = { q with rank := r } := by
  unfold assignRanks at h
  split_ifs at h
  · obtain ⟨i, hi, rfl⟩ := List.mem_mapIdx.1 h
    exact ⟨_, List.mem_mergeSort.1 (List.getElem_mem hi), _, rfl⟩
  · exact ⟨p, List.mem_mergeSort.1 h, p.rank, rfl⟩

/-- **Assigning ranks reorders the participants** and changes nothing of
them but the rank. -/
theorem map_assignRanks {α : Type} {f : Participant → α}
    (hf : ∀ p r, f { p with rank := r } = f p) (ps : List Participant) :
    ((assignRanks ps).map f).Perm (ps.map f) := by
  unfold assignRanks
  -- sorted by identity and ranked by place, or sorted by the ranks given
  split_ifs
  · have hmap := map_ranked hf (ps.mergeSort fun a b => a.id ≤ b.id)
    rw [ranked] at hmap
    rw [hmap]
    exact (List.mergeSort_perm ps _).map f
  · exact (List.mergeSort_perm ps _).map f

theorem map_build {α : Type} {f : Participant → α} (hf : ∀ p r, f { p with rank := r } = f p)
    (h : b.build.1 = .ok g) :
    (g.participants.toList.map f).Perm (b.participants.toList.map f) := by
  obtain ⟨hvalid, rfl⟩ := build_ok h
  change (b.assigned.participants.toList.map f).Perm _
  rw [toList_assigned]
  exact map_assignRanks hf _

/-- **Every participant of a builder in use is known.** -/
theorem Assembled.known (hb : Assembled b) : ∀ p ∈ b.participants.toList, p.isKnown = true := by
  induction hb with
  | new h =>
    rw [h]
    intro p hp
    cases hp
  | set _ h ih => rwa [h]
  | add _ id worker boot node device backendGen rank ih =>
    intro p hp
    rcases List.mem_append.1 (List.mem_of_mem_take hp) with hp | hp
    · exact ih p hp
    · rw [List.mem_singleton.1 hp]
  | build _ ih =>
    intro p hp
    obtain ⟨q, hq, r, rfl⟩ := mem_assignRanks (List.mem_of_mem_take hp)
    exact ih q hq

theorem Assembled.known_of_build (hb : Assembled b) (h : b.build.1 = .ok g) :
    ∀ p ∈ g.participants.toList, p.isKnown = true := by
  obtain ⟨hvalid, rfl⟩ := build_ok h
  exact hb.build.known

/-! ## Two ranks -/

/-- A builder for a group of two ranks. -/
def pair : GroupBuilder :=
  (({ id := ⟨7⟩, generation := ⟨1⟩ } : GroupBuilder).addParticipant ⟨1⟩ ⟨1⟩ ⟨1⟩ ⟨1⟩ ⟨1⟩
    ⟨1⟩).addParticipant ⟨2⟩ ⟨2⟩ ⟨2⟩ ⟨2⟩ ⟨2⟩ ⟨2⟩

/-- The same with the ranks assigned. -/
def pairRanked : GroupBuilder :=
  { pair with participants := .ofList (ranked pair.participants.toList) }

theorem pairRanked_validate : pairRanked.validate = .ok () := by decide +kernel

theorem pair_build : pair.build.1 = .ok (pairRanked.group pairRanked_validate) :=
  build_of_sorted (by decide) (by decide) pairRanked_validate

theorem pair_assembled : pair.Assembled := .add (.add (.new rfl) ..) ..

end GroupBuilder

end CollectiveFabric
