import CollectiveFabric.Group.Building
import CollectiveFabric.Multiprocess.Model.Recovery
import CollectiveFabric.Store.RoundTrip

/-!
# Recovery keeps a group

A built group that is exported, saved, loaded and built again is the group
it was, but for its provenance: the store keeps every field, and building
again ranks the participants as they are ranked.
-/

namespace CollectiveFabric

open Common

variable {b : GroupBuilder} {g : CollectiveGroup}

/-! ## Building again -/

/-- The participant `rebuild_runtime` adds. -/
def recoveredParticipant (pp : PersistedParticipant) : Participant :=
  ⟨pp.participantId, pp.worker, pp.boot, pp.node, pp.device, pp.rank, pp.backendGeneration, true⟩

theorem recoveredParticipant_export {p : Participant} (h : p.isKnown = true) :
    recoveredParticipant (exportParticipant p) = p := by
  cases p
  cases h
  rfl

/-- The exported participants are all there. -/
theorem toList_exportGroup (g : CollectiveGroup) :
    (exportGroup g).participants.toList = g.participants.toList.map exportParticipant := by
  have hlt := g.participants.size_lt
  refine List.take_of_length_le ?_
  rw [List.length_map]
  omega

/-- Adding participants one after another appends them. -/
theorem foldl_addParticipant (gb : GroupBuilder) (pps : List PersistedParticipant)
    (h : gb.participants.toList.length + pps.length < 2 ^ 64) :
    pps.foldl (fun gb pp => gb.addParticipant pp.participantId pp.worker pp.boot pp.node pp.device
        pp.backendGeneration pp.rank) gb =
      { gb with
        participants := .ofList (gb.participants.toList ++ pps.map recoveredParticipant) } := by
  induction pps generalizing gb with
  | nil => simp [Vec.ofList_toList]
  | cons pp pps ih =>
    rw [List.length_cons] at h
    have hlist : (Vec.ofList (gb.participants.toList ++ [recoveredParticipant pp])).toList =
        gb.participants.toList ++ [recoveredParticipant pp] := by
      refine List.take_of_length_le ?_
      rw [List.length_append, List.length_singleton]
      omega
    have hadd : gb.addParticipant pp.participantId pp.worker pp.boot pp.node pp.device
        pp.backendGeneration pp.rank =
        { gb with participants := .ofList (gb.participants.toList ++ [recoveredParticipant pp]) } :=
      rfl
    rw [List.foldl_cons, hadd, ih]
    · simp only [hlist, List.append_assoc, List.map_cons]
      rfl
    · simp only [hlist, List.length_append, List.length_singleton]
      omega

/-- **The builder of a recovered group** has the group's participants. -/
theorem groupBuilder_export (env : Ambient)
    (hknown : ∀ p ∈ g.participants.toList, p.isKnown = true) :
    groupBuilder env (exportGroup g) =
      { id := g.id
        generation := g.generation
        membership := g.membership
        topology := g.topology
        health := g.health
        backend := g.backend
        lifecycle := g.lifecycle
        provenance := makeSource env "recovered group" .derived
        participants := g.participants } := by
  have hlt := g.participants.size_lt
  have hback : (g.participants.toList.map exportParticipant).map recoveredParticipant =
      g.participants.toList := by
    rw [List.map_map]
    exact (List.map_congr_left fun p hp => recoveredParticipant_export (hknown p hp)).trans
      (List.map_id _)
  rw [groupBuilder, foldl_addParticipant]
  · rw [toList_exportGroup, hback]
    have hnew : (∅ : Vec Participant).toList ++ g.participants.toList = g.participants.toList := rfl
    simp only [hnew, Vec.ofList_toList]
    rfl
  · rw [toList_exportGroup, List.length_map]
    exact (Nat.zero_add _).symm ▸ hlt

/-- **Building a built group again** gives it back under its new
provenance. -/
theorem build_export (env : Ambient) (hb : b.Assembled) (hg : b.build.1 = .ok g) :
    (groupBuilder env (exportGroup g)).build.1 =
      .ok { g with provenance := makeSource env "recovered group" .derived } := by
  have hsorted := GroupBuilder.sorted_of_build hg
  rw [groupBuilder_export env (hb.known_of_build hg)]
  obtain ⟨hvalid, rfl⟩ := GroupBuilder.build_ok hg
  -- the ranks are dense and in the order of the identities, so they stay
  have hranks := GroupBuilder.assignRanks_fixed (GroupBuilder.dense_of_validate hvalid)
    (GroupBuilder.ne_nil_of_validate hvalid) hsorted
  have hagain : ({ b.assigned with
      provenance := makeSource env "recovered group" .derived } : GroupBuilder).validate =
        .ok () := (GroupBuilder.validate_congr rfl rfl rfl).trans hvalid
  refine GroupBuilder.build_of_fixed ?_ hagain
  rw [GroupBuilder.assigned, hranks, Vec.ofList_toList]

/-- **Rebuilding a runtime** from one exported group registers it. -/
theorem rebuildRuntime_export {rt : Runtime} (envs : ℕ → Ambient) (hb : b.Assembled)
    (hg : b.build.1 = .ok g) (hfree : (g.id, g.generation) ∉ rt.groups) :
    ∃ rt', rebuildRuntime rt [exportGroup g] envs = (.ok (), rt') ∧
      rt'.findGroup g.id g.generation =
        some { g with provenance := makeSource (envs 0) "recovered group" .derived } := by
  let g' : CollectiveGroup :=
    { g with provenance := makeSource (envs 0) "recovered group" .derived }
  refine ⟨{ rt with groups := rt.groups.insert (g.id, g.generation) g' }, ?_,
    OrdMap.getElem?_insert_same ..⟩
  simp only [rebuildRuntime, build_export (envs 0) hb hg, Runtime.registerGroup, if_neg hfree]
  rfl

/-! ## Saving and loading -/

/-- **A state that holds a built group, and is else in the store's domain,
is in it.** -/
theorem inDomain_export {s : PersistentState} (hg : b.build.1 = .ok g)
    (hcount : g.participants.toList.length ≤ 10000000) (hlifecycle : Store.InRange g.lifecycle)
    (hs : s.groups.toList = [exportGroup g]) (hrest : Store.InDomain { s with groups := ∅ }) :
    Store.InDomain s := by
  obtain ⟨hids, hranks⟩ : (g.participants.toList.map (·.id)).Nodup ∧
      (g.participants.toList.map (·.rank)).Nodup := by
    obtain ⟨hvalid, rfl⟩ := GroupBuilder.build_ok hg
    exact GroupBuilder.nodup_of_validate hvalid
  have hone {p : PersistedGroup → Prop} (h : p (exportGroup g)) : ∀ x ∈ s.groups.toList, p x := by
    rw [hs]
    intro x hx
    rwa [List.mem_singleton.1 hx]
  -- the bounds are of the one group; identities and ranks are unique in what was built
  refine ⟨hrest.version, ?_, hrest.measurements, hrest.backends, hone ?_, hone hlifecycle,
    hrest.algorithm, hrest.provenance, hrest.freshness, hrest.health, ?_, hone ?_, hone ?_,
    hrest.measurementIds⟩
  · rw [hs, List.length_singleton]
    decide
  · rw [toList_exportGroup, List.length_map]
    exact hcount
  · rw [hs]
    simp
  · rw [toList_exportGroup, List.map_map]
    exact hids
  · rw [toList_exportGroup, List.map_map]
    exact hranks

/-! ## Main results -/

/-- **Recovery preserves a group's identity.** A built group of at most ten
million participants, with a lifecycle that is one of the enumerators, is
exported to a state that is else in the store's domain. The state comes
through the store, and rebuilding a runtime from it registers a group of
the same id, generation and digest that ranks every participant alike. -/
theorem recovery_preserves (hb : b.Assembled) (hg : b.build.1 = .ok g)
    (hcount : g.participants.toList.length ≤ 10000000) (hlifecycle : Store.InRange g.lifecycle)
    (s : PersistentState) (hs : s.groups.toList = [exportGroup g])
    (hrest : Store.InDomain { s with groups := ∅ }) (rt : Runtime)
    (hfree : (g.id, g.generation) ∉ rt.groups) (envs : ℕ → Ambient) :
    ∃ s' rt' g', Store.decode (Store.encode s) = .ok s' ∧
      rebuildRuntime rt s'.groups.toList envs = (.ok (), rt') ∧
      rt'.findGroup g.id g.generation = some g' ∧ g'.id = g.id ∧ g'.generation = g.generation ∧
      g'.digest = g.digest ∧ ∀ id, g'.rankOf id = g.rankOf id := by
  have hdomain := inDomain_export hg hcount hlifecycle hs hrest
  have hdecode := Store.decode_encode_of_fits ((Store.fits_iff s).2 hdomain)
  obtain ⟨rt', hrebuild, hfound⟩ := rebuildRuntime_export envs hb hg hfree
  rw [← hs] at hrebuild
  exact ⟨s, rt', _, hdecode, hrebuild, hfound, rfl, rfl, rfl, fun _ => rfl⟩

/-- The empty state is in the store's domain. -/
theorem inDomain_empty : Store.InDomain {} where
  version := by decide
  groups := by decide
  measurements := by decide
  backends := by decide
  participants := List.forall_mem_nil _
  lifecycle := List.forall_mem_nil _
  algorithm := List.forall_mem_nil _
  provenance := List.forall_mem_nil _
  freshness := List.forall_mem_nil _
  health := fun h hh => by cases hh
  groupKeys := .nil
  participantIds := List.forall_mem_nil _
  ranks := List.forall_mem_nil _
  measurementIds := .nil

/-- Two participants saved alone and recovered into a fresh runtime. -/
theorem recovery_preserves_pair : ∃ g : CollectiveGroup, GroupBuilder.pair.build.1 = .ok g ∧
    ∃ s' rt' g', Store.decode (Store.encode { groups := .ofList [exportGroup g] }) = .ok s' ∧
      rebuildRuntime {} s'.groups.toList (fun _ => ⟨0, 0, 0⟩) = (.ok (), rt') ∧
      rt'.findGroup g.id g.generation = some g' ∧ g'.id = g.id ∧ g'.generation = g.generation ∧
      g'.digest = g.digest ∧ ∀ id, g'.rankOf id = g.rankOf id :=
  ⟨_, GroupBuilder.pair_build, recovery_preserves GroupBuilder.pair_assembled
    GroupBuilder.pair_build (by decide) (by decide) _ rfl inDomain_empty {} (by decide) _⟩

/-- The two participants, in a group whose lifecycle is no enumerator. -/
def odd : GroupBuilder := { GroupBuilder.pair with lifecycle := ⟨200⟩ }

/-- The same with the ranks assigned. -/
def oddRanked : GroupBuilder := { GroupBuilder.pairRanked with lifecycle := ⟨200⟩ }

theorem oddRanked_validate : oddRanked.validate = .ok () := GroupBuilder.pairRanked_validate

/-- **It is built, saved, and not loaded.** -/
theorem not_recovered_odd :
    odd.Assembled ∧ odd.build.1 = .ok (oddRanked.group oddRanked_validate) ∧
      (oddRanked.group oddRanked_validate).participants.toList.length = 2 ∧
      ∀ s', Store.decode (Store.encode
        { groups := .ofList [exportGroup (oddRanked.group oddRanked_validate)] }) ≠ .ok s' := by
  refine ⟨.set GroupBuilder.pair_assembled rfl,
    @GroupBuilder.build_of_sorted odd (by decide) (by decide) oddRanked_validate, rfl, ?_⟩
  intro s' hdecode
  have hnot : ¬Store.Fits
      { groups := .ofList [exportGroup (oddRanked.group oddRanked_validate)] } := by
    intro hfits
    have hlifecycle := (hfits.groups (exportGroup (oddRanked.group oddRanked_validate))
      (List.mem_singleton_self _)).lifecycle
    exact absurd hlifecycle (by decide)
  obtain ⟨err, -, herr⟩ := Store.decode_encode_of_not_fits hnot
  rw [herr] at hdecode
  cases hdecode

end CollectiveFabric
