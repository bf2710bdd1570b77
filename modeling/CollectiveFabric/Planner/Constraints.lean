import CollectiveFabric.Planner.Minimum

/-!
# What a plan says of the descriptor's constraints

The planner refuses a backend for the kind, the datatype, the reduction,
the transport, the rank count and for input buffers that are not on the
host. It never looks at the backend the descriptor requests, at its
transport constraints, at where its output goes or whether it runs in
place; and it refuses device buffers whatever the backend supports.
-/

namespace CollectiveFabric

namespace Planner

open Common

variable {env : Ambient} {inp : PlannerInput} {d : CollectiveDescriptor} {group : CollectiveGroup}
  {backend : BackendCapabilities} {n p : UInt64} {topology : Option Topology} {a : Algorithm}

/-! ## The constraints -/

/-- The backend's flag for a buffer placement; there is none for unknown
ones. -/
def supportsPlacement (backend : BackendCapabilities) (placement : Scoped BufferPlacement) :
    Bool :=
  match placement.named with
  | some .host => backend.supportsHostBuffers
  | some .device => backend.supportsDeviceBuffers
  | some .unknown => false
  | none => false

/-- A plan keeps the descriptor's hard constraints. -/
structure Honours (d : CollectiveDescriptor) (backend : BackendCapabilities)
    (plan : CollectivePlan) : Prop where
  requested : d.requestedBackend.isNull = true ∨ d.requestedBackend = plan.backend
  transport : d.constraints = [] ∨ plan.transport ∈ d.constraints
  input : supportsPlacement backend d.inputPlacement = true
  output : supportsPlacement backend d.outputPlacement = true
  inPlace : d.inPlace = .of .inPlace → backend.supportsInPlace = true

/-- The reason a candidate is rejected with for its buffer placement. -/
def placementReason : String := "backend does not support requested buffer placement"

/-- **The planner respects the constraints of what it is asked**: a plan
keeps them, and no candidate is rejected for its buffer placement where
the backend supports what the descriptor asks for. -/
structure Respects (env : Ambient) (inp : PlannerInput) : Prop where
  planned : ∀ pl d backend, inp.descriptor = some d → inp.backend = some backend →
    plan env inp = .ok pl → Honours d backend pl
  placed : ∀ cands d backend, inp.descriptor = some d → inp.backend = some backend →
    candidates inp = .ok cands → ∀ c ∈ cands, c.rejectReason = placementReason →
      ¬ (supportsPlacement backend d.inputPlacement = true ∧
        supportsPlacement backend d.outputPlacement = true)

/-! ## What the planner checks -/

/-- The backend is refused for nothing that comes before the buffers. -/
structure Eligible (d : CollectiveDescriptor) (n : UInt64) (backend : BackendCapabilities) :
    Prop where
  kind : backend.supportsKind d.kind = true
  datatype : backend.supportsDatatype d.datatype = true
  reduction : isReduceFamily d.kind = true → backend.supportsReduction d.reduction = true
  transport : backend.supportsTransport (.of .hostMemory) = true
  ranks : ∀ limit, backend.maximumRankCount = some limit → n ≤ limit

/-- Input on the host of a backend with host buffers. -/
abbrev OnHost (d : CollectiveDescriptor) (backend : BackendCapabilities) : Prop :=
  d.inputPlacement = .of .host ∧ backend.supportsHostBuffers = true

/-- **On an eligible backend** an algorithm is refused for the kind, the
buffers or the topology. -/
theorem rejectReason_of_eligible (h : Eligible d n backend) :
    rejectReason d n backend topology a =
      if algorithmFeasible d.kind a = false then
        some "algorithm not applicable to collective kind"
      else if ¬ OnHost d backend then some placementReason
      else if a = .hierarchical ∧ topology.any (fun t => t.nodeCount < 2) then
        some "topology contains no inter-node subgroup boundary"
      else none := by
  have hreduction : ¬ (isReduceFamily d.kind = true ∧
      backend.supportsReduction d.reduction = false) := by
    rintro ⟨hfamily, hnot⟩
    rw [h.reduction hfamily] at hnot
    cases hnot
  have hranks : ¬ backend.maximumRankCount.any (fun limit => n > limit) = true := by
    cases hlimit : backend.maximumRankCount with
    | none => simp
    | some limit => simpa using h.ranks limit hlimit
  rw [rejectReason, if_neg (by simp [h.kind] : ¬ backend.supportsKind d.kind = false),
    if_neg (by simp [h.datatype] : ¬ backend.supportsDatatype d.datatype = false),
    if_neg hreduction,
    if_neg (by simp [h.transport] : ¬ backend.supportsTransport (.of .hostMemory) = false),
    if_neg hranks]
  rfl

/-- **On any other** all are refused, and for something else than the
buffers. -/
theorem rejectReason_of_not_eligible (h : ¬ Eligible d n backend) (topology : Option Topology)
    (a : Algorithm) :
    ∃ reason, rejectReason d n backend topology a = some reason ∧ reason ≠ placementReason := by
  -- a backend that passes the five checks is eligible
  have hpasses (hkind : ¬ backend.supportsKind d.kind = false)
      (hdatatype : ¬ backend.supportsDatatype d.datatype = false)
      (hreduction : ¬ (isReduceFamily d.kind ∧ backend.supportsReduction d.reduction = false))
      (htransport : ¬ backend.supportsTransport (.of .hostMemory) = false)
      (hranks : ¬ backend.maximumRankCount.any (fun limit => n > limit)) : False := by
    refine h ⟨by simpa using hkind, by simpa using hdatatype, fun hfamily => ?_,
      by simpa using htransport, fun limit hlimit => ?_⟩
    · by_contra hnot
      exact hreduction ⟨hfamily, by simpa using hnot⟩
    · rw [hlimit] at hranks
      simpa using hranks
  unfold rejectReason
  split_ifs with h1 h2 h3 h4 h5 h6
  · exact ⟨_, rfl, by decide⟩
  · exact ⟨_, rfl, by decide⟩
  · exact ⟨_, rfl, by decide⟩
  · exact ⟨_, rfl, by decide⟩
  · exact ⟨_, rfl, by decide⟩
  · exact ⟨_, rfl, by decide⟩
  all_goals exact (hpasses h2 h3 h4 h5 h6).elim

theorem candidate_reason (h : (candidate d n p backend topology a).rejectReason = placementReason) :
    rejectReason d n backend topology a = some placementReason := by
  unfold candidate at h
  split at h
  · next reason hreason => rw [hreason, ← h]
  · exact absurd (show "" = placementReason from h) (by decide)

/-- **A plan is returned** exactly for an eligible backend and input on
its host. -/
theorem Asked.plan_ok_iff (h : Asked inp d group backend p) (env : Ambient) :
    (∃ pl, plan env inp = .ok pl) ↔ Eligible d group.rankCount backend ∧ OnHost d backend := by
  have hdefault : algorithmFeasible d.kind .backendDefault = true := rfl
  constructor
  · rintro ⟨pl, hpl⟩
    obtain ⟨b, hselect, -⟩ := h.of_planIn_ok hpl
    obtain ⟨hmem, hfeasible⟩ := feasible_of_select hselect
    obtain ⟨a, -, rfl⟩ := List.mem_map.1 hmem
    have hnone := candidate_feasible_iff.1 hfeasible
    by_cases heligible : Eligible d group.rankCount backend
    · refine ⟨heligible, ?_⟩
      rw [rejectReason_of_eligible heligible] at hnone
      split_ifs at hnone with _ hhost
      exact hhost
    · obtain ⟨reason, hreason, -⟩ := rejectReason_of_not_eligible heligible inp.topology a
      rw [hreason] at hnone
      cases hnone
  · rintro ⟨heligible, hhost⟩
    cases hselect : select Float inp
        (algorithms.map (candidate d group.rankCount p backend inp.topology)) with
    | none =>
      have hnone := select_eq_none_iff.1 hselect _ (List.mem_map_of_mem (a := .backendDefault)
        (by decide))
      have hfeasible : (candidate d group.rankCount p backend inp.topology
          .backendDefault).feasible = true := by
        rw [candidate_feasible_iff, rejectReason_of_eligible heligible, if_neg (by simp [hdefault]),
          if_neg (not_not.2 hhost), if_neg (by simp)]
      rw [hfeasible] at hnone
      cases hnone
    | some b =>
      obtain ⟨pl, hplan, -⟩ := h.planIn_some env h.candidates hselect
      exact ⟨pl, hplan⟩

/-- **A candidate is rejected for its buffers** exactly for an eligible
backend and input that is not on its host. -/
theorem Asked.rejected_iff (h : Asked inp d group backend p) :
    (∃ cands, Planner.candidates inp = .ok cands ∧ ∃ c ∈ cands, c.rejectReason = placementReason) ↔
      Eligible d group.rankCount backend ∧ ¬ OnHost d backend := by
  constructor
  · rintro ⟨cands, hcands, c, hc, hreason⟩
    obtain rfl := Except.ok.inj (h.candidates.symm.trans hcands)
    obtain ⟨a, -, rfl⟩ := List.mem_map.1 hc
    have hrejected := candidate_reason hreason
    by_cases heligible : Eligible d group.rankCount backend
    · refine ⟨heligible, fun hhost => ?_⟩
      rw [rejectReason_of_eligible heligible, if_neg (not_not.2 hhost)] at hrejected
      split_ifs at hrejected
      · exact absurd (Option.some.inj hrejected) (by decide)
      · exact absurd (Option.some.inj hrejected) (by decide)
    · obtain ⟨reason, hsome, hne⟩ := rejectReason_of_not_eligible heligible inp.topology a
      exact absurd (Option.some.inj (hsome.symm.trans hrejected)) hne
  · rintro ⟨heligible, hhost⟩
    refine ⟨_, h.candidates, _, List.mem_map_of_mem (a := .backendDefault) (by decide), ?_⟩
    have hrejected : rejectReason d group.rankCount backend inp.topology .backendDefault =
        some placementReason := by
      rw [rejectReason_of_eligible heligible, if_neg (by simp [algorithmFeasible]), if_pos hhost]
    simp only [candidate, hrejected]

/-- Who is answered with a plan was asked for one. -/
theorem asked_of_plan {pl : CollectivePlan} (h : plan env inp = .ok pl) :
    ∃ d group backend p, Asked inp d group backend p := by
  unfold plan planIn at h
  split at h
  · next d group backend hd hgroup hbackend =>
    simp only at h
    split at h
    · cases h
    · next p hp => exact ⟨d, group, backend, p, hd, hgroup, hbackend, hp⟩
  · cases h

theorem asked_of_candidate {cands : List Candidate} {c : Candidate}
    (h : candidates inp = .ok cands) (hc : c ∈ cands) :
    ∃ d group backend p, Asked inp d group backend p := by
  unfold candidates at h
  split at h
  · next d group backend hd hgroup hbackend =>
    split at h
    · cases h
    · next p hp => exact ⟨d, group, backend, p, hd, hgroup, hbackend, hp⟩
  · cases h
    cases hc

/-! ## Main results -/

theorem supportsPlacement_iff {placement : Scoped BufferPlacement} :
    supportsPlacement backend placement = true ↔
      placement = .of .host ∧ backend.supportsHostBuffers = true ∨
        placement = .of .device ∧ backend.supportsDeviceBuffers = true := by
  have hof {e : BufferPlacement} (hnamed : placement.named = some e) : placement = .of e :=
    congrArg Scoped.mk (eq_toRaw_of_getElem? (by rintro ⟨⟩ <;> rfl) (by decide) hnamed)
  have hne : Scoped.of BufferPlacement.host ≠ .of .device := by decide
  unfold supportsPlacement
  split
  · next hhost => simp [hof hhost, hne]
  · next hdevice => simp [hof hdevice, hne.symm]
  · next hunknown =>
    rw [hof hunknown]
    exact iff_of_false (by simp) (by simp [show Scoped.of BufferPlacement.unknown ≠ .of .host from
      by decide, show Scoped.of BufferPlacement.unknown ≠ .of .device from by decide])
  · next hnone =>
    refine iff_of_false (by simp) ?_
    rintro (⟨rfl, -⟩ | ⟨rfl, -⟩)
    · cases hnone
    · cases hnone

/-- What the planner leaves unread asks for nothing the backend lacks. -/
structure Accommodated (d : CollectiveDescriptor) (backend : BackendCapabilities) : Prop where
  requested : d.requestedBackend.isNull = true ∨ d.requestedBackend = backend.id
  transport : d.constraints = [] ∨ .of .hostMemory ∈ d.constraints
  output : supportsPlacement backend d.outputPlacement = true
  inPlace : d.inPlace = .of .inPlace → backend.supportsInPlace = true

/-- Where the planner respects the constraints it is asked with. -/
def Sound (d : CollectiveDescriptor) (n : UInt64) (backend : BackendCapabilities) : Prop :=
  Eligible d n backend → (OnHost d backend → Accommodated d backend) ∧
    (d.inputPlacement = .of .device → backend.supportsDeviceBuffers = true →
      supportsPlacement backend d.outputPlacement = false)

theorem Asked.sound_iff (h : Asked inp d group backend p) (env : Ambient) :
    Respects env inp ↔ Sound d group.rankCount backend := by
  have hne : Scoped.of BufferPlacement.device ≠ .of .host := by decide
  constructor
  · intro hrespects heligible
    refine ⟨fun hhost => ?_, fun hdevice hflag => ?_⟩
    · obtain ⟨pl, hpl⟩ := (h.plan_ok_iff env).2 ⟨heligible, hhost⟩
      obtain ⟨hrequested, htransport, -, houtput, hinPlace⟩ :=
        hrespects.planned pl d backend h.descriptor_eq h.backend_eq hpl
      obtain ⟨-, -, -, hbackend, hhostMemory⟩ := h.of_planIn_ok hpl
      exact ⟨hbackend ▸ hrequested, hhostMemory ▸ htransport, houtput, hinPlace⟩
    · obtain ⟨cands, hcands, c, hc, hreason⟩ := h.rejected_iff.2 ⟨heligible, fun hhost =>
        hne (hdevice.symm.trans hhost.1)⟩
      have hnot := hrespects.placed cands d backend h.descriptor_eq h.backend_eq hcands c hc hreason
      by_contra houtput
      exact hnot ⟨supportsPlacement_iff.2 (.inr ⟨hdevice, hflag⟩), by simpa using houtput⟩
  · intro hsound
    constructor
    · intro pl d' backend' hd hbackend hpl
      obtain rfl := Option.some.inj (h.descriptor_eq.symm.trans hd)
      obtain rfl := Option.some.inj (h.backend_eq.symm.trans hbackend)
      obtain ⟨heligible, hhost⟩ := (h.plan_ok_iff env).1 ⟨pl, hpl⟩
      obtain ⟨hrequested, htransport, houtput, hinPlace⟩ := (hsound heligible).1 hhost
      obtain ⟨-, -, -, hid, hhostMemory⟩ := h.of_planIn_ok hpl
      exact ⟨hid ▸ hrequested, hhostMemory ▸ htransport, supportsPlacement_iff.2 (.inl hhost),
        houtput, hinPlace⟩
    · rintro cands d' backend' hd hbackend hcands c hc hreason ⟨hinput, houtput⟩
      obtain rfl := Option.some.inj (h.descriptor_eq.symm.trans hd)
      obtain rfl := Option.some.inj (h.backend_eq.symm.trans hbackend)
      obtain ⟨heligible, hoff⟩ := h.rejected_iff.1 ⟨cands, hcands, c, hc, hreason⟩
      rcases supportsPlacement_iff.1 hinput with hhost | ⟨hdevice, hflag⟩
      · exact hoff hhost
      · have hnone := (hsound heligible).2 hdevice hflag
        rw [houtput] at hnone
        cases hnone

/-- **The planner respects the constraints** exactly where what it leaves
unread asks for nothing and, on an eligible backend with device buffers,
no supported buffers are asked for on the device. -/
theorem respects_iff (env : Ambient) (inp : PlannerInput) :
    Respects env inp ↔
      ∀ d group backend p, Asked inp d group backend p → Sound d group.rankCount backend := by
  constructor
  · intro hrespects d group backend p h
    exact (h.sound_iff env).1 hrespects
  · intro hsound
    constructor
    · intro pl d backend hd hbackend hpl
      obtain ⟨d', group, backend', p, h⟩ := asked_of_plan hpl
      exact ((h.sound_iff env).2 (hsound _ _ _ _ h)).planned pl d backend hd hbackend hpl
    · intro cands d backend hd hbackend hcands c hc
      obtain ⟨d', group, backend', p, h⟩ := asked_of_candidate hcands hc
      have hplaced := ((h.sound_iff env).2 (hsound _ _ _ _ h)).placed
      exact hplaced cands d backend hd hbackend hcands c hc

/-- A backend on the host and the device that cannot run in place. -/
def hybrid : BackendCapabilities :=
  { reference with supportsDeviceBuffers := true, supportsInPlace := false }

/-- **Five constraints that are not respected**: a backend that is not the
requested one, a transport that is not among the constraints, an output on
a device the backend has no buffers on, in place where that is not
supported, and buffers on the device of a backend that supports them. -/
theorem not_respects :
    ¬ Respects ⟨0, 0, 0⟩ (askPair { floatSum with requestedBackend := ⟨9⟩ } reference) ∧
      ¬ Respects ⟨0, 0, 0⟩ (askPair { floatSum with constraints := [.of .rdma] } reference) ∧
      ¬ Respects ⟨0, 0, 0⟩ (askPair { floatSum with outputPlacement := .of .device } reference) ∧
      ¬ Respects ⟨0, 0, 0⟩ (askPair { floatSum with inPlace := .of .inPlace } hybrid) ∧
      ¬ Respects ⟨0, 0, 0⟩ (askPair { floatSum with
        inputPlacement := .of .device, outputPlacement := .of .device } hybrid) := by
  have hunsound {d : CollectiveDescriptor} {backend : BackendCapabilities}
      (hp : payloadBytes d pair.rankCount = .ok 16) (heligible : Eligible d pair.rankCount backend)
      (hnot : OnHost d backend ∧ ¬ Accommodated d backend ∨ d.inputPlacement = .of .device ∧
        backend.supportsDeviceBuffers = true ∧
          supportsPlacement backend d.outputPlacement = true) :
      ¬ Respects ⟨0, 0, 0⟩ (askPair d backend) := by
    intro hrespects
    have hsound := ((askPair_asked hp).sound_iff ⟨0, 0, 0⟩).1 hrespects heligible
    rcases hnot with ⟨hhost, hnot⟩ | ⟨hdevice, hflag, houtput⟩
    · exact hnot (hsound.1 hhost)
    · rw [hsound.2 hdevice hflag] at houtput
      cases houtput
  -- the fields that differ are none of those an eligible backend is asked for
  have hreference : Eligible floatSum pair.rankCount reference := by
    refine ⟨by decide, by decide, fun _ => by decide, by decide, ?_⟩
    rintro limit ⟨⟩
    decide +kernel
  have hhybrid : Eligible floatSum pair.rankCount hybrid := by
    refine ⟨by decide, by decide, fun _ => by decide, by decide, ?_⟩
    rintro limit ⟨⟩
    decide +kernel
  refine ⟨?_, ?_, ?_, ?_, ?_⟩
  · refine hunsound floatSum_payload ⟨hreference.1, hreference.2, hreference.3, hreference.4,
      hreference.5⟩ (.inl ⟨⟨rfl, rfl⟩, fun h => ?_⟩)
    exact absurd h.requested (by decide)
  · refine hunsound floatSum_payload ⟨hreference.1, hreference.2, hreference.3, hreference.4,
      hreference.5⟩ (.inl ⟨⟨rfl, rfl⟩, fun h => ?_⟩)
    exact absurd h.transport (by decide)
  · refine hunsound floatSum_payload ⟨hreference.1, hreference.2, hreference.3, hreference.4,
      hreference.5⟩ (.inl ⟨⟨rfl, rfl⟩, fun h => ?_⟩)
    exact absurd h.output (by decide)
  · refine hunsound floatSum_payload ⟨hhybrid.1, hhybrid.2, hhybrid.3, hhybrid.4, hhybrid.5⟩
      (.inl ⟨⟨rfl, rfl⟩, fun h => ?_⟩)
    exact absurd (h.inPlace rfl) (by decide)
  · exact hunsound floatSum_payload ⟨hhybrid.1, hhybrid.2, hhybrid.3, hhybrid.4, hhybrid.5⟩
      (.inr ⟨rfl, rfl, rfl⟩)

end Planner

end CollectiveFabric
