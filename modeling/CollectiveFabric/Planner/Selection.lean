import CollectiveFabric.Common.Best
import CollectiveFabric.Planner.Model.Planner

/-!
# What the planner returns

A plan's algorithm is a feasible candidate's, so it is applicable to the
collective's kind and never `UNKNOWN`. Of the group the planner reads the
rank count and nothing else.
-/

namespace CollectiveFabric

namespace Planner

open Common

variable {R : Type} [EstimateArith R] {env : Ambient} {inp : PlannerInput}
  {cands : List Candidate} {b : Candidate} {plan : CollectivePlan}

/-! ## The two passes -/

/-- A feasible candidate that is not the backend's own algorithm. -/
def Candidate.Real (c : Candidate) : Prop := c.feasible = true ∧ c.algorithm ≠ .backendDefault

instance : DecidablePred Candidate.Real := fun c =>
  inferInstanceAs (Decidable (c.feasible = true ∧ c.algorithm ≠ .backendDefault))

/-- What the second pass compares. -/
def cheaper (c b : Candidate) : Bool :=
  c.steps < b.steps ∨ c.steps = b.steps ∧ c.byteMovement < b.byteMovement

/-- **The first pass** scans the real candidates. -/
theorem selectReal_eq :
    selectReal R inp cands = best (better R inp) (cands.filter fun c => c.Real) := by
  rw [selectReal, best, List.foldl_filter]
  congr 1
  funext held c
  by_cases hreal : c.Real
  · have hkept : ¬ (c.feasible = false ∨ c.algorithm = .backendDefault) := by
      rintro (hinfeasible | hdefault)
      · rw [hreal.1] at hinfeasible
        cases hinfeasible
      · exact hreal.2 hdefault
    rw [if_neg hkept, if_pos (decide_eq_true hreal)]
    cases held with
    | none => rfl
    | some b => rfl
  · have hskipped : c.feasible = false ∨ c.algorithm = .backendDefault := by
      by_contra hkept
      obtain ⟨hfeasible, hdefault⟩ := not_or.1 hkept
      exact hreal ⟨by simpa using hfeasible, hdefault⟩
    rw [if_pos hskipped, if_neg (by simpa using hreal)]

/-- **The second pass** scans the feasible ones. -/
theorem selectFallback_eq : selectFallback cands = best cheaper (cands.filter (·.feasible)) := by
  rw [selectFallback, best, List.foldl_filter]
  congr 1
  funext held c
  cases hfeasible : c.feasible with
  | false => rfl
  | true =>
    cases held with
    | none => rfl
    | some b => simp [offer, cheaper]

/-- **What is selected** is a feasible candidate. -/
theorem feasible_of_select (h : select R inp cands = some b) : b ∈ cands ∧ b.feasible = true := by
  unfold select at h
  split at h
  · next hreal =>
    cases h
    rw [selectReal_eq] at hreal
    obtain ⟨hmem, hb⟩ := List.mem_filter.1 (Best.mem hreal)
    exact ⟨hmem, (of_decide_eq_true hb).1⟩
  · rw [selectFallback_eq] at h
    exact List.mem_filter.1 (Best.mem h)

/-- A feasible candidate's algorithm is applicable to the kind. -/
theorem applicable_of_candidate {d : CollectiveDescriptor} {n p : UInt64}
    {backend : BackendCapabilities} {topology : Option Topology} {a : Algorithm}
    (h : (candidate d n p backend topology a).feasible = true) :
    algorithmFeasible d.kind (candidate d n p backend topology a).algorithm = true := by
  unfold candidate at h ⊢
  split
  · next reason hreason =>
    rw [hreason] at h
    cases h
  · next hnone =>
    unfold rejectReason at hnone
    split_ifs at hnone with hfeasible
    simpa using hfeasible

/-- No algorithm that is applicable is `UNKNOWN`. -/
theorem ne_unknown_of_applicable {kind : Scoped CollectiveKind} {a : Algorithm}
    (h : algorithmFeasible kind a = true) : a ≠ .unknown := by
  rintro rfl
  cases h

/-- **What a plan says**: an algorithm applicable to the kind, and the
ranks of the group it was asked for in their order. -/
theorem planIn_ok (h : planIn R env inp = .ok plan) :
    ∃ d group, inp.descriptor = some d ∧ inp.group = some group ∧
      algorithmFeasible d.kind plan.algorithm = true ∧
      plan.rankOrder = (List.range group.rankCount.toNat).map UInt64.ofNat := by
  unfold planIn at h
  split at h
  · next d group backend hd hgroup hbackend =>
    refine ⟨d, group, hd, hgroup, ?_⟩
    simp only at h
    split at h
    · cases h
    · next p hp =>
      split at h
      · cases h
      · next cands hcands =>
        split at h
        · cases h
        · next best hbest =>
          cases h
          obtain ⟨hmem, hfeasible⟩ := feasible_of_select hbest
          -- the candidates are those of the same descriptor and group
          simp only [candidates, hd, hgroup, hbackend, hp] at hcands
          cases hcands
          obtain ⟨a, -, rfl⟩ := List.mem_map.1 hmem
          exact ⟨applicable_of_candidate hfeasible, rfl⟩
  · cases h

/-- **The planner reads the group's rank count alone.** -/
theorem planIn_congr {group group' : CollectiveGroup}
    (hcount : group.rankCount = group'.rankCount) :
    planIn R env { inp with group := some group } =
      planIn R env { inp with group := some group' } := by
  unfold planIn candidates
  cases hd : inp.descriptor with
  | none => rfl
  | some d =>
    cases hbackend : inp.backend with
    | none => rfl
    | some backend =>
      simp only [hcount]
      rfl

end Planner

end CollectiveFabric
