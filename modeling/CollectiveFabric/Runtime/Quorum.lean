import CollectiveFabric.Lifecycle.History
import CollectiveFabric.Runtime.Model.System

/-!
# The quorum

A group's quorum is met when every participant's rank has completed.
Completions only ever grow, so a quorum once met stays met; and since a
group's ranks are dense, completing ranks `0` to `rankCount - 1` meets it.
Applying the quorum moves a `COMPLETING` execution to `SUCCEEDED` when it
is met and does nothing else.
-/

namespace CollectiveFabric

open Common

namespace Runtime

variable {rt : Runtime} {grp : CollectiveGroup} {ex : Execution}

/-- The group an execution's descriptor names. -/
def groupOf (rt : Runtime) (ex : Execution) : Option CollectiveGroup :=
  rt.findGroup ex.descriptor.groupId ex.descriptor.groupGeneration

/-- **The quorum is met** when every participant's rank has completed. -/
theorem quorum_iff {completions : OrdMap RankId Bool} :
    quorum grp completions = true ↔
      ∀ p ∈ grp.participants.toList, p.rank ∈ completions := by
  simp only [quorum, beq_iff_eq, List.length_filter_eq_length_iff, decide_eq_true_eq]

theorem quorum_mono {completions completions' : OrdMap RankId Bool}
    (h : ∀ r, r ∈ completions → r ∈ completions') (hq : quorum grp completions = true) :
    quorum grp completions' = true :=
  quorum_iff.2 fun p hp => h _ (quorum_iff.1 hq p hp)

/-- What the loop over the ranks completes. -/
theorem mem_completeRanks {completions : OrdMap RankId Bool} {n : UInt64} {r : RankId} :
    r ∈ completeRanks completions n ↔ r ∈ completions ∨ r.raw < n := by
  have hloop (k : ℕ) (hk : k ≤ n.toNat) :
      r ∈ (List.range k).foldl (fun (acc : OrdMap RankId Bool) i =>
          acc.insert ⟨UInt64.ofNat i⟩ true) completions ↔
        r ∈ completions ∨ r.raw.toNat < k := by
    induction k with
    | zero => simp
    | succ k ih =>
      have hlt : k < 2 ^ 64 := lt_of_lt_of_le hk (le_of_lt n.toNat_lt)
      have hraw : (⟨UInt64.ofNat k⟩ : RankId) = r ↔ r.raw.toNat = k := by
        rcases r with ⟨raw⟩
        rw [StrongId.mk.injEq, ← UInt64.toNat_inj, UInt64.toNat_ofNat_of_lt' hlt]
        exact eq_comm
      rw [List.range_succ, List.foldl_append, List.foldl_cons, List.foldl_nil,
        Std.TreeMap.mem_insert, Std.LawfulEqOrd.compare_eq_iff_eq, hraw, ih (by omega),
        Nat.lt_succ_iff_lt_or_eq]
      tauto
  rw [completeRanks, hloop n.toNat le_rfl, UInt64.lt_iff_toNat_lt]

/-- **Completing as many ranks as the group has meets its quorum**: its
ranks are dense. -/
theorem quorum_completeRanks (grp : CollectiveGroup) (completions : OrdMap RankId Bool) :
    quorum grp (completeRanks completions grp.rankCount) = true := by
  refine quorum_iff.2 fun p hp => mem_completeRanks.2 (.inr ?_)
  obtain ⟨i, hi⟩ := List.mem_iff_getElem?.1 hp
  have hlt : i < grp.participants.toList.length := (List.getElem?_eq_some_iff.1 hi).1
  have hsize := grp.participants.size_lt
  rw [grp.dense i p hi, UInt64.lt_iff_toNat_lt, CollectiveGroup.rankCount, Vec.toNat_size,
    UInt64.toNat_ofNat_of_lt' (lt_trans hlt hsize)]
  exact hlt

/-! ## Applying it -/

/-- **The quorum applied** moves the lifecycle at most, to `SUCCEEDED` from
`COMPLETING` with the quorum met, or without a group to `FAILED`. -/
theorem applyQuorum_cases (rt : Runtime) (ex : Execution) :
    (rt.groupOf ex = none ∧
        rt.applyQuorum ex = { ex with lifecycle := ex.lifecycle.tryTransitionTo .failed }) ∨
      ∃ grp, rt.groupOf ex = some grp ∧
        ((quorum grp ex.rankCompletions = true ∧ ex.lifecycle.state = .completing ∧
            ∃ lc, ex.lifecycle.transitionTo .succeeded = .ok lc ∧
              rt.applyQuorum ex = { ex with lifecycle := lc }) ∨
          (¬(quorum grp ex.rankCompletions = true ∧ ex.lifecycle.state = .completing) ∧
            rt.applyQuorum ex = ex)) := by
  unfold applyQuorum
  cases h : rt.groupOf ex with
  | none => simp only [groupOf] at h; simp [h]
  | some grp =>
    simp only [groupOf] at h
    right
    refine ⟨grp, rfl, ?_⟩
    simp only [h]
    by_cases hq : quorum grp ex.rankCompletions = true ∧ ex.lifecycle.state = .completing
    · left
      rw [if_pos hq]
      cases ht : ex.lifecycle.transitionTo .succeeded with
      | ok lc =>
        exact ⟨hq.1, hq.2, lc, rfl, by simp only [CollectiveStateMachine.tryTransitionTo, ht]⟩
      | error err =>
        have hnot := CollectiveStateMachine.transitionTo_error ht
        rw [hq.2] at hnot
        cases hnot
    · right
      exact ⟨hq, if_neg hq⟩

end Runtime

end CollectiveFabric
