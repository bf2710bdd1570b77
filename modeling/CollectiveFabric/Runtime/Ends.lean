import CollectiveFabric.Runtime.Invariant

/-!
# How an execution stops being live

An execution is live from its reservation to its outcome. One act makes
it so, and `Ends` says of every other whether it ends that: by a commit,
by the last rank's completion, by a failure, an abort or a cancellation.
-/

namespace CollectiveFabric

open Common

/-- The act takes an execution out of the live states. -/
def Act.Ends (rt : Runtime) (ex : Execution) : Act → Prop
  | .commitCaught _ => ex.lifecycle.state.isLive = true
  | .commitReturned _ _ => ex.lifecycle.state = .running ∨ ex.lifecycle.state = .completing
  | .completeRank r =>
    (ex.lifecycle.state = .running ∨ ex.lifecycle.state = .completing) ∧
      r ∉ ex.rankCompletions ∧ rt.accounting.activeRankContributions ≠ 0 ∧
      (rt.groupOf ex).any (fun grp =>
        Runtime.quorum grp (ex.rankCompletions.insert r true)) = true
  | .fail _ => ex.lifecycle.state.isLive = true
  | .abort => ex.lifecycle.state = .dispatched ∨ ex.lifecycle.state = .running ∨
      ex.lifecycle.state = .completing
  | .cancel => ex.lifecycle.state = .reserved ∨ ex.lifecycle.state = .dispatched ∨
      ex.lifecycle.state = .running
  | .plan | .reserve | .dispatch | .begin _ | .markStale => False

instance (rt : Runtime) (ex : Execution) : (a : Act) → Decidable (a.Ends rt ex)
  | .commitCaught _ | .fail _ => inferInstanceAs (Decidable (_ = true))
  | .commitReturned _ _ => inferInstanceAs (Decidable (_ ∨ _))
  | .completeRank r =>
    inferInstanceAs (Decidable ((_ ∨ _) ∧ r ∉ ex.rankCompletions ∧ _ ≠ _ ∧ _ = true))
  | .abort | .cancel => inferInstanceAs (Decidable (_ ∨ _ ∨ _))
  | .plan | .reserve | .dispatch | .begin _ | .markStale => isFalse id

namespace Runtime

variable {rt rt' : Runtime} {ex ex' : Execution} {a : Act}

open CollectiveStateMachine CollectiveState

/-- What is ended was live. -/
theorem isLive_of_ends (h : a.Ends rt ex) : ex.lifecycle.state.isLive = true := by
  unfold Act.Ends at h
  cases a with
  | commitCaught | fail => exact h
  | commitReturned => rcases h with h | h <;> rw [h] <;> rfl
  | completeRank => rcases h.1 with h | h <;> rw [h] <;> rfl
  | abort | cancel => rcases h with h | h | h <;> rw [h] <;> rfl
  | _ => exact h.elim

/-- What is refused ends nothing. -/
theorem not_ends_of_refused {dst : CollectiveState} (hasks : a.asks = some dst)
    (hnot : ex.lifecycle.state.allowed dst = false) : ¬a.Ends rt ex := by
  cases a <;> cases hasks <;> unfold Act.Ends <;> revert hnot <;>
    cases ex.lifecycle.state <;> simp [allowed, CollectiveState.isLive]

/-- **A reservation is made of a `PLANNED` execution**, which was not live
and now is. -/
theorem planned_of_reserved {lc : CollectiveStateMachine}
    (h : ex.lifecycle.transitionTo .reserved = .ok lc) :
    ex.lifecycle.state = .planned ∧ ¬ex.lifecycle.state.isLive = true ∧
      lc.state.isLive = true := by
  obtain ⟨hallowed, hstate, -⟩ := transitionTo_ok h
  have hplanned : ex.lifecycle.state = .planned := by
    revert hallowed
    cases ex.lifecycle.state <;> decide
  refine ⟨hplanned, ?_, ?_⟩
  · rw [hplanned]
    decide
  · rw [hstate]
    rfl

/-- **Settling ends** exactly what is `RUNNING` or `COMPLETING` with the
quorum met. -/
theorem settle_isLive {grp : CollectiveGroup} (hgrp : rt.groupOf ex = some grp)
    (completions : OrdMap RankId Bool) (outputs : List (List UInt8)) :
    (rt.settle ex completions outputs).lifecycle.state.isLive = true ↔
      ex.lifecycle.state.isLive = true ∧
        ¬(Runtime.quorum grp completions = true ∧
          (ex.lifecycle.state = .running ∨ ex.lifecycle.state = .completing)) := by
  rcases settle_cases hgrp completions outputs with
    ⟨hq, hstate, hsucc⟩ | ⟨hq, hstate, hcompleting⟩ | ⟨hnot, -, hsame⟩
  · rw [hsucc]
    exact iff_of_false (by decide) fun h => h.2 ⟨hq, hstate⟩
  · rw [hcompleting, hstate, hq]
    decide
  · rw [hsame]
    exact (and_iff_left hnot).symm

/-- **What is live after a move** was live and has not ended, or has just
been reserved. -/
theorem Moves.isLive {grp : CollectiveGroup} (hgrp : rt.groupOf ex = some grp)
    (h : Moves rt ex a ex' rt')
    (hcall : ∀ call outputs, a = .commitReturned call outputs → call.rankCount = grp.rankCount) :
    ex'.lifecycle.state.isLive = true ↔
      (ex.lifecycle.state.isLive = true ∧ ¬a.Ends rt ex) ∨
        (a = .reserve ∧ ex.lifecycle.state = .planned) := by
  have hcommit (call : Call) (outputs : List (List UInt8))
      (ha : a = .commitReturned call outputs) :
      (rt.settle ex (completeRanks ex.rankCompletions call.rankCount)
          outputs).lifecycle.state.isLive = true ↔
        (ex.lifecycle.state.isLive = true ∧ ¬a.Ends rt ex) ∨
          (a = .reserve ∧ ex.lifecycle.state = .planned) := by
    have hq := quorum_completeRanks grp ex.rankCompletions
    rw [← hcall call outputs ha] at hq
    rw [settle_isLive hgrp, hq, ha]
    simp [Act.Ends]
  cases h with
  | refused hasks hnot =>
    constructor
    · exact fun hlive => .inl ⟨hlive, not_ends_of_refused hasks hnot⟩
    · rintro (⟨hlive, -⟩ | ⟨rfl, hstate⟩)
      · exact hlive
      · cases hasks
        rw [hstate] at hnot
        cases hnot
  | withheld => simp [Act.Ends]
  | planned h | dispatched h | begun h | cancelled h | staled h | overflowed h | doubled h
  | reserved h | failed h | unstarted h | aborted h =>
    obtain ⟨hallowed, hstate, -⟩ := transitionTo_ok h
    simp only [hstate, Act.Ends]
    revert hallowed
    cases ex.lifecycle.state <;> simp [allowed, CollectiveState.isLive]
  | caught =>
    rcases tryTransitionTo_cases ex.lifecycle .failed with ⟨hallowed, hstate, -⟩ | ⟨hnot, hsame⟩
    · simp only [hstate, Act.Ends]
      revert hallowed
      cases ex.lifecycle.state <;> simp [allowed, CollectiveState.isLive]
    · simp only [hsame, Act.Ends]
      revert hnot
      cases ex.lifecycle.state <;> simp [allowed, CollectiveState.isLive]
  | unmeasured => exact hcommit _ _ rfl
  | unpaired => exact hcommit _ _ rfl
  | measured => exact hcommit _ _ rfl
  | repeated hmem => simp [Act.Ends, hmem]
  | uncounted hmem hzero => simp [Act.Ends, hzero]
  | counted hmem hpos =>
    rw [settle_isLive hgrp]
    simp only [Act.Ends, hgrp, Option.any_some, hmem, hpos, not_false_eq_true, ne_eq, true_and,
      reduceCtorEq, false_and, or_false]
    rw [and_comm (a := Runtime.quorum grp _ = true)]

end Runtime

namespace System

variable {s : System} {ev : Event} {e : ExecutionId} {a : Act} {ex ex' : Execution}

/-- What is live after a step on a sound system. -/
theorem Sound.isLive (hs : s.Sound) (hact : s.act ev = some (e, a))
    (hex : s.runtime.executions[e]? = some ex)
    (hmoves : Runtime.Moves s.runtime ex a ex' (s.step ev).runtime) :
    ex'.lifecycle.state.isLive = true ↔
      (ex.lifecycle.state.isLive = true ∧ ¬a.Ends s.runtime ex) ∨
        (a = .reserve ∧ ex.lifecycle.state = .planned) := by
  obtain ⟨grp, hgrp⟩ := hs.runtime.grouped e ex hex
  refine hmoves.isLive hgrp ?_
  rintro call outputs rfl
  obtain ⟨grp', hgrp', hcount⟩ := (hs.backed hact hex).rankCount
  obtain rfl := Option.some.inj (hgrp'.symm.trans hgrp)
  exact hcount

end System

end CollectiveFabric
