import CollectiveFabric.Runtime.Steps

/-!
# What no move undoes

Whatever act runs on an execution, its descriptor stays, its lifecycle
goes on from where it was and its completions grow. Only the commit of a
returned call stores outputs and a measurement, and a failure record
comes with an execution that will never succeed, except from a commit
that finds the success already entered.
-/

namespace CollectiveFabric

open Common

namespace Runtime

variable {rt rt' : Runtime} {ex ex' : Execution} {a : Act}

open CollectiveStateMachine

/-! ## Settling with a group -/

/-- **How settling ends.** With the quorum met a `RUNNING` or `COMPLETING`
execution succeeds; without it a `RUNNING` one is `COMPLETING`; otherwise
nothing moves. -/
theorem settle_cases {grp : CollectiveGroup} (hgrp : rt.groupOf ex = some grp)
    (completions : OrdMap RankId Bool) (outputs : List (List UInt8)) :
    (quorum grp completions = true ∧
        (ex.lifecycle.state = .running ∨ ex.lifecycle.state = .completing) ∧
        (rt.settle ex completions outputs).lifecycle.state = .succeeded) ∨
      (quorum grp completions = false ∧ ex.lifecycle.state = .running ∧
        (rt.settle ex completions outputs).lifecycle.state = .completing) ∨
      (¬(quorum grp completions = true ∧
          (ex.lifecycle.state = .running ∨ ex.lifecycle.state = .completing)) ∧
        ex.lifecycle.state ≠ .running ∧
        (rt.settle ex completions outputs).lifecycle = ex.lifecycle) := by
  have hgrp' : rt.groupOf { ex with
      rankCompletions := completions
      outputs := outputs
      lifecycle := ex.lifecycle.tryTransitionTo .completing } = some grp := hgrp
  unfold settle
  rcases applyQuorum_cases rt { ex with
      rankCompletions := completions
      outputs := outputs
      lifecycle := ex.lifecycle.tryTransitionTo .completing } with
    ⟨hnone, -⟩ | ⟨grp', hsome, hcases⟩
  · rw [hgrp'] at hnone
    cases hnone
  obtain rfl : grp' = grp := Option.some.inj (hsome.symm.trans hgrp')
  have hfrom : ex.lifecycle.state.allowed .completing = true ↔ ex.lifecycle.state = .running := by
    cases ex.lifecycle.state <;> decide
  rcases hcases with ⟨hq, hstate, lc, ht, heq⟩ | ⟨hnot, heq⟩
  · left
    refine ⟨hq, ?_, by rw [heq]; exact (transitionTo_ok ht).2.1⟩
    rcases tryTransitionTo_cases ex.lifecycle .completing with ⟨hallowed, -⟩ | ⟨-, hsame⟩
    · exact .inl (hfrom.1 hallowed)
    · exact .inr (by rw [← hsame]; exact hstate)
  · right
    rw [heq]
    rcases tryTransitionTo_cases ex.lifecycle .completing with ⟨hallowed, hto, -⟩ | ⟨hnotall, hsame⟩
    · refine .inl ⟨?_, hfrom.1 hallowed, hto⟩
      simpa [hto] using hnot
    · have hrunning : ex.lifecycle.state ≠ .running := by
        intro hrun
        rw [hfrom.2 hrun] at hnotall
        cases hnotall
      refine .inr ⟨?_, hrunning, hsame⟩
      rintro ⟨hq, hstate⟩
      refine hnot ⟨hq, ?_⟩
      simp only [hsame]
      exact hstate.resolve_left hrunning

/-- The states settling can enter. -/
theorem mem_of_settle {completions : OrdMap RankId Bool} {outputs : List (List UInt8)}
    {s : CollectiveState} (hs : s ∈ (rt.settle ex completions outputs).lifecycle.entered) :
    (s = .completing ∨ s = .succeeded ∨ s = .failed) ∨ s ∈ ex.lifecycle.entered := by
  have hfirst (h : s ∈ (ex.lifecycle.tryTransitionTo .completing).entered) :
      (s = .completing ∨ s = .succeeded ∨ s = .failed) ∨ s ∈ ex.lifecycle.entered :=
    (mem_of_tryTransitionTo h).imp_left .inl
  unfold settle at hs
  rcases applyQuorum_cases rt { ex with
      rankCompletions := completions
      outputs := outputs
      lifecycle := ex.lifecycle.tryTransitionTo .completing } with
    ⟨-, heq⟩ | ⟨grp, -, ⟨-, -, lc, ht, heq⟩ | ⟨-, heq⟩⟩
  · rw [heq] at hs
    rcases mem_of_tryTransitionTo hs with rfl | hs
    · exact .inl (.inr (.inr rfl))
    · exact hfirst hs
  · rw [heq] at hs
    rcases mem_of_transitionTo ht hs with rfl | hs
    · exact .inl (.inr (.inl rfl))
    · exact hfirst hs
  · rw [heq] at hs
    exact hfirst hs

/-! ## Every move -/

theorem Moves.descriptor (h : Moves rt ex a ex' rt') : ex'.descriptor = ex.descriptor := by
  cases h with
  | unmeasured => exact settle_descriptor ..
  | unpaired => exact settle_descriptor ..
  | measured => exact settle_descriptor ..
  | counted => exact settle_descriptor ..
  | _ => rfl

/-- **A lifecycle only goes on**: the states entered before stay behind it. -/
theorem Moves.extends (h : Moves rt ex a ex' rt') : ex.lifecycle.Extends ex'.lifecycle := by
  cases h with
  | planned h | dispatched h | begun h | cancelled h | staled h | overflowed h | doubled h
  | reserved h | failed h | unstarted h | aborted h => exact extends_transitionTo h
  | caught => exact extends_tryTransitionTo ..
  | unmeasured | unpaired | measured | counted => exact extends_settle ..
  | refused | withheld | repeated | uncounted => exact .refl _

/-- **Completions grow.** -/
theorem Moves.completions (h : Moves rt ex a ex' rt') {r : RankId}
    (hr : r ∈ ex.rankCompletions) : r ∈ ex'.rankCompletions := by
  cases h with
  | unmeasured | unpaired | measured =>
    rw [settle_rankCompletions]
    exact mem_completeRanks.2 (.inl hr)
  | counted =>
    rw [settle_rankCompletions]
    exact Std.TreeMap.mem_insert.2 (.inr hr)
  | uncounted => exact Std.TreeMap.mem_insert.2 (.inr hr)
  | _ => exact hr

/-- **A success is entered with the quorum met.** -/
theorem Moves.quorum {grp : CollectiveGroup} (hgrp : rt.groupOf ex = some grp)
    (h : Moves rt ex a ex' rt') (hnot : .succeeded ∉ ex.lifecycle.entered)
    (hs : .succeeded ∈ ex'.lifecycle.entered) : quorum grp ex'.rankCompletions = true := by
  -- every move but settling enters another state, or none
  have hother {dst : CollectiveState} {lc : CollectiveStateMachine}
      (h : ex.lifecycle.transitionTo dst = .ok lc) (hdst : .succeeded ≠ dst)
      (hlc : .succeeded ∈ lc.entered) : False :=
    hnot ((mem_of_transitionTo h hlc).resolve_left hdst)
  have hsettle {completions : OrdMap RankId Bool} {outputs : List (List UInt8)}
      (hlc : .succeeded ∈ (rt.settle ex completions outputs).lifecycle.entered) :
      Runtime.quorum grp (rt.settle ex completions outputs).rankCompletions = true := by
    rcases settle_cases hgrp completions outputs with ⟨hq, -⟩ | ⟨-, -, hstate⟩ | ⟨-, -, hsame⟩
    · rw [settle_rankCompletions]
      exact hq
    · rcases state_of_outcome hlc (.inl rfl) with h | ⟨h, -⟩ <;>
        exact absurd (hstate.symm.trans h) (by decide)
    · exact absurd (hsame ▸ hlc) hnot
  cases h with
  | planned h | dispatched h | begun h | cancelled h | staled h | overflowed h | doubled h
  | reserved h | failed h | unstarted h | aborted h => exact (hother h (by decide) hs).elim
  | caught => exact absurd ((mem_of_tryTransitionTo hs).resolve_left (by decide)) hnot
  | unmeasured | unpaired | measured | counted => exact hsettle hs
  | refused | withheld | repeated | uncounted => exact absurd hs hnot

/-- **`RUNNING` is entered by a begin.** -/
theorem Moves.running (h : Moves rt ex a ex' rt') (hact : ∀ inputs, a ≠ .begin inputs)
    (hrun : .running ∈ ex'.lifecycle.entered) : .running ∈ ex.lifecycle.entered := by
  cases h with
  | begun => exact absurd rfl (hact _)
  | planned h | dispatched h | cancelled h | staled h | overflowed h | doubled h
  | reserved h | failed h | unstarted h | aborted h =>
    exact (mem_of_transitionTo h hrun).resolve_left (by decide)
  | caught => exact (mem_of_tryTransitionTo hrun).resolve_left (by decide)
  | unmeasured | unpaired | measured | counted =>
    exact (mem_of_settle hrun).resolve_left (by decide)
  | refused | withheld | repeated | uncounted => exact hrun

/-- **Outputs and measurements come from commits** of returned calls. -/
theorem Moves.results (h : Moves rt ex a ex' rt')
    (hact : ∀ call outputs, a ≠ .commitReturned call outputs) :
    ex'.outputs = ex.outputs ∧ ex'.measurement = ex.measurement := by
  cases h with
  | unmeasured | unpaired | measured => exact absurd rfl (hact _ _)
  | counted => exact ⟨settle_outputs .., settle_measurement ..⟩
  | _ => exact ⟨rfl, rfl⟩

/-- **A commit of a returned call** stores its outputs, and a measurement
unless the byte count overflows. -/
theorem Moves.stored {call : Call} {outputs : List (List UInt8)}
    (h : Moves rt ex (.commitReturned call outputs) ex' rt') :
    ex'.outputs = outputs ∧ ex'.failure = ex.failure ∧
      ex'.lifecycle =
        (rt.settle ex (completeRanks ex.rankCompletions call.rankCount) outputs).lifecycle ∧
      ((∃ bytes, ex.descriptor.elementByteCount = .ok bytes) → ex'.measurement.isSome) := by
  cases h with
  | refused hasks => cases hasks
  | unmeasured hbytes =>
    refine ⟨settle_outputs .., settle_failure .., rfl, ?_⟩
    rintro ⟨bytes, hok⟩
    rw [hbytes] at hok
    cases hok
  | unpaired | measured => exact ⟨settle_outputs .., settle_failure .., rfl, fun _ => rfl⟩

/-- The commit of a caught call leaves a dead execution, unless it finds a
success. -/
theorem Moves.caught_dead {f : CollectiveFailure} (h : Moves rt ex (.commitCaught f) ex' rt')
    (hnot : ex.lifecycle.state ≠ .succeeded) : ex'.lifecycle.state.IsDead := by
  cases h with
  | refused hasks => cases hasks
  | caught =>
    rcases tryTransitionTo_cases ex.lifecycle .failed with ⟨-, hstate, -⟩ | ⟨hforbidden, hsame⟩
    · exact .inl hstate
    · -- the table forbids `FAILED` after an outcome only
      simp only [hsame]
      revert hforbidden hnot
      unfold CollectiveState.IsDead
      cases ex.lifecycle.state <;> simp [CollectiveState.allowed]

/-- **A failure record comes with a dead execution**, but for the commit
of a caught call that finds the execution `SUCCEEDED`. -/
theorem Moves.failure (h : Moves rt ex a ex' rt')
    (hact : ∀ f, a = .commitCaught f → ex.lifecycle.state ≠ .succeeded) :
    ex'.failure = ex.failure ∨ ex'.lifecycle.state.IsDead := by
  cases h with
  | caught hbooks => exact .inr (Moves.caught_dead (.caught hbooks) (hact _ rfl))
  | failed h => exact .inr (.inl (transitionTo_ok h).2.1)
  | unmeasured | unpaired | measured | counted => exact .inl (settle_failure ..)
  | _ => exact .inl rfl

end Runtime

end CollectiveFabric
