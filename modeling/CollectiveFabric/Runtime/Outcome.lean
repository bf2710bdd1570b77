import CollectiveFabric.Runtime.Invariant

/-!
# Outcomes

What a run makes of an execution: its history only grows, it enters at
most one outcome, after an outcome it is at most `STALE`, and a success
has the whole line of stages behind it and every rank of its group
completed.
-/

namespace CollectiveFabric

open Common

namespace System

open CollectiveStateMachine

variable {s : System} {e : ExecutionId} {ex ex' : Execution}

/-! ## Runs -/

/-- **An execution is there at the end of a run**, further on. -/
theorem grows_run {evs : List Event} (hs : s.Sound)
    (hid : (Run.run step s evs).runtime.nextId ≤ 2 ^ 64)
    (hex : s.runtime.executions[e]? = some ex) :
    ∃ ex', (Run.run step s evs).runtime.executions[e]? = some ex' ∧ ex.Grows ex' := by
  -- what is kept is that the execution is there, further on than at the start
  have hkept := Run.throughout_of_step
    (I := fun s' => s'.Sound ∧ ∃ ex', s'.runtime.executions[e]? = some ex' ∧ ex.Grows ex')
    (fun s' ev ⟨hs', ex₁, hex₁, hgrows₁⟩ hid' => by
      obtain ⟨ex₂, hex₂, hgrows₂⟩ := hs'.runtime.persists (s'.effect_step ev) hid' hex₁
      exact ⟨sound_step s' ev hs' hid', ex₂, hex₂, hgrows₁.trans hgrows₂⟩)
    ⟨hs, ex, hex, .refl ex⟩ (along_ids hid)
  exact hkept.last.2

/-- Every success has its quorum. -/
def Quorate (s : System) : Prop :=
  ∀ (e : ExecutionId) (ex : Execution), s.runtime.executions[e]? = some ex →
    .succeeded ∈ ex.lifecycle.entered →
    ∃ grp, s.runtime.groupOf ex = some grp ∧ Runtime.quorum grp ex.rankCompletions = true

theorem quorate_init : init.Quorate := fun _ _ h => by simp [init] at h

/-- One step keeps every success quorate: what enters it meets the quorum,
and neither groups nor completions shrink. -/
theorem quorate_step (s : System) (ev : Event) (hs : s.Sound) (h : s.Quorate) :
    (s.step ev).Quorate := by
  intro e ex' hex' hsucc
  have heffect := s.effect_step ev
  have hkept {ex : Execution} (hex : s.runtime.executions[e]? = some ex) (hgrows : ex.Grows ex')
      (hbefore : .succeeded ∈ ex.lifecycle.entered) :
      ∃ grp, (s.step ev).runtime.groupOf ex' = some grp ∧
        Runtime.quorum grp ex'.rankCompletions = true := by
    obtain ⟨grp, hgrp, hq⟩ := h e ex hex hbefore
    exact ⟨grp, heffect.groupOf hgrows hgrp, Runtime.quorum_mono hgrows.completions hq⟩
  rcases heffect.origin hex' with ⟨hex, -⟩ | ⟨a, ex, -, hex, hmoves⟩ | ⟨d, -, -, rfl, -⟩
  · exact hkept hex (.refl _) hsucc
  · by_cases hbefore : .succeeded ∈ ex.lifecycle.entered
    · exact hkept hex hmoves.grows hbefore
    · obtain ⟨grp, hgrp⟩ := hs.runtime.grouped e ex hex
      exact ⟨grp, heffect.groupOf hmoves.grows hgrp, hmoves.quorum hgrp hbefore hsucc⟩
  · simp at hsucc

theorem quorate_run {evs : List Event}
    (hid : (Run.run step init evs).runtime.nextId ≤ 2 ^ 64) : (Run.run step init evs).Quorate :=
  (Run.throughout_of_step (I := fun s => s.Sound ∧ s.Quorate)
    (fun s ev h hid => ⟨sound_step s ev h.1 hid, quorate_step s ev h.1 h.2⟩)
    ⟨sound_init, quorate_init⟩ (along_ids hid)).last.2

/-! ## Main results -/

/-- **Outcomes are exclusive, final and, for a success, backed.** Take an
execution at any point of a run and at any later one. Its history has
grown; it has at most one outcome in it; after an outcome the only state
it can have entered since is `STALE`, from `SUCCEEDED` or `FAILED`; and if
it has entered `SUCCEEDED`, it passed every stage of the line to it, and
every rank of its group has completed. -/
theorem outcomes_exclusive (evs later : List Event)
    (hid : (Run.run step init (evs ++ later)).runtime.nextId ≤ 2 ^ 64) (e : ExecutionId)
    (ex : Execution) (hex : (Run.run step init evs).runtime.executions[e]? = some ex) :
    (∀ o o', o ∈ ex.lifecycle.entered → o' ∈ ex.lifecycle.entered → o.IsOutcome → o'.IsOutcome →
        o = o') ∧
      (.succeeded ∈ ex.lifecycle.entered →
        (ex.lifecycle.entered = successLine ∨ ex.lifecycle.entered = .stale :: successLine) ∧
        ∃ grp, (Run.run step init evs).runtime.findGroup ex.descriptor.groupId
            ex.descriptor.groupGeneration = some grp ∧
          ∀ p ∈ grp.participants.toList, p.rank ∈ ex.rankCompletions) ∧
      ∃ ex', (Run.run step init (evs ++ later)).runtime.executions[e]? = some ex' ∧
        ex.lifecycle.entered <:+ ex'.lifecycle.entered ∧
        ∀ o ∈ ex.lifecycle.entered, o.IsOutcome →
          ex'.lifecycle.entered = ex.lifecycle.entered ∨
            ((o = .succeeded ∨ o = .failed) ∧ ex.lifecycle.state = o ∧
              ex'.lifecycle.entered = .stale :: ex.lifecycle.entered) := by
  have hle : (Run.run step init evs).runtime.nextId ≤ 2 ^ 64 := by
    refine le_trans ?_ hid
    rw [Run.run_append]
    exact Run.le_run (fun s : System => s.runtime.nextId)
      (fun s ev => (s.effect_step ev).nextId_le) later
  have hsound : (Run.run step init evs).Sound := sound_run sound_init hle
  refine ⟨fun o o' ho ho' hout hout' => outcome_unique ho ho' hout hout', fun hsucc => ?_, ?_⟩
  · obtain ⟨grp, hgrp, hq⟩ := quorate_run hle e ex hex hsucc
    exact ⟨entered_of_succeeded hsucc, grp, hgrp, Runtime.quorum_iff.1 hq⟩
  · rw [Run.run_append] at hid ⊢
    obtain ⟨ex', hex', hgrows⟩ := grows_run hsound hid hex
    exact ⟨ex', hex', hgrows.lifecycle, fun o ho hout => after_outcome hgrows.lifecycle ho hout⟩

/-- A broadcast that succeeds and is then marked stale. -/
theorem outcomes_exclusive_broadcast :
    ∃ ex, (Run.run step init soloBroadcast).runtime.executions[(⟨1⟩ : ExecutionId)]? = some ex ∧
      (ex.lifecycle.entered = successLine ∨ ex.lifecycle.entered = .stale :: successLine) ∧
      ∃ ex', (Run.run step init (soloBroadcast ++
          [.call (.markStaleCollective ⟨1⟩)])).runtime.executions[(⟨1⟩ : ExecutionId)]? = some ex' ∧
        ex.lifecycle.entered <:+ ex'.lifecycle.entered := by
  have hsome : ((Run.run step init soloBroadcast).runtime.executions[(⟨1⟩ : ExecutionId)]?.any
      fun ex => .succeeded ∈ ex.lifecycle.entered) = true := by decide +kernel
  obtain ⟨ex, hex, hsucc⟩ := (Option.any_eq_true _ _).1 hsome
  obtain ⟨-, hbacked, ex', hex', hgrown, -⟩ :=
    outcomes_exclusive _ [.call (.markStaleCollective ⟨1⟩)] (by decide +kernel) ⟨1⟩ ex hex
  exact ⟨ex, hex, (hbacked (of_decide_eq_true hsucc)).1, ex', hex', hgrown⟩

end System

end CollectiveFabric
