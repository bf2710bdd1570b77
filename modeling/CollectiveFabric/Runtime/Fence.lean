import CollectiveFabric.Runtime.Invariant

/-!
# The commit and its fence

A commit of a returned call stores its outputs and its measurement
whatever the lifecycle says: the transitions it tries are swallowed. So
an execution failed, aborted or cancelled while the engine ran has
results all the same. A run is fenced exactly when every such commit
finds the execution `RUNNING`, `COMPLETING` or past its success.
-/

namespace CollectiveFabric

open Common

namespace System

open CollectiveStateMachine

variable {s : System} {e : ExecutionId} {ex ex' : Execution}

/-- The commit step has left results for an execution: outputs, a success
measurement, or a measurement id returned to a caller. -/
def Shown (s : System) (e : ExecutionId) (ex : Execution) : Prop :=
  ex.outputs ≠ [] ∨ ex.measurement.isSome = true ∨
    ∃ m, (e, m) ∈ s.returned ∧ m.isNull = false

/-- Results only where the lifecycle has entered `SUCCEEDED`. -/
def Fenced (s : System) : Prop :=
  ∀ (e : ExecutionId) (ex : Execution), s.runtime.executions[e]? = some ex →
    s.Shown e ex → .succeeded ∈ ex.lifecycle.entered

/-- A commit of a returned call finds its execution `RUNNING`, `COMPLETING`
or past its success. -/
def InTime (_ : Runtime) (ex : Execution) : Act → Prop
  | .commitReturned _ _ => ex.lifecycle.state = .running ∨ ex.lifecycle.state = .completing ∨
      .succeeded ∈ ex.lifecycle.entered
  | _ => True

instance (rt : Runtime) (ex : Execution) : (a : Act) → Decidable (InTime rt ex a)
  | .commitReturned _ _ => inferInstanceAs (Decidable (_ ∨ _ ∨ _))
  | .plan | .reserve | .dispatch | .begin _ | .commitCaught _ | .completeRank _ | .fail _ | .abort
  | .cancel | .markStale => isTrue trivial

/-- An event that commits a returned call does so in time. -/
abbrev CommitsInTime : System → Event → Prop := OnAct InTime

theorem fenced_init : init.Fenced := fun _ _ h => by simp [init] at h

/-- A caught call returns the null id, if it returns. -/
theorem commitCaught_null {rt : Runtime} {f : CollectiveFailure} {m : MeasurementId}
    (h : (rt.commitCaught e f).1 = .ok m) : m.isNull = true := by
  unfold Runtime.commitCaught Runtime.onExecution at h
  split at h
  · cases h
  · simp only at h
    split at h
    · cases h
    · cases h
      rfl

/-- What a step adds to the ids returned comes from a commit. -/
theorem mem_returned_step {ev : Event} {m : MeasurementId} (h : (e, m) ∈ (s.step ev).returned)
    (hnull : m.isNull = false) :
    (e, m) ∈ s.returned ∨ ∃ call outputs, s.act ev = some (e, .commitReturned call outputs) := by
  cases ev with
  | call op => exact .inl h
  | begin c env e' inputs =>
    simp only [step, begin] at h
    split at h
    · exact .inl h
    · split at h
      · rcases List.mem_cons.1 h with heq | h
        · cases heq
          cases hnull
        · exact .inl h
      · exact .inl h
  | engine c env =>
    simp only [step, engine] at h
    split at h <;> exact .inl h
  | commit c env =>
    simp only [step, commit] at h
    cases hcall : s.calls[c]? with
    | none => exact .inl (by simpa only [hcall] using h)
    | some call =>
      simp only [hcall, Runtime.executeCommit] at h
      cases hstage : call.stage with
      | begun => exact .inl (by simpa only [hstage] using h)
      | caught f =>
        simp only [hstage] at h
        left
        split at h
        · next m' hok =>
          rcases List.mem_cons.1 h with heq | h
          · obtain ⟨rfl, rfl⟩ : e = call.execution ∧ m = m' := by simpa using heq
            rw [commitCaught_null hok] at hnull
            cases hnull
          · exact h
        · exact h
      | returned outputs =>
        simp only [hstage] at h
        split at h
        · rcases List.mem_cons.1 h with heq | h
          · right
            refine ⟨call, outputs, ?_⟩
            obtain ⟨rfl, -⟩ : e = call.execution ∧ _ := by simpa using heq
            simp only [act, hcall, Option.bind_some, Call.act, hstage]
          · exact .inl h
        · exact .inl h

/-- **How the commit of a returned call ends.** What it leaves is shown,
and the lifecycle has entered `SUCCEEDED` exactly if the commit came in
time: it completes every rank of the group, so the quorum is met. -/
theorem commit_shown {call : Call} {outputs : List (List UInt8)} {rt' : Runtime}
    (hbacked : Backed s.runtime s.started call ex)
    (hmoves : Runtime.Moves s.runtime ex (.commitReturned call outputs) ex' rt') :
    ex'.measurement.isSome = true ∧
      (.succeeded ∈ ex'.lifecycle.entered ↔
        ex.lifecycle.state = .running ∨ ex.lifecycle.state = .completing ∨
          .succeeded ∈ ex.lifecycle.entered) := by
  obtain ⟨-, -, hlifecycle, hmeasured⟩ := hmoves.stored
  refine ⟨hmeasured hbacked.bytes, ?_⟩
  obtain ⟨grp, hgrp, hcount⟩ := hbacked.rankCount
  have hq := Runtime.quorum_completeRanks grp ex.rankCompletions
  rw [← hcount] at hq
  rw [hlifecycle]
  rcases Runtime.settle_cases hgrp (Runtime.completeRanks ex.rankCompletions call.rankCount)
    outputs with ⟨-, hstate, hsucc⟩ | ⟨hnot, -⟩ | ⟨hnot, -, hsame⟩
  · refine iff_of_true ?_ (hstate.imp_right .inl)
    rw [entered, hsucc]
    exact List.mem_cons_self ..
  · rw [hq] at hnot
    cases hnot
  · rw [hsame]
    refine ⟨fun h => .inr (.inr h), fun h => ?_⟩
    rcases h with h | h | h
    · exact absurd ⟨hq, .inl h⟩ hnot
    · exact absurd ⟨hq, .inr h⟩ hnot
    · exact h

/-- What is shown after a step that commits nothing for an execution was
shown before it. -/
theorem shown_before {ev : Event}
    (hno : ∀ call outputs, s.act ev ≠ some (e, .commitReturned call outputs))
    (hresults : ex'.outputs = ex.outputs ∧ ex'.measurement = ex.measurement)
    (h : (s.step ev).Shown e ex') : s.Shown e ex := by
  rcases h with h | h | ⟨m, hmem, hnull⟩
  · exact .inl (hresults.1 ▸ h)
  · exact .inr (.inl (hresults.2 ▸ h))
  · rcases mem_returned_step hmem hnull with hmem | ⟨call, outputs, hact⟩
    · exact .inr (.inr ⟨m, hmem, hnull⟩)
    · exact absurd hact (hno call outputs)

/-- **One step stays fenced exactly if it commits in time.** -/
theorem fenced_step (s : System) (ev : Event) (hs : s.Sound)
    (hid : (s.step ev).runtime.nextId ≤ 2 ^ 64) (h : s.Fenced) :
    (s.step ev).Fenced ↔ s.CommitsInTime ev := by
  have heffect := s.effect_step ev
  constructor
  · rintro h' ⟨e, a⟩ (hact : s.act ev = some (e, a)) ex (hex : s.runtime.executions[e]? = some ex)
    cases a with
    | commitReturned call outputs =>
      rw [hact] at heffect
      obtain ⟨ex', hex', hmoves⟩ := heffect.moved hex
      obtain ⟨hmeasured, hiff⟩ := commit_shown (hs.backed hact hex) hmoves
      exact hiff.1 (h' e ex' hex' (.inr (.inl hmeasured)))
    | _ => trivial
  · intro hin e ex' hex' hshown
    rcases heffect.origin hex' with
      ⟨hex, hnot⟩ | ⟨a, ex, hact, hex, hmoves⟩ | ⟨d, hnone, rfl, rfl, -, hnext⟩
    · exact h e ex' hex (shown_before (fun _ _ => hnot _) ⟨rfl, rfl⟩ hshown)
    · by_cases hcommit : ∃ call outputs, a = .commitReturned call outputs
      · obtain ⟨call, outputs, rfl⟩ := hcommit
        exact (commit_shown (hs.backed hact hex) hmoves).2.2 (hin.apply hact hex)
      · have hno (call : Call) (outputs : List (List UInt8)) : a ≠ .commitReturned call outputs :=
          fun heq => hcommit ⟨call, outputs, heq⟩
        refine hmoves.extends.mem (h e ex hex (shown_before ?_ (hmoves.results hno) hshown))
        intro call outputs hact'
        rw [hact] at hact'
        cases hact'
        exact hno call outputs rfl
    · -- nothing was returned for an id not yet issued
      have hbefore : s.Shown ⟨s.runtime.freshId⟩ (s.runtime.newExecution d) :=
        shown_before (fun _ _ => by rw [hnone]; simp) ⟨rfl, rfl⟩ hshown
      rcases hbefore with hout | hm | ⟨m, hmem, hnull⟩
      · exact absurd rfl hout
      · cases hm
      · obtain ⟨ex, hex⟩ := hs.returned _ m hmem hnull
        rw [hs.runtime.fresh (by omega)] at hex
        cases hex

/-- **A run is fenced exactly if it commits in time**, as long as fewer
than 2^64 ids have been issued. -/
theorem fenced_iff (evs : List Event)
    (hid : (Run.run step init evs).runtime.nextId ≤ 2 ^ 64) :
    Run.Throughout step Fenced init evs ↔ Run.Along step CommitsInTime init evs :=
  Run.throughout_iff_along sound_step fenced_step sound_init fenced_init (along_ids hid)

theorem fenced_broadcast : Run.Throughout step Fenced init soloBroadcast :=
  (fenced_iff _ (by decide +kernel)).2 (by decide +kernel)

/-- A broadcast aborted between its begin and its commit. -/
def abortedBroadcast : List Event :=
  dispatching (soloDescriptor .broadcast .none) ++
    [.begin 0 still ⟨1⟩ [[5]], .call (.abortCollective ⟨1⟩), .engine 0 still, .commit 0 still]

/-- **An aborted execution has results**: the commit stores the outputs and
a success measurement before the accounting throws. -/
theorem not_fenced_aborted : ¬(Run.run step init abortedBroadcast).Fenced := by
  intro h
  have hsome : ((Run.run step init abortedBroadcast).runtime.executions[
      (⟨1⟩ : ExecutionId)]?.any fun ex =>
        ex.outputs = [[5]] ∧ .succeeded ∉ ex.lifecycle.entered) = true := by decide +kernel
  obtain ⟨ex, hex, hp⟩ := (Option.any_eq_true _ _).1 hsome
  obtain ⟨hout, hnot⟩ := of_decide_eq_true hp
  exact hnot (h ⟨1⟩ ex hex (.inl (by rw [hout]; simp)))

end System

end CollectiveFabric
