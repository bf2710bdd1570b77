import CollectiveFabric.Runtime.Invariant

/-!
# Who writes the tables

The health record is written by `update_health` alone, the measurements
by `ingest_measurement` and by the commit of a returned call.
-/

namespace CollectiveFabric

open Common

namespace Runtime

variable {rt : Runtime} {e : ExecutionId} {α β : Type}

/-- What a section leaves of something that `require` leaves. -/
theorem onExecution_snd (f : Runtime → β) {k : Execution → Result α}
    (h : ∀ ex, f (k ex).2 = f rt) : f (rt.onExecution e k).2 = f rt := by
  unfold onExecution
  split
  · rfl
  · exact h _

theorem onTransition_snd (f : Runtime → β) {ex : Execution} {dst : CollectiveState}
    {k : Execution → Result α} (h : ∀ ex, f (k ex).2 = f rt) :
    f (rt.onTransition ex dst k).2 = f rt := by
  unfold onTransition
  split
  · rfl
  · exact h _

/-- Writing an execution or the accounting touches neither table. -/
def tables (rt : Runtime) : OrdMap MeasurementId CollectiveMeasurement × HealthRecord :=
  (rt.measurements, rt.health)

/-- **Every other call leaves the measurements and the health record.** -/
theorem tables_apply {op : Operation} (hingest : ∀ m, op ≠ .ingestMeasurement m)
    (hhealth : ∀ h, op ≠ .updateHealth h) : tables (op.apply rt) = tables rt := by
  cases op with
  | registerBackend b => cases b <;> rfl
  | registerGroup g =>
    simp only [Operation.apply, registerGroup]
    split <;> rfl
  | createCollective d =>
    simp only [Operation.apply, createCollective]
    split_ifs
    · rfl
    · split <;> rfl
    · rfl
  | planCollective env e inp =>
    refine onExecution_snd tables fun ex => onTransition_snd tables fun ex => ?_
    split <;> rfl
  | reserveCollective e =>
    refine onExecution_snd tables fun ex => onTransition_snd tables fun ex => ?_
    split
    · rfl
    · simp only
      split <;> rfl
  | dispatchCollective e =>
    exact onExecution_snd tables fun ex => onTransition_snd tables fun ex => rfl
  | completeRank e r =>
    refine onExecution_snd tables fun ex => ?_
    split_ifs
    · rfl
    · simp only
      split <;> rfl
  | failCollective e f =>
    refine onExecution_snd tables fun ex => ?_
    split_ifs
    · rfl
    · split
      · rfl
      · simp only
        split <;> rfl
  | abortCollective e =>
    refine onExecution_snd tables fun ex => onTransition_snd tables fun ex => ?_
    split <;> rfl
  | cancelCollective e =>
    exact onExecution_snd tables fun ex => onTransition_snd tables fun ex => rfl
  | markStaleCollective e =>
    exact onExecution_snd tables fun ex => onTransition_snd tables fun ex => rfl
  | ingestMeasurement m => exact absurd rfl (hingest m)
  | updateHealth h => exact absurd rfl (hhealth h)
  | adoptTopology | advanceEpoch | setLiveBoot | activeRankContribution => rfl

theorem tables_executeBegin (env : Ambient) (inputs : List (List UInt8)) :
    tables (rt.executeBegin env e inputs).2 = tables rt := by
  rcases executeBegin_cases rt env e inputs with
    ⟨-, h⟩ | ⟨ex, -, ⟨f, h⟩ | ⟨lc, bytes, -, -, h⟩⟩
  · rw [h]
  · rw [h]
  · rw [h]
    rfl

theorem tables_commitCaught (f : CollectiveFailure) :
    tables (rt.commitCaught e f).2 = tables rt := by
  refine onExecution_snd tables fun ex => ?_
  simp only
  split <;> rfl

/-- A commit of a returned call leaves the health record. -/
theorem health_commitReturned (env : Ambient) (call : Call) (outputs : List (List UInt8)) :
    (rt.commitReturned env call outputs).2.health = rt.health := by
  refine onExecution_snd (·.health) fun ex => ?_
  simp only
  split
  · rfl
  · split <;> rfl

/-- **A commit of a returned call writes one record at most**, under the
next id; what it returns is that id. -/
theorem measurements_commitReturned (rt : Runtime) (env : Ambient) (call : Call)
    (outputs : List (List UInt8)) :
    ((rt.commitReturned env call outputs).2.measurements = rt.measurements ∧
        ∃ err, (rt.commitReturned env call outputs).1 = .error err) ∨
      ∃ m : CollectiveMeasurement, m.id = ⟨rt.freshId⟩ ∧
        (rt.commitReturned env call outputs).2.measurements = rt.measurements.insert m.id m ∧
        (rt.commitReturned env call outputs).2.nextId = rt.nextId + 1 ∧
        ((rt.commitReturned env call outputs).1 = .ok m.id ∨
          ∃ err, (rt.commitReturned env call outputs).1 = .error err) := by
  unfold commitReturned onExecution
  split
  · exact .inl ⟨rfl, _, rfl⟩
  · next ex hex =>
    simp only
    split
    · exact .inl ⟨rfl, _, rfl⟩
    · next bytes hbytes =>
      refine .inr ⟨rt.commitMeasurement env call (rt.commitExecution call outputs ex) bytes,
        rfl, ?_⟩
      split
      · exact ⟨rfl, rfl, .inr ⟨_, rfl⟩⟩
      · exact ⟨rfl, rfl, .inl rfl⟩

end Runtime

namespace System

variable {s : System}

theorem tables_begin (c : ℕ) (env : Ambient) (e : ExecutionId) (inputs : List (List UInt8)) :
    (s.begin c env e inputs).runtime.tables = s.runtime.tables := by
  unfold begin
  split
  · rfl
  · have h := @Runtime.tables_executeBegin s.runtime e env inputs
    split <;> next heq => rw [heq] at h; exact h

theorem runtime_engine (c : ℕ) (env : Ambient) : (s.engine c env).runtime = s.runtime := by
  unfold engine
  split <;> rfl

/-- What a call has returned, if it returned. -/
def addReturned (s : System) (e : ExecutionId) (result : Except Error MeasurementId) :
    List (ExecutionId × MeasurementId) :=
  match result with
  | .ok m => (e, m) :: s.returned
  | .error _ => s.returned

/-- **How a commit ends**: there is no call to commit, or the call was
caught, or the engine returned to it. -/
theorem commit_cases (s : System) (c : ℕ) (env : Ambient) :
    (s.commit c env = s ∧ ∀ call, s.calls[c]? = some call → call.stage = .begun) ∨
      (∃ call f, s.calls[c]? = some call ∧ call.stage = .caught f ∧
        (s.commit c env).runtime = (s.runtime.commitCaught call.execution f).2 ∧
        (s.commit c env).returned =
          s.addReturned call.execution (s.runtime.commitCaught call.execution f).1) ∨
      ∃ call outputs, s.calls[c]? = some call ∧ call.stage = .returned outputs ∧
        (s.commit c env).runtime = (s.runtime.commitReturned env call outputs).2 ∧
        (s.commit c env).returned =
          s.addReturned call.execution (s.runtime.commitReturned env call outputs).1 := by
  unfold commit
  cases hcall : s.calls[c]? with
  | none => exact .inl ⟨rfl, fun call h => by cases h⟩
  | some call =>
    simp only [Runtime.executeCommit]
    cases hstage : call.stage with
    | begun =>
      refine .inl ⟨rfl, fun call' h => ?_⟩
      rwa [← Option.some.inj h]
    | caught f => exact .inr (.inl ⟨call, f, rfl, hstage, rfl, rfl⟩)
    | returned outputs => exact .inr (.inr ⟨call, outputs, rfl, hstage, rfl, rfl⟩)

end System

end CollectiveFabric
