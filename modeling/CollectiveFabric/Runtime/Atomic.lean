import CollectiveFabric.Runtime.Invariant

/-!
# Calls that throw

A call on an execution first takes its transition and then does what can
still throw: asks the planner, computes a byte count, asks the accounting.
What it throws before the transition leaves everything as it was; what it
throws after it leaves the transition made.
-/

namespace CollectiveFabric

open Common

namespace Runtime

variable {rt : Runtime} {e : ExecutionId} {α : Type}

/-- The execution's state, plan, reservation, dispatch and failure record
and the accounting are as before. -/
def Unchanged (rt rt' : Runtime) (e : ExecutionId) : Prop :=
  rt'.accounting = rt.accounting ∧
    ∀ ex, rt.executions[e]? = some ex →
      ∃ ex', rt'.executions[e]? = some ex' ∧ ex'.lifecycle.state = ex.lifecycle.state ∧
        ex'.plan = ex.plan ∧ ex'.reservation = ex.reservation ∧ ex'.dispatch = ex.dispatch ∧
        ex'.failure = ex.failure

/-- A call that throws leaves the execution and the accounting unchanged. -/
def Atomic (rt : Runtime) (e : ExecutionId) (r : Result α) : Prop :=
  ∀ err, r.1 = .error err → rt.Unchanged r.2 e

/-- The execution is there, the table allows its transition to `dst`, and
then it meets `late`. -/
def Late (rt : Runtime) (e : ExecutionId) (dst : CollectiveState) (late : Execution → Prop) :
    Prop :=
  ∃ ex, rt.executions[e]? = some ex ∧ ex.lifecycle.state.allowed dst = true ∧ late ex

theorem Unchanged.refl (rt : Runtime) (e : ExecutionId) : rt.Unchanged rt e :=
  ⟨rfl, fun ex hex => ⟨ex, hex, rfl, rfl, rfl, rfl, rfl⟩⟩

/-- No transition leads back to where it started. -/
theorem ne_of_allowed {a b : CollectiveState} (h : a.allowed b = true) : a ≠ b := by
  rintro rfl
  revert h
  cases a <;> decide

/-- **The rule of late throws.** A call that takes the transition to `dst`
and throws afterwards exactly where its execution meets `late` is atomic
exactly where it does not come to that. -/
theorem atomic_iff_not_late {dst : CollectiveState} {late : Execution → Prop} {r : Result α}
    (hlate : ∀ ex, rt.executions[e]? = some ex → ex.lifecycle.state.allowed dst = true → late ex →
      ∃ err ex', r.1 = .error err ∧ r.2.executions[e]? = some ex' ∧ ex'.lifecycle.state = dst)
    (helse : ¬rt.Late e dst late → ∀ err, r.1 = .error err → r.2 = rt) :
    rt.Atomic e r ↔ ¬rt.Late e dst late := by
  constructor
  · rintro hatomic ⟨ex, hex, hallowed, h⟩
    obtain ⟨err, ex', herr, hex', hstate⟩ := hlate ex hex hallowed h
    obtain ⟨-, hkept⟩ := hatomic err herr
    obtain ⟨ex'', hex'', hsame, -⟩ := hkept ex hex
    obtain rfl := Option.some.inj (hex'.symm.trans hex'')
    exact ne_of_allowed hallowed (hsame.symm.trans hstate)
  · intro hnot err herr
    rw [helse hnot err herr]
    exact .refl rt e

/-- The rule for what is done on a transition. -/
theorem atomic_onTransition {dst : CollectiveState} {late : Execution → Prop}
    {k : Execution → Result α}
    (hlate : ∀ ex lc, ex.lifecycle.transitionTo dst = .ok lc → late ex →
      ∃ err ex', (k { ex with lifecycle := lc }).1 = .error err ∧
        (k { ex with lifecycle := lc }).2.executions[e]? = some ex' ∧ ex'.lifecycle = lc)
    (helse : ∀ ex lc, ex.lifecycle.transitionTo dst = .ok lc → ¬late ex →
      ∃ a, (k { ex with lifecycle := lc }).1 = .ok a) :
    rt.Atomic e (rt.onExecution e fun ex => rt.onTransition ex dst k) ↔ ¬rt.Late e dst late := by
  refine atomic_iff_not_late ?_ ?_
  · intro ex hex hallowed h
    cases ht : ex.lifecycle.transitionTo dst with
    | error err =>
      rw [CollectiveStateMachine.transitionTo_error ht] at hallowed
      cases hallowed
    | ok lc =>
      obtain ⟨err, ex', herr, hex', hlc⟩ := hlate ex lc ht h
      -- the transition was written before the error came
      refine ⟨err, ex', ?_⟩
      simp only [onExecution, hex, onTransition, ht]
      exact ⟨herr, hex', by rw [hlc]; exact (CollectiveStateMachine.transitionTo_ok ht).2.1⟩
  · intro hnot err herr
    cases hex : rt.executions[e]? with
    | none => simp only [onExecution, hex]
    | some ex =>
      simp only [onExecution, hex, onTransition] at herr ⊢
      cases ht : ex.lifecycle.transitionTo dst with
      | error err' => rfl
      | ok lc =>
        simp only [ht] at herr
        have hallowed := (CollectiveStateMachine.transitionTo_ok ht).1
        obtain ⟨a, ha⟩ := helse ex lc ht fun h => hnot ⟨ex, hex, hallowed, h⟩
        rw [ha] at herr
        cases herr

/-! ## The calls -/

/-- Reading an execution where it was written. -/
theorem getElem?_setExecution (rt : Runtime) (e : ExecutionId) (ex : Execution) :
    (rt.setExecution e ex).executions[e]? = some ex :=
  OrdMap.getElem?_insert_same ..

theorem atomic_planCollective (env : Ambient) (inp : PlannerInput) :
    rt.Atomic e (rt.planCollective env e inp) ↔ ¬rt.Late e .planned fun ex =>
      ∃ err, Planner.plan env { inp with descriptor := some ex.descriptor } = .error err := by
  refine atomic_onTransition ?_ ?_
  · rintro ex lc - ⟨err, hplan⟩
    simp only [hplan]
    exact ⟨err, _, rfl, getElem?_setExecution .., rfl⟩
  · intro ex lc _ hnot
    cases hplan : Planner.plan env { inp with descriptor := some ex.descriptor } with
    | error err => exact absurd ⟨err, hplan⟩ hnot
    | ok plan =>
      exact ⟨plan, rfl⟩

theorem atomic_reserveCollective :
    rt.Atomic e (rt.reserveCollective e) ↔ ¬rt.Late e .reserved fun ex =>
      (∃ err, ex.descriptor.elementByteCount = .error err) ∨
        (⟨rt.freshId⟩ : ReservationId) ∈ rt.accounting.reservations := by
  refine atomic_onTransition ?_ ?_
  · intro ex lc _ hlate
    cases hbytes : ex.descriptor.elementByteCount with
    | error err =>
      exact ⟨err, _, rfl, getElem?_setExecution .., rfl⟩
    | ok bytes =>
      have hmem : (⟨rt.freshId⟩ : ReservationId) ∈ rt.accounting.reservations := by
        rcases hlate with ⟨err, herr⟩ | hmem
        · rw [hbytes] at herr
          cases herr
        · exact hmem
      simp only [Accounting.reserve, if_pos hmem]
      exact ⟨_, _, rfl, getElem?_setExecution .., rfl⟩
  · intro ex lc _ hnot
    cases hbytes : ex.descriptor.elementByteCount with
    | error err => exact absurd (.inl ⟨err, hbytes⟩) hnot
    | ok bytes =>
      simp only [Accounting.reserve, if_neg fun hmem => hnot (.inr hmem)]
      exact ⟨_, rfl⟩

theorem atomic_abortCollective :
    rt.Atomic e (rt.abortCollective e) ↔ ¬rt.Late e .aborted fun _ =>
      rt.accounting.activeCollectives = 0 := by
  refine atomic_onTransition ?_ ?_
  · intro ex lc _ hzero
    simp only [Accounting.collectiveAborted, if_pos hzero]
    exact ⟨_, _, rfl, getElem?_setExecution .., rfl⟩
  · intro ex lc _ hzero
    simp only [Accounting.collectiveAborted, if_neg hzero]
    exact ⟨(), trivial⟩

theorem atomic_failCollective (f : CollectiveFailure) :
    rt.Atomic e (rt.failCollective e f) ↔ ¬rt.Late e .failed fun ex =>
      ∃ err, ex.descriptor.elementByteCount = .error err := by
  refine atomic_iff_not_late ?_ ?_
  · rintro ex hex hallowed ⟨err, hbytes⟩
    have hne : ex.lifecycle.state ≠ .failed := ne_of_allowed hallowed
    cases ht : ex.lifecycle.transitionTo .failed with
    | error err' =>
      rw [CollectiveStateMachine.transitionTo_error ht] at hallowed
      cases hallowed
    | ok lc =>
      simp only [failCollective, onExecution, hex, if_neg hne, ht, hbytes]
      exact ⟨err, _, rfl, getElem?_setExecution .., (CollectiveStateMachine.transitionTo_ok ht).2.1⟩
  · intro hnot err herr
    cases hex : rt.executions[e]? with
    | none => simp only [failCollective, onExecution, hex]
    | some ex =>
      simp only [failCollective, onExecution, hex] at herr ⊢
      -- a failed execution is left alone before any transition is asked for
      by_cases hfailed : ex.lifecycle.state = .failed
      · simp only [if_pos hfailed]
      · simp only [if_neg hfailed] at herr ⊢
        cases ht : ex.lifecycle.transitionTo .failed with
        | error err' => rfl
        | ok lc =>
          have hallowed := (CollectiveStateMachine.transitionTo_ok ht).1
          cases hbytes : ex.descriptor.elementByteCount with
          | error err' => exact absurd ⟨ex, hex, hallowed, err', hbytes⟩ hnot
          | ok bytes =>
            simp only [ht, hbytes] at herr
            cases herr

/-- What only takes a transition is atomic. -/
theorem atomic_of_total {dst : CollectiveState} {k : Execution → Result α}
    (h : ∀ ex, ∃ a, (k ex).1 = .ok a) :
    rt.Atomic e (rt.onExecution e fun ex => rt.onTransition ex dst k) := by
  have hnever : ¬rt.Late e dst fun _ => False := by
    rintro ⟨_, _, _, hlate⟩
    exact hlate
  refine (atomic_onTransition ?_ ?_).2 hnever
  · exact fun _ _ _ hlate => hlate.elim
  · exact fun ex lc _ _ => h { ex with lifecycle := lc }

end Runtime

namespace Operation

/-- The call, if it is one of the seven that take an execution through its
lifecycle, is atomic. -/
def Atomic (rt : Runtime) : Operation → Prop
  | planCollective env e inp => rt.Atomic e (rt.planCollective env e inp)
  | reserveCollective e => rt.Atomic e (rt.reserveCollective e)
  | dispatchCollective e => rt.Atomic e (rt.dispatchCollective e)
  | failCollective e f => rt.Atomic e (rt.failCollective e f)
  | abortCollective e => rt.Atomic e (rt.abortCollective e)
  | cancelCollective e => rt.Atomic e (rt.cancelCollective e)
  | markStaleCollective e => rt.Atomic e (rt.markStaleCollective e)
  | _ => True

/-- The call takes its transition and throws afterwards: the planner
refuses, the byte count overflows, the reservation id is taken or no
collective is active. -/
def ThrowsLate (rt : Runtime) : Operation → Prop
  | planCollective env e inp => rt.Late e .planned fun ex =>
    ∃ err, Planner.plan env { inp with descriptor := some ex.descriptor } = .error err
  | reserveCollective e => rt.Late e .reserved fun ex =>
    (∃ err, ex.descriptor.elementByteCount = .error err) ∨
      (⟨rt.freshId⟩ : ReservationId) ∈ rt.accounting.reservations
  | failCollective e _ => rt.Late e .failed fun ex =>
    ∃ err, ex.descriptor.elementByteCount = .error err
  | abortCollective e => rt.Late e .aborted fun _ => rt.accounting.activeCollectives = 0
  | _ => False

/-- **A call is atomic** exactly if it does not throw late. -/
theorem atomic_iff (rt : Runtime) (op : Operation) : op.Atomic rt ↔ ¬op.ThrowsLate rt := by
  cases op with
  | planCollective env e inp => exact Runtime.atomic_planCollective env inp
  | reserveCollective e => exact Runtime.atomic_reserveCollective
  | failCollective e f => exact Runtime.atomic_failCollective f
  | abortCollective e => exact Runtime.atomic_abortCollective
  | dispatchCollective | cancelCollective | markStaleCollective =>
    exact iff_of_true (Runtime.atomic_of_total fun ex => ⟨_, rfl⟩) id
  | registerBackend | adoptTopology | registerGroup | createCollective | completeRank
  | ingestMeasurement | updateHealth | advanceEpoch | setLiveBoot | activeRankContribution =>
    exact iff_of_true trivial id

end Operation

namespace System

/-! ## Main results -/

/-- The event, if it is a call, is an atomic one. -/
def AtomicCall (s : System) : Event → Prop
  | .call op => op.Atomic s.runtime
  | _ => True

/-- The event is a call that throws late. -/
def LateCall (s : System) : Event → Prop
  | .call op => op.ThrowsLate s.runtime
  | _ => False

/-- **Lifecycle calls are atomic on error** in a run exactly if none of its
calls throws late, and in the state a run reaches exactly those calls are
that do not. -/
theorem atomicCalls_iff (evs : List Event) :
    (Run.Along step AtomicCall init evs ↔ Run.Along step (fun s ev => ¬s.LateCall ev) init evs) ∧
      ∀ op : Operation, op.Atomic (Run.run step init evs).runtime ↔
        ¬op.ThrowsLate (Run.run step init evs).runtime := by
  refine ⟨Run.along_congr fun s ev => ?_, fun op => op.atomic_iff _⟩
  cases ev with
  | call op => exact op.atomic_iff s.runtime
  | begin | engine | commit => exact iff_of_true trivial id

/-- The calls that create a broadcast on a fresh runtime. -/
def createdBroadcast : List Event :=
  (reserving (soloDescriptor .broadcast .none)).take 2

/-- **Aborting what was only created throws, and leaves it `ABORTED`.** -/
theorem not_atomic_abort :
    ¬(Operation.abortCollective ⟨1⟩).Atomic (Run.run step init createdBroadcast).runtime := by
  intro h
  have hbefore : ((Run.run step init createdBroadcast).runtime.executions[
      (⟨1⟩ : ExecutionId)]?.any fun ex => ex.lifecycle.state = .created) = true := by
    decide +kernel
  have hafter : (((Run.run step init createdBroadcast).runtime.abortCollective ⟨1⟩).2.executions[
      (⟨1⟩ : ExecutionId)]?.any fun ex => ex.lifecycle.state = .aborted) = true := by
    decide +kernel
  have hthrows : ((Run.run step init createdBroadcast).runtime.abortCollective ⟨1⟩).1.toOption =
      none := by decide +kernel
  obtain ⟨ex, hex, hcreated⟩ := (Option.any_eq_true _ _).1 hbefore
  obtain ⟨ex', hex', haborted⟩ := (Option.any_eq_true _ _).1 hafter
  cases herr : ((Run.run step init createdBroadcast).runtime.abortCollective ⟨1⟩).1 with
  | ok u =>
    rw [herr] at hthrows
    cases hthrows
  | error err =>
    obtain ⟨-, hkept⟩ := h err herr
    obtain ⟨ex'', hex'', hsame, -⟩ := hkept ex hex
    obtain rfl := Option.some.inj (hex'.symm.trans hex'')
    rw [of_decide_eq_true hcreated, of_decide_eq_true haborted] at hsame
    cases hsame

end System

end CollectiveFabric
