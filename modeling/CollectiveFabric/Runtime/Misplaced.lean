import CollectiveFabric.Runtime.Tables

/-!
# Misplaced calls of `execute_collective`

A call on an execution that is not `DISPATCHED` is refused by the
lifecycle, or by its inputs' sizes before that, and the refusal is caught
like a failure of the engine: the commit step tries `FAILED`, writes the
failure record and counts the failed bytes. So a misplaced call is inert
only where all three have nothing left to do.
-/

namespace CollectiveFabric

open Common

namespace Runtime

variable {rt : Runtime} {e : ExecutionId} {ex : Execution} {f : CollectiveFailure}

/-- What a misplaced call is to leave: the execution's state, outputs,
completions, measurement and failure record, the measurements and the
accounting. -/
structure Inert (rt rt' : Runtime) (e : ExecutionId) : Prop where
  measurements : rt'.measurements = rt.measurements
  accounting : rt'.accounting = rt.accounting
  execution : ∀ ex, rt.executions[e]? = some ex →
    ∃ ex', rt'.executions[e]? = some ex' ∧ ex'.lifecycle.state = ex.lifecycle.state ∧
      ex'.outputs = ex.outputs ∧ ex'.rankCompletions = ex.rankCompletions ∧
      ex'.measurement = ex.measurement ∧ ex'.failure = ex.failure

theorem Inert.refl (rt : Runtime) (e : ExecutionId) : rt.Inert rt e :=
  ⟨rfl, rfl, fun ex hex => ⟨ex, hex, rfl, rfl, rfl, rfl, rfl⟩⟩

/-- The failure changes nothing any more: the table forbids `FAILED`, the
record is this very one, and there are no bytes to count. -/
def Spent (ex : Execution) (f : CollectiveFailure) : Prop :=
  ex.lifecycle.state.allowed .failed = false ∧ ex.failure = some f ∧
    ∀ bytes, ex.descriptor.elementByteCount = .ok bytes → bytes = 0

/-- **What the commit of a caught call leaves.** -/
theorem commitCaught_eq (hex : rt.executions[e]? = some ex) (f : CollectiveFailure) :
    ∃ ex', ex' = { ex with
        lifecycle := ex.lifecycle.tryTransitionTo .failed
        failure := some f } ∧
      (rt.commitCaught e f).2.executions[e]? = some ex' ∧
      (rt.commitCaught e f).2.measurements = rt.measurements ∧
      ((∃ err, ex.descriptor.elementByteCount = .error err ∧
          (rt.commitCaught e f).2.accounting = rt.accounting) ∨
        ∃ bytes, ex.descriptor.elementByteCount = .ok bytes ∧
          (rt.commitCaught e f).2.accounting = rt.accounting.addFailedBytes bytes) := by
  unfold commitCaught onExecution
  simp only [hex]
  refine ⟨_, rfl, ?_⟩
  cases ex.descriptor.elementByteCount with
  | error err => exact ⟨OrdMap.getElem?_insert_same .., rfl, .inl ⟨err, rfl, rfl⟩⟩
  | ok bytes => exact ⟨OrdMap.getElem?_insert_same .., rfl, .inr ⟨bytes, rfl, rfl⟩⟩

theorem addFailedBytes_eq {acc : Accounting} {bytes : UInt64} :
    acc.addFailedBytes bytes = acc ↔ bytes = 0 := by
  constructor
  · intro h
    have hbytes : acc.failedBytes + bytes = acc.failedBytes := congrArg (·.failedBytes) h
    simpa using hbytes
  · rintro rfl
    simp [Accounting.addFailedBytes]

/-- **The commit of a caught call is inert** exactly if its failure is
spent. -/
theorem commitCaught_inert_iff (hex : rt.executions[e]? = some ex) :
    rt.Inert (rt.commitCaught e f).2 e ↔ Spent ex f := by
  obtain ⟨ex', hnew, hex', hmeasurements, haccounting⟩ := commitCaught_eq hex f
  constructor
  · intro h
    obtain ⟨ex'', hex'', hstate, -, -, -, hfailure⟩ := h.execution ex hex
    obtain rfl := Option.some.inj (hex'.symm.trans hex'')
    rw [hnew] at hstate hfailure
    refine ⟨?_, hfailure.symm, fun bytes hbytes => ?_⟩
    · rcases CollectiveStateMachine.tryTransitionTo_cases ex.lifecycle .failed with
        ⟨hallowed, hto, -⟩ | ⟨hforbidden, -⟩
      · -- nothing goes to `FAILED` from `FAILED`
        have hfailed : ex.lifecycle.state = .failed := hstate.symm.trans hto
        rw [hfailed]
        rfl
      · exact hforbidden
    · rcases haccounting with ⟨err, herr, -⟩ | ⟨bytes', hok, hcounted⟩
      · rw [hbytes] at herr
        cases herr
      · obtain rfl := Except.ok.inj (hbytes.symm.trans hok)
        exact addFailedBytes_eq.1 (hcounted.symm.trans h.accounting)
  · rintro ⟨hforbidden, hfailure, hzero⟩
    refine ⟨hmeasurements, ?_, fun ex₀ hex₀ => ⟨ex', hex', ?_⟩⟩
    · rcases haccounting with ⟨-, -, hsame⟩ | ⟨bytes, hbytes, hcounted⟩
      · exact hsame
      · rw [hcounted]
        exact addFailedBytes_eq.2 (hzero bytes hbytes)
    · obtain rfl := Option.some.inj (hex.symm.trans hex₀)
      rw [hnew]
      refine ⟨?_, rfl, rfl, rfl, hfailure.symm⟩
      rcases CollectiveStateMachine.tryTransitionTo_cases ex.lifecycle .failed with
        ⟨hallowed, -⟩ | ⟨-, hsame⟩
      · rw [hforbidden] at hallowed
        cases hallowed
      · rw [hsame]

end Runtime

namespace System

variable {s : System} {c : ℕ} {e : ExecutionId} {ex : Execution}

/-! ## The call's steps -/

/-- **A misplaced call is caught as it begins**, with nothing changed. -/
theorem begin_misplaced (env : Ambient) (inputs : List (List UInt8)) (hfree : c ∉ s.calls)
    (hex : s.runtime.executions[e]? = some ex) (hstate : ex.lifecycle.state ≠ .dispatched) :
    (s.begin c env e inputs).runtime = s.runtime ∧
      ∃ call f, (s.begin c env e inputs).calls[c]? = some call ∧ call.execution = e ∧
        call.stage = .caught f := by
  rcases Runtime.executeBegin_cases s.runtime env e inputs with
    ⟨hnone, -⟩ | ⟨ex₀, hex₀, ⟨f, heq⟩ | ⟨lc, bytes, ht, -, -⟩⟩
  · rw [hex] at hnone
    cases hnone
  · simp only [System.begin, if_neg hfree, heq]
    exact ⟨trivial, _, f, OrdMap.getElem?_insert_same .., rfl, rfl⟩
  · -- only `DISPATCHED` goes to `RUNNING`
    obtain rfl := Option.some.inj (hex.symm.trans hex₀)
    have hallowed := (CollectiveStateMachine.transitionTo_ok ht).1
    revert hallowed hstate
    cases ex.lifecycle.state <;> simp [CollectiveState.allowed]

/-- A caught call waits, whatever other callers do. -/
theorem caught_step {call : Call} {f : CollectiveFailure} {ev : Event}
    (hcall : s.calls[c]? = some call) (hstage : call.stage = .caught f)
    (hother : ∀ env, ev ≠ .commit c env) : (s.step ev).calls[c]? = some call := by
  have hmem : c ∈ s.calls := Std.TreeMap.mem_iff_isSome_getElem?.2 (by rw [hcall]; rfl)
  cases ev with
  | call op => exact hcall
  | begin c' env e inputs =>
    change (s.begin c' env e inputs).calls[c]? = _
    unfold System.begin
    split
    · exact hcall
    · next hfree =>
      split
      · exact hcall
      · refine (OrdMap.getElem?_insert_of_ne _ ?_ _).trans hcall
        rintro rfl
        exact hfree hmem
  | engine c' env =>
    change (s.engine c' env).calls[c]? = _
    unfold System.engine
    split
    · exact hcall
    · next call' hengine =>
      refine (OrdMap.getElem?_insert_of_ne _ ?_ _).trans hcall
      rintro rfl
      rw [hcall, Option.bind_some, Runtime.executeEngine, hstage] at hengine
      cases hengine
  | commit c' env =>
    change (s.commit c' env).calls[c]? = _
    have hne : c' ≠ c := by
      rintro rfl
      exact hother env rfl
    unfold System.commit
    split
    · exact hcall
    · split
      · exact hcall
      · rw [Std.TreeMap.getElem?_erase, if_neg fun h =>
          hne (Std.LawfulEqOrd.compare_eq_iff_eq.1 h), hcall]

theorem caught_run {call : Call} {f : CollectiveFailure} {mid : List Event}
    (hcall : s.calls[c]? = some call) (hstage : call.stage = .caught f)
    (hmid : ∀ env, .commit c env ∉ mid) : (Run.run step s mid).calls[c]? = some call := by
  induction mid generalizing s with
  | nil => exact hcall
  | cons ev mid ih =>
    refine ih (caught_step hcall hstage fun env heq => ?_) fun env hmem => ?_
    · exact hmid env (by rw [heq]; exact List.mem_cons_self ..)
    · exact hmid env (List.mem_cons_of_mem ev hmem)

/-- No step takes an execution away. -/
theorem mem_executions_step (h : e ∈ s.runtime.executions) (ev : Event) :
    e ∈ (s.step ev).runtime.executions := by
  have heffect := s.effect_step ev
  generalize s.act ev = on at heffect
  cases heffect with
  | quiet _ hquiet => rwa [hquiet.executions]
  | creates _ hexecutions _ _ _ =>
    rw [hexecutions]
    exact Std.TreeMap.mem_insert.2 (.inr h)
  | @moves e' _ _ _ _ hchange _ _ _ =>
    rw [Std.TreeMap.mem_iff_isSome_getElem?] at h ⊢
    by_cases he : e = e'
    · rw [he, hchange.after]
      rfl
    · rwa [hchange.others e he]

theorem mem_executions_run (h : e ∈ s.runtime.executions) (evs : List Event) :
    e ∈ (Run.run step s evs).runtime.executions := by
  induction evs generalizing s with
  | nil => exact h
  | cons ev evs ih => exact ih (mem_executions_step h ev)

/-! ## Main results -/

/-- The failure the call in flight has caught is spent. -/
def CaughtSpent (s : System) (c : ℕ) : Prop :=
  ∃ call f ex, s.calls[c]? = some call ∧ call.stage = .caught f ∧
    s.runtime.executions[call.execution]? = some ex ∧ Runtime.Spent ex f

/-- A call begun on `e` after the events `before` and committed after the
events `mid` of other callers is inert in both of its steps. -/
def CallInert (before mid : List Event) (c : ℕ) (env env' : Ambient) (e : ExecutionId)
    (inputs : List (List UInt8)) : Prop :=
  let s := Run.run step init before
  let s' := Run.run step (s.step (.begin c env e inputs)) mid
  s.runtime.Inert (s.step (.begin c env e inputs)).runtime e ∧
    s'.runtime.Inert (s'.step (.commit c env')).runtime e

/-- **A misplaced call is inert**, in its begin and in its commit after
whatever other callers did meanwhile, exactly if the failure it caught is
spent when it commits. -/
theorem misplaced_iff (before mid : List Event) (c : ℕ) (env env' : Ambient) (e : ExecutionId)
    (inputs : List (List UInt8)) (ex : Execution)
    (hfree : c ∉ (Run.run step init before).calls)
    (hex : (Run.run step init before).runtime.executions[e]? = some ex)
    (hstate : ex.lifecycle.state ≠ .dispatched) (hmid : ∀ env, .commit c env ∉ mid) :
    CallInert before mid c env env' e inputs ↔
      CaughtSpent (Run.run step init (before ++ .begin c env e inputs :: mid)) c := by
  have hrun : Run.run step init (before ++ .begin c env e inputs :: mid) =
      Run.run step ((Run.run step init before).begin c env e inputs) mid := Run.run_append ..
  rw [hrun]
  unfold CallInert
  simp only [step]
  generalize Run.run step init before = s at *
  obtain ⟨hsame, call, f, hcall, rfl, hstage⟩ :=
    begin_misplaced env inputs hfree hex hstate
  have hmem : call.execution ∈ (s.begin c env call.execution inputs).runtime.executions := by
    rw [hsame]
    exact Std.TreeMap.mem_iff_isSome_getElem?.2 (by rw [hex]; rfl)
  have hwait := caught_run hcall hstage hmid
  have hstays := mem_executions_run hmem mid
  generalize Run.run step (s.begin c env call.execution inputs) mid = s' at *
  obtain ⟨ex', hex'⟩ := Option.isSome_iff_exists.1 (Std.TreeMap.mem_iff_isSome_getElem?.1 hstays)
  have hcommit : (s'.commit c env').runtime =
      (s'.runtime.commitCaught call.execution f).2 := by
    simp only [commit, hwait, Runtime.executeCommit, hstage]
  rw [hsame, hcommit, Runtime.commitCaught_inert_iff hex']
  constructor
  · rintro ⟨-, hspent⟩
    exact ⟨call, f, ex', hwait, hstage, hex', hspent⟩
  · rintro ⟨call', f', ex'', hcall', hstage', hex'', hspent⟩
    obtain rfl := Option.some.inj (hwait.symm.trans hcall')
    obtain rfl := Option.some.inj (hex'.symm.trans hex'')
    rw [hstage] at hstage'
    cases hstage'
    exact ⟨.refl _ _, hspent⟩

/-- **A second call after the success** is not inert: the execution has no
failure record yet. -/
theorem misplaced_broadcast : ¬CallInert soloBroadcast [] 1 still still ⟨1⟩ [[5]] := by
  have hsucceeded : ((Run.run step init soloBroadcast).runtime.executions[
      (⟨1⟩ : ExecutionId)]?.any fun ex => ex.lifecycle.state = .succeeded) = true := by
    decide +kernel
  have hunfailed : ((Run.run step init (soloBroadcast ++ [.begin 1 still ⟨1⟩
      [[5]]])).runtime.executions[(⟨1⟩ : ExecutionId)]?.all fun ex =>
        ex.failure.isNone) = true := by
    decide +kernel
  have hcall : ((Run.run step init (soloBroadcast ++ [.begin 1 still ⟨1⟩
      [[5]]])).calls[1]?.all fun call => call.execution = ⟨1⟩) = true := by
    decide +kernel
  obtain ⟨ex, hex, hstate⟩ := (Option.any_eq_true _ _).1 hsucceeded
  intro h
  obtain ⟨call, f, ex', hwait, -, hex', -, hfailure, -⟩ :=
    (misplaced_iff soloBroadcast [] 1 still still ⟨1⟩ [[5]] ex (by decide +kernel) hex
      (by rw [of_decide_eq_true hstate]; decide) (by simp)).1 h
  rw [hwait] at hcall
  rw [of_decide_eq_true hcall] at hex'
  rw [hex'] at hunfailed
  simp [hfailure] at hunfailed

/-- A broadcast that is running, with a second call begun on it. -/
def calledTwice : System :=
  (Run.run step init (dispatching (soloDescriptor .broadcast .none) ++
    [.begin 0 still ⟨1⟩ [[5]]])).step (.begin 1 still ⟨1⟩ [[5]])

/-- **A second call fails the first one's collective**: begun while it is
`RUNNING`, it takes it to `FAILED`. -/
theorem not_callInert_running :
    ¬CallInert (dispatching (soloDescriptor .broadcast .none) ++ [.begin 0 still ⟨1⟩ [[5]]]) []
      1 still still ⟨1⟩ [[5]] := by
  rintro ⟨-, hinert⟩
  have hcommit : calledTwice.runtime.Inert (calledTwice.step (.commit 1 still)).runtime ⟨1⟩ :=
    hinert
  have hrunning : (calledTwice.runtime.executions[(⟨1⟩ : ExecutionId)]?.any fun ex =>
      ex.lifecycle.state = .running) = true := by decide +kernel
  have hfailed : ((calledTwice.step (.commit 1 still)).runtime.executions[
      (⟨1⟩ : ExecutionId)]?.any fun ex => ex.lifecycle.state = .failed) = true := by
    decide +kernel
  obtain ⟨ex, hex, hbefore⟩ := (Option.any_eq_true _ _).1 hrunning
  obtain ⟨ex', hex', hafter⟩ := (Option.any_eq_true _ _).1 hfailed
  obtain ⟨ex'', hex'', hsame, -⟩ := hcommit.execution ex hex
  obtain rfl := Option.some.inj (hex'.symm.trans hex'')
  rw [of_decide_eq_true hbefore, of_decide_eq_true hafter] at hsame
  cases hsame

end System

end CollectiveFabric
