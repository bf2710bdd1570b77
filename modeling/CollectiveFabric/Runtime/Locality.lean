import CollectiveFabric.Runtime.Invariant

/-!
# Critical sections are local

A section on one execution reads no other execution and writes no other.
So on two runtimes that differ in other executions alone it gives the same
answer, writes the same execution and leaves everything else the same.
-/

namespace CollectiveFabric

open Common

namespace Runtime

/-- The runtime with other executions. -/
def withExecutions (rt : Runtime) (X : OrdMap ExecutionId Execution) : Runtime :=
  { rt with executions := X }

section

variable (rt : Runtime) (X : OrdMap ExecutionId Execution)

@[simp] theorem executions_withExecutions : (rt.withExecutions X).executions = X := rfl

@[simp] theorem accounting_withExecutions : (rt.withExecutions X).accounting = rt.accounting := rfl

@[simp] theorem freshId_withExecutions : (rt.withExecutions X).freshId = rt.freshId := rfl

@[simp] theorem applyQuorum_withExecutions (ex : Execution) :
    (rt.withExecutions X).applyQuorum ex = rt.applyQuorum ex := rfl

@[simp] theorem commitExecution_withExecutions (call : Call) (outputs : List (List UInt8))
    (ex : Execution) :
    (rt.withExecutions X).commitExecution call outputs ex = rt.commitExecution call outputs ex :=
  rfl

@[simp] theorem commitMeasurement_withExecutions (env : Ambient) (call : Call) (ex : Execution)
    (bytes : UInt64) :
    (rt.withExecutions X).commitMeasurement env call ex bytes =
      rt.commitMeasurement env call ex bytes := rfl

end

/-- **One section on two runtimes**: on `rt` it gave `r`, and on `rt` with
the executions `X` it gave `r'`. The answer is the same, and so is what was
written: at most the execution `e`. -/
def Follows {β : Type} (rt : Runtime) (X : OrdMap ExecutionId Execution) (e : ExecutionId)
    (r' r : β × Runtime) : Prop :=
  ∃ X', r' = (r.1, r.2.withExecutions X') ∧
    ((X' = X ∧ r.2.executions = rt.executions) ∨
      ∃ ex, X' = X.insert e ex ∧ r.2.executions = rt.executions.insert e ex)

variable {rt : Runtime} {X : OrdMap ExecutionId Execution} {e : ExecutionId} {α β : Type}

namespace Follows

/-- Nothing is written. -/
theorem refl (rt : Runtime) (X : OrdMap ExecutionId Execution) (e : ExecutionId) (b : β) :
    rt.Follows X e (b, rt.withExecutions X) (b, rt) := ⟨X, rfl, .inl ⟨rfl, rfl⟩⟩

/-- The execution is written. -/
theorem write (rt' : Runtime) (h : rt'.executions = rt.executions) (b : β) (ex : Execution) :
    rt.Follows X e (b, (rt'.withExecutions X).setExecution e ex) (b, rt'.setExecution e ex) := by
  refine ⟨X.insert e ex, rfl, .inr ⟨ex, rfl, ?_⟩⟩
  show rt'.executions.insert e ex = _
  rw [h]

/-- Something else changes in the same way. -/
theorem map {r' r : β × Runtime} (h : rt.Follows X e r' r) {f : Runtime → Runtime} {b : α}
    (hf : ∀ rt Y, f (rt.withExecutions Y) = (f rt).withExecutions Y)
    (hexecutions : ∀ rt, (f rt).executions = rt.executions) :
    rt.Follows X e (b, f r'.2) (b, f r.2) := by
  obtain ⟨X', rfl, hwrites⟩ := h
  refine ⟨X', ?_, ?_⟩
  · rw [hf]
  · rwa [hexecutions]

theorem setAccounting {r' r : β × Runtime} (h : rt.Follows X e r' r) (b : α) (acc : Accounting) :
    rt.Follows X e (b, r'.2.setAccounting acc) (b, r.2.setAccounting acc) :=
  h.map (f := fun rt => rt.setAccounting acc) (fun _ _ => rfl) fun _ => rfl

theorem onExecution (hX : X[e]? = rt.executions[e]?) {k' k : Execution → Result α}
    (h : ∀ ex, rt.Follows X e (k' ex) (k ex)) :
    rt.Follows X e ((rt.withExecutions X).onExecution e k') (rt.onExecution e k) := by
  unfold Runtime.onExecution
  rw [executions_withExecutions, hX]
  split
  · exact refl rt X e _
  · exact h _

theorem onTransition {ex : Execution} {dst : CollectiveState} {k' k : Execution → Result α}
    (h : ∀ ex, rt.Follows X e (k' ex) (k ex)) :
    rt.Follows X e ((rt.withExecutions X).onTransition ex dst k') (rt.onTransition ex dst k) := by
  unfold Runtime.onTransition
  split
  · exact refl rt X e _
  · exact h _

/-- A test of something else. -/
theorem ite {c' c : Prop} [Decidable c'] [Decidable c] {a' a b' b : β × Runtime} (hc : c' ↔ c)
    (ha : rt.Follows X e a' a) (hb : rt.Follows X e b' b) :
    rt.Follows X e (if c' then a' else b') (if c then a else b) := by
  by_cases h : c
  · rw [if_pos h, if_pos (hc.2 h)]
    exact ha
  · rw [if_neg h, if_neg fun h' => h (hc.1 h')]
    exact hb

/-- Everything but the executions is the same. -/
theorem tables {r' r : β × Runtime} (h : rt.Follows X e r' r) :
    r'.1 = r.1 ∧ r'.2 = r.2.withExecutions r'.2.executions := by
  obtain ⟨X', rfl, -⟩ := h
  exact ⟨rfl, rfl⟩

/-- **What the executions are afterwards**: where they were the same they
are, and nothing but `e` changes. -/
theorem read {r' r : β × Runtime} (h : rt.Follows X e r' r) (a : ExecutionId) :
    (X[a]? = rt.executions[a]? → r'.2.executions[a]? = r.2.executions[a]?) ∧
      (a ≠ e → r'.2.executions[a]? = X[a]? ∧ r.2.executions[a]? = rt.executions[a]?) := by
  obtain ⟨X', rfl, ⟨rfl, hsame⟩ | ⟨ex, rfl, hinsert⟩⟩ := h
  · rw [hsame]
    exact ⟨id, fun _ => ⟨rfl, rfl⟩⟩
  · rw [hinsert, executions_withExecutions]
    refine ⟨fun hX => ?_, fun hne => ?_⟩
    · by_cases ha : e = a
      · rw [ha, OrdMap.getElem?_insert_same, OrdMap.getElem?_insert_same]
      · rw [OrdMap.getElem?_insert_of_ne _ ha, OrdMap.getElem?_insert_of_ne _ ha, hX]
    · rw [OrdMap.getElem?_insert_of_ne _ hne.symm, OrdMap.getElem?_insert_of_ne _ hne.symm]
      exact ⟨rfl, rfl⟩

end Follows

/-! ## The sections -/

section

variable (hX : X[e]? = rt.executions[e]?)

include hX

theorem follows_planCollective (env : Ambient) (inp : PlannerInput) :
    rt.Follows X e ((rt.withExecutions X).planCollective env e inp)
      (rt.planCollective env e inp) := by
  refine .onExecution hX fun ex => .onTransition fun ex => ?_
  split
  · exact .write rt rfl _ _
  · exact .write rt rfl _ _

theorem follows_reserveCollective :
    rt.Follows X e ((rt.withExecutions X).reserveCollective e) (rt.reserveCollective e) := by
  refine .onExecution hX fun ex => .onTransition fun ex => ?_
  split
  · exact .write rt rfl _ _
  · simp only [accounting_withExecutions, freshId_withExecutions]
    split
    · exact Follows.write rt.bump rfl _ _
    · exact (Follows.write rt.bump rfl () _).setAccounting _ _

theorem follows_dispatchCollective :
    rt.Follows X e ((rt.withExecutions X).dispatchCollective e) (rt.dispatchCollective e) :=
  .onExecution hX fun _ => .onTransition fun _ => Follows.write rt.bump rfl _ _

theorem follows_completeRank (r : RankId) :
    rt.Follows X e ((rt.withExecutions X).completeRank e r) (rt.completeRank e r) := by
  refine .onExecution hX fun ex => ?_
  split
  · exact .refl rt X e _
  · simp only [accounting_withExecutions, applyQuorum_withExecutions]
    split
    · exact .write rt rfl _ _
    · exact (Follows.write rt rfl () _).setAccounting _ _

theorem follows_failCollective (f : CollectiveFailure) :
    rt.Follows X e ((rt.withExecutions X).failCollective e f) (rt.failCollective e f) := by
  refine .onExecution hX fun ex => ?_
  split
  · exact .refl rt X e _
  · split
    · exact .refl rt X e _
    · simp only [accounting_withExecutions]
      split
      · exact .write rt rfl _ _
      · exact (Follows.write rt rfl () _).setAccounting _ _

theorem follows_abortCollective :
    rt.Follows X e ((rt.withExecutions X).abortCollective e) (rt.abortCollective e) := by
  refine .onExecution hX fun ex => .onTransition fun ex => ?_
  simp only [accounting_withExecutions]
  split
  · exact .write rt rfl _ _
  · exact (Follows.write rt rfl () _).setAccounting _ _

theorem follows_cancelCollective :
    rt.Follows X e ((rt.withExecutions X).cancelCollective e) (rt.cancelCollective e) :=
  .onExecution hX fun _ => .onTransition fun _ => .write rt rfl _ _

theorem follows_markStaleCollective :
    rt.Follows X e ((rt.withExecutions X).markStaleCollective e) (rt.markStaleCollective e) :=
  .onExecution hX fun _ => .onTransition fun _ => .write rt rfl _ _

theorem follows_commitCaught (f : CollectiveFailure) :
    rt.Follows X e ((rt.withExecutions X).commitCaught e f) (rt.commitCaught e f) := by
  refine .onExecution hX fun ex => ?_
  simp only [accounting_withExecutions]
  split
  · exact .write rt rfl _ _
  · exact (Follows.write rt rfl () _).setAccounting _ _

end

theorem follows_commitReturned {call : Call}
    (hX : X[call.execution]? = rt.executions[call.execution]?) (env : Ambient)
    (outputs : List (List UInt8)) :
    rt.Follows X call.execution ((rt.withExecutions X).commitReturned env call outputs)
      (rt.commitReturned env call outputs) := by
  refine .onExecution hX fun ex => ?_
  simp only [accounting_withExecutions, commitExecution_withExecutions,
    commitMeasurement_withExecutions]
  have hwrite (ex : Execution) : rt.Follows X call.execution
      ((), (rt.bump.withExecutions X).setExecution call.execution ex)
      ((), rt.bump.setExecution call.execution ex) := .write rt.bump rfl () ex
  split
  · exact Follows.write rt.bump rfl _ _
  · next bytes _ =>
    let m := rt.commitMeasurement env call (rt.commitExecution call outputs ex) bytes
    have hmeasure := (hwrite { rt.commitExecution call outputs ex with
      measurement := some m.id }).map (b := ())
        (f := fun rt' => { rt' with measurements := rt.measurements.insert m.id m })
        (fun _ _ => rfl) fun _ => rfl
    split
    · exact hmeasure.map (f := id) (fun _ _ => rfl) fun _ => rfl
    · exact hmeasure.setAccounting _ _

/-- **The commit of a call.** -/
theorem follows_executeCommit {call : Call}
    (hX : X[call.execution]? = rt.executions[call.execution]?) (env : Ambient) :
    ((rt.withExecutions X).executeCommit env call = none ∧ rt.executeCommit env call = none) ∨
      ∃ r' r, (rt.withExecutions X).executeCommit env call = some r' ∧
        rt.executeCommit env call = some r ∧ rt.Follows X call.execution r' r := by
  unfold executeCommit
  split
  · exact .inl ⟨rfl, rfl⟩
  · exact .inr ⟨_, _, rfl, rfl, follows_commitCaught hX _⟩
  · exact .inr ⟨_, _, rfl, rfl, follows_commitReturned hX env _⟩

/-- A new execution is created, or nothing. -/
theorem follows_createCollective (d : CollectiveDescriptor) :
    rt.Follows X ⟨rt.freshId⟩ ((rt.withExecutions X).createCollective d)
      (rt.createCollective d) := by
  refine .ite Iff.rfl (.refl rt X _ _) (.ite Iff.rfl (.refl rt X _ _) ?_)
  split
  · exact .refl rt X _ _
  · exact Follows.write rt.bump.bump rfl _ _

/-- **Every call that is one section** is local: on the execution it acts
on, or on the one it creates. -/
theorem follows_apply (op : Operation)
    (hX : ∀ e a, op.act = some (e, a) → X[e]? = rt.executions[e]?) :
    ∃ e, ((∃ a, op.act = some (e, a)) ∨ e = ⟨rt.freshId⟩) ∧
      rt.Follows X e ((), op.apply (rt.withExecutions X)) ((), op.apply rt) := by
  have hsection {α : Type} {e : ExecutionId} {a : Act} {r' r : Result α}
      (hact : op.act = some (e, a)) (h : rt.Follows X e r' r) :
      ∃ e, ((∃ a, op.act = some (e, a)) ∨ e = ⟨rt.freshId⟩) ∧
        rt.Follows X e ((), r'.2) ((), r.2) :=
    ⟨e, .inl ⟨a, hact⟩, h.map (f := id) (fun _ _ => rfl) fun _ => rfl⟩
  have helse {α : Type} {r' r : Result α} (h : rt.Follows X ⟨rt.freshId⟩ r' r) :
      ∃ e, ((∃ a, op.act = some (e, a)) ∨ e = ⟨rt.freshId⟩) ∧
        rt.Follows X e ((), r'.2) ((), r.2) :=
    ⟨_, .inr rfl, h.map (f := id) (fun _ _ => rfl) fun _ => rfl⟩
  -- what is no section on an execution writes none
  have hquiet {f : Runtime → Runtime} (happly : ∀ rt, op.apply rt = f rt)
      (hf : ∀ rt Y, f (rt.withExecutions Y) = (f rt).withExecutions Y)
      (hexecutions : ∀ rt, (f rt).executions = rt.executions) :
      ∃ e, ((∃ a, op.act = some (e, a)) ∨ e = ⟨rt.freshId⟩) ∧
        rt.Follows X e ((), op.apply (rt.withExecutions X)) ((), op.apply rt) := by
    rw [happly, happly]
    exact ⟨_, .inr rfl, (Follows.refl rt X _ ()).map hf hexecutions⟩
  cases op with
  | planCollective env e inp =>
    exact hsection rfl (follows_planCollective (hX e _ rfl) env inp)
  | reserveCollective e => exact hsection rfl (follows_reserveCollective (hX e _ rfl))
  | dispatchCollective e => exact hsection rfl (follows_dispatchCollective (hX e _ rfl))
  | completeRank e r => exact hsection rfl (follows_completeRank (hX e _ rfl) r)
  | failCollective e f => exact hsection rfl (follows_failCollective (hX e _ rfl) f)
  | abortCollective e => exact hsection rfl (follows_abortCollective (hX e _ rfl))
  | cancelCollective e => exact hsection rfl (follows_cancelCollective (hX e _ rfl))
  | markStaleCollective e => exact hsection rfl (follows_markStaleCollective (hX e _ rfl))
  | createCollective d => exact helse (follows_createCollective d)
  | registerBackend b =>
    cases b with
    | none => exact hquiet (f := id) (fun _ => rfl) (fun _ _ => rfl) fun _ => rfl
    | some b => exact hquiet (fun _ => rfl) (fun _ _ => rfl) fun _ => rfl
  | registerGroup g =>
    refine helse (Follows.ite Iff.rfl (.refl rt X _ _) ?_)
    exact (Follows.refl rt X _ ()).map
      (f := fun rt => { rt with groups := rt.groups.insert (g.id, g.generation) g })
      (fun _ _ => rfl) fun _ => rfl
  | updateHealth h =>
    refine helse (Follows.ite Iff.rfl ((Follows.refl rt X _ ()).setAccounting _ _) ?_)
    exact (Follows.refl rt X _ ()).map (f := fun rt => { rt with health := h }) (fun _ _ => rfl)
      fun _ => rfl
  | adoptTopology t | ingestMeasurement m | advanceEpoch | setLiveBoot b
  | activeRankContribution => exact hquiet (fun _ => rfl) (fun _ _ => rfl) fun _ => rfl

end Runtime

end CollectiveFabric
