import CollectiveFabric.Planner.Selection
import CollectiveFabric.Runtime.Tables

/-!
# Plans of planned executions

`plan_collective` moves the execution to `PLANNED` before it asks the
planner, and asks it about the group its caller passes. So an execution
from `PLANNED` to `SUCCEEDED` holds the planner's plan for its own group
in exactly the runs whose planning calls are answered, and about a group
of as many ranks.
-/

namespace CollectiveFabric

open Common

namespace CollectiveState

/-- The states of an execution that is planned and not ended otherwise. -/
def isPlanned (s : CollectiveState) : Bool :=
  s = .planned || s = .reserved || s = .dispatched || s = .running || s = .completing ||
    s = .succeeded

/-- A planned state is entered from one, or is `PLANNED`. -/
theorem isPlanned_of_allowed {src dst : CollectiveState} (h : src.allowed dst = true)
    (hdst : dst.isPlanned = true) (hne : dst ≠ .planned) : src.isPlanned = true := by
  revert h hdst hne
  cases src <;> cases dst <;> decide

/-- `CREATED` is not entered. -/
theorem ne_created_of_allowed {src dst : CollectiveState} (h : src.allowed dst = true) :
    dst ≠ .created := by
  rintro rfl
  revert h
  cases src <;> decide

/-- `PLANNED` is entered from `CREATED`. -/
theorem created_of_allowed {src : CollectiveState} (h : src.allowed .planned = true) :
    src = .created := by
  revert h
  cases src <;> decide

end CollectiveState

namespace CollectiveStateMachine

variable {m lc : CollectiveStateMachine} {dst : CollectiveState}

/-- What holds after a transition to a state other than `PLANNED` and must
have held before. -/
def Backward (P : CollectiveState → Prop) : Prop :=
  ∀ src dst : CollectiveState, src.allowed dst = true → dst ≠ .planned → P dst → P src

theorem backward_isPlanned : Backward fun s => s.isPlanned = true :=
  fun _ _ hallowed hne hdst => CollectiveState.isPlanned_of_allowed hallowed hdst hne

theorem backward_created : Backward fun s => s = .created :=
  fun _ _ hallowed _ hdst => absurd hdst (CollectiveState.ne_created_of_allowed hallowed)

variable {P : CollectiveState → Prop}

theorem Backward.transitionTo (hP : Backward P) (h : m.transitionTo dst = .ok lc)
    (hne : dst ≠ .planned) (hlc : P lc.state) : P m.state := by
  obtain ⟨hallowed, hstate, -⟩ := transitionTo_ok h
  rw [hstate] at hlc
  exact hP _ _ hallowed hne hlc

theorem Backward.tryTransitionTo (hP : Backward P) (hne : dst ≠ .planned)
    (h : P (m.tryTransitionTo dst).state) : P m.state := by
  rcases tryTransitionTo_cases m dst with ⟨hallowed, hstate, -⟩ | ⟨-, hsame⟩
  · rw [hstate] at h
    exact hP _ _ hallowed hne h
  · rwa [hsame] at h

end CollectiveStateMachine

/-- **The ranks of a group in their order** are the numbers below its rank
count. -/
theorem CollectiveGroup.ranks_eq (g : CollectiveGroup) :
    g.participants.toList.map (·.rank.raw) =
      (List.range g.rankCount.toNat).map UInt64.ofNat := by
  have hcount : g.rankCount.toNat = g.participants.toList.length := Vec.toNat_size _
  refine List.ext_getElem (by simp [hcount]) fun i hi _ => ?_
  rw [List.length_map] at hi
  have hrank := g.dense i _ (List.getElem?_eq_getElem hi)
  simp [hrank]

namespace Runtime

open CollectiveStateMachine

variable {rt rt' : Runtime} {e : ExecutionId} {ex ex' : Execution} {a : Act}

/-! ## Moves and plans -/

@[simp] theorem settle_plan (rt : Runtime) (ex : Execution) (completions : OrdMap RankId Bool)
    (outputs : List (List UInt8)) : (rt.settle ex completions outputs).plan = ex.plan := by
  obtain ⟨lc, -, heq⟩ := settle_eq rt ex completions outputs
  rw [heq]

theorem backward_settle {P : CollectiveState → Prop} (hP : Backward P)
    {completions : OrdMap RankId Bool} {outputs : List (List UInt8)}
    (h : P (rt.settle ex completions outputs).lifecycle.state) : P ex.lifecycle.state := by
  unfold settle at h
  refine @Backward.tryTransitionTo _ .completing P hP (by decide) ?_
  rcases applyQuorum_cases rt { ex with
      rankCompletions := completions
      outputs := outputs
      lifecycle := ex.lifecycle.tryTransitionTo .completing } with
    ⟨-, heq⟩ | ⟨grp, -, ⟨-, -, lc, ht, heq⟩ | ⟨-, heq⟩⟩
  · rw [heq] at h
    exact hP.tryTransitionTo (by decide) h
  · rw [heq] at h
    exact hP.transitionTo ht (by decide) h
  · rwa [heq] at h

/-- **Only planning enters `PLANNED`**, and only planning writes the plan. -/
theorem Moves.backward {P : CollectiveState → Prop} (hP : Backward P)
    (h : Moves rt ex a ex' rt') (hact : a = .plan → ¬P .planned) (hafter : P ex'.lifecycle.state) :
    P ex.lifecycle.state ∧ ex'.plan = ex.plan := by
  cases h with
  | planned h =>
    rw [(transitionTo_ok h).2.1] at hafter
    exact absurd hafter (hact rfl)
  | dispatched h | begun h | cancelled h | staled h | overflowed h | doubled h
  | reserved h | failed h | unstarted h | aborted h =>
    exact ⟨hP.transitionTo h (by decide) hafter, rfl⟩
  | caught => exact ⟨hP.tryTransitionTo (by decide) hafter, rfl⟩
  | unmeasured | unpaired | measured | counted =>
    exact ⟨backward_settle hP hafter, settle_plan ..⟩
  | refused | withheld | repeated | uncounted => exact ⟨hafter, rfl⟩

/-! ## Planning -/

/-- The plan of an execution is one the planner returned for its own
descriptor and the group `grp`, with an algorithm that is known and
applicable and the group's ranks in their order. -/
structure HoldsPlan (ex : Execution) (grp : CollectiveGroup) : Prop where
  returned : ∃ env inp, inp.descriptor = some ex.descriptor ∧ inp.group = some grp ∧
    Planner.plan env inp = .ok ex.plan
  known : ex.plan.algorithm ≠ .unknown
  applicable : algorithmFeasible ex.descriptor.kind ex.plan.algorithm = true
  ranks : ex.plan.rankOrder = grp.participants.toList.map (·.rank.raw)

/-- What the planner returns for a group is a plan of that group. -/
theorem holdsPlan_of_plan {env : Ambient} {inp : PlannerInput} {grp : CollectiveGroup}
    (hd : inp.descriptor = some ex.descriptor) (hgroup : inp.group = some grp)
    (h : Planner.plan env inp = .ok ex.plan) : HoldsPlan ex grp := by
  obtain ⟨d, group, hd', hgroup', happlicable, hranks⟩ := Planner.planIn_ok h
  obtain rfl := Option.some.inj (hd.symm.trans hd')
  obtain rfl := Option.some.inj (hgroup.symm.trans hgroup')
  exact ⟨⟨env, inp, hd, hgroup, h⟩, Planner.ne_unknown_of_applicable happlicable, happlicable,
    hranks.trans grp.ranks_eq.symm⟩

/-- A plan is of the descriptor, whatever else becomes of the execution. -/
theorem HoldsPlan.congr {grp : CollectiveGroup} (h : HoldsPlan ex grp)
    (hdescriptor : ex'.descriptor = ex.descriptor) (hplan : ex'.plan = ex.plan) :
    HoldsPlan ex' grp := by
  refine ⟨?_, ?_, ?_, ?_⟩
  · rw [hdescriptor, hplan]
    exact h.returned
  · rw [hplan]
    exact h.known
  · rw [hdescriptor, hplan]
    exact h.applicable
  · rw [hplan]
    exact h.ranks

theorem groupOf_planCollective (env : Ambient) (inp : PlannerInput)
    (hdescriptor : ex'.descriptor = ex.descriptor) :
    (rt.planCollective env e inp).2.groupOf ex' = rt.groupOf ex := by
  have hgroups : (rt.planCollective env e inp).2.groups = rt.groups := by
    refine onExecution_snd (·.groups) fun ex => onTransition_snd (·.groups) fun ex => ?_
    split <;> rfl
  unfold groupOf findGroup
  rw [hgroups, hdescriptor]

/-- **How planning ends**: the table forbids it, the planner refuses with
the transition made, or it answers. -/
theorem planCollective_cases (env : Ambient) (inp : PlannerInput)
    (hex : rt.executions[e]? = some ex) :
    (ex.lifecycle.state.allowed .planned = false ∧ (rt.planCollective env e inp).2 = rt) ∨
      ∃ lc, ex.lifecycle.transitionTo .planned = .ok lc ∧
        ((∃ err, Planner.plan env { inp with descriptor := some ex.descriptor } = .error err ∧
            (rt.planCollective env e inp).2.executions =
              rt.executions.insert e { ex with lifecycle := lc }) ∨
          ∃ plan, Planner.plan env { inp with descriptor := some ex.descriptor } = .ok plan ∧
            (rt.planCollective env e inp).2.executions =
              rt.executions.insert e { ex with lifecycle := lc, plan := plan }) := by
  simp only [planCollective, onExecution, hex, onTransition]
  cases ht : ex.lifecycle.transitionTo .planned with
  | error err => exact .inl ⟨transitionTo_error ht, rfl⟩
  | ok lc =>
    refine .inr ⟨lc, rfl, ?_⟩
    cases hplan : Planner.plan env { inp with descriptor := some ex.descriptor } with
    | error err => exact .inl ⟨err, rfl, rfl⟩
    | ok plan => exact .inr ⟨plan, rfl, rfl⟩

/-- The planner answers the call, which passes a group of as many ranks as
the execution's own. -/
def Answered (rt : Runtime) (ex : Execution) (env : Ambient) (inp : PlannerInput) : Prop :=
  ∃ grp group plan, rt.groupOf ex = some grp ∧ inp.group = some group ∧
    group.rankCount = grp.rankCount ∧
    Planner.plan env { inp with descriptor := some ex.descriptor } = .ok plan

/-- **An answered call** leaves a plan of the execution's own group. -/
theorem holdsPlan_of_answered {env : Ambient} {inp : PlannerInput} {plan : CollectivePlan}
    (h : rt.Answered ex env inp)
    (hplan : Planner.plan env { inp with descriptor := some ex.descriptor } = .ok plan)
    (lc : CollectiveStateMachine) :
    ∃ grp, rt.groupOf ex = some grp ∧ HoldsPlan { ex with lifecycle := lc, plan := plan } grp := by
  obtain ⟨grp, group, -, hgrp, hgroup, hcount, -⟩ := h
  refine ⟨grp, hgrp, ?_⟩
  -- the planner would have returned the same for the registered group
  have hsame : { inp with descriptor := some ex.descriptor, group := some group } =
      { inp with descriptor := some ex.descriptor } := by rw [← hgroup]
  have hregistered := @Planner.planIn_congr Float _ env
    { inp with descriptor := some ex.descriptor } group grp hcount
  rw [hsame] at hregistered
  exact holdsPlan_of_plan rfl rfl (hregistered.symm.trans hplan)

/-- **A plan of the execution's own group** comes of an answered call. -/
theorem answered_of_holdsPlan {env : Ambient} {inp : PlannerInput} {plan : CollectivePlan}
    {grp : CollectiveGroup} {lc : CollectiveStateMachine} (hgrp : rt.groupOf ex = some grp)
    (hplan : Planner.plan env { inp with descriptor := some ex.descriptor } = .ok plan)
    (h : HoldsPlan { ex with lifecycle := lc, plan := plan } grp) : rt.Answered ex env inp := by
  obtain ⟨d, group, -, hgroup, -, hranks⟩ := Planner.planIn_ok hplan
  refine ⟨grp, group, plan, hgrp, hgroup, ?_, hplan⟩
  -- the two orders have one length
  have hlength := congrArg List.length (hranks.symm.trans (h.ranks.trans grp.ranks_eq))
  simp only [List.length_map, List.length_range] at hlength
  exact UInt64.toNat_inj.1 hlength

end Runtime

namespace System

variable {s : System} {ev : Event}

/-! ## Runs -/

/-- Every planned execution holds a plan of its own registered group. -/
def PlansHeld (s : System) : Prop :=
  ∀ (e : ExecutionId) (ex : Execution), s.runtime.executions[e]? = some ex →
    ex.lifecycle.state.isPlanned = true →
      ∃ grp, s.runtime.groupOf ex = some grp ∧ Runtime.HoldsPlan ex grp

/-- The event, if it plans a `CREATED` execution, is answered, about a
group of as many ranks as the execution's own. -/
def PlansAnswered (s : System) (ev : Event) : Prop :=
  ∀ env e inp, ev = .call (.planCollective env e inp) → ∀ ex : Execution,
    s.runtime.executions[e]? = some ex → ex.lifecycle.state = .created →
      s.runtime.Answered ex env inp

/-- What is `CREATED` has no plan yet. -/
def Unplanned (s : System) : Prop :=
  ∀ (e : ExecutionId) (ex : Execution), s.runtime.executions[e]? = some ex →
    ex.lifecycle.state = .created → ex.plan.algorithm = .unknown

theorem unplanned_step (h : s.Unplanned) : (s.step ev).Unplanned := by
  intro e ex' hex' hcreated
  rcases (s.effect_step ev).origin hex' with ⟨hex, -⟩ | ⟨a, ex, -, hex, hmoves⟩ | ⟨d, -, -, rfl, -⟩
  · exact h e ex' hex hcreated
  · obtain ⟨hbefore, hplan⟩ :=
      hmoves.backward CollectiveStateMachine.backward_created (fun _ => by decide) hcreated
    rw [hplan]
    exact h e ex hex hbefore
  · rfl

/-- An act that is a planning is of a planning call. -/
theorem call_of_plan {e : ExecutionId} (h : s.act ev = some (e, .plan)) :
    ∃ env inp, ev = .call (.planCollective env e inp) := by
  cases ev with
  | call op =>
    cases op <;> simp only [act, Operation.act, Option.some.injEq, Prod.mk.injEq, reduceCtorEq,
      and_true, and_false] at h
    subst h
    exact ⟨_, _, rfl⟩
  | begin c env e inputs =>
    simp only [act] at h
    split at h <;> simp at h
  | engine c env => cases h
  | commit c env =>
    obtain ⟨call, -, hact⟩ := Option.bind_eq_some_iff.1 h
    unfold Call.act at hact
    split at hact <;> simp at hact

/-- A planning after which the plans are held was answered. -/
theorem plansAnswered_of_step (hunplanned : s.Unplanned) (hafter : (s.step ev).PlansHeld) :
    s.PlansAnswered ev := by
  rintro env e inp rfl ex hex hcreated
  rcases Runtime.planCollective_cases env inp hex with
    ⟨hforbidden, -⟩ | ⟨lc, ht, ⟨err, hplan, hwrite⟩ | ⟨plan, hplan, hwrite⟩⟩
  · rw [hcreated] at hforbidden
    cases hforbidden
  · -- the refused execution is `PLANNED` with the plan it was created with
    have hex' := hwrite ▸ OrdMap.getElem?_insert_same s.runtime.executions e
      { ex with lifecycle := lc }
    obtain ⟨grp, -, hholds⟩ := hafter e _ hex' (by
      simp only [(CollectiveStateMachine.transitionTo_ok ht).2.1]
      rfl)
    exact absurd (hunplanned e ex hex hcreated) hholds.known
  · have hex' := hwrite ▸ OrdMap.getElem?_insert_same s.runtime.executions e
      { ex with lifecycle := lc, plan := plan }
    obtain ⟨grp, hgrp, hholds⟩ := hafter e _ hex' (by
      simp only [(CollectiveStateMachine.transitionTo_ok ht).2.1]
      rfl)
    have hgrp' : s.runtime.groupOf ex = some grp :=
      (Runtime.groupOf_planCollective env inp rfl).symm.trans hgrp
    exact Runtime.answered_of_holdsPlan hgrp' hplan hholds

/-- Answered plannings leave the plans held. -/
theorem plansHeld_of_answered (h : s.PlansHeld) (hanswered : s.PlansAnswered ev) :
    (s.step ev).PlansHeld := by
  have heffect := s.effect_step ev
  intro e ex' hex' hplanned
  rcases heffect.origin hex' with ⟨hex, -⟩ | ⟨a, ex, hact, hex, hmoves⟩ | ⟨d, -, -, rfl, -⟩
  · obtain ⟨grp, hgrp, hholds⟩ := h e ex' hex hplanned
    exact ⟨grp, heffect.groupOf (.refl ex') hgrp, hholds⟩
  · by_cases ha : a = .plan
    · subst ha
      obtain ⟨env, inp, rfl⟩ := call_of_plan hact
      change (s.runtime.planCollective env e inp).2.executions[e]? = some ex' at hex'
      rcases Runtime.planCollective_cases env inp hex with
        ⟨-, hsame⟩ | ⟨lc, ht, hcases⟩
      · rw [hsame, hex] at hex'
        obtain rfl := Option.some.inj hex'
        obtain ⟨grp, hgrp, hholds⟩ := h e ex hex hplanned
        exact ⟨grp, heffect.groupOf (.refl ex) hgrp, hholds⟩
      · have hcreated := CollectiveState.created_of_allowed
          (CollectiveStateMachine.transitionTo_ok ht).1
        have hanswer := hanswered env e inp rfl ex hex hcreated
        rcases hcases with ⟨err, hplan, -⟩ | ⟨plan, hplan, hwrite⟩
        · obtain ⟨-, -, plan, -, -, -, hok⟩ := hanswer
          rw [hplan] at hok
          cases hok
        · rw [hwrite, OrdMap.getElem?_insert_same] at hex'
          obtain rfl := Option.some.inj hex'
          obtain ⟨grp, hgrp, hholds⟩ := Runtime.holdsPlan_of_answered hanswer hplan lc
          exact ⟨grp, heffect.groupOf hmoves.grows hgrp, hholds⟩
    · obtain ⟨hbefore, hplan⟩ :=
        hmoves.backward CollectiveStateMachine.backward_isPlanned (absurd · ha) hplanned
      obtain ⟨grp, hgrp, hholds⟩ := h e ex hex hbefore
      exact ⟨grp, heffect.groupOf hmoves.grows hgrp, hholds.congr hmoves.descriptor hplan⟩
  · cases hplanned

/-- **One step keeps the plans held** exactly if its planning is answered. -/
theorem plansHeld_step (hunplanned : s.Unplanned) (h : s.PlansHeld) :
    (s.step ev).PlansHeld ↔ s.PlansAnswered ev :=
  ⟨plansAnswered_of_step hunplanned, plansHeld_of_answered h⟩

/-! ## Main results -/

/-- **Planned means planned** in exactly the runs whose planning calls are
answered by the planner, each about a group of as many ranks as the one
its execution's descriptor names. -/
theorem plansHeld_iff (evs : List Event) :
    Run.Throughout step PlansHeld init evs ↔ Run.Along step PlansAnswered init evs := by
  have hstart : init.Unplanned := fun e ex hex => by simp [init] at hex
  refine Run.throughout_iff_along (I := Unplanned) (H := fun _ _ => True)
    (fun s ev hI _ => unplanned_step hI) (fun s ev hI _ hP => plansHeld_step hI hP) hstart
    (fun e ex hex => by simp [init] at hex) (Run.along_of_forall (fun _ _ => trivial) evs)

/-- **An execution the planner refused is `PLANNED`**, and goes on. -/
theorem not_plansHeld_refused :
    ¬Run.Throughout step PlansHeld init (dispatching (soloDescriptor .broadcast .none)) := by
  intro h
  have hdispatched : ((Run.run step init (dispatching (soloDescriptor .broadcast
      .none))).runtime.executions[(⟨1⟩ : ExecutionId)]?.any fun ex =>
        ex.lifecycle.state.isPlanned ∧ ex.plan.algorithm = .unknown) = true := by decide +kernel
  obtain ⟨ex, hex, hboth⟩ := (Option.any_eq_true _ _).1 hdispatched
  obtain ⟨hplanned, hunknown⟩ := of_decide_eq_true hboth
  obtain ⟨grp, -, hholds⟩ := h.last ⟨1⟩ ex hex hplanned
  exact hholds.known hunknown

end System

end CollectiveFabric
