import CollectiveFabric.Runtime.Quorum

/-!
# What a step does

Said once, for every step: it leaves the executions and the account of
the collectives alone, or creates an execution, or runs one critical
section on one execution. `Moves` lists what such a section can come to,
with the guard under which it does.
-/

namespace CollectiveFabric

open Common

/-- The counters the collectives are accounted in are the same. -/
structure SameBooks (a a' : Accounting) : Prop where
  active : a'.activeCollectives = a.activeCollectives
  reserved : a'.reservedBytes = a.reservedBytes
  reservations : a'.reservations = a.reservations

theorem SameBooks.refl (a : Accounting) : SameBooks a a := ⟨rfl, rfl, rfl⟩

/-- The transition an act throws over when the table forbids it. -/
def Act.asks : Act → Option CollectiveState
  | .plan => some .planned
  | .reserve => some .reserved
  | .dispatch => some .dispatched
  | .begin _ => some .running
  | .fail _ => some .failed
  | .abort => some .aborted
  | .cancel => some .cancelled
  | .markStale => some .stale
  | .commitCaught _ => none
  | .commitReturned _ _ => none
  | .completeRank _ => none

namespace Runtime

/-- An execution with completions and outputs recorded, moved to
`COMPLETING` where that is allowed, and the quorum applied. -/
def settle (rt : Runtime) (ex : Execution) (completions : OrdMap RankId Bool)
    (outputs : List (List UInt8)) : Execution :=
  rt.applyQuorum { ex with
    rankCompletions := completions
    outputs := outputs
    lifecycle := ex.lifecycle.tryTransitionTo .completing }

/-- **What an act makes of an execution**, and what of the accounting it
leaves behind. -/
inductive Moves (rt : Runtime) (ex : Execution) : Act → Execution → Runtime → Prop
  /-- The table forbids the transition. -/
  | refused {a dst rt'} (hasks : a.asks = some dst)
      (hnot : ex.lifecycle.state.allowed dst = false)
      (hbooks : SameBooks rt.accounting rt'.accounting) : Moves rt ex a ex rt'
  /-- The inputs do not pass the checks. -/
  | withheld {inputs rt'} (hbooks : SameBooks rt.accounting rt'.accounting) :
      Moves rt ex (.begin inputs) ex rt'
  | planned {lc plan rt'} (h : ex.lifecycle.transitionTo .planned = .ok lc)
      (hbooks : SameBooks rt.accounting rt'.accounting) :
      Moves rt ex .plan { ex with lifecycle := lc, plan := plan } rt'
  | dispatched {lc id rt'} (h : ex.lifecycle.transitionTo .dispatched = .ok lc)
      (hbooks : SameBooks rt.accounting rt'.accounting) :
      Moves rt ex .dispatch { ex with lifecycle := lc, dispatch := id } rt'
  | begun {inputs lc rt'} (h : ex.lifecycle.transitionTo .running = .ok lc)
      (hbooks : SameBooks rt.accounting rt'.accounting) :
      Moves rt ex (.begin inputs) { ex with lifecycle := lc } rt'
  | cancelled {lc rt'} (h : ex.lifecycle.transitionTo .cancelled = .ok lc)
      (hbooks : SameBooks rt.accounting rt'.accounting) :
      Moves rt ex .cancel { ex with lifecycle := lc } rt'
  | staled {lc rt'} (h : ex.lifecycle.transitionTo .stale = .ok lc)
      (hbooks : SameBooks rt.accounting rt'.accounting) :
      Moves rt ex .markStale { ex with lifecycle := lc } rt'
  /-- The byte count overflows. -/
  | overflowed {lc err rt'} (h : ex.lifecycle.transitionTo .reserved = .ok lc)
      (hbytes : ex.descriptor.elementByteCount = .error err)
      (hbooks : SameBooks rt.accounting rt'.accounting) :
      Moves rt ex .reserve { ex with lifecycle := lc } rt'
  /-- The reservation id is held already. -/
  | doubled {lc bytes rt'} (h : ex.lifecycle.transitionTo .reserved = .ok lc)
      (hbytes : ex.descriptor.elementByteCount = .ok bytes)
      (hmem : (⟨rt.freshId⟩ : ReservationId) ∈ rt.accounting.reservations)
      (hid : rt'.nextId = rt.nextId + 1) (hbooks : SameBooks rt.accounting rt'.accounting) :
      Moves rt ex .reserve { ex with lifecycle := lc, reservation := ⟨rt.freshId⟩ } rt'
  | reserved {lc bytes rt'} (h : ex.lifecycle.transitionTo .reserved = .ok lc)
      (hbytes : ex.descriptor.elementByteCount = .ok bytes)
      (hmem : (⟨rt.freshId⟩ : ReservationId) ∉ rt.accounting.reservations)
      (hactive : rt'.accounting.activeCollectives = rt.accounting.activeCollectives + 1)
      (hreserved : rt'.accounting.reservedBytes = rt.accounting.reservedBytes + bytes)
      (hreservations :
        rt'.accounting.reservations = rt.accounting.reservations.insert ⟨rt.freshId⟩ bytes)
      (hid : rt'.nextId = rt.nextId + 1) :
      Moves rt ex .reserve { ex with lifecycle := lc, reservation := ⟨rt.freshId⟩ } rt'
  | caught {f rt'} (hbooks : SameBooks rt.accounting rt'.accounting) :
      Moves rt ex (.commitCaught f)
        { ex with lifecycle := ex.lifecycle.tryTransitionTo .failed, failure := some f } rt'
  /-- The byte count overflows after the outputs are stored. -/
  | unmeasured {call outputs err rt'} (hbytes : ex.descriptor.elementByteCount = .error err)
      (hbooks : SameBooks rt.accounting rt'.accounting) :
      Moves rt ex (.commitReturned call outputs)
        (rt.settle ex (completeRanks ex.rankCompletions call.rankCount) outputs) rt'
  /-- The commit finds no active collective to complete. -/
  | unpaired {call outputs id rt'} (hzero : rt.accounting.activeCollectives = 0)
      (hbooks : SameBooks rt.accounting rt'.accounting) :
      Moves rt ex (.commitReturned call outputs)
        { rt.settle ex (completeRanks ex.rankCompletions call.rankCount) outputs with
          measurement := some id } rt'
  | measured {call outputs id rt'} (hpos : rt.accounting.activeCollectives ≠ 0)
      (hactive : rt'.accounting.activeCollectives = rt.accounting.activeCollectives - 1)
      (hreserved : rt'.accounting.reservedBytes = rt.accounting.reservedBytes)
      (hreservations : rt'.accounting.reservations = rt.accounting.reservations) :
      Moves rt ex (.commitReturned call outputs)
        { rt.settle ex (completeRanks ex.rankCompletions call.rankCount) outputs with
          measurement := some id } rt'
  | repeated {r rt'} (hmem : r ∈ ex.rankCompletions)
      (hbooks : SameBooks rt.accounting rt'.accounting) : Moves rt ex (.completeRank r) ex rt'
  /-- The completion is recorded, but no contribution is active. -/
  | uncounted {r rt'} (hmem : r ∉ ex.rankCompletions)
      (hzero : rt.accounting.activeRankContributions = 0)
      (hbooks : SameBooks rt.accounting rt'.accounting) :
      Moves rt ex (.completeRank r)
        { ex with rankCompletions := ex.rankCompletions.insert r true } rt'
  | counted {r rt'} (hmem : r ∉ ex.rankCompletions)
      (hpos : rt.accounting.activeRankContributions ≠ 0)
      (hbooks : SameBooks rt.accounting rt'.accounting) :
      Moves rt ex (.completeRank r)
        (rt.settle ex (ex.rankCompletions.insert r true) ex.outputs) rt'
  | failed {f lc rt'} (h : ex.lifecycle.transitionTo .failed = .ok lc)
      (hbooks : SameBooks rt.accounting rt'.accounting) :
      Moves rt ex (.fail f) { ex with lifecycle := lc, failure := some f } rt'
  /-- The abort finds no active collective. -/
  | unstarted {lc rt'} (h : ex.lifecycle.transitionTo .aborted = .ok lc)
      (hzero : rt.accounting.activeCollectives = 0)
      (hbooks : SameBooks rt.accounting rt'.accounting) :
      Moves rt ex .abort { ex with lifecycle := lc } rt'
  | aborted {lc rt'} (h : ex.lifecycle.transitionTo .aborted = .ok lc)
      (hpos : rt.accounting.activeCollectives ≠ 0)
      (hactive : rt'.accounting.activeCollectives = rt.accounting.activeCollectives - 1)
      (hreserved : rt'.accounting.reservedBytes = rt.accounting.reservedBytes)
      (hreservations : rt'.accounting.reservations = rt.accounting.reservations) :
      Moves rt ex .abort { ex with lifecycle := lc } rt'

/-- A step that is on no execution there is. -/
structure Quiet (rt rt' : Runtime) : Prop where
  executions : rt'.executions = rt.executions
  books : SameBooks rt.accounting rt'.accounting
  groups : ∀ (key : GroupKey) (grp : CollectiveGroup),
    rt.groups[key]? = some grp → rt'.groups[key]? = some grp
  nextId : rt.nextId ≤ rt'.nextId

/-- The execution `create_collective` makes. -/
def newExecution (rt : Runtime) (d : CollectiveDescriptor) : Execution :=
  { descriptor := d, collectiveId := d.collectiveId, attempt := ⟨rt.bump.freshId⟩,
    attemptGeneration := ⟨1⟩ }

@[simp] theorem newExecution_entered (rt : Runtime) (d : CollectiveDescriptor) :
    (rt.newExecution d).lifecycle.entered = [.created] := rfl

/-- **What a step does to the runtime**, told by the execution it is on and
the act it is. -/
inductive Effect (rt : Runtime) : Option (ExecutionId × Act) → Runtime → Prop
  | quiet {on rt'} (hnone : ∀ e a, on = some (e, a) → rt.executions[e]? = none)
      (h : Quiet rt rt') : Effect rt on rt'
  | creates {d rt'} (hgroup : d.groupKey ∈ rt.groups)
      (hexecutions : rt'.executions = rt.executions.insert ⟨rt.freshId⟩ (rt.newExecution d))
      (hbooks : SameBooks rt.accounting rt'.accounting) (hgroups : rt'.groups = rt.groups)
      (hid : rt'.nextId = rt.nextId + 2) : Effect rt none rt'
  | moves {e a ex ex' rt'} (hchange : OrdMap.Change rt.executions rt'.executions e ex ex')
      (hmoves : Moves rt ex a ex' rt') (hgroups : rt'.groups = rt.groups)
      (hid : rt.nextId ≤ rt'.nextId) : Effect rt (some (e, a)) rt'

/-! ## Settling -/

variable {rt : Runtime} {e : ExecutionId} {ex : Execution}

/-- **Settling touches** the completions, the outputs and the lifecycle,
which it only moves on. -/
theorem settle_eq (rt : Runtime) (ex : Execution) (completions : OrdMap RankId Bool)
    (outputs : List (List UInt8)) :
    ∃ lc, ex.lifecycle.Extends lc ∧ rt.settle ex completions outputs =
      { ex with rankCompletions := completions, outputs := outputs, lifecycle := lc } := by
  have hfirst := CollectiveStateMachine.extends_tryTransitionTo ex.lifecycle .completing
  unfold settle
  rcases applyQuorum_cases rt { ex with
      rankCompletions := completions
      outputs := outputs
      lifecycle := ex.lifecycle.tryTransitionTo .completing } with
    ⟨-, heq⟩ | ⟨grp, -, ⟨-, -, lc, ht, heq⟩ | ⟨-, heq⟩⟩
  · exact ⟨_, hfirst.trans (CollectiveStateMachine.extends_tryTransitionTo _ _), heq⟩
  · exact ⟨lc, hfirst.trans (CollectiveStateMachine.extends_transitionTo ht), heq⟩
  · exact ⟨_, hfirst, heq⟩

section Fields

variable (rt : Runtime) (ex : Execution) (completions : OrdMap RankId Bool)
  (outputs : List (List UInt8))

theorem extends_settle :
    ex.lifecycle.Extends (rt.settle ex completions outputs).lifecycle := by
  obtain ⟨lc, hlc, heq⟩ := settle_eq rt ex completions outputs
  rw [heq]
  exact hlc

@[simp] theorem settle_rankCompletions :
    (rt.settle ex completions outputs).rankCompletions = completions := by
  obtain ⟨lc, -, heq⟩ := settle_eq rt ex completions outputs
  rw [heq]

@[simp] theorem settle_outputs : (rt.settle ex completions outputs).outputs = outputs := by
  obtain ⟨lc, -, heq⟩ := settle_eq rt ex completions outputs
  rw [heq]

@[simp] theorem settle_descriptor :
    (rt.settle ex completions outputs).descriptor = ex.descriptor := by
  obtain ⟨lc, -, heq⟩ := settle_eq rt ex completions outputs
  rw [heq]

@[simp] theorem settle_reservation :
    (rt.settle ex completions outputs).reservation = ex.reservation := by
  obtain ⟨lc, -, heq⟩ := settle_eq rt ex completions outputs
  rw [heq]

@[simp] theorem settle_failure :
    (rt.settle ex completions outputs).failure = ex.failure := by
  obtain ⟨lc, -, heq⟩ := settle_eq rt ex completions outputs
  rw [heq]

@[simp] theorem settle_measurement :
    (rt.settle ex completions outputs).measurement = ex.measurement := by
  obtain ⟨lc, -, heq⟩ := settle_eq rt ex completions outputs
  rw [heq]

end Fields

/-! ## Every operation -/

theorem Quiet.refl (rt : Runtime) : Quiet rt rt := ⟨rfl, .refl _, fun _ _ h => h, le_rfl⟩

/-- What is done under the lock after `require`. -/
theorem effect_onExecution {α : Type} {a : Act} {k : Execution → Result α}
    (h : ∀ ex, rt.executions[e]? = some ex → Effect rt (some (e, a)) (k ex).2) :
    Effect rt (some (e, a)) (rt.onExecution e k).2 := by
  unfold onExecution
  cases hex : rt.executions[e]? with
  | none =>
    refine .quiet (fun e' a' heq => ?_) (.refl rt)
    cases heq
    exact hex
  | some ex => exact h ex hex

/-- What is done after a transition that throws. -/
theorem effect_onTransition {α : Type} {a : Act} {dst : CollectiveState}
    {k : Execution → Result α} (hex : rt.executions[e]? = some ex) (hasks : a.asks = some dst)
    (h : ∀ lc, ex.lifecycle.transitionTo dst = .ok lc →
      Effect rt (some (e, a)) (k { ex with lifecycle := lc }).2) :
    Effect rt (some (e, a)) (rt.onTransition ex dst k).2 := by
  unfold onTransition
  cases ht : ex.lifecycle.transitionTo dst with
  | error err =>
    exact .moves (.same hex)
      (.refused hasks (CollectiveStateMachine.transitionTo_error ht) (.refl _)) rfl le_rfl
  | ok lc => exact h lc ht

/-- A section that writes the execution back. -/
theorem effect_write {a : Act} {ex' : Execution} {rt' : Runtime}
    (hex : rt.executions[e]? = some ex) (hwrite : rt'.executions = rt.executions.insert e ex')
    (hmoves : Moves rt ex a ex' rt') (hgroups : rt'.groups = rt.groups)
    (hid : rt.nextId ≤ rt'.nextId) : Effect rt (some (e, a)) rt' :=
  .moves (hwrite ▸ .insert hex ex') hmoves hgroups hid

theorem effect_planCollective (env : Ambient) (inp : PlannerInput) :
    Effect rt (some (e, .plan)) (rt.planCollective env e inp).2 := by
  refine effect_onExecution fun ex hex => effect_onTransition hex rfl fun lc h => ?_
  split
  · exact effect_write hex rfl (.planned h (.refl _)) rfl le_rfl
  · exact effect_write hex rfl (.planned h (.refl _)) rfl le_rfl

theorem effect_reserveCollective : Effect rt (some (e, .reserve)) (rt.reserveCollective e).2 := by
  refine effect_onExecution fun ex hex => effect_onTransition hex rfl fun lc h => ?_
  cases hbytes : ex.descriptor.elementByteCount with
  | error err => exact effect_write hex rfl (.overflowed h hbytes (.refl _)) rfl le_rfl
  | ok bytes =>
    by_cases hmem : (⟨rt.freshId⟩ : ReservationId) ∈ rt.accounting.reservations
    · simp only [Accounting.reserve, if_pos hmem]
      exact effect_write hex rfl (.doubled h hbytes hmem rfl (.refl _)) rfl (Nat.le_succ _)
    · simp only [Accounting.reserve, if_neg hmem]
      exact effect_write hex rfl (.reserved h hbytes hmem rfl rfl rfl rfl) rfl (Nat.le_succ _)

theorem effect_dispatchCollective :
    Effect rt (some (e, .dispatch)) (rt.dispatchCollective e).2 :=
  effect_onExecution fun _ hex => effect_onTransition hex rfl fun _ h =>
    effect_write hex rfl (.dispatched h (.refl _)) rfl (Nat.le_succ _)

theorem effect_cancelCollective : Effect rt (some (e, .cancel)) (rt.cancelCollective e).2 :=
  effect_onExecution fun _ hex => effect_onTransition hex rfl fun _ h =>
    effect_write hex rfl (.cancelled h (.refl _)) rfl le_rfl

theorem effect_markStaleCollective :
    Effect rt (some (e, .markStale)) (rt.markStaleCollective e).2 :=
  effect_onExecution fun _ hex => effect_onTransition hex rfl fun _ h =>
    effect_write hex rfl (.staled h (.refl _)) rfl le_rfl

theorem effect_abortCollective : Effect rt (some (e, .abort)) (rt.abortCollective e).2 := by
  refine effect_onExecution fun ex hex => effect_onTransition hex rfl fun lc h => ?_
  by_cases hzero : rt.accounting.activeCollectives = 0
  · simp only [Accounting.collectiveAborted, if_pos hzero]
    exact effect_write hex rfl (.unstarted h hzero (.refl _)) rfl le_rfl
  · simp only [Accounting.collectiveAborted, if_neg hzero]
    exact effect_write hex rfl (.aborted h hzero rfl rfl rfl) rfl le_rfl

theorem effect_failCollective (f : CollectiveFailure) :
    Effect rt (some (e, .fail f)) (rt.failCollective e f).2 := by
  refine effect_onExecution fun ex hex => ?_
  split
  · next hfailed =>
    -- a failed execution stays so, which the table would forbid
    exact .moves (.same hex) (.refused rfl (by rw [hfailed]; rfl) (.refl _)) rfl le_rfl
  · cases ht : ex.lifecycle.transitionTo .failed with
    | error err =>
      exact .moves (.same hex) (.refused rfl (CollectiveStateMachine.transitionTo_error ht)
        (.refl _)) rfl le_rfl
    | ok lc =>
      simp only
      split
      · exact effect_write hex rfl (.failed ht (.refl _)) rfl le_rfl
      · exact effect_write hex rfl (.failed ht ⟨rfl, rfl, rfl⟩) rfl le_rfl

theorem effect_completeRank (r : RankId) :
    Effect rt (some (e, .completeRank r)) (rt.completeRank e r).2 := by
  refine effect_onExecution fun ex hex => ?_
  split
  · next hmem => exact .moves (.same hex) (.repeated hmem (.refl _)) rfl le_rfl
  · next hmem =>
    by_cases hzero : rt.accounting.activeRankContributions = 0
    · simp only [Accounting.rankContributionComplete, if_pos hzero]
      exact effect_write hex rfl (.uncounted hmem hzero (.refl _)) rfl le_rfl
    · simp only [Accounting.rankContributionComplete, if_neg hzero]
      refine effect_write hex ?_ (.counted hmem hzero ⟨rfl, rfl, rfl⟩) rfl le_rfl
      -- the source asks for `COMPLETING` from `RUNNING` alone, as the table does
      have htry : (if ex.lifecycle.state = .running then
          { ex with
            rankCompletions := ex.rankCompletions.insert r true
            lifecycle := ex.lifecycle.tryTransitionTo .completing }
          else { ex with rankCompletions := ex.rankCompletions.insert r true }) =
          { ex with
            rankCompletions := ex.rankCompletions.insert r true
            lifecycle := ex.lifecycle.tryTransitionTo .completing } := by
        split
        · rfl
        · next hstate =>
          rcases CollectiveStateMachine.tryTransitionTo_cases ex.lifecycle .completing with
            ⟨hallowed, -⟩ | ⟨-, heq⟩
          · exact absurd hallowed (by revert hstate; cases ex.lifecycle.state <;> decide)
          · rw [heq]
      simp only [htry]
      rfl

theorem effect_commitCaught (f : CollectiveFailure) :
    Effect rt (some (e, .commitCaught f)) (rt.commitCaught e f).2 := by
  refine effect_onExecution fun ex hex => ?_
  simp only
  split
  · exact effect_write hex rfl (.caught (.refl _)) rfl le_rfl
  · exact effect_write hex rfl (.caught ⟨rfl, rfl, rfl⟩) rfl le_rfl

theorem effect_commitReturned (env : Ambient) (call : Call) (outputs : List (List UInt8)) :
    Effect rt (some (call.execution, .commitReturned call outputs))
      (rt.commitReturned env call outputs).2 := by
  refine effect_onExecution fun ex hex => ?_
  have hsettle : rt.commitExecution call outputs ex =
      rt.settle ex (completeRanks ex.rankCompletions call.rankCount) outputs := rfl
  have hdescriptor := settle_descriptor rt ex
    (completeRanks ex.rankCompletions call.rankCount) outputs
  simp only [hsettle]
  cases hbytes : (rt.settle ex (completeRanks ex.rankCompletions call.rankCount)
      outputs).descriptor.elementByteCount with
  | error err =>
    rw [hdescriptor] at hbytes
    exact effect_write hex rfl (.unmeasured hbytes (.refl _)) rfl (Nat.le_succ _)
  | ok bytes =>
    by_cases hzero : rt.accounting.activeCollectives = 0
    · simp only [Accounting.collectiveCompleted, if_pos hzero]
      exact effect_write hex rfl (.unpaired hzero (.refl _)) rfl (Nat.le_succ _)
    · simp only [Accounting.collectiveCompleted, if_neg hzero]
      exact effect_write hex rfl (.measured hzero rfl rfl rfl) rfl (Nat.le_succ _)

theorem effect_createCollective (d : CollectiveDescriptor) :
    Effect rt none (rt.createCollective d).2 := by
  unfold createCollective
  split_ifs with hnull hgroup
  · exact .quiet (fun _ _ h => by cases h) (.refl rt)
  · cases d.validate with
    | error err => exact .quiet (fun _ _ h => by cases h) (.refl rt)
    | ok u => exact .creates hgroup rfl (.refl _) rfl rfl
  · exact .quiet (fun _ _ h => by cases h) (.refl rt)

theorem effect_executeBegin (env : Ambient) (inputs : List (List UInt8)) :
    Effect rt (some (e, .begin inputs)) (rt.executeBegin env e inputs).2 := by
  unfold executeBegin
  cases hex : rt.executions[e]? with
  | none =>
    refine .quiet (fun e' a' heq => ?_) (.refl rt)
    cases heq
    exact hex
  | some ex =>
    simp only
    split
    · exact .moves (.same hex) (.withheld (.refl _)) rfl le_rfl
    · cases ht : ex.lifecycle.transitionTo .running with
      | error err =>
        exact .moves (.same hex) (.refused rfl (CollectiveStateMachine.transitionTo_error ht)
          (.refl _)) rfl le_rfl
      | ok lc => exact effect_write hex rfl (.begun ht (.refl _)) rfl le_rfl

/-- A call on no execution changes none and nothing of the account. -/
theorem quiet_of_act_none {op : Operation} (h : op.act = none)
    (hcreate : ∀ d, op ≠ .createCollective d) : Quiet rt (op.apply rt) := by
  cases op with
  | createCollective d => exact absurd rfl (hcreate d)
  | registerBackend b => cases b <;> exact ⟨rfl, .refl _, fun _ _ h => h, le_rfl⟩
  | registerGroup g =>
    simp only [Operation.apply, registerGroup]
    split
    · exact .refl rt
    · next hfree =>
      refine ⟨rfl, .refl _, fun key grp hgrp => ?_, le_rfl⟩
      refine (OrdMap.getElem?_insert_of_ne rt.groups (fun heq => hfree ?_) g).trans hgrp
      rw [heq]
      exact Std.TreeMap.mem_iff_isSome_getElem?.2 (by rw [hgrp]; rfl)
  | updateHealth h =>
    simp only [Operation.apply, updateHealth]
    split <;> exact ⟨rfl, ⟨rfl, rfl, rfl⟩, fun _ _ h => h, le_rfl⟩
  | adoptTopology | ingestMeasurement | advanceEpoch | setLiveBoot | activeRankContribution =>
    exact ⟨rfl, ⟨rfl, rfl, rfl⟩, fun _ _ h => h, le_rfl⟩
  | planCollective | reserveCollective | dispatchCollective | completeRank | failCollective
  | abortCollective | cancelCollective | markStaleCollective => cases h

theorem effect_apply (op : Operation) : Effect rt op.act (op.apply rt) := by
  cases op with
  | createCollective d => exact effect_createCollective d
  | planCollective env e inp => exact effect_planCollective env inp
  | reserveCollective e => exact effect_reserveCollective
  | dispatchCollective e => exact effect_dispatchCollective
  | completeRank e r => exact effect_completeRank r
  | failCollective e f => exact effect_failCollective f
  | abortCollective e => exact effect_abortCollective
  | cancelCollective e => exact effect_cancelCollective
  | markStaleCollective e => exact effect_markStaleCollective
  | registerBackend | adoptTopology | registerGroup | ingestMeasurement | updateHealth
  | advanceEpoch | setLiveBoot | activeRankContribution =>
    exact .quiet (fun _ _ h => by cases h) (quiet_of_act_none rfl fun _ h => by cases h)

end Runtime

/-- **Every step has the effect of the act it is.** -/
theorem System.effect_step (s : System) (ev : Event) :
    Runtime.Effect s.runtime (s.act ev) (s.step ev).runtime := by
  cases ev with
  | call op => exact Runtime.effect_apply op
  | begin c env e inputs =>
    simp only [System.step, System.begin, System.act]
    split
    · exact .quiet (fun _ _ h => by cases h) (.refl _)
    · have h := @Runtime.effect_executeBegin s.runtime e env inputs
      split <;> next heq => rwa [heq] at h
  | engine c env =>
    simp only [System.step, System.engine]
    split <;> exact .quiet (fun _ _ h => by cases h) (.refl _)
  | commit c env =>
    simp only [System.step, System.commit, System.act]
    cases hcall : s.calls[c]? with
    | none => exact .quiet (fun _ _ h => by cases h) (.refl _)
    | some call =>
      simp only [Option.bind_some, Call.act, Runtime.executeCommit]
      cases call.stage with
      | begun => exact .quiet (fun _ _ h => by cases h) (.refl _)
      | caught failure => exact Runtime.effect_commitCaught failure
      | returned outputs => exact Runtime.effect_commitReturned env call outputs

/-! ## Conditions on a step -/

namespace System

/-- What is done to an execution, if the event is on one there is, meets
`Q`. -/
def OnAct (Q : Runtime → Execution → Act → Prop) (s : System) (ev : Event) : Prop :=
  ∀ on ∈ s.act ev, ∀ ex ∈ s.runtime.executions[on.1]?, Q s.runtime ex on.2

variable {Q : Runtime → Execution → Act → Prop} {s : System} {ev : Event}

instance [∀ rt ex a, Decidable (Q rt ex a)] : Decidable (s.OnAct Q ev) := by
  unfold OnAct
  infer_instance

theorem OnAct.apply (h : s.OnAct Q ev) {e : ExecutionId} {a : Act} {ex : Execution}
    (hact : s.act ev = some (e, a)) (hex : s.runtime.executions[e]? = some ex) :
    Q s.runtime ex a :=
  h (e, a) hact ex hex

/-- **The rule of conditions on acts.** When what holds after a step that
moves no execution always does, and after a move exactly if the act meets
`Q`, it holds after the step exactly if the step meets `Q`. -/
theorem iff_onAct {P : Prop}
    (hquiet : (∀ e a, s.act ev = some (e, a) → s.runtime.executions[e]? = none) →
      Runtime.Quiet s.runtime (s.step ev).runtime → P)
    (hcreates : ∀ d, s.act ev = none → (s.step ev).runtime.executions =
        s.runtime.executions.insert ⟨s.runtime.freshId⟩ (s.runtime.newExecution d) →
      SameBooks s.runtime.accounting (s.step ev).runtime.accounting →
      (s.step ev).runtime.nextId = s.runtime.nextId + 2 → P)
    (hmoves : ∀ e a ex ex', s.act ev = some (e, a) →
      OrdMap.Change s.runtime.executions (s.step ev).runtime.executions e ex ex' →
      Runtime.Moves s.runtime ex a ex' (s.step ev).runtime → (P ↔ Q s.runtime ex a)) :
    P ↔ s.OnAct Q ev := by
  have heffect := s.effect_step ev
  generalize hon : s.act ev = on at heffect hquiet hcreates hmoves
  unfold OnAct
  rw [hon]
  cases heffect with
  | quiet hnone h =>
    refine iff_of_true (hquiet hnone h) ?_
    rintro ⟨e, a⟩ (rfl : on = _) ex (hex : _ = some ex)
    rw [hnone e a rfl] at hex
    cases hex
  | @creates d _ _ hexecutions hbooks _ hid =>
    exact iff_of_true (hcreates d rfl hexecutions hbooks hid) fun _ h => by cases h
  | moves hchange h _ _ =>
    rw [hmoves _ _ _ _ rfl hchange h]
    constructor
    · rintro hQ on (hon : _ = some on) ex (hex : _ = some ex)
      cases hon
      obtain rfl := Option.some.inj (hchange.before.symm.trans hex)
      exact hQ
    · exact fun h => h _ rfl _ hchange.before

end System

end CollectiveFabric
