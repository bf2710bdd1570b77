import CollectiveFabric.Runtime.Invariant

/-!
# Superseded generations

A reconfiguration registers a later generation of a group beside the ones
before it. Nothing compares the two when a success is entered: an
execution of an earlier generation succeeds like any other. So a run keeps
superseded generations from committing exactly when no act completes the
quorum of a `RUNNING` or `COMPLETING` execution of one.
-/

namespace CollectiveFabric

open Common

namespace Runtime

open CollectiveStateMachine

variable {rt rt' : Runtime} {ex ex' : Execution} {a : Act}

/-- A later generation of the execution's group is registered. -/
def Superseded (rt : Runtime) (ex : Execution) : Prop :=
  ∃ key : GroupKey, key ∈ rt.groups ∧ ex.descriptor.groupId = key.1 ∧
    ex.descriptor.groupGeneration < key.2

instance (rt : Runtime) (ex : Execution) : Decidable (rt.Superseded ex) :=
  decidable_of_iff (∃ key ∈ rt.groups.keys, ex.descriptor.groupId = key.1 ∧
    ex.descriptor.groupGeneration < key.2) (by simp only [Superseded, Std.TreeMap.mem_keys])

/-- The completions an act leaves meet the quorum of the execution's
group. -/
def MeetsQuorum (rt : Runtime) (ex : Execution) (completions : OrdMap RankId Bool) : Prop :=
  ∃ grp ∈ rt.groupOf ex, quorum grp completions = true

instance (rt : Runtime) (ex : Execution) (completions : OrdMap RankId Bool) :
    Decidable (rt.MeetsQuorum ex completions) :=
  inferInstanceAs (Decidable (∃ grp ∈ rt.groupOf ex, quorum grp completions = true))

/-- The act completes the quorum of a `RUNNING` or `COMPLETING` execution:
the commit of a returned call, or the report of a rank that had not
completed and has a contribution active. -/
def CompletesQuorum (rt : Runtime) (ex : Execution) : Act → Prop
  | .commitReturned call _ =>
    (ex.lifecycle.state = .running ∨ ex.lifecycle.state = .completing) ∧
      rt.MeetsQuorum ex (completeRanks ex.rankCompletions call.rankCount)
  | .completeRank r =>
    (ex.lifecycle.state = .running ∨ ex.lifecycle.state = .completing) ∧
      r ∉ ex.rankCompletions ∧ rt.accounting.activeRankContributions ≠ 0 ∧
      rt.MeetsQuorum ex (ex.rankCompletions.insert r true)
  | _ => False

instance (rt : Runtime) (ex : Execution) : (a : Act) → Decidable (rt.CompletesQuorum ex a)
  | .commitReturned _ _ => inferInstanceAs (Decidable (_ ∧ _))
  | .completeRank _ => inferInstanceAs (Decidable (_ ∧ _ ∧ _ ∧ _))
  | .plan | .reserve | .dispatch | .begin _ | .commitCaught _ | .fail _ | .abort | .cancel
  | .markStale => isFalse id

/-! ## Entering a success -/

/-- Without a group settling ends in `FAILED` at most. -/
theorem succeeded_of_settle (hgrp : rt.groupOf ex = none) {completions : OrdMap RankId Bool}
    {outputs : List (List UInt8)}
    (hmem : .succeeded ∈ (rt.settle ex completions outputs).lifecycle.entered) :
    .succeeded ∈ ex.lifecycle.entered := by
  unfold settle at hmem
  rcases applyQuorum_cases rt { ex with
      rankCompletions := completions
      outputs := outputs
      lifecycle := ex.lifecycle.tryTransitionTo .completing } with
    ⟨-, heq⟩ | ⟨grp, hsome, -⟩
  · rw [heq] at hmem
    have hmem := (mem_of_tryTransitionTo hmem).resolve_left (by decide)
    exact (mem_of_tryTransitionTo hmem).resolve_left (by decide)
  · have hnone : rt.groupOf { ex with
        rankCompletions := completions
        outputs := outputs
        lifecycle := ex.lifecycle.tryTransitionTo .completing } = none := hgrp
    rw [hnone] at hsome
    cases hsome

/-- **Settling enters `SUCCEEDED`** exactly from `RUNNING` or `COMPLETING`
with the quorum met. -/
theorem settle_succeeds {completions : OrdMap RankId Bool} {outputs : List (List UInt8)} :
    (.succeeded ∉ ex.lifecycle.entered ∧
        .succeeded ∈ (rt.settle ex completions outputs).lifecycle.entered) ↔
      (ex.lifecycle.state = .running ∨ ex.lifecycle.state = .completing) ∧
        rt.MeetsQuorum ex completions := by
  have hbefore (h : ex.lifecycle.state = .running ∨ ex.lifecycle.state = .completing) :
      .succeeded ∉ ex.lifecycle.entered := by
    intro hmem
    rcases state_of_outcome hmem (.inl rfl) with hstate | ⟨hstate, -⟩ <;>
      rcases h with h | h <;> exact absurd (h.symm.trans hstate) (by decide)
  cases hgrp : rt.groupOf ex with
  | none =>
    refine iff_of_false ?_ ?_
    · rintro ⟨hnot, hmem⟩
      exact hnot (succeeded_of_settle hgrp hmem)
    · rintro ⟨-, grp, hsome, -⟩
      rw [hgrp] at hsome
      cases hsome
  | some grp =>
    have hmeets : rt.MeetsQuorum ex completions ↔ quorum grp completions = true := by
      simp [MeetsQuorum, hgrp]
    rw [hmeets]
    rcases settle_cases hgrp completions outputs with
      ⟨hq, hstate, hsucc⟩ | ⟨hq, hrun, hcompleting⟩ | ⟨hnot, -, hsame⟩
    · refine iff_of_true ⟨hbefore hstate, ?_⟩ ⟨hstate, hq⟩
      rw [entered, hsucc]
      exact List.mem_cons_self ..
    · -- it is `COMPLETING` now, and a success entered earlier would have stayed
      refine iff_of_false ?_ ?_
      · rintro ⟨-, hmem⟩
        rcases state_of_outcome hmem (.inl rfl) with h | ⟨h, -⟩ <;>
          exact absurd (hcompleting.symm.trans h) (by decide)
      · rintro ⟨-, hq'⟩
        rw [hq] at hq'
        cases hq'
    · rw [hsame]
      exact iff_of_false (fun h => h.1 h.2) fun h => hnot h.symm

/-- **A move enters `SUCCEEDED`** exactly if its act completes the
quorum. -/
theorem Moves.succeeds_iff (h : Moves rt ex a ex' rt') :
    (.succeeded ∉ ex.lifecycle.entered ∧ .succeeded ∈ ex'.lifecycle.entered) ↔
      rt.CompletesQuorum ex a := by
  -- every move but settling enters another state, or none
  have hother {dst : CollectiveState} {lc : CollectiveStateMachine}
      (ht : ex.lifecycle.transitionTo dst = .ok lc) (hdst : .succeeded ≠ dst) :
      ¬(.succeeded ∉ ex.lifecycle.entered ∧ .succeeded ∈ lc.entered) :=
    fun h => h.1 ((mem_of_transitionTo ht h.2).resolve_left hdst)
  cases h with
  | planned ht | dispatched ht | begun ht | cancelled ht | staled ht | overflowed ht
  | doubled ht | reserved ht | failed ht | unstarted ht | aborted ht =>
    exact iff_of_false (hother ht (by decide)) id
  | caught =>
    exact iff_of_false
      (fun h => h.1 ((mem_of_tryTransitionTo h.2).resolve_left (by decide))) id
  | unmeasured | unpaired | measured => exact settle_succeeds
  | counted hmem hpos _ =>
    rw [settle_succeeds]
    exact ⟨fun ⟨hstate, hq⟩ => ⟨hstate, hmem, hpos, hq⟩, fun ⟨hstate, _, _, hq⟩ => ⟨hstate, hq⟩⟩
  | refused hasks =>
    refine iff_of_false (fun h => h.1 h.2) ?_
    cases a <;> first | exact id | cases hasks
  | withheld => exact iff_of_false (fun h => h.1 h.2) id
  | repeated hmem => exact iff_of_false (fun h => h.1 h.2) fun h => h.2.1 hmem
  | uncounted _ hzero => exact iff_of_false (fun h => h.1 h.2) fun h => h.2.2.1 hzero

end Runtime

namespace System

variable {s : System} {ev : Event} {e : ExecutionId} {ex' : Execution}

/-- The event makes an execution enter `SUCCEEDED`. -/
def Enters (s : System) (ev : Event) (e : ExecutionId) (ex' : Execution) : Prop :=
  (s.step ev).runtime.executions[e]? = some ex' ∧ .succeeded ∈ ex'.lifecycle.entered ∧
    ∀ ex, s.runtime.executions[e]? = some ex → .succeeded ∉ ex.lifecycle.entered

/-- From the moment a group is registered on, no execution of an earlier
generation of it enters `SUCCEEDED`. -/
def SupersededNeverCommit (s : System) (evs : List Event) : Prop :=
  Run.Since step (fun (key : GroupKey) s => key ∈ s.runtime.groups)
    (fun key s ev => ∀ e ex', s.Enters ev e ex' → ex'.descriptor.groupId = key.1 →
      ¬ex'.descriptor.groupGeneration < key.2) s evs

/-- An act on an execution of a superseded generation does not complete its
quorum. -/
def LeavesSuperseded (rt : Runtime) (ex : Execution) (a : Act) : Prop :=
  rt.Superseded ex → ¬rt.CompletesQuorum ex a

instance (rt : Runtime) (ex : Execution) (a : Act) : Decidable (LeavesSuperseded rt ex a) :=
  inferInstanceAs (Decidable (_ → ¬_))

/-- A registered group stays registered. -/
theorem mem_groups_step {key : GroupKey} (h : key ∈ s.runtime.groups) :
    key ∈ (s.step ev).runtime.groups := by
  obtain ⟨grp, hgrp⟩ := Option.isSome_iff_exists.1 (Std.TreeMap.mem_iff_isSome_getElem?.1 h)
  have hgrp' := (s.effect_step ev).groups hgrp
  exact Std.TreeMap.mem_iff_isSome_getElem?.2 (by rw [hgrp']; rfl)

/-- Whether a generation is superseded is the same before and after a move. -/
theorem superseded_of_moves {rt' : Runtime} {ex : Execution} {a : Act}
    (h : Runtime.Moves s.runtime ex a ex' rt') :
    s.runtime.Superseded ex' ↔ s.runtime.Superseded ex := by
  unfold Runtime.Superseded
  rw [h.descriptor]

/-- **One step commits nothing superseded** exactly if its act completes
the quorum of no execution of a superseded generation. -/
theorem enters_iff (s : System) (ev : Event) :
    (∀ e ex', s.Enters ev e ex' → ¬s.runtime.Superseded ex') ↔
      s.OnAct LeavesSuperseded ev := by
  have heffect := s.effect_step ev
  constructor
  · rintro h ⟨e, a⟩ (hact : s.act ev = some (e, a)) ex (hex : s.runtime.executions[e]? = some ex)
    intro hsup hcompletes
    rw [hact] at heffect
    obtain ⟨ex', hex', hmoves⟩ := heffect.moved hex
    obtain ⟨hnot, hmem⟩ := hmoves.succeeds_iff.2 hcompletes
    refine h e ex' ⟨hex', hmem, fun ex₀ hex₀ => ?_⟩ ((superseded_of_moves hmoves).2 hsup)
    obtain rfl := Option.some.inj (hex.symm.trans hex₀)
    exact hnot
  · rintro h e ex' ⟨hex', hmem, hbefore⟩ hsup
    rcases heffect.origin hex' with ⟨hex, -⟩ | ⟨a, ex, hact, hex, hmoves⟩ | ⟨d, -, -, rfl, -⟩
    · exact hbefore ex' hex hmem
    · have hcompletes := hmoves.succeeds_iff.1 ⟨hbefore ex hex, hmem⟩
      exact h.apply hact hex ((superseded_of_moves hmoves).1 hsup) hcompletes
    · simp at hmem

/-! ## Main results -/

/-- **A run keeps superseded generations from committing** exactly if all
along it no act completes the quorum of an execution of one. -/
theorem supersededNeverCommit_iff (evs : List Event) :
    SupersededNeverCommit init evs ↔ Run.Along step (OnAct LeavesSuperseded) init evs := by
  -- a group registered once is registered before every later step
  have hstays (key : GroupKey) (s : System) (ev : Event) (h : key ∈ s.runtime.groups) :
      key ∈ (s.step ev).runtime.groups := mem_groups_step h
  refine (Run.since_iff_along hstays).trans (Run.along_congr fun s ev => ?_)
  rw [← enters_iff]
  constructor
  · rintro h e ex' henters ⟨key, hkey, hid, hlt⟩
    exact h key hkey e ex' henters hid hlt
  · intro h key hkey e ex' henters hid hlt
    exact h e ex' henters ⟨key, hkey, hid, hlt⟩

/-- A broadcast on generation 1 of a group, whose generation 2 is registered
before the broadcast is dispatched, up to its commit. -/
def overtakenBroadcast : List Event :=
  match ({ soloGroup with generation := ⟨2⟩ }).build.1 with
  | .error _ => []
  | .ok group =>
    reserving (soloDescriptor .broadcast .none) ++
      [.call (.registerGroup group), .call (.dispatchCollective ⟨1⟩),
        .begin 0 still ⟨1⟩ [[5]], .engine 0 still]

/-- **It commits all the same.** -/
theorem not_supersededNeverCommit_overtaken :
    ¬SupersededNeverCommit init (overtakenBroadcast ++ [.commit 0 still]) := by
  intro h
  have hregistered : (⟨7⟩, ⟨2⟩) ∈ (Run.run step init overtakenBroadcast).runtime.groups := by
    decide +kernel
  have hbefore : ((Run.run step init overtakenBroadcast).runtime.executions[
      (⟨1⟩ : ExecutionId)]?.all fun ex => .succeeded ∉ ex.lifecycle.entered) = true := by
    decide +kernel
  have hafter : (((Run.run step init overtakenBroadcast).step
      (.commit 0 still)).runtime.executions[(⟨1⟩ : ExecutionId)]?.any fun ex =>
        .succeeded ∈ ex.lifecycle.entered ∧ ex.descriptor.groupId = ⟨7⟩ ∧
          ex.descriptor.groupGeneration = ⟨1⟩) = true := by
    decide +kernel
  obtain ⟨ex', hex', hp⟩ := (Option.any_eq_true _ _).1 hafter
  obtain ⟨hmem, hid, hgeneration⟩ := of_decide_eq_true hp
  have henters : (Run.run step init overtakenBroadcast).Enters (.commit 0 still) ⟨1⟩ ex' :=
    ⟨hex', hmem, fun ex hex => of_decide_eq_true ((Option.all_eq_true _ _).1 hbefore ex hex)⟩
  have hnot := (h overtakenBroadcast [.commit 0 still] rfl (⟨7⟩, ⟨2⟩) hregistered).1
  refine hnot ⟨1⟩ ex' henters hid ?_
  rw [hgeneration]
  decide

end System

end CollectiveFabric
