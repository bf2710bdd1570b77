import CollectiveFabric.Runtime.Invariant

/-!
# Successes and the engine's answers

An execution that has been `RUNNING` is in one of three situations: a
call on it is in flight, it will never succeed, or its outputs are the
engine's answer to the inputs it was begun with. A failure record means
it will never succeed, as long as no caught call commits on an execution
that is `SUCCEEDED`: that commit leaves the lifecycle and records the
failure all the same.
-/

namespace CollectiveFabric

open Common

namespace System

open CollectiveStateMachine

variable {s : System} {e : ExecutionId} {ex ex' : Execution} {ev : Event}

/-- The outputs are what the engine returns for the inputs of the call
that moved the execution to `RUNNING`. -/
def Answered (s : System) (e : ExecutionId) (ex : Execution) : Prop :=
  ∃ inputs, s.started[e]? = some inputs ∧
    Runtime.engineCall ex.descriptor (s.runtime.rankCountOf ex) inputs = .returns ex.outputs

/-- A success with no call in flight has the engine's answer and no
failure record. -/
def Resulted (s : System) : Prop :=
  ∀ (e : ExecutionId) (ex : Execution), s.runtime.executions[e]? = some ex →
    ex.lifecycle.state = .succeeded → ¬s.InFlight e → s.Answered e ex ∧ ex.failure = none

/-- A caught call finds its execution in another state than `SUCCEEDED`. -/
def BeforeSuccess (_ : Runtime) (ex : Execution) : Act → Prop
  | .commitCaught _ => ex.lifecycle.state ≠ .succeeded
  | _ => True

instance (rt : Runtime) (ex : Execution) : (a : Act) → Decidable (BeforeSuccess rt ex a)
  | .commitCaught _ => inferInstanceAs (Decidable (_ ≠ _))
  | .plan | .reserve | .dispatch | .begin _ | .commitReturned _ _ | .completeRank _ | .fail _
  | .abort | .cancel | .markStale => isTrue trivial

/-- An event that commits a caught call does so before any success. -/
abbrev CatchesInTime : System → Event → Prop := OnAct BeforeSuccess

/-- What each execution is in the middle of, or at the end of. -/
structure Accounted (s : System) : Prop where
  failure : ∀ (e : ExecutionId) (ex : Execution), s.runtime.executions[e]? = some ex →
    ex.failure = none ∨ ex.lifecycle.state.IsDead
  answer : ∀ (e : ExecutionId) (ex : Execution), s.runtime.executions[e]? = some ex →
    .running ∈ ex.lifecycle.entered → s.InFlight e ∨ ex.lifecycle.state.IsDead ∨ s.Answered e ex

theorem accounted_init : init.Accounted where
  failure _ _ h := by simp [init] at h
  answer _ _ h := by simp [init] at h

/-! ## Calls in flight -/

/-- A call stays in flight until it commits. -/
theorem inFlight_step (h : s.InFlight e) :
    (s.step ev).InFlight e ∨ (∃ f, s.act ev = some (e, .commitCaught f)) ∨
      ∃ call outputs, s.act ev = some (e, .commitReturned call outputs) := by
  obtain ⟨c, call, hcall, rfl⟩ := h
  cases ev with
  | call op => exact .inl ⟨c, call, hcall, rfl⟩
  | begin c' env e' inputs =>
    left
    simp only [step, begin]
    split
    · exact ⟨c, call, hcall, rfl⟩
    · next hfree =>
      have hne : c' ≠ c := by
        rintro rfl
        exact hfree (Std.TreeMap.mem_iff_isSome_getElem?.2 (by rw [hcall]; rfl))
      split
      · exact ⟨c, call, hcall, rfl⟩
      · exact ⟨c, call, (OrdMap.getElem?_insert_of_ne s.calls hne _).trans hcall, rfl⟩
  | engine c' env =>
    left
    simp only [step, engine]
    split
    · exact ⟨c, call, hcall, rfl⟩
    · next call' hengine =>
      by_cases hne : c' = c
      · subst hne
        refine ⟨c', call', OrdMap.getElem?_insert_same .., ?_⟩
        rw [hcall, Option.bind_some] at hengine
        unfold Runtime.executeEngine at hengine
        split at hengine
        · split at hengine <;> cases hengine <;> rfl
        · cases hengine
      · exact ⟨c, call, (OrdMap.getElem?_insert_of_ne s.calls hne _).trans hcall, rfl⟩
  | commit c' env =>
    by_cases hne : c' = c
    · subst hne
      simp only [step, commit, act, hcall, Option.bind_some, Call.act, Runtime.executeCommit]
      cases hstage : call.stage with
      | begun => exact .inl ⟨c', call, hcall, rfl⟩
      | caught f => exact .inr (.inl ⟨f, rfl⟩)
      | returned outputs => exact .inr (.inr ⟨call, outputs, rfl⟩)
    · left
      simp only [step, commit]
      split
      · exact ⟨c, call, hcall, rfl⟩
      · split
        · exact ⟨c, call, hcall, rfl⟩
        · refine ⟨c, call, ?_, rfl⟩
          rw [Std.TreeMap.getElem?_erase, if_neg, hcall]
          exact fun h => hne (Std.LawfulEqOrd.compare_eq_iff_eq.1 h)

/-- A begin on an execution puts a call in flight. -/
theorem inFlight_begin {inputs : List (List UInt8)} (hact : s.act ev = some (e, .begin inputs))
    (hex : s.runtime.executions[e]? = some ex) : (s.step ev).InFlight e := by
  cases ev with
  | call op => cases op <;> simp [act, Operation.act] at hact
  | engine c env => cases hact
  | commit c env =>
    obtain ⟨call, -, hcall⟩ := Option.bind_eq_some_iff.1 hact
    unfold Call.act at hcall
    split at hcall <;> simp at hcall
  | begin c env e' inputs' =>
    simp only [act] at hact
    split at hact
    · cases hact
    · next hfree =>
      obtain ⟨rfl, rfl⟩ : e' = e ∧ inputs' = inputs := by simpa using hact
      simp only [step, begin, if_neg hfree]
      rcases Runtime.executeBegin_cases s.runtime env e' inputs' with
        ⟨hnone, -⟩ | ⟨ex, -, ⟨f, heq⟩ | ⟨lc, bytes, -, -, heq⟩⟩
      · rw [hnone] at hex
        cases hex
      · rw [heq]
        exact ⟨c, _, OrdMap.getElem?_insert_same .., rfl⟩
      · rw [heq]
        exact ⟨c, _, OrdMap.getElem?_insert_same .., rfl⟩

/-- The inputs an execution was begun with stay, once it is there. -/
theorem started_step (hex : s.runtime.executions[e]? = some ex) :
    (s.step ev).started[e]? = s.started[e]? ∨ (s.step ev).InFlight e := by
  by_cases hbegin : ∃ inputs, s.act ev = some (e, .begin inputs)
  · obtain ⟨inputs, hact⟩ := hbegin
    exact .inr (inFlight_begin hact hex)
  left
  cases ev with
  | call op => rfl
  | engine c env =>
    simp only [step, engine]
    split <;> rfl
  | commit c env =>
    simp only [step, commit]
    split
    · rfl
    · split <;> rfl
  | begin c env e' inputs =>
    simp only [step, begin]
    split
    · rfl
    · next hfree =>
      have hne : e' ≠ e := by
        rintro rfl
        exact hbegin ⟨inputs, by simp only [act, if_neg hfree]⟩
      split
      · rfl
      · split
        · exact OrdMap.getElem?_insert_of_ne s.started hne inputs
        · rfl

/-! ## One step -/

/-- A commit of a returned call leaves the engine's answer. -/
theorem answered_commit (hs : s.Sound) {call : Call} {outputs : List (List UInt8)}
    (hact : s.act ev = some (e, .commitReturned call outputs))
    (hex : s.runtime.executions[e]? = some ex)
    (hmoves : Runtime.Moves s.runtime ex (.commitReturned call outputs) ex' (s.step ev).runtime)
    (hstarted : (s.step ev).started[e]? = s.started[e]?) : (s.step ev).Answered e ex' := by
  obtain ⟨c, env, -, -, rfl, hstage⟩ := call_of_act hact
  obtain ⟨⟨grp, hgrp, hcount⟩, -, -, hinputs, hanswer⟩ := hs.backed hact hex
  refine ⟨call.inputs, hstarted.trans hinputs, ?_⟩
  have hsame := (s.effect_step ev).rankCountOf hmoves.grows ⟨grp, hgrp⟩
  have hrank : s.runtime.rankCountOf ex = call.rankCount := by
    rw [Runtime.rankCountOf, hgrp, hcount]
    rfl
  rw [hmoves.descriptor, hsame, hrank, hmoves.stored.1]
  exact hanswer outputs hstage

/-- What an execution is in the middle or at the end of stays, when nothing
commits on it. -/
theorem answer_kept (hs : s.Sound) (h : s.Accounted) (hex : s.runtime.executions[e]? = some ex)
    (hgrows : ex.Grows ex') (houtputs : ex'.outputs = ex.outputs)
    (hrun : .running ∈ ex.lifecycle.entered) (hnot : ¬(s.step ev).InFlight e)
    (hno : ∀ a, s.act ev = some (e, a) →
      (∀ f, a ≠ .commitCaught f) ∧ ∀ call outputs, a ≠ .commitReturned call outputs) :
    ex'.lifecycle.state.IsDead ∨ (s.step ev).Answered e ex' := by
  rcases h.answer e ex hex hrun with hfl | hdead | ⟨inputs, hstarted, hanswer⟩
  · have hstep : (s.step ev).InFlight e ∨ _ := inFlight_step hfl
    rcases hstep with hfl | ⟨f, hact⟩ | ⟨call, outputs, hact⟩
    · exact absurd hfl hnot
    · exact absurd rfl ((hno _ hact).1 f)
    · exact absurd rfl ((hno _ hact).2 call outputs)
  · exact .inl (isDead_of_extends hgrows.lifecycle hdead)
  · right
    refine ⟨inputs, ((started_step hex).resolve_right hnot).trans hstarted, ?_⟩
    have hsame := (s.effect_step ev).rankCountOf hgrows (hs.runtime.grouped e ex hex)
    rw [hgrows.descriptor, hsame, houtputs]
    exact hanswer

/-- **One step keeps the account**, if it commits no caught call on a
success. -/
theorem accounted_step (s : System) (ev : Event) (hs : s.Sound) (hin : s.CatchesInTime ev)
    (h : s.Accounted) : (s.step ev).Accounted := by
  constructor
  · intro e ex' hex'
    rcases (s.effect_step ev).origin hex' with
      ⟨hex, -⟩ | ⟨a, ex, hact, hex, hmoves⟩ | ⟨d, -, -, rfl, -⟩
    · exact h.failure e ex' hex
    · have hbefore := hin.apply hact hex
      rcases hmoves.failure (by rintro f rfl; exact hbefore) with hsame | hdead
      · rw [hsame]
        exact (h.failure e ex hex).imp_right (isDead_of_extends hmoves.extends)
      · exact .inr hdead
    · exact .inl rfl
  · intro e ex' hex' hrun
    by_cases hfl : (s.step ev).InFlight e
    · exact .inl hfl
    right
    rcases (s.effect_step ev).origin hex' with
      ⟨hex, hnot⟩ | ⟨a, ex, hact, hex, hmoves⟩ | ⟨d, -, -, rfl, -⟩
    · exact answer_kept hs h hex (.refl _) rfl hrun hfl fun a hact => absurd hact (hnot a)
    · by_cases hreturned : ∃ call outputs, a = .commitReturned call outputs
      · obtain ⟨call, outputs, rfl⟩ := hreturned
        exact .inr (answered_commit hs hact hex hmoves ((started_step hex).resolve_right hfl))
      by_cases hcaught : ∃ f, a = .commitCaught f
      · obtain ⟨f, rfl⟩ := hcaught
        exact .inl (hmoves.caught_dead (hin.apply hact hex))
      -- nothing commits: a begin would be in flight, and the outputs stay
      have hbegin (inputs : List (List UInt8)) : a ≠ .begin inputs := by
        rintro rfl
        exact hfl (inFlight_begin hact hex)
      have hno (call : Call) (outputs : List (List UInt8)) : a ≠ .commitReturned call outputs :=
        fun heq => hreturned ⟨call, outputs, heq⟩
      refine answer_kept hs h hex hmoves.grows (hmoves.results hno).1
        (hmoves.running hbegin hrun) hfl fun a' hact' => ?_
      rw [hact] at hact'
      cases hact'
      exact ⟨fun f heq => hcaught ⟨f, heq⟩, hno⟩
    · simp at hrun

/-! ## Main results -/

/-- The account says what a success without calls has. -/
theorem Accounted.resulted (h : s.Accounted) : s.Resulted := by
  intro e ex hex hsucc hfl
  have halive : ¬ex.lifecycle.state.IsDead := by
    rw [hsucc]
    unfold CollectiveState.IsDead
    simp
  have hrun : .running ∈ ex.lifecycle.entered := by
    have hmem : .succeeded ∈ ex.lifecycle.entered := by
      rw [entered, hsucc]
      exact List.mem_cons_self ..
    rcases entered_of_succeeded hmem with hline | hline <;> rw [hline] <;> decide
  exact ⟨((h.answer e ex hex hrun).resolve_left hfl).resolve_left halive,
    (h.failure e ex hex).resolve_right halive⟩

/-- **No success without a result.** In a run in which every caught call
commits before any success of its execution, every success with no call
in flight has the engine's answer and no failure record, as long as fewer
than 2^64 ids have been issued. -/
theorem resulted_of_catchesInTime (evs : List Event)
    (hid : (Run.run step init evs).runtime.nextId ≤ 2 ^ 64)
    (hin : Run.Along step CatchesInTime init evs) : Run.Throughout step Resulted init evs := by
  refine Run.Throughout.mono (P := fun s => s.Sound ∧ s.Accounted) (fun s h => h.2.resulted) ?_
  exact Run.throughout_of_step
    (fun s ev h hstep => ⟨sound_step s ev h.1 hstep.1, accounted_step s ev h.1 hstep.2 h.2⟩)
    ⟨sound_init, accounted_init⟩ ((along_ids hid).and hin)

theorem resulted_broadcast : Run.Throughout step Resulted init soloBroadcast :=
  resulted_of_catchesInTime _ (by decide +kernel) (by decide +kernel)

/-- A sum of bytes, which the engine refuses, with its rank reported
complete while the engine runs. -/
def refusedReduction : List Event :=
  dispatching (soloDescriptor .allReduce .sum) ++
    [.begin 0 still ⟨1⟩ [[5]], .call .activeRankContribution, .call (.completeRank ⟨1⟩ ⟨0⟩),
      .engine 0 still, .commit 0 still]

/-- **It succeeds without a result**, and with a failure record. -/
theorem not_resulted_refused : ¬(Run.run step init refusedReduction).Resulted := by
  intro h
  have hsome : ((Run.run step init refusedReduction).runtime.executions[
      (⟨1⟩ : ExecutionId)]?.any fun ex =>
        ex.lifecycle.state = .succeeded ∧ ex.failure.isSome) = true := by decide +kernel
  obtain ⟨ex, hex, hp⟩ := (Option.any_eq_true _ _).1 hsome
  obtain ⟨hsucc, hfailure⟩ := of_decide_eq_true hp
  have hfl : ¬(Run.run step init refusedReduction).InFlight ⟨1⟩ := by
    have hempty : (Run.run step init refusedReduction).calls.isEmpty = true := by decide +kernel
    rintro ⟨c, call, hcall, -⟩
    rw [Std.TreeMap.getElem?_of_isEmpty hempty] at hcall
    cases hcall
  rw [(h ⟨1⟩ ex hex hsucc hfl).2] at hfailure
  cases hfailure

end System

end CollectiveFabric
