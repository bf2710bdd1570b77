import CollectiveFabric.Runtime.Moves

/-!
# What holds of every reachable state

As long as fewer than 2^64 ids have been issued, an id just issued is one
no execution and no reservation has. So executions are never overwritten,
every one of them keeps its group, and a call in flight past its begin
has its execution `RUNNING` or later, with the group's rank count, the
inputs it was begun with and, once the engine returned, the engine's
answer to them.
-/

namespace CollectiveFabric

open Common

/-- `ex'` is `ex` further on. -/
structure Execution.Grows (ex ex' : Execution) : Prop where
  descriptor : ex'.descriptor = ex.descriptor
  lifecycle : ex.lifecycle.Extends ex'.lifecycle
  completions : ∀ r, r ∈ ex.rankCompletions → r ∈ ex'.rankCompletions

theorem Execution.Grows.refl (ex : Execution) : ex.Grows ex := ⟨rfl, .refl _, fun _ h => h⟩

theorem Execution.Grows.trans {ex₁ ex₂ ex₃ : Execution} (h : ex₁.Grows ex₂) (h' : ex₂.Grows ex₃) :
    ex₁.Grows ex₃ :=
  ⟨h'.descriptor.trans h.descriptor, h.lifecycle.trans h'.lifecycle,
    fun r hr => h'.completions r (h.completions r hr)⟩

namespace Runtime

variable {rt rt' : Runtime} {on : Option (ExecutionId × Act)} {e : ExecutionId}
  {ex ex' : Execution}

theorem Moves.grows {a : Act} (h : Moves rt ex a ex' rt') : ex.Grows ex' :=
  ⟨h.descriptor, h.extends, fun _ => h.completions⟩

/-! ## Effects -/

/-- No step takes an id back. -/
theorem Effect.nextId_le (h : Effect rt on rt') : rt.nextId ≤ rt'.nextId := by
  cases h with
  | quiet _ h => exact h.nextId
  | creates _ _ _ _ hid => omega
  | moves _ _ _ hid => exact hid

/-- A registered group stays. -/
theorem Effect.groups (h : Effect rt on rt') {key : GroupKey} {grp : CollectiveGroup}
    (hgrp : rt.groups[key]? = some grp) : rt'.groups[key]? = some grp := by
  cases h with
  | quiet _ h => exact h.groups key grp hgrp
  | creates _ _ _ hgroups _ => rw [hgroups, hgrp]
  | moves _ _ hgroups _ => rw [hgroups, hgrp]

theorem Effect.groupOf (h : Effect rt on rt') (hgrows : ex.Grows ex') {grp : CollectiveGroup}
    (hgrp : rt.groupOf ex = some grp) : rt'.groupOf ex' = some grp := by
  unfold Runtime.groupOf findGroup at hgrp ⊢
  rw [hgrows.descriptor]
  exact h.groups hgrp

/-- **Where an execution comes from**: the step was not on it, or an act
of the step moved it, or the step created it. -/
theorem Effect.origin (h : Effect rt on rt') (hex' : rt'.executions[e]? = some ex') :
    (rt.executions[e]? = some ex' ∧ ∀ a, on ≠ some (e, a)) ∨
      (∃ a ex, on = some (e, a) ∧ rt.executions[e]? = some ex ∧ Moves rt ex a ex' rt') ∨
      ∃ d, on = none ∧ e = ⟨rt.freshId⟩ ∧ ex' = rt.newExecution d ∧ d.groupKey ∈ rt.groups ∧
        rt'.nextId = rt.nextId + 2 := by
  cases h with
  | quiet hnone h =>
    have hex : rt.executions[e]? = some ex' := h.executions ▸ hex'
    refine .inl ⟨hex, fun a hon => ?_⟩
    rw [hnone e a hon] at hex
    cases hex
  | @creates d _ hgroup hexecutions _ _ hid =>
    rw [hexecutions] at hex'
    rcases OrdMap.getElem?_insert_eq_some hex' with ⟨he, heq⟩ | ⟨-, hex⟩
    · exact .inr (.inr ⟨d, rfl, he, heq, hgroup, hid⟩)
    · exact .inl ⟨hex, fun _ h => by cases h⟩
  | @moves _ a ex _ _ hchange hmoves _ _ =>
    rcases hchange.cases hex' with ⟨rfl, rfl⟩ | ⟨hne, hex⟩
    · exact .inr (.inl ⟨a, ex, rfl, hchange.before, hmoves⟩)
    · refine .inl ⟨hex, fun _ h => hne ?_⟩
      cases h
      rfl

/-- What becomes of the execution an act is on. -/
theorem Effect.moved {a : Act} (h : Effect rt (some (e, a)) rt')
    (hex : rt.executions[e]? = some ex) :
    ∃ ex', rt'.executions[e]? = some ex' ∧ Moves rt ex a ex' rt' := by
  cases h with
  | quiet hnone _ =>
    rw [hnone e a rfl] at hex
    cases hex
  | moves hchange hmoves _ _ =>
    obtain rfl := Option.some.inj (hchange.before.symm.trans hex)
    exact ⟨_, hchange.after, hmoves⟩

/-- So it was there before and has grown, or it is new. -/
theorem Effect.grown (h : Effect rt on rt') (hex' : rt'.executions[e]? = some ex') :
    (∃ ex, rt.executions[e]? = some ex ∧ ex.Grows ex') ∨
      ∃ d, e = ⟨rt.freshId⟩ ∧ ex' = rt.newExecution d ∧ d.groupKey ∈ rt.groups ∧
        rt'.nextId = rt.nextId + 2 := by
  rcases h.origin hex' with ⟨hex, -⟩ | ⟨a, ex, -, hex, hmoves⟩ | ⟨d, -, hnew⟩
  · exact .inl ⟨ex', hex, .refl _⟩
  · exact .inl ⟨ex, hex, hmoves.grows⟩
  · exact .inr ⟨d, hnew⟩

/-! ## The runtime -/

/-- Ids in use were issued, and every execution has its group. -/
structure Sound (rt : Runtime) : Prop where
  pos : 1 ≤ rt.nextId
  execution_lt : ∀ (e : ExecutionId) (ex : Execution),
    rt.executions[e]? = some ex → e.raw.toNat < rt.nextId
  reservation_lt : ∀ r : ReservationId, r ∈ rt.accounting.reservations → r.raw.toNat < rt.nextId
  count_lt : OrdMap.total (fun _ => 1) rt.executions < rt.nextId
  grouped : ∀ (e : ExecutionId) (ex : Execution),
    rt.executions[e]? = some ex → ∃ grp, rt.groupOf ex = some grp

theorem toNat_freshId (h : rt.nextId < 2 ^ 64) : rt.freshId.toNat = rt.nextId :=
  UInt64.toNat_ofNat_of_lt' h

/-- **An id just issued is no execution's.** -/
theorem Sound.fresh (h : rt.Sound) (hid : rt.nextId < 2 ^ 64) :
    rt.executions[(⟨rt.freshId⟩ : ExecutionId)]? = none := by
  cases hex : rt.executions[(⟨rt.freshId⟩ : ExecutionId)]? with
  | none => rfl
  | some ex =>
    have hlt := h.execution_lt _ ex hex
    rw [toNat_freshId hid] at hlt
    omega

/-- Nor a reservation's. -/
theorem Sound.reservation_fresh (h : rt.Sound) (hid : rt.nextId < 2 ^ 64) :
    (⟨rt.freshId⟩ : ReservationId) ∉ rt.accounting.reservations := by
  intro hmem
  have hlt := h.reservation_lt _ hmem
  rw [toNat_freshId hid] at hlt
  omega

/-- And it is not null. -/
theorem Sound.fresh_ne_null (h : rt.Sound) (hid : rt.nextId < 2 ^ 64) :
    (⟨rt.freshId⟩ : ReservationId).isNull = false := by
  have hpos := h.pos
  rw [← toNat_freshId hid] at hpos
  rw [StrongId.isNull, beq_eq_false_iff_ne]
  rintro (hzero : rt.freshId = 0)
  rw [hzero] at hpos
  exact absurd hpos (by decide)

theorem sound_init : Sound {} where
  pos := le_rfl
  execution_lt _ _ h := by simp at h
  reservation_lt _ h := by simp at h
  count_lt := by simp
  grouped _ _ h := by simp at h

/-- The reservations a step leaves were held before it, or it issued them. -/
theorem Effect.reservations (h : Effect rt on rt') {r : ReservationId}
    (hr : r ∈ rt'.accounting.reservations) :
    r ∈ rt.accounting.reservations ∨ r = ⟨rt.freshId⟩ ∧ rt'.nextId = rt.nextId + 1 := by
  cases h with
  | quiet _ h => exact .inl (h.books.reservations ▸ hr)
  | creates _ _ hbooks _ _ => exact .inl (hbooks.reservations ▸ hr)
  | moves _ hmoves _ _ =>
    cases hmoves with
    | reserved _ _ _ _ _ hreservations hid =>
      rw [hreservations, Std.TreeMap.mem_insert, Std.LawfulEqOrd.compare_eq_iff_eq] at hr
      exact hr.symm.imp_right fun heq => ⟨heq.symm, hid⟩
    | measured _ _ _ hreservations | aborted _ _ _ _ hreservations =>
      exact .inl (hreservations ▸ hr)
    | _ =>
      have hbooks : SameBooks rt.accounting rt'.accounting := by assumption
      exact .inl (hbooks.reservations ▸ hr)

/-- A step adds no more executions than it issues ids. -/
theorem Sound.count (h : rt.Sound) (heffect : Effect rt on rt') (hid : rt'.nextId ≤ 2 ^ 64) :
    OrdMap.total (fun _ => 1) rt'.executions + rt.nextId ≤
      OrdMap.total (fun _ => 1) rt.executions + rt'.nextId := by
  cases heffect with
  | quiet _ h =>
    have := h.nextId
    rw [h.executions]
    omega
  | creates _ hexecutions _ _ hnext =>
    rw [hexecutions, OrdMap.total_insert_of_none _ _ (h.fresh (by omega))]
    omega
  | moves hchange _ _ hle =>
    have := hchange.total fun _ => 1
    omega

/-- **An execution stays**, further on. -/
theorem Sound.persists (h : rt.Sound) (heffect : Effect rt on rt') (hid : rt'.nextId ≤ 2 ^ 64)
    (hex : rt.executions[e]? = some ex) : ∃ ex', rt'.executions[e]? = some ex' ∧ ex.Grows ex' := by
  cases heffect with
  | quiet _ h => exact ⟨ex, h.executions ▸ hex, .refl _⟩
  | creates _ hexecutions _ _ hnext =>
    refine ⟨ex, ?_, .refl _⟩
    have hne : (⟨rt.freshId⟩ : ExecutionId) ≠ e := by
      rintro rfl
      rw [h.fresh (by omega)] at hex
      cases hex
    rw [hexecutions, OrdMap.getElem?_insert_of_ne _ hne, hex]
  | @moves e' _ _ _ _ hchange hmoves _ _ =>
    by_cases he : e = e'
    · subst he
      obtain rfl := Option.some.inj (hchange.before.symm.trans hex)
      exact ⟨_, hchange.after, hmoves.grows⟩
    · exact ⟨ex, (hchange.others e he).trans hex, .refl _⟩

/-- **One step keeps the runtime sound.** -/
theorem Sound.step (h : rt.Sound) (heffect : Effect rt on rt') (hid : rt'.nextId ≤ 2 ^ 64) :
    rt'.Sound := by
  have hle := heffect.nextId_le
  refine ⟨h.pos.trans hle, fun e ex hex => ?_, fun r hr => ?_, ?_, fun e ex hex => ?_⟩
  · rcases heffect.grown hex with ⟨ex₀, hex₀, -⟩ | ⟨d, rfl, -, -, hnext⟩
    · exact lt_of_lt_of_le (h.execution_lt e ex₀ hex₀) hle
    · rw [toNat_freshId (by omega)]
      omega
  · rcases heffect.reservations hr with hr | ⟨rfl, hnext⟩
    · exact lt_of_lt_of_le (h.reservation_lt r hr) hle
    · rw [toNat_freshId (by omega)]
      omega
  · have := h.count heffect hid
    have := h.count_lt
    omega
  · rcases heffect.grown hex with ⟨ex₀, hex₀, hgrows⟩ | ⟨d, -, rfl, hgroup, -⟩
    · obtain ⟨grp, hgrp⟩ := h.grouped e ex₀ hex₀
      exact ⟨grp, heffect.groupOf hgrows hgrp⟩
    · obtain ⟨grp, hgrp⟩ :=
        Option.isSome_iff_exists.1 (Std.TreeMap.mem_iff_isSome_getElem?.1 hgroup)
      exact ⟨grp, heffect.groups hgrp⟩

/-! ## Beginning a call -/

/-- Inputs that pass the checks come with a byte count. -/
theorem elementByteCount_of_checkInputs {d : CollectiveDescriptor} {grp : Option CollectiveGroup}
    {n : UInt64} {inputs : List (List UInt8)} (h : checkInputs d grp n inputs = .ok ()) :
    ∃ bytes, d.elementByteCount = .ok bytes := by
  unfold checkInputs at h
  split_ifs at h
  unfold perRankBytes CollectiveDescriptor.aggregateByteCount at h
  unfold CollectiveDescriptor.elementByteCount at h ⊢
  cases hmul : checkedMul d.elementCount (UInt64.ofNat (datatypeSizeBytes d.datatype)) with
  | some bytes => exact ⟨bytes, rfl⟩
  | none =>
    simp only [hmul] at h
    split at h <;> next heq => split_ifs at heq <;> cases h

/-- The rank count a call goes by. -/
def rankCountOf (rt : Runtime) (ex : Execution) : UInt64 :=
  ((rt.groupOf ex).map (·.rankCount)).getD 0

/-- The rank count stays. -/
theorem Effect.rankCountOf (h : Effect rt on rt') (hgrows : ex.Grows ex')
    (hgrp : ∃ grp, rt.groupOf ex = some grp) : rt'.rankCountOf ex' = rt.rankCountOf ex := by
  obtain ⟨grp, hgrp⟩ := hgrp
  rw [Runtime.rankCountOf, Runtime.rankCountOf, hgrp, h.groupOf hgrows hgrp]

/-- **How a begin ends**: on no execution, with the call caught, or with
the call begun and the execution `RUNNING`. -/
theorem executeBegin_cases (rt : Runtime) (env : Ambient) (e : ExecutionId)
    (inputs : List (List UInt8)) :
    (rt.executions[e]? = none ∧ rt.executeBegin env e inputs = (none, rt)) ∨
      ∃ ex, rt.executions[e]? = some ex ∧
        ((∃ f, rt.executeBegin env e inputs =
            (some ⟨e, rt.rankCountOf ex, env.steadyUs, inputs, .caught f⟩, rt)) ∨
          ∃ lc bytes, ex.lifecycle.transitionTo .running = .ok lc ∧
            ex.descriptor.elementByteCount = .ok bytes ∧
            rt.executeBegin env e inputs =
              (some ⟨e, rt.rankCountOf ex, env.steadyUs, inputs, .begun⟩,
                rt.setExecution e { ex with lifecycle := lc })) := by
  unfold executeBegin
  cases hex : rt.executions[e]? with
  | none => exact .inl ⟨rfl, rfl⟩
  | some ex =>
    refine .inr ⟨ex, rfl, ?_⟩
    cases hcheck : checkInputs ex.descriptor (rt.groupOf ex) (rt.rankCountOf ex) inputs with
    | error err =>
      simp only [rankCountOf, Runtime.groupOf] at hcheck
      simp only [hcheck]
      exact .inl ⟨_, rfl⟩
    | ok u =>
      obtain ⟨bytes, hbytes⟩ := elementByteCount_of_checkInputs hcheck
      simp only [rankCountOf, Runtime.groupOf] at hcheck
      simp only [hcheck]
      cases ht : ex.lifecycle.transitionTo .running with
      | error err => exact .inl ⟨_, rfl⟩
      | ok lc => exact .inr ⟨lc, bytes, rfl, hbytes, rfl⟩

end Runtime

/-! ## The system -/

namespace System

variable {s : System} {e : ExecutionId} {ex ex' : Execution} {call : Call}

/-- A call past its begin and not caught is backed by its execution. -/
structure Backed (rt : Runtime) (started : OrdMap ExecutionId (List (List UInt8))) (call : Call)
    (ex : Execution) : Prop where
  rankCount : ∃ grp, rt.groupOf ex = some grp ∧ call.rankCount = grp.rankCount
  bytes : ∃ bytes, ex.descriptor.elementByteCount = .ok bytes
  running : .running ∈ ex.lifecycle.entered
  started : started[call.execution]? = some call.inputs
  answer : ∀ outputs, call.stage = .returned outputs →
    Runtime.engineCall ex.descriptor call.rankCount call.inputs = .returns outputs

/-- **The invariant of every reachable state.** -/
structure Sound (s : System) : Prop where
  runtime : s.runtime.Sound
  calls : ∀ (c : ℕ) (call : Call), s.calls[c]? = some call →
    ∃ ex, s.runtime.executions[call.execution]? = some ex ∧
      ((∀ f, call.stage ≠ .caught f) → Backed s.runtime s.started call ex)
  started : ∀ (e : ExecutionId) (ex : Execution), s.runtime.executions[e]? = some ex →
    .running ∈ ex.lifecycle.entered → ∃ inputs, s.started[e]? = some inputs
  returned : ∀ (e : ExecutionId) (m : MeasurementId), (e, m) ∈ s.returned → m.isNull = false →
    ∃ ex, s.runtime.executions[e]? = some ex

theorem sound_init : init.Sound where
  runtime := Runtime.sound_init
  calls _ _ h := by simp [init] at h
  started _ _ h := by simp [init] at h
  returned _ _ h := by simp [init] at h

/-- A step that is no begin keeps the calls in flight backed. -/
theorem Sound.setRuntime {on : Option (ExecutionId × Act)} {rt' : Runtime} (h : s.Sound)
    (heffect : Runtime.Effect s.runtime on rt') (hid : rt'.nextId ≤ 2 ^ 64)
    (hon : ∀ e inputs, on ≠ some (e, .begin inputs)) :
    Sound { s with runtime := rt' } := by
  refine ⟨h.runtime.step heffect hid, fun c call hcall => ?_, fun e ex' hex' hrun => ?_,
    fun e m hmem hnull => ?_⟩
  · obtain ⟨ex, hex, hbacked⟩ := h.calls c call hcall
    obtain ⟨ex', hex', hgrows⟩ := h.runtime.persists heffect hid hex
    refine ⟨ex', hex', fun hstage => ?_⟩
    obtain ⟨⟨grp, hgrp, hcount⟩, hbytes, hrunning, hstarted, hanswer⟩ := hbacked hstage
    refine ⟨⟨grp, heffect.groupOf hgrows hgrp, hcount⟩, ?_, hgrows.lifecycle.mem hrunning,
      hstarted, ?_⟩
    · rw [hgrows.descriptor]
      exact hbytes
    · rw [hgrows.descriptor]
      exact hanswer
  · rcases heffect.origin hex' with ⟨hex, -⟩ | ⟨a, ex, ha, hex, hmoves⟩ | ⟨d, -, -, rfl, -⟩
    · exact h.started e ex' hex hrun
    · refine h.started e ex hex (hmoves.running (fun inputs => ?_) hrun)
      rintro rfl
      exact hon e inputs ha
    · simp at hrun
  · obtain ⟨ex, hex⟩ := h.returned e m hmem hnull
    obtain ⟨ex', hex', -⟩ := h.runtime.persists heffect hid hex
    exact ⟨ex', hex'⟩

theorem Sound.begin (h : s.Sound) {c : ℕ} {env : Ambient} {inputs : List (List UInt8)}
    (hid : (s.begin c env e inputs).runtime.nextId ≤ 2 ^ 64) : (s.begin c env e inputs).Sound := by
  have heffect := @Runtime.effect_executeBegin s.runtime e env inputs
  unfold System.begin at hid ⊢
  split
  · exact h
  next hfree =>
  rw [if_neg hfree] at hid
  rcases Runtime.executeBegin_cases s.runtime env e inputs with
    ⟨-, heq⟩ | ⟨ex, hex, ⟨f, heq⟩ | ⟨lc, bytes, ht, hbytes, heq⟩⟩
  · simp only [heq]
    refine ⟨h.runtime, h.calls, h.started, fun e' m hmem hnull => ?_⟩
    rcases List.mem_cons.1 hmem with heq | hmem
    · cases heq
      cases hnull
    · exact h.returned e' m hmem hnull
  · simp only [heq]
    refine ⟨h.runtime, fun c' call hcall => ?_, h.started, h.returned⟩
    rcases OrdMap.getElem?_insert_eq_some hcall with ⟨-, rfl⟩ | ⟨-, hcall⟩
    · exact ⟨ex, hex, fun hstage => absurd rfl (hstage f)⟩
    · exact h.calls c' call hcall
  · simp only [heq] at hid heffect ⊢
    -- no call past its begin was on this execution: it had not been `RUNNING`
    have hnot : .running ∉ ex.lifecycle.entered :=
      CollectiveStateMachine.not_mem_of_transitionTo ht
    have hwrite := OrdMap.Change.insert hex { ex with lifecycle := lc }
    refine ⟨h.runtime.step heffect hid, fun c' call hcall => ?_, fun e' ex' hex' hrun => ?_,
      fun e' m hmem hnull => ?_⟩
    · rcases OrdMap.getElem?_insert_eq_some hcall with ⟨-, rfl⟩ | ⟨-, hcall⟩
      · obtain ⟨grp, hgrp⟩ := h.runtime.grouped e ex hex
        refine ⟨_, hwrite.after, fun _ => ⟨⟨grp, hgrp, ?_⟩, ⟨bytes, hbytes⟩, ?_, ?_, ?_⟩⟩
        · rw [Runtime.rankCountOf, hgrp]
          rfl
        · rw [CollectiveStateMachine.entered, (CollectiveStateMachine.transitionTo_ok ht).2.1]
          exact List.mem_cons_self ..
        · exact OrdMap.getElem?_insert_same ..
        · rintro outputs (hstage : Stage.begun = _)
          cases hstage
      · obtain ⟨ex₀, hex₀, hbacked⟩ := h.calls c' call hcall
        by_cases he : call.execution = e
        · rw [he, hex] at hex₀
          obtain rfl := Option.some.inj hex₀
          rw [he]
          exact ⟨_, hwrite.after, fun hstage => absurd (hbacked hstage).running hnot⟩
        · refine ⟨ex₀, (hwrite.others _ he).trans hex₀, fun hstage => ?_⟩
          obtain ⟨hcount, hb, hrunning, hstarted, hanswer⟩ := hbacked hstage
          refine ⟨hcount, hb, hrunning, ?_, hanswer⟩
          exact (OrdMap.getElem?_insert_of_ne s.started (Ne.symm he) inputs).trans hstarted
    · by_cases he : e' = e
      · subst he
        exact ⟨inputs, OrdMap.getElem?_insert_same ..⟩
      · obtain ⟨inputs', hstarted⟩ := h.started e' ex' ((hwrite.others _ he).symm.trans hex') hrun
        exact ⟨inputs',
          (OrdMap.getElem?_insert_of_ne s.started (Ne.symm he) inputs).trans hstarted⟩
    · obtain ⟨ex₀, hex₀⟩ := h.returned e' m hmem hnull
      obtain ⟨ex', hex', -⟩ := h.runtime.persists heffect hid hex₀
      exact ⟨ex', hex'⟩

theorem Sound.engine (h : s.Sound) {c : ℕ} {env : Ambient} : (s.engine c env).Sound := by
  unfold System.engine
  split
  · exact h
  · next call' hengine =>
    obtain ⟨call, hcall, hexec⟩ := Option.bind_eq_some_iff.1 hengine
    obtain ⟨ex, hex, hbacked⟩ := h.calls c call hcall
    refine ⟨h.runtime, fun c' call₁ hcall₁ => ?_, h.started, h.returned⟩
    rcases OrdMap.getElem?_insert_eq_some hcall₁ with ⟨-, rfl⟩ | ⟨-, hcall₁⟩
    · unfold Runtime.executeEngine at hexec
      split at hexec
      · next hstage hex' =>
        obtain rfl := Option.some.inj (hex'.symm.trans hex)
        obtain ⟨hcount, hb, hrunning, hstarted, -⟩ := hbacked (by rw [hstage]; simp)
        split at hexec
        · next outputs hanswer =>
          cases hexec
          refine ⟨_, hex, fun _ => ⟨hcount, hb, hrunning, hstarted, ?_⟩⟩
          rintro outputs' (heq : Stage.returned outputs = .returned outputs')
          cases heq
          exact hanswer
        · cases hexec
          exact ⟨_, hex, fun hstage => absurd rfl (hstage _)⟩
        · cases hexec
      · cases hexec
    · exact h.calls c' call₁ hcall₁

theorem Sound.commit (h : s.Sound) {c : ℕ} {env : Ambient}
    (hid : (s.commit c env).runtime.nextId ≤ 2 ^ 64) : (s.commit c env).Sound := by
  have heffect := s.effect_step (.commit c env)
  simp only [System.step, System.act] at heffect
  unfold System.commit at heffect hid ⊢
  cases hcall : s.calls[c]? with
  | none => exact h
  | some call =>
    simp only [hcall, Option.bind_some] at heffect hid ⊢
    cases hcommit : s.runtime.executeCommit env call with
    | none => exact h
    | some answer =>
      obtain ⟨result, rt'⟩ := answer
      simp only [hcommit] at heffect hid ⊢
      have hact : ∀ e inputs, call.act ≠ some (e, .begin inputs) := by
        intro e inputs
        unfold Call.act
        split <;> simp
      have hset := h.setRuntime heffect hid hact
      refine ⟨hset.runtime, fun c' call' hcall' => ?_, hset.started, fun e m hmem hnull => ?_⟩
      · rw [Std.TreeMap.getElem?_erase] at hcall'
        split at hcall'
        · cases hcall'
        · exact hset.calls c' call' hcall'
      · split at hmem
        · rcases List.mem_cons.1 hmem with heq | hmem
          · cases heq
            obtain ⟨ex, hex, -⟩ := hset.calls c call hcall
            exact ⟨ex, hex⟩
          · exact hset.returned e m hmem hnull
        · exact hset.returned e m hmem hnull

/-- **One step keeps the system sound.** -/
theorem sound_step (s : System) (ev : Event) (h : s.Sound)
    (hid : (s.step ev).runtime.nextId ≤ 2 ^ 64) : (s.step ev).Sound := by
  cases ev with
  | call op =>
    refine h.setRuntime (Runtime.effect_apply op) hid fun e inputs => ?_
    cases op <;> simp [Operation.act]
  | begin c env e inputs => exact h.begin hid
  | engine c env => exact h.engine
  | commit c env => exact h.commit hid

/-- The steps of a run that ends with at most `2 ^ 64 - 1` ids issued. -/
theorem along_ids {evs : List Event} (h : (Run.run step s evs).runtime.nextId ≤ 2 ^ 64) :
    Run.Along step (fun s ev => (s.step ev).runtime.nextId ≤ 2 ^ 64) s evs :=
  Run.along_of_le_run (fun s : System => s.runtime.nextId)
    (fun s ev => (s.effect_step ev).nextId_le) h

/-- **Every state of a run is sound.** -/
theorem sound_run {evs : List Event} (hs : s.Sound)
    (h : (Run.run step s evs).runtime.nextId ≤ 2 ^ 64) : (Run.run step s evs).Sound :=
  (Run.throughout_of_step sound_step hs (along_ids h)).last

/-! ## Commits -/

/-- The call a commit of a returned call is of. -/
theorem call_of_act {ev : Event} {outputs : List (List UInt8)}
    (h : s.act ev = some (e, .commitReturned call outputs)) :
    ∃ c env, ev = .commit c env ∧ s.calls[c]? = some call ∧ call.execution = e ∧
      call.stage = .returned outputs := by
  cases ev with
  | call op => cases op <;> simp [act, Operation.act] at h
  | begin c env e inputs =>
    simp only [act] at h
    split at h <;> simp at h
  | engine c env => cases h
  | commit c env =>
    obtain ⟨call', hcall, hact⟩ := Option.bind_eq_some_iff.1 h
    unfold Call.act at hact
    split at hact
    · cases hact
    · next outputs' hstage =>
      obtain ⟨rfl, rfl, rfl⟩ : call'.execution = e ∧ call' = call ∧ outputs' = outputs := by
        simpa using hact
      exact ⟨c, env, rfl, hcall, rfl, hstage⟩
    · cases hact

/-- **A commit of a returned call is backed** by the execution it is on. -/
theorem Sound.backed (h : s.Sound) {ev : Event} {outputs : List (List UInt8)}
    (hact : s.act ev = some (e, .commitReturned call outputs))
    (hex : s.runtime.executions[e]? = some ex) : Backed s.runtime s.started call ex := by
  obtain ⟨c, env, -, hcall, rfl, hstage⟩ := call_of_act hact
  obtain ⟨ex', hex', hbacked⟩ := h.calls c call hcall
  obtain rfl := Option.some.inj (hex'.symm.trans hex)
  exact hbacked fun f hf => by rw [hstage] at hf; cases hf

end System

end CollectiveFabric
