import CollectiveFabric.Runtime.Fence
import CollectiveFabric.Runtime.Tables

/-!
# Measurements in the table

Two sources of ids write the table of measurements: callers choose those
they ingest, and a commit takes the next id of the runtime's counter. Each
write replaces what its id held. So measurements stay in the runs that
ingest under no id a call of `execute_collective` has returned and commit
under no id that was ingested.
-/

namespace CollectiveFabric

open Common

namespace System

variable {s : System} {ev : Event} {evs : List Event} {m : CollectiveMeasurement}

/-- The id an event ingests under, if it ingests. -/
def ingestedId : Event → Option MeasurementId
  | .call (.ingestMeasurement m) => some m.id
  | _ => none

/-- The ids a list of events ingests under. -/
def ingested (evs : List Event) : List MeasurementId := evs.filterMap ingestedId

/-- The event commits a call the engine returned to. -/
def CommitsReturned (s : System) (ev : Event) : Prop :=
  ∃ c env call outputs, ev = .commit c env ∧ s.calls[c]? = some call ∧
    call.stage = .returned outputs

/-- The event ingests `m`, or returns the id it recorded `m` under. -/
def Gives (s : System) (ev : Event) (m : CollectiveMeasurement) : Prop :=
  ev = .call (.ingestMeasurement m) ∨
    ∃ c env call outputs, ev = .commit c env ∧ s.calls[c]? = some call ∧
      call.stage = .returned outputs ∧
      (s.runtime.commitReturned env call outputs).1 = .ok m.id ∧
      (s.step ev).runtime.measurements[m.id]? = some m

/-- `execute_collective` has returned the id of a measurement. -/
def HasReturned (s : System) (i : MeasurementId) : Prop :=
  i.isNull = false ∧ ∃ e, (e, i) ∈ s.returned

instance (s : System) (i : MeasurementId) : Decidable (s.HasReturned i) :=
  decidable_of_iff (i.isNull = false ∧ ∃ x ∈ s.returned, x.2 = i) <| by
    refine and_congr_right fun _ => ⟨?_, ?_⟩
    · rintro ⟨⟨e, _⟩, hmem, rfl⟩
      exact ⟨e, hmem⟩
    · rintro ⟨e, hmem⟩
      exact ⟨(e, i), hmem, rfl⟩

/-- The id an event writes under that the other source gave a measurement:
ingested under and returned before, or committed under and in the table. -/
def clash (s : System) : Event → Option MeasurementId
  | .call (.ingestMeasurement m) => if s.HasReturned m.id then some m.id else none
  | .commit c _ =>
    match (s.calls[c]?).map Call.stage with
    | some (.returned _) =>
      if (⟨s.runtime.freshId⟩ : MeasurementId) ∈ s.runtime.measurements then
        some ⟨s.runtime.freshId⟩
      else none
    | _ => none
  | _ => none

theorem clash_ingest (h : s.HasReturned m.id) :
    s.clash (.call (.ingestMeasurement m)) = some m.id := if_pos h

theorem clash_commit (h : s.CommitsReturned ev)
    (hmem : (⟨s.runtime.freshId⟩ : MeasurementId) ∈ s.runtime.measurements) :
    s.clash ev = some ⟨s.runtime.freshId⟩ := by
  obtain ⟨c, env, call, outputs, rfl, hcall, hstage⟩ := h
  simp only [clash, hcall, Option.map_some, hstage, if_pos hmem]

/-- **Where an event clashes.** -/
theorem clash_cases {i : MeasurementId} (h : s.clash ev = some i) :
    s.HasReturned i ∨ s.CommitsReturned ev ∧ i = ⟨s.runtime.freshId⟩ ∧
      i ∈ s.runtime.measurements := by
  unfold clash at h
  split at h
  · split_ifs at h with hreturned
    cases h
    exact .inl hreturned
  · next c env =>
    split at h
    · next outputs hstage =>
      split_ifs at h with hmem
      cases h
      obtain ⟨call, hcall, hstage⟩ := Option.map_eq_some_iff.1 hstage
      exact .inr ⟨⟨c, env, call, outputs, rfl, hcall, hstage⟩, rfl, hmem⟩
    · cases h
  · cases h

/-- **Whoever writes nothing under an id leaves it.** -/
theorem measurement_kept {i : MeasurementId} (hingest : ingestedId ev ≠ some i)
    (hcommit : s.CommitsReturned ev → (⟨s.runtime.freshId⟩ : MeasurementId) ≠ i) :
    (s.step ev).runtime.measurements[i]? = s.runtime.measurements[i]? := by
  cases ev with
  | call op =>
    by_cases hm : ∃ m, op = .ingestMeasurement m
    · obtain ⟨m, rfl⟩ := hm
      exact OrdMap.getElem?_insert_of_ne _ (fun heq => hingest (congrArg some heq)) m
    by_cases hh : ∃ h, op = .updateHealth h
    · obtain ⟨h, rfl⟩ := hh
      simp only [step, Operation.apply, Runtime.updateHealth]
      split <;> rfl
    have htables := @Runtime.tables_apply s.runtime op (fun m h => hm ⟨m, h⟩)
      fun h heq => hh ⟨h, heq⟩
    exact congrArg (·.1[i]?) htables
  | begin c env e inputs => exact congrArg (·.1[i]?) (tables_begin c env e inputs)
  | engine c env => exact congrArg (·.measurements[i]?) (runtime_engine c env)
  | commit c env =>
    change (s.commit c env).runtime.measurements[i]? = _
    rcases s.commit_cases c env with
      ⟨hsame, -⟩ | ⟨call, f, -, -, hruntime, -⟩ | ⟨call, outputs, hcall, hstage, hruntime, -⟩
    · rw [hsame]
    · rw [hruntime]
      exact congrArg (·.1[i]?) (Runtime.tables_commitCaught f)
    · rw [hruntime]
      rcases Runtime.measurements_commitReturned s.runtime env call outputs with
        ⟨hsame, -⟩ | ⟨m, hid, hwrite, -, -⟩
      · rw [hsame]
      · have hne := hcommit ⟨c, env, call, outputs, rfl, hcall, hstage⟩
        rw [hwrite]
        exact OrdMap.getElem?_insert_of_ne _ (hid ▸ hne) m

/-- What was returned stays returned. -/
theorem mem_returned {x : ExecutionId × MeasurementId} (h : x ∈ s.returned) :
    x ∈ (s.step ev).returned := by
  have hadd (e : ExecutionId) (result : Except Error MeasurementId) :
      x ∈ s.addReturned e result := by
    unfold addReturned
    split
    · exact List.mem_cons_of_mem _ h
    · exact h
  cases ev with
  | call op => exact h
  | begin c env e inputs =>
    change x ∈ (s.begin c env e inputs).returned
    unfold System.begin
    split
    · exact h
    · split
      · exact List.mem_cons_of_mem _ h
      · exact h
  | engine c env =>
    change x ∈ (s.engine c env).returned
    unfold System.engine
    split <;> exact h
  | commit c env =>
    change x ∈ (s.commit c env).returned
    rcases s.commit_cases c env with
      ⟨hsame, -⟩ | ⟨call, f, -, -, -, hreturned⟩ | ⟨call, outputs, -, -, -, hreturned⟩
    · rwa [hsame]
    · rw [hreturned]
      exact hadd ..
    · rw [hreturned]
      exact hadd ..

/-- **A measurement in the table stays there**, if no event clashes and it
was returned or is not ingested again. -/
theorem measurement_run (h : s.runtime.measurements[m.id]? = some m)
    (hquiet : Run.Along step (fun s ev => s.clash ev = none) s evs)
    (hsafe : s.HasReturned m.id ∨ m.id ∉ ingested evs) :
    (Run.run step s evs).runtime.measurements[m.id]? = some m := by
  induction evs generalizing s with
  | nil => exact h
  | cons ev evs ih =>
    have hstep : (s.step ev).runtime.measurements[m.id]? = some m := by
      rw [measurement_kept ?_ ?_, h]
      · intro hingest
        rcases hsafe with hreturned | hnot
        · unfold ingestedId at hingest
          split at hingest
          · next m' =>
            have hclash := clash_ingest (s := s) (m := m') (by rwa [Option.some.inj hingest])
            rw [hquiet.1] at hclash
            cases hclash
          · cases hingest
        · exact hnot (List.mem_filterMap.2 ⟨ev, List.mem_cons_self .., hingest⟩)
      · intro hcommits heq
        have hmem : m.id ∈ s.runtime.measurements :=
          Std.TreeMap.mem_iff_isSome_getElem?.2 (by rw [h]; rfl)
        have hclash := clash_commit hcommits (by rwa [heq])
        rw [hquiet.1] at hclash
        cases hclash
    refine ih hstep hquiet.2 ?_
    refine hsafe.imp ?_ ?_
    · rintro ⟨hnull, e, hmem⟩
      exact ⟨hnull, e, mem_returned hmem⟩
    · intro hnot hmem
      obtain ⟨ev', hev', hingest⟩ := List.mem_filterMap.1 hmem
      exact hnot (List.mem_filterMap.2 ⟨ev', List.mem_cons_of_mem ev hev', hingest⟩)

/-! ## What a run gave -/

/-- A commit that returns an id took the next one, and recorded under it. -/
theorem commitReturned_ok {rt : Runtime} {env : Ambient} {call : Call}
    {outputs : List (List UInt8)} {i : MeasurementId}
    (h : (rt.commitReturned env call outputs).1 = .ok i) :
    i = ⟨rt.freshId⟩ ∧ (rt.commitReturned env call outputs).2.nextId = rt.nextId + 1 ∧
      ∃ m : CollectiveMeasurement, m.id = i ∧
        (rt.commitReturned env call outputs).2.measurements[i]? = some m := by
  rcases Runtime.measurements_commitReturned rt env call outputs with
    ⟨-, err, herr⟩ | ⟨m, hid, hwrite, hnext, hok | ⟨err, herr⟩⟩
  · rw [herr] at h
    cases h
  · rw [hok] at h
    obtain rfl := Except.ok.inj h
    exact ⟨hid, hnext, m, rfl, by rw [hwrite]; exact OrdMap.getElem?_insert_same ..⟩
  · rw [herr] at h
    cases h

theorem mem_addReturned {e e' : ExecutionId} {i : MeasurementId}
    {result : Except Error MeasurementId} (h : (e, i) ∈ s.addReturned e' result) :
    (e, i) ∈ s.returned ∨ result = .ok i := by
  unfold addReturned at h
  split at h
  · rcases List.mem_cons.1 h with heq | h
    · cases heq
      exact .inr rfl
    · exact .inl h
  · exact .inl h

/-- An id returned now was returned before, or is null, or is given by the
event. -/
theorem returned_step {e : ExecutionId} {i : MeasurementId} (h : (e, i) ∈ (s.step ev).returned)
    (hnull : i.isNull = false) : (e, i) ∈ s.returned ∨ ∃ m, m.id = i ∧ s.Gives ev m := by
  cases ev with
  | call op => exact .inl h
  | begin c env e' inputs =>
    change (e, i) ∈ (s.begin c env e' inputs).returned at h
    unfold System.begin at h
    split at h
    · exact .inl h
    · split at h
      · rcases List.mem_cons.1 h with heq | h
        · cases heq
          cases hnull
        · exact .inl h
      · exact .inl h
  | engine c env =>
    change (e, i) ∈ (s.engine c env).returned at h
    unfold System.engine at h
    split at h <;> exact .inl h
  | commit c env =>
    change (e, i) ∈ (s.commit c env).returned at h
    rcases s.commit_cases c env with ⟨hsame, -⟩ | ⟨call, f, -, -, -, hreturned⟩ |
      ⟨call, outputs, hcall, hstage, hruntime, hreturned⟩
    · rw [hsame] at h
      exact .inl h
    · rw [hreturned] at h
      rcases mem_addReturned h with h | hok
      · exact .inl h
      · rw [commitCaught_null hok] at hnull
        cases hnull
    · rw [hreturned] at h
      rcases mem_addReturned h with h | hok
      · exact .inl h
      · obtain ⟨-, -, m, hid, hm⟩ := commitReturned_ok hok
        refine .inr ⟨m, hid, .inr ⟨c, env, call, outputs, rfl, hcall, hstage, ?_, ?_⟩⟩
        · rw [hid]
          exact hok
        · rw [hid]
          change (s.commit c env).runtime.measurements[i]? = _
          rwa [hruntime]

theorem runtime_commit {c : ℕ} {env : Ambient} {call : Call} {outputs : List (List UInt8)}
    (hcall : s.calls[c]? = some call) (hstage : call.stage = .returned outputs) :
    (s.step (.commit c env)).runtime = (s.runtime.commitReturned env call outputs).2 := by
  simp only [step, commit, hcall, Runtime.executeCommit, hstage]

/-- An id in the table now was there before, or is ingested under, or was
issued. -/
theorem mem_measurements_step {i : MeasurementId} (h : i ∈ (s.step ev).runtime.measurements) :
    i ∈ s.runtime.measurements ∨ (∃ m, ev = .call (.ingestMeasurement m) ∧ m.id = i) ∨
      i = ⟨s.runtime.freshId⟩ ∧ (s.step ev).runtime.nextId = s.runtime.nextId + 1 := by
  by_cases hingest : ingestedId ev = some i
  · unfold ingestedId at hingest
    split at hingest
    · next m => exact .inr (.inl ⟨m, rfl, Option.some.inj hingest⟩)
    · cases hingest
  by_cases hcommit : s.CommitsReturned ev ∧ (⟨s.runtime.freshId⟩ : MeasurementId) = i
  · obtain ⟨⟨c, env, call, outputs, rfl, hcall, hstage⟩, rfl⟩ := hcommit
    rw [runtime_commit hcall hstage] at h ⊢
    rcases Runtime.measurements_commitReturned s.runtime env call outputs with
      ⟨hsame, -⟩ | ⟨m, -, -, hnext, -⟩
    · rw [hsame] at h
      exact .inl h
    · exact .inr (.inr ⟨rfl, hnext⟩)
  · left
    rw [Std.TreeMap.mem_iff_isSome_getElem?] at h ⊢
    rwa [← measurement_kept hingest fun hev heq => hcommit ⟨hev, heq⟩]

/-- **What was returned was given** by an earlier event. -/
theorem given_of_returned {before : List Event} {i : MeasurementId}
    (h : (Run.run step init before).HasReturned i) :
    ∃ earlier ev mid m, before = earlier ++ ev :: mid ∧ m.id = i ∧
      (Run.run step init earlier).Gives ev m := by
  obtain ⟨hnull, e, hmem⟩ := h
  induction before using List.reverseRecOn with
  | nil => cases hmem
  | append_singleton before ev ih =>
    rw [Run.run_append] at hmem
    rcases returned_step hmem hnull with hmem | ⟨m, hid, hgives⟩
    · obtain ⟨earlier, ev', mid, m, rfl, hid, hgives⟩ := ih hmem
      exact ⟨earlier, ev', mid ++ [ev], m, by simp, hid, hgives⟩
    · exact ⟨before, ev, [], m, rfl, hid, hgives⟩

/-- **What is in the table was issued or ingested** by an earlier event. -/
theorem given_of_mem {before : List Event} {i : MeasurementId}
    (hid : (Run.run step init before).runtime.nextId ≤ 2 ^ 64)
    (h : i ∈ (Run.run step init before).runtime.measurements) :
    i.raw.toNat < (Run.run step init before).runtime.nextId ∨
      ∃ earlier mid m, before = earlier ++ .call (.ingestMeasurement m) :: mid ∧ m.id = i := by
  induction before using List.reverseRecOn with
  | nil => exact absurd h Std.TreeMap.not_mem_emptyc
  | append_singleton before ev ih =>
    rw [Run.run_append] at hid h ⊢
    have hle : (Run.run step init before).runtime.nextId ≤
        ((Run.run step init before).step ev).runtime.nextId := (effect_step _ ev).nextId_le
    change _ ≤ (_ : ℕ) at hid
    rcases mem_measurements_step h with h | ⟨m, rfl, hm⟩ | ⟨rfl, hnext⟩
    · rcases ih (hle.trans hid) h with hlt | ⟨earlier, mid, m, rfl, hm⟩
      · exact .inl (lt_of_lt_of_le hlt hle)
      · exact .inr ⟨earlier, mid ++ [ev], m, by simp, hm⟩
    · exact .inr ⟨before, [], m, rfl, hm⟩
    · left
      change _ < ((Run.run step init before).step ev).runtime.nextId
      have hlt : (Run.run step init before).runtime.nextId < 2 ^ 64 := by
        have hbound : ((Run.run step init before).step ev).runtime.nextId ≤ 2 ^ 64 := hid
        omega
      rw [Runtime.toNat_freshId hlt]
      omega

/-! ## Main results -/

/-- Every measurement the run ingests or returns is in the table at every
later step, as it was. -/
def MeasurementsKept (evs : List Event) : Prop :=
  ∀ before ev later, before ++ ev :: later <+: evs → ∀ m,
    (Run.run step init before).Gives ev m →
      (Run.run step init (before ++ ev :: later)).runtime.measurements[m.id]? = some m

theorem nextId_le_run (s : System) (evs : List Event) :
    s.runtime.nextId ≤ (Run.run step s evs).runtime.nextId :=
  Run.le_run (fun s : System => s.runtime.nextId) (fun s ev => (s.effect_step ev).nextId_le) evs

/-- What gives a measurement has it in the table, returned or ingested. -/
theorem Gives.recorded (h : s.Gives ev m) (hpos : 1 ≤ s.runtime.nextId)
    (hid : (s.step ev).runtime.nextId ≤ 2 ^ 64) :
    (s.step ev).runtime.measurements[m.id]? = some m ∧
      ((s.step ev).HasReturned m.id ∨ ingestedId ev = some m.id) := by
  rcases h with rfl | ⟨c, env, call, outputs, rfl, hcall, hstage, hok, hm⟩
  · exact ⟨OrdMap.getElem?_insert_same .., .inr rfl⟩
  refine ⟨hm, .inl ⟨?_, call.execution, ?_⟩⟩
  · obtain ⟨hfresh, hnext, -⟩ := commitReturned_ok hok
    rw [runtime_commit hcall hstage, hnext] at hid
    have hraw : s.runtime.freshId.toNat = s.runtime.nextId := Runtime.toNat_freshId (by omega)
    rw [hfresh, StrongId.isNull, beq_eq_false_iff_ne]
    rintro (hzero : s.runtime.freshId = 0)
    rw [hzero] at hraw
    have hnone : (0 : UInt64).toNat = 0 := rfl
    omega
  · simp only [step, commit, hcall, Runtime.executeCommit, hstage, hok]
    exact List.mem_cons_self ..

/-- **Measurements are never lost or replaced** in a run that ingests
different ids, if none of its events clashes. -/
theorem measurementsKept_of_no_clash
    (hid : (Run.run step init evs).runtime.nextId ≤ 2 ^ 64) (hnodup : (ingested evs).Nodup)
    (h : Run.Along step (fun s ev => s.clash ev = none) init evs) : MeasurementsKept evs := by
  rintro before ev later ⟨rest, rfl⟩ m hgives
  rw [List.append_assoc, List.cons_append] at hid hnodup h
  -- no id is issued twice before the event
  have hsteps := (Run.along_append.1 (along_ids hid)).2
  have hpos : 1 ≤ (Run.run step init before).runtime.nextId := nextId_le_run init before
  obtain ⟨hrecorded, hsafe⟩ := hgives.recorded hpos hsteps.1
  have hquiet := (Run.along_append.1 (Run.along_append.1 h).2.2).1
  rw [Run.run_append]
  change (Run.run step ((Run.run step init before).step ev) later).runtime.measurements[m.id]? = _
  refine measurement_run hrecorded hquiet (hsafe.imp_right fun hingest hmem => ?_)
  rw [ingested, List.filterMap_append, List.filterMap_cons_some hingest] at hnodup
  have hnot := (List.nodup_cons.1 (List.nodup_append.1 hnodup).2.1).1
  rw [List.filterMap_append] at hnot
  exact hnot (List.mem_append_left _ hmem)

/-- **Where they are kept, a clash writes what is there.** -/
theorem clash_harmless (hid : (Run.run step init evs).runtime.nextId ≤ 2 ^ 64)
    (h : MeasurementsKept evs) : Run.Along step (fun s ev => ∀ i, s.clash ev = some i →
      (s.step ev).runtime.measurements[i]? = s.runtime.measurements[i]?) init evs := by
  refine Run.along_iff.2 ?_
  rintro before ev after rfl i hclash
  rw [Run.run_append] at hid
  have hnext := (nextId_le_run ((Run.run step init before).step ev) after).trans hid
  by_cases hsame : ((Run.run step init before).step ev).runtime.measurements =
      (Run.run step init before).runtime.measurements
  · rw [hsame]
  -- the clash is over the id of a measurement an earlier event gave
  have hgiven : ∃ earlier ev' mid m, before = earlier ++ ev' :: mid ∧ m.id = i ∧
      (Run.run step init earlier).Gives ev' m := by
    rcases clash_cases hclash with
      hreturned | ⟨⟨c, env, call, outputs, rfl, hcall, hstage⟩, rfl, hmem⟩
    · exact given_of_returned hreturned
    · rw [runtime_commit hcall hstage] at hsame hnext
      rcases Runtime.measurements_commitReturned (Run.run step init before).runtime env
          call outputs with ⟨hkept, -⟩ | ⟨-, -, -, hissued, -⟩
      · exact absurd hkept hsame
      · rw [hissued] at hnext
        rcases given_of_mem (by omega) hmem with hlt | ⟨earlier, mid, m, rfl, hm⟩
        · rw [Runtime.toNat_freshId (by omega)] at hlt
          exact absurd hlt (lt_irrefl _)
        · exact ⟨earlier, _, mid, m, rfl, hm, .inl rfl⟩
  obtain ⟨earlier, ev', mid, m, rfl, rfl, hgives⟩ := hgiven
  have hheld := h earlier ev' mid ⟨ev :: after, rfl⟩ m hgives
  have hafter := h earlier ev' (mid ++ [ev]) ⟨after, by simp⟩ m hgives
  have hlast : earlier ++ ev' :: (mid ++ [ev]) = (earlier ++ ev' :: mid) ++ [ev] := by simp
  rw [hlast, Run.run_append] at hafter
  exact hafter.trans hheld.symm

/-- **Measurements are never lost or replaced** in a run that ingests
different ids, if it ingests under no id `execute_collective` has returned
and commits under none in the table. In any other run where none is, each
clash wrote again what the table held. -/
theorem measurementsKept_when (evs : List Event)
    (hid : (Run.run step init evs).runtime.nextId ≤ 2 ^ 64) (hnodup : (ingested evs).Nodup) :
    (Run.Along step (fun s ev => s.clash ev = none) init evs → MeasurementsKept evs) ∧
      (MeasurementsKept evs → Run.Along step (fun s ev => ∀ i, s.clash ev = some i →
        (s.step ev).runtime.measurements[i]? = s.runtime.measurements[i]?) init evs) :=
  ⟨measurementsKept_of_no_clash hid hnodup, clash_harmless hid⟩

/-- A broadcast with a measurement ingested before it. -/
def ingestingBroadcast (i : MeasurementId) : List Event :=
  .call (.ingestMeasurement { id := i }) :: soloBroadcast

/-- They are where the id is far from the counter's. -/
theorem measurementsKept_broadcast : MeasurementsKept (ingestingBroadcast ⟨50⟩) :=
  (measurementsKept_when (ingestingBroadcast ⟨50⟩) (by decide +kernel)
    (by decide +kernel)).1
    (by decide +kernel)

/-- **A commit takes the next id, ingested or not**: the ingested record is
replaced by one of a success. -/
theorem not_measurementsKept_ingested :
    (ingested (ingestingBroadcast ⟨5⟩)).Nodup ∧ ¬MeasurementsKept (ingestingBroadcast ⟨5⟩) := by
  refine ⟨by decide +kernel, fun h => ?_⟩
  have hheld := h [] _ soloBroadcast (List.prefix_refl _) { id := ⟨5⟩ } (.inl rfl)
  have hsuccess : ((Run.run step init (ingestingBroadcast ⟨5⟩)).runtime.measurements[
      (⟨5⟩ : MeasurementId)]?.any (·.success)) = true := by decide +kernel
  have hnone := hsuccess.symm.trans (congrArg (Option.any (·.success)) hheld)
  cases hnone

end System

end CollectiveFabric
