import CollectiveFabric.Common.Latest
import CollectiveFabric.Runtime.Tables

/-!
# Health reports

A report of a lower generation than the record's is rejected, unless the
record's state is `UNKNOWN`: `update_health` takes such a record for none.
So the record is the latest report of the largest generation exactly in
the runs that make no lower report to an `UNKNOWN` record.
-/

namespace CollectiveFabric

open Common

namespace Runtime

variable {rt : Runtime} {h : HealthRecord}

/-- **What a report leaves**: a lower one than a known record nothing, any
other itself. -/
theorem updateHealth_cases (rt : Runtime) (h : HealthRecord) :
    (rt.health.isZero = false ∧ h.generation < rt.health.generation ∧
        (rt.updateHealth h).1 = .error ⟨.staleAuthority, "old health report rejected"⟩ ∧
        (rt.updateHealth h).2.health = rt.health) ∨
      (¬(rt.health.isZero = false ∧ h.generation < rt.health.generation) ∧
        (rt.updateHealth h).1 = .ok () ∧ (rt.updateHealth h).2.health = h) := by
  simp only [updateHealth, compareGenerations_eq_lt]
  split_ifs with hold
  · exact .inl ⟨hold.1, hold.2, rfl, rfl⟩
  · exact .inr ⟨hold, rfl, rfl⟩

end Runtime

namespace System

variable {s : System} {ev : Event}

/-- The report an event makes, if it makes one. -/
def report : Event → Option HealthRecord
  | .call (.updateHealth h) => some h
  | _ => none

/-- **Only reports touch the record.** -/
theorem health_of_report_none (h : report ev = none) :
    (s.step ev).runtime.health = s.runtime.health := by
  cases ev with
  | call op =>
    by_cases hingest : ∃ m, op = .ingestMeasurement m
    · obtain ⟨m, rfl⟩ := hingest
      rfl
    · refine congrArg Prod.snd (Runtime.tables_apply (fun m hm => hingest ⟨m, hm⟩) fun r hr => ?_)
      rw [hr] at h
      cases h
  | begin c env e inputs => exact congrArg Prod.snd (tables_begin c env e inputs)
  | engine c env => exact congrArg (·.health) (runtime_engine c env)
  | commit c env =>
    change (s.commit c env).runtime.health = _
    rcases s.commit_cases c env with
      ⟨hsame, -⟩ | ⟨call, f, -, -, hruntime, -⟩ | ⟨call, outputs, -, -, hruntime, -⟩
    · rw [hsame]
    · rw [hruntime]
      exact congrArg Prod.snd (Runtime.tables_commitCaught f)
    · rw [hruntime]
      exact Runtime.health_commitReturned ..

/-- What is asked of one step: the record's generation does not decrease,
and a lower report is rejected and leaves the record. -/
structure HealthOrdered (s : System) (ev : Event) : Prop where
  grows : s.runtime.health.generation ≤ (s.step ev).runtime.health.generation
  rejects : ∀ h, report ev = some h → h.generation < s.runtime.health.generation →
    (∃ err, (s.runtime.updateHealth h).1 = .error err) ∧
      (s.step ev).runtime.health = s.runtime.health

/-- The event reports a generation below that of a record in `UNKNOWN`. -/
def Undercuts (s : System) (ev : Event) : Prop :=
  ∃ h, report ev = some h ∧ s.runtime.health.isZero = true ∧
    h.generation < s.runtime.health.generation

theorem step_of_report {h : HealthRecord} (hreport : report ev = some h) :
    (s.step ev).runtime = (s.runtime.updateHealth h).2 := by
  unfold report at hreport
  split at hreport
  · cases hreport
    rfl
  · cases hreport

/-- **A step keeps the order** exactly if it does not undercut. -/
theorem healthOrdered_iff : s.HealthOrdered ev ↔ ¬s.Undercuts ev := by
  constructor
  · rintro hordered ⟨h, hreport, hzero, hlt⟩
    obtain ⟨⟨err, herr⟩, -⟩ := hordered.rejects h hreport hlt
    rcases s.runtime.updateHealth_cases h with ⟨hknown, -⟩ | ⟨-, hok, -⟩
    · rw [hzero] at hknown
      cases hknown
    · rw [hok] at herr
      cases herr
  · intro hnot
    cases hreport : report ev with
    | none =>
      exact ⟨by rw [health_of_report_none hreport], fun h hr => by rw [hreport] at hr; cases hr⟩
    | some h =>
      have hrejected (hlt : h.generation < s.runtime.health.generation) :
          s.runtime.health.isZero = false := by
        by_contra hzero
        exact hnot ⟨h, hreport, by simpa using hzero, hlt⟩
      rcases s.runtime.updateHealth_cases h with ⟨-, -, herr, hsame⟩ | ⟨htaken, -, hset⟩
      · have hkept : (s.step ev).runtime.health = s.runtime.health := by
          rw [step_of_report hreport, hsame]
        refine ⟨by rw [hkept], fun h' hr _ => ?_⟩
        obtain rfl := Option.some.inj (hreport.symm.trans hr)
        exact ⟨⟨_, herr⟩, hkept⟩
      · have hle : s.runtime.health.generation ≤ h.generation :=
          not_lt.1 fun hlt => htaken ⟨hrejected hlt, hlt⟩
        refine ⟨by rwa [step_of_report hreport, hset], fun h' hr hlt => ?_⟩
        obtain rfl := Option.some.inj (hreport.symm.trans hr)
        exact absurd hlt (not_lt.2 hle)

/-! ## The latest report -/

/-- The reports of a list of events. -/
def reports (evs : List Event) : List HealthRecord := evs.filterMap report

/-- A report that does not undercut is an offer to the record. -/
theorem health_of_report {h : HealthRecord} (hreport : report ev = some h)
    (hnot : ¬s.Undercuts ev) :
    (s.step ev).runtime.health = Latest.offer (·.generation) s.runtime.health h := by
  rw [step_of_report hreport, Latest.offer]
  rcases s.runtime.updateHealth_cases h with ⟨-, hlt, -, hsame⟩ | ⟨htaken, -, hset⟩
  · rw [if_pos hlt, hsame]
  · rw [if_neg, hset]
    intro hlt
    refine htaken ⟨?_, hlt⟩
    by_contra hzero
    exact hnot ⟨h, hreport, by simpa using hzero, hlt⟩

/-- **The record of a run is the latest** of what it was before and the
reports made since. -/
theorem latest_run {seen : List HealthRecord} {evs : List Event}
    (hseen : Latest.IsLatest (·.generation) s.runtime.health seen)
    (h : Run.Along step (fun s ev => ¬s.Undercuts ev) s evs) :
    Latest.IsLatest (·.generation) (Run.run step s evs).runtime.health (seen ++ reports evs) := by
  induction evs generalizing s seen with
  | nil =>
    rw [reports, List.filterMap_nil, List.append_nil]
    exact hseen
  | cons ev evs ih =>
    cases hreport : report ev with
    | none =>
      have hkept := health_of_report_none (s := s) hreport
      have hrest := ih (by rwa [hkept]) h.2
      rwa [reports, List.filterMap_cons_none hreport]
    | some r =>
      have hnext := hseen.offer r
      rw [← health_of_report hreport h.1] at hnext
      have hrest := ih hnext h.2
      rwa [reports, List.filterMap_cons_some hreport, List.append_cons]

/-! ## Main results -/

/-- The record keeps its order at every step of the run, and is the latest
report of the largest generation at its end. -/
structure OldReportsLose (evs : List Event) : Prop where
  ordered : Run.Along step HealthOrdered init evs
  latest : reports evs ≠ [] →
    Latest.IsLatest (·.generation) (Run.run step init evs).runtime.health (reports evs)

/-- **Old health reports never win** in exactly the runs that make no
report of a lower generation to a record in `UNKNOWN`. -/
theorem oldReportsLose_iff (evs : List Event) :
    OldReportsLose evs ↔ Run.Along step (fun s ev => ¬s.Undercuts ev) init evs := by
  constructor
  · intro h
    exact (Run.along_congr fun s ev => healthOrdered_iff).1 h.ordered
  · intro h
    refine ⟨(Run.along_congr fun s ev => healthOrdered_iff).2 h, fun hne => ?_⟩
    have hlatest := latest_run (Latest.isLatest_singleton init.runtime.health) h
    -- the fresh record has generation 0, so it is no later than any report
    exact hlatest.tail hne fun r _ => Nat.zero_le _

/-- **A lower report wins over an `UNKNOWN` record**: generation 1 is taken
after generation 2. -/
theorem not_oldReportsLose_unknown :
    ¬OldReportsLose [.call (.updateHealth { generation := ⟨2⟩ }),
      .call (.updateHealth { state := .of .healthy, generation := ⟨1⟩ })] := by
  rintro ⟨⟨-, hsecond, -⟩, -⟩
  have hgrows := hsecond.grows
  exact absurd hgrows (by decide)

end System

end CollectiveFabric
