import CollectiveFabric.Runtime.Invariant

/-!
# Reported completions

`complete_rank` records the completion it is told of before it asks
anything but whether it knows it: neither the state of the execution nor
the account can keep a report out. And from `DISPATCHED` no report moves
the lifecycle, so ranks that report complete nothing.
-/

namespace CollectiveFabric

open Common

namespace CollectiveState

/-- The states a completion is expected in. -/
def isDispatchLive (s : CollectiveState) : Bool :=
  s = .dispatched || s = .running || s = .completing

end CollectiveState

namespace Runtime

variable {rt : Runtime} {e : ExecutionId} {r : RankId} {ex : Execution}

/-! ## One report -/

/-- What is asked of a report: it records a completion of a live dispatch
only, throws in any other state, and changes nothing if it throws. -/
structure ReportsLive (rt : Runtime) (e : ExecutionId) (r : RankId) : Prop where
  records : ∀ ex ex', rt.executions[e]? = some ex →
    (rt.completeRank e r).2.executions[e]? = some ex' →
      ∀ r', r' ∈ ex'.rankCompletions → r' ∉ ex.rankCompletions →
        ex.lifecycle.state.isDispatchLive = true
  throws : ∀ ex, rt.executions[e]? = some ex → ex.lifecycle.state.isDispatchLive = false →
    ∃ err, (rt.completeRank e r).1 = .error err
  unchanged : ∀ err, (rt.completeRank e r).1 = .error err →
    (rt.completeRank e r).2.accounting = rt.accounting ∧
      ∀ ex, rt.executions[e]? = some ex →
        ∃ ex', (rt.completeRank e r).2.executions[e]? = some ex' ∧
          ex'.rankCompletions = ex.rankCompletions ∧ ex'.lifecycle = ex.lifecycle

/-- The report is of a completion known already, or comes to a live
dispatch with a rank contribution active. -/
def TakesReport (rt : Runtime) (e : ExecutionId) (r : RankId) : Prop :=
  ∀ ex ∈ rt.executions[e]?, r ∈ ex.rankCompletions ∨
    ex.lifecycle.state.isDispatchLive = true ∧ rt.accounting.activeRankContributions ≠ 0

instance (rt : Runtime) (e : ExecutionId) (r : RankId) : Decidable (rt.TakesReport e r) :=
  inferInstanceAs (Decidable (∀ ex ∈ rt.executions[e]?, _))

/-- **How a report ends**: there is no execution, the rank has completed
before, no contribution is active, or it counts. -/
theorem completeRank_cases (rt : Runtime) (e : ExecutionId) (r : RankId) :
    (rt.executions[e]? = none ∧
        rt.completeRank e r = (.error ⟨.notFound, "unknown execution"⟩, rt)) ∨
      ∃ ex, rt.executions[e]? = some ex ∧
        ((r ∈ ex.rankCompletions ∧
            rt.completeRank e r = (.error ⟨.conflict, "duplicate rank completion"⟩, rt)) ∨
          (r ∉ ex.rankCompletions ∧ rt.accounting.activeRankContributions = 0 ∧
            ∃ err, rt.completeRank e r = (.error err,
              rt.setExecution e { ex with rankCompletions := ex.rankCompletions.insert r true })) ∨
          (r ∉ ex.rankCompletions ∧ rt.accounting.activeRankContributions ≠ 0 ∧
            (rt.completeRank e r).1 = .ok ())) := by
  unfold completeRank onExecution
  cases hex : rt.executions[e]? with
  | none => exact .inl ⟨rfl, rfl⟩
  | some ex =>
    refine .inr ⟨ex, rfl, ?_⟩
    by_cases hmem : r ∈ ex.rankCompletions
    · exact .inl ⟨hmem, if_pos hmem⟩
    · simp only [if_neg hmem, Accounting.rankContributionComplete]
      by_cases hzero : rt.accounting.activeRankContributions = 0
      · simp only [if_pos hzero]
        exact .inr (.inl ⟨hmem, hzero, _, rfl⟩)
      · simp only [if_neg hzero]
        exact .inr (.inr ⟨hmem, hzero, trivial⟩)

/-- A report that counts records the rank. -/
theorem mem_of_counted (hex : rt.executions[e]? = some ex) (hmem : r ∉ ex.rankCompletions) :
    ∃ ex', (rt.completeRank e r).2.executions[e]? = some ex' ∧ r ∈ ex'.rankCompletions := by
  obtain ⟨ex', hex', hmoves⟩ := (@effect_completeRank rt e r).moved hex
  refine ⟨ex', hex', ?_⟩
  cases hmoves with
  | refused hasks => cases hasks
  | repeated hknown => exact absurd hknown hmem
  | uncounted => exact Std.TreeMap.mem_insert_self
  | counted =>
    rw [settle_rankCompletions]
    exact Std.TreeMap.mem_insert_self

/-- A report refused outright is as asked. -/
theorem reportsLive_of_refused {err : Error} (h : rt.completeRank e r = (.error err, rt)) :
    rt.ReportsLive e r := by
  refine ⟨fun ex ex' hex hex' r' hrecorded hnot => ?_, fun _ _ _ => ⟨err, by rw [h]⟩,
    fun _ _ => ⟨by rw [h], fun ex hex => ⟨ex, by rwa [h], rfl, rfl⟩⟩⟩
  rw [h, hex] at hex'
  obtain rfl := Option.some.inj hex'
  exact absurd hrecorded hnot

/-- **A report keeps to live dispatches** exactly if it repeats one, or
comes to a live dispatch with a contribution active. -/
theorem reportsLive_iff (rt : Runtime) (e : ExecutionId) (r : RankId) :
    rt.ReportsLive e r ↔ rt.TakesReport e r := by
  constructor
  · rintro h ex (hex : _ = some ex)
    by_contra hnot
    obtain ⟨hmem, hlive⟩ := not_or.1 hnot
    obtain ⟨ex', hex', hrecorded⟩ := mem_of_counted hex hmem
    refine hlive ⟨h.records ex ex' hex hex' r hrecorded hmem, fun hzero => ?_⟩
    -- no contribution is active: the report throws over what it recorded
    rcases rt.completeRank_cases e r with ⟨hnone, -⟩ | ⟨ex₀, hex₀, hcases⟩
    · rw [hex] at hnone
      cases hnone
    obtain rfl := Option.some.inj (hex.symm.trans hex₀)
    rcases hcases with ⟨hknown, -⟩ | ⟨-, -, err, heq⟩ | ⟨-, hpos, -⟩
    · exact hmem hknown
    · obtain ⟨-, hkept⟩ := h.unchanged err (by rw [heq])
      obtain ⟨ex'', hex'', hsame, -⟩ := hkept ex hex
      obtain rfl := Option.some.inj (hex'.symm.trans hex'')
      rw [hsame] at hrecorded
      exact hmem hrecorded
    · exact hpos hzero
  · intro h
    rcases rt.completeRank_cases e r with ⟨-, heq⟩ | ⟨ex, hex, hcases⟩
    · exact reportsLive_of_refused heq
    rcases hcases with ⟨-, heq⟩ | ⟨hmem, hzero, -⟩ | ⟨hmem, -, hok⟩
    · exact reportsLive_of_refused heq
    · rcases h ex hex with hknown | ⟨-, hpos⟩
      · exact absurd hknown hmem
      · exact absurd hzero hpos
    · have hlive := ((h ex hex).resolve_left hmem).1
      have hsome (ex₀ : Execution) (hex₀ : rt.executions[e]? = some ex₀) : ex₀ = ex :=
        Option.some.inj (hex₀.symm.trans hex)
      refine ⟨fun ex₀ _ hex₀ _ _ _ _ => by rwa [hsome ex₀ hex₀], fun ex₀ hex₀ hnot => ?_,
        fun err herr => ?_⟩
      · rw [hsome ex₀ hex₀, hlive] at hnot
        cases hnot
      · rw [hok] at herr
        cases herr

/-! ## Reports from every rank -/

/-- The runtime after a list of ranks has reported. -/
def reportAll (rt : Runtime) (e : ExecutionId) (ranks : List RankId) : Runtime :=
  ranks.foldl (fun rt r => (rt.completeRank e r).2) rt

/-- The lifecycle state of an execution. -/
def stateOf (rt : Runtime) (e : ExecutionId) : Option CollectiveState :=
  (rt.executions[e]?).map (·.lifecycle.state)

/-- The ranks' reports complete the execution: none throws, and it has
succeeded after the last and not before. -/
structure QuorumCompletes (rt : Runtime) (e : ExecutionId) (ranks : List RankId) : Prop where
  returns : ∀ before r after, ranks = before ++ r :: after →
    ((rt.reportAll e before).completeRank e r).1 = .ok ()
  early : ∀ before, before <+: ranks → before ≠ ranks →
    (rt.reportAll e before).stateOf e ≠ some .succeeded
  done : (rt.reportAll e ranks).stateOf e = some .succeeded

/-- **No report moves a `DISPATCHED` execution.** -/
theorem dispatched_completeRank {grp : CollectiveGroup} (hex : rt.executions[e]? = some ex)
    (hgrp : rt.groupOf ex = some grp) (hstate : ex.lifecycle.state = .dispatched) (r : RankId) :
    ∃ ex', (rt.completeRank e r).2.executions[e]? = some ex' ∧
      (rt.completeRank e r).2.groupOf ex' = some grp ∧ ex'.lifecycle.state = .dispatched := by
  have heffect := @effect_completeRank rt e r
  obtain ⟨ex', hex', hmoves⟩ := heffect.moved hex
  refine ⟨ex', hex', heffect.groupOf hmoves.grows hgrp, ?_⟩
  cases hmoves with
  | refused hasks => cases hasks
  | repeated => exact hstate
  | uncounted => exact hstate
  | counted =>
    -- settling moves `RUNNING` and `COMPLETING` alone
    rcases settle_cases hgrp (ex.rankCompletions.insert r true) ex.outputs with
      ⟨-, hrun | hcompleting, -⟩ | ⟨-, hrun, -⟩ | ⟨-, -, hsame⟩
    · exact absurd (hstate.symm.trans hrun) (by decide)
    · exact absurd (hstate.symm.trans hcompleting) (by decide)
    · exact absurd (hstate.symm.trans hrun) (by decide)
    · rw [hsame, hstate]

/-- However many ranks report. -/
theorem dispatched_reportAll {grp : CollectiveGroup} (hex : rt.executions[e]? = some ex)
    (hgrp : rt.groupOf ex = some grp) (hstate : ex.lifecycle.state = .dispatched)
    (ranks : List RankId) : (rt.reportAll e ranks).stateOf e = some .dispatched := by
  induction ranks generalizing rt ex with
  | nil => rw [reportAll, List.foldl_nil, stateOf, hex, Option.map_some, hstate]
  | cons r ranks ih =>
    obtain ⟨ex', hex', hgrp', hstate'⟩ := dispatched_completeRank hex hgrp hstate r
    exact ih hex' hgrp' hstate'

/-! ## Main results -/

/-- **Reports never complete a `DISPATCHED` execution**, whichever ranks
make them, in whatever order and with however many contributions active. -/
theorem not_quorumCompletes_of_dispatched (rt : Runtime) (e : ExecutionId) (ex : Execution)
    (grp : CollectiveGroup) (ranks : List RankId) (hex : rt.executions[e]? = some ex)
    (hgrp : rt.groupOf ex = some grp) (hstate : ex.lifecycle.state = .dispatched) :
    ¬rt.QuorumCompletes e ranks := by
  intro h
  have hdone := h.done
  rw [dispatched_reportAll hex hgrp hstate ranks] at hdone
  cases hdone

end Runtime

namespace System

/-- A broadcast brought to `DISPATCHED`, with one contribution active. -/
def contributing : List Event :=
  dispatching (soloDescriptor .broadcast .none) ++ [.call .activeRankContribution]

/-- The one rank's report leaves it there. -/
theorem not_quorumCompletes_contributing :
    (Run.run step init contributing).runtime.accounting.activeRankContributions = 1 ∧
      (Run.run step init contributing).runtime.stateOf ⟨1⟩ = some .dispatched ∧
      ¬(Run.run step init contributing).runtime.QuorumCompletes ⟨1⟩ [⟨0⟩] := by
  refine ⟨by decide +kernel, by decide +kernel, fun h => ?_⟩
  have hafter : ((Run.run step init contributing).runtime.reportAll ⟨1⟩ [⟨0⟩]).stateOf ⟨1⟩ =
      some .dispatched := by decide +kernel
  exact absurd (hafter.symm.trans h.done) (by decide)

/-- Nor do two reports. -/
theorem not_quorumCompletes_repeated :
    ¬(Run.run step init contributing).runtime.QuorumCompletes ⟨1⟩ [⟨0⟩, ⟨0⟩] := by
  have hgrouped : ((Run.run step init contributing).runtime.executions[(⟨1⟩ : ExecutionId)]?.any
      fun ex => ((Run.run step init contributing).runtime.groupOf ex).isSome ∧
        ex.lifecycle.state = .dispatched) = true := by decide +kernel
  obtain ⟨ex, hex, hboth⟩ := (Option.any_eq_true _ _).1 hgrouped
  obtain ⟨hsome, hstate⟩ := of_decide_eq_true hboth
  obtain ⟨grp, hgrp⟩ := Option.isSome_iff_exists.1 hsome
  exact Runtime.not_quorumCompletes_of_dispatched _ ⟨1⟩ ex grp _ hex hgrp hstate

/-- A report the event makes is as asked. -/
def LiveReport (s : System) (ev : Event) : Prop :=
  ∀ e r, ev = .call (.completeRank e r) → s.runtime.ReportsLive e r

/-- A report the event makes is one `complete_rank` takes as it should. -/
def TakenReport (s : System) (ev : Event) : Prop :=
  ∀ e r, ev = .call (.completeRank e r) → s.runtime.TakesReport e r

/-- **Completions count only for live dispatches** in a run exactly if
each of its reports repeats one or comes to a live dispatch with a
contribution active; and in the state a run reaches exactly for those
reports that would. -/
theorem liveReports_iff (evs : List Event) :
    (Run.Along step LiveReport init evs ↔ Run.Along step TakenReport init evs) ∧
      ∀ e r, (Run.run step init evs).runtime.ReportsLive e r ↔
        (Run.run step init evs).runtime.TakesReport e r := by
  refine ⟨Run.along_congr fun s ev => ?_, fun e r => Runtime.reportsLive_iff _ e r⟩
  constructor
  · intro h e r hev
    exact (Runtime.reportsLive_iff _ e r).1 (h e r hev)
  · intro h e r hev
    exact (Runtime.reportsLive_iff _ e r).2 (h e r hev)

/-- **A report of a `RESERVED` execution throws and is kept.** -/
theorem not_liveReports_reserved :
    ¬(Run.run step init (reserving (soloDescriptor .broadcast .none))).runtime.ReportsLive ⟨1⟩
      ⟨0⟩ := by
  intro h
  have hnot : ¬(Run.run step init (reserving (soloDescriptor .broadcast
      .none))).runtime.TakesReport ⟨1⟩ ⟨0⟩ := by decide +kernel
  exact hnot ((Runtime.reportsLive_iff _ _ _).1 h)

end System

end CollectiveFabric
