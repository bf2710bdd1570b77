import CollectiveFabric.Runtime.Ends

/-!
# The count of active collectives

`active_collectives` goes up at a reservation and down at a commit or an
abort, whatever the execution was in the middle of; a failure, a
cancellation or a last rank's completion ends an execution and leaves the
count. The count is exact exactly while no step does one without the
other.
-/

namespace CollectiveFabric

open Common

/-- What an execution adds to the count it should have. -/
def Execution.owes (ex : Execution) : ℕ := if ex.lifecycle.state.isLive then 1 else 0

/-- How many executions are live. -/
def Runtime.liveCount (rt : Runtime) : ℕ := OrdMap.total Execution.owes rt.executions

/-- The act moves the count and the execution together. -/
def Paired (rt : Runtime) (ex : Execution) : Act → Prop
  | .reserve => ex.lifecycle.state = .planned → ex.descriptor.elementByteCount.isOk = true
  | .abort => ex.lifecycle.state = .created → rt.accounting.activeCollectives = 0
  | .commitReturned _ _ => rt.accounting.activeCollectives ≠ 0 →
      ex.lifecycle.state = .running ∨ ex.lifecycle.state = .completing
  | a => ¬a.Ends rt ex

instance (rt : Runtime) (ex : Execution) : (a : Act) → Decidable (Paired rt ex a)
  | .reserve | .abort => inferInstanceAs (Decidable (_ = _ → _ = _))
  | .commitReturned _ _ => inferInstanceAs (Decidable (_ ≠ _ → _ ∨ _))
  | .plan | .dispatch | .begin _ | .commitCaught _ | .completeRank _ | .fail _ | .cancel
  | .markStale => inferInstanceAs (Decidable (¬Act.Ends rt ex _))

namespace System

variable {s : System} {ev : Event} {e : ExecutionId} {a : Act} {ex ex' : Execution}

/-- `active_collectives` is the number of live executions. -/
def Balanced (s : System) : Prop :=
  s.runtime.accounting.activeCollectives.toNat = s.runtime.liveCount

/-- A step that moves the count and the execution together. -/
abbrev Pairs : System → Event → Prop := OnAct Paired

theorem balanced_init : init.Balanced := rfl

/-- A counter that is not zero goes down by one. -/
theorem toNat_pred {n : UInt64} (h : n ≠ 0) : (n - 1).toNat + 1 = n.toNat := by
  have hpos : n.toNat ≠ 0 := fun hzero => h (UInt64.toNat_inj.1 hzero)
  have hle : (1 : UInt64) ≤ n := UInt64.le_iff_toNat_le.2 (Nat.one_le_iff_ne_zero.2 hpos)
  rw [UInt64.toNat_sub_of_le _ _ hle, UInt64.toNat_one]
  omega

theorem owes_eq_one (h : ex.lifecycle.state.isLive = true) : ex.owes = 1 := if_pos h

theorem owes_eq_zero (h : ¬ex.lifecycle.state.isLive = true) : ex.owes = 0 := if_neg h

/-- What an act other than a reservation changes of what is owed. -/
theorem owes_step (hlive : ex'.lifecycle.state.isLive = true ↔
      (ex.lifecycle.state.isLive = true ∧ ¬a.Ends s.runtime ex) ∨
        (a = .reserve ∧ ex.lifecycle.state = .planned)) (ha : a ≠ .reserve) :
    (a.Ends s.runtime ex ∧ ex.owes = 1 ∧ ex'.owes = 0) ∨
      (¬a.Ends s.runtime ex ∧ ex'.owes = ex.owes) := by
  have hlive' : ex'.lifecycle.state.isLive = true ↔
      ex.lifecycle.state.isLive = true ∧ ¬a.Ends s.runtime ex := by
    rw [hlive]
    exact or_iff_left fun h => ha h.1
  by_cases hends : a.Ends s.runtime ex
  · exact .inl ⟨hends, owes_eq_one (Runtime.isLive_of_ends hends),
      owes_eq_zero fun h => (hlive'.1 h).2 hends⟩
  · refine .inr ⟨hends, ?_⟩
    unfold Execution.owes
    rw [show ex'.lifecycle.state.isLive = ex.lifecycle.state.isLive from
      Bool.eq_iff_iff.2 (hlive'.trans (and_iff_left hends))]

/-! ## One step -/

section

variable (h : s.Balanced)
  (hchange : OrdMap.Change s.runtime.executions (s.step ev).runtime.executions e ex ex')

include h hchange

/-- When no collective is counted active nothing is live, and nothing
ends. -/
theorem not_ends_of_idle (hzero : s.runtime.accounting.activeCollectives = 0) :
    ¬a.Ends s.runtime ex := by
  intro hends
  have hone := owes_eq_one (Runtime.isLive_of_ends hends)
  have hle := OrdMap.weight_le_total Execution.owes hchange.before
  rw [Balanced, hzero, UInt64.toNat_zero, Runtime.liveCount] at h
  omega

/-- What is owed stays, and so does the count. -/
theorem balanced_of_owes_eq (howes : ex'.owes = ex.owes)
    (hbooks : SameBooks s.runtime.accounting (s.step ev).runtime.accounting) :
    (s.step ev).Balanced := by
  have htotal := hchange.total Execution.owes
  unfold Balanced Runtime.liveCount at h ⊢
  rw [hbooks.active]
  omega

/-- One more is owed: the count has to go up. -/
theorem not_balanced_of_owes_succ (howes : ex'.owes = ex.owes + 1)
    (hbooks : SameBooks s.runtime.accounting (s.step ev).runtime.accounting) :
    ¬(s.step ev).Balanced := by
  have htotal := hchange.total Execution.owes
  unfold Balanced Runtime.liveCount at h ⊢
  rw [hbooks.active]
  omega

/-- One more is owed, and the count goes up. -/
theorem balanced_of_succ (hs' : (s.step ev).runtime.Sound)
    (hid : (s.step ev).runtime.nextId ≤ 2 ^ 64) (howes : ex'.owes = ex.owes + 1)
    (hactive : (s.step ev).runtime.accounting.activeCollectives =
      s.runtime.accounting.activeCollectives + 1) : (s.step ev).Balanced := by
  have htotal := hchange.total Execution.owes
  unfold Balanced Runtime.liveCount at h ⊢
  -- no more is owed than there are executions, and these have ids of their own
  have hfits : OrdMap.total Execution.owes (s.step ev).runtime.executions < 2 ^ 64 := by
    have hcount : OrdMap.total Execution.owes (s.step ev).runtime.executions ≤
        OrdMap.total (fun _ => 1) (s.step ev).runtime.executions :=
      OrdMap.total_mono (fun ex => by unfold Execution.owes; split <;> omega) _
    have hlt := hs'.count_lt
    omega
  rw [hactive, UInt64.toNat_add, UInt64.toNat_one, Nat.mod_eq_of_lt (by omega)]
  omega

variable (hs : s.Sound) (hact : s.act ev = some (e, a))
  (hmoves : Runtime.Moves s.runtime ex a ex' (s.step ev).runtime) (ha : a ≠ .reserve)

include hs hact hmoves ha

/-- **The count stays**: it is exact if nothing ends. -/
theorem balanced_of_same
    (hbooks : SameBooks s.runtime.accounting (s.step ev).runtime.accounting) :
    (s.step ev).Balanced ↔ ¬a.Ends s.runtime ex := by
  have htotal := hchange.total Execution.owes
  rcases owes_step (hs.isLive hact hchange.before hmoves) ha with ⟨hends, hone, hzero⟩ |
    ⟨hends, howes⟩
  · refine iff_of_false ?_ (not_not.2 hends)
    unfold Balanced Runtime.liveCount at h ⊢
    rw [hbooks.active]
    omega
  · exact iff_of_true (balanced_of_owes_eq h hchange howes hbooks) hends

/-- **The count goes down**: it is exact if something ends. -/
theorem balanced_of_pred (hpos : s.runtime.accounting.activeCollectives ≠ 0)
    (hactive : (s.step ev).runtime.accounting.activeCollectives =
      s.runtime.accounting.activeCollectives - 1) :
    (s.step ev).Balanced ↔ a.Ends s.runtime ex := by
  have htotal := hchange.total Execution.owes
  have hpred := toNat_pred hpos
  have hlive := hs.isLive hact hchange.before hmoves
  unfold Balanced Runtime.liveCount at h ⊢
  rw [hactive]
  rcases owes_step hlive ha with ⟨hends, hone, hzero⟩ | ⟨hends, howes⟩
  · exact iff_of_true (by omega) hends
  · exact iff_of_false (by omega) hends

end

/-- **One step stays balanced exactly if it pairs** the count with the
executions. -/
theorem balanced_step (s : System) (ev : Event) (hs : s.Sound)
    (hid : (s.step ev).runtime.nextId ≤ 2 ^ 64) (h : s.Balanced) :
    (s.step ev).Balanced ↔ s.Pairs ev := by
  refine iff_onAct (fun _ hquiet => ?_) (fun d _ hexecutions hbooks hnext => ?_)
    fun e a ex ex' hact hchange hmoves => ?_
  · rw [Balanced, Runtime.liveCount, hquiet.books.active, hquiet.executions]
    exact h
  · rw [Balanced, Runtime.liveCount, hbooks.active, hexecutions,
      OrdMap.total_insert_of_none _ _ (hs.runtime.fresh (by omega))]
    exact h
  have hsame (ha : a ≠ .reserve) := balanced_of_same h hchange hs hact hmoves ha
  have hdown (ha : a ≠ .reserve) := balanced_of_pred h hchange hs hact hmoves ha
  -- a reservation is of an execution that was not live, and owed nothing
  have hreserve {lc : CollectiveStateMachine} (ht : ex.lifecycle.transitionTo .reserved = .ok lc)
      (hlc : ex'.lifecycle = lc) : ex.lifecycle.state = .planned ∧ ex'.owes = ex.owes + 1 := by
    obtain ⟨hplanned, hnot, hlive⟩ := Runtime.planned_of_reserved ht
    exact ⟨hplanned, by rw [owes_eq_zero hnot, owes_eq_one (by rw [hlc]; exact hlive)]⟩
  cases hmoves with
  | refused hasks hnot hbooks =>
    refine iff_of_true (balanced_of_owes_eq h hchange rfl hbooks) ?_
    have hends : ¬a.Ends s.runtime ex := Runtime.not_ends_of_refused hasks hnot
    cases a with
    | reserve | abort =>
      cases hasks
      intro hstate
      rw [hstate] at hnot
      cases hnot
    | commitCaught | commitReturned | completeRank => cases hasks
    | _ => exact hends
  | overflowed ht hbytes hbooks =>
    obtain ⟨hplanned, howes⟩ := hreserve ht rfl
    refine iff_of_false (not_balanced_of_owes_succ h hchange howes hbooks) fun hok => ?_
    have hok := hok hplanned
    rw [hbytes] at hok
    cases hok
  | doubled _ _ hmem hnext _ => exact absurd hmem (hs.runtime.reservation_fresh (by omega))
  | reserved ht hbytes _ hactive =>
    have hs' := (sound_step s ev hs hid).runtime
    refine iff_of_true (balanced_of_succ h hchange hs' hid (hreserve ht rfl).2 hactive) fun _ => ?_
    rw [hbytes]
    rfl
  | unmeasured hbytes =>
    obtain ⟨bytes, hok⟩ := (hs.backed hact hchange.before).bytes
    rw [hbytes] at hok
    cases hok
  | unpaired hzero hbooks =>
    refine iff_of_true ((hsame (by simp) hbooks).2 (not_ends_of_idle h hchange hzero)) ?_
    exact fun hpos => absurd hzero hpos
  | measured hpos hactive =>
    rw [hdown (by simp) hpos hactive]
    exact ⟨fun h _ => h, fun h => h hpos⟩
  | unstarted ht hzero hbooks =>
    exact iff_of_true ((hsame (by simp) hbooks).2 (not_ends_of_idle h hchange hzero))
      fun _ => hzero
  | aborted ht hpos hactive =>
    obtain ⟨hallowed, -⟩ := CollectiveStateMachine.transitionTo_ok ht
    rw [hdown (by simp) hpos hactive]
    unfold Act.Ends Paired
    revert hallowed
    cases ex.lifecycle.state <;> simp [CollectiveState.allowed, hpos]
  | withheld hbooks | planned _ hbooks | dispatched _ hbooks | begun _ hbooks
  | cancelled _ hbooks | staled _ hbooks | caught hbooks | repeated _ hbooks
  | uncounted _ _ hbooks | counted _ _ hbooks | failed _ hbooks => exact hsame (by simp) hbooks

/-! ## Main results -/

/-- **The count is exact exactly while it is paired**, as long as fewer
than 2^64 ids have been issued. -/
theorem balanced_iff (evs : List Event)
    (hid : (Run.run step init evs).runtime.nextId ≤ 2 ^ 64) :
    Run.Throughout step Balanced init evs ↔ Run.Along step Pairs init evs :=
  Run.throughout_iff_along sound_step balanced_step sound_init balanced_init (along_ids hid)

theorem balanced_broadcast : Run.Throughout step Balanced init soloBroadcast :=
  (balanced_iff _ (by decide +kernel)).2 (by decide +kernel)

/-- **A collective cancelled after its reservation stays counted.** -/
theorem not_balanced_cancelled :
    ¬(Run.run step init (reserving (soloDescriptor .broadcast .none) ++
      [.call (.cancelCollective ⟨1⟩)])).Balanced := by
  unfold Balanced
  decide +kernel

end System

end CollectiveFabric
