import CollectiveFabric.Lifecycle.Model.StateMachine

/-!
# What a lifecycle has behind it

The moves of the table climb a rank, the four outcomes share one, and
`SUCCEEDED` can only be entered along one line. So an execution has at
most one outcome, what follows an outcome is at most `STALE`, and a
success has every stage of the line behind it.
-/

namespace CollectiveFabric

open Common

namespace CollectiveState

/-- How far along the lifecycle a state is. -/
def rank : CollectiveState → ℕ
  | .created => 0
  | .planned => 1
  | .reserved => 2
  | .dispatched => 3
  | .running => 4
  | .completing => 5
  | .succeeded => 6
  | .failed => 6
  | .aborted => 6
  | .cancelled => 6
  | .stale => 7

/-- **Every move climbs.** -/
theorem rank_lt_of_allowed (a b : CollectiveState) (h : a.allowed b = true) : a.rank < b.rank := by
  revert h
  cases a <;> cases b <;> decide

/-- The four ends of an execution. -/
def IsOutcome (s : CollectiveState) : Prop :=
  s = .succeeded ∨ s = .failed ∨ s = .aborted ∨ s = .cancelled

/-- The states an execution that will never succeed can be in at the end:
every outcome but success, and what follows one. -/
def IsDead (s : CollectiveState) : Prop :=
  s = .failed ∨ s = .aborted ∨ s = .cancelled ∨ s = .stale

/-- The states between the reservation and the outcome. -/
def isLive (s : CollectiveState) : Bool :=
  s = .reserved || s = .dispatched || s = .running || s = .completing

theorem isDead_of_allowed {a b : CollectiveState} (h : a.allowed b = true) (ha : a.IsDead) :
    b.IsDead := by
  revert h
  unfold IsDead at ha ⊢
  rcases ha with rfl | rfl | rfl | rfl <;> cases b <;> simp [allowed]

end CollectiveState

namespace CollectiveStateMachine

variable {m m' : CollectiveStateMachine} {dst : CollectiveState}

open CollectiveState

/-! ## One transition -/

theorem transitionTo_ok (h : m.transitionTo dst = .ok m') :
    m.state.allowed dst = true ∧ m'.state = dst ∧ m'.past = m.entered := by
  unfold transitionTo at h
  split at h
  · next hallowed =>
    injection h with h
    subst h
    exact ⟨hallowed, rfl, rfl⟩
  · cases h

theorem transitionTo_error {err : Error} (h : m.transitionTo dst = .error err) :
    m.state.allowed dst = false := by
  unfold transitionTo at h
  split at h
  · cases h
  · next hnot => simpa using hnot

/-- **A swallowed transition moves the machine when the table allows it**
and leaves it alone otherwise. -/
theorem tryTransitionTo_cases (m : CollectiveStateMachine) (dst : CollectiveState) :
    (m.state.allowed dst = true ∧ (m.tryTransitionTo dst).state = dst ∧
        (m.tryTransitionTo dst).past = m.entered) ∨
      (m.state.allowed dst = false ∧ m.tryTransitionTo dst = m) := by
  unfold tryTransitionTo
  cases h : m.transitionTo dst with
  | ok m' => exact .inl (transitionTo_ok h)
  | error err => exact .inr ⟨transitionTo_error h, rfl⟩

/-! ## Histories -/

/-- The history of `m` is what is behind that of `m'`. -/
def Extends (m m' : CollectiveStateMachine) : Prop := m.entered <:+ m'.entered

theorem Extends.refl (m : CollectiveStateMachine) : m.Extends m := List.suffix_refl _

theorem Extends.trans {m₁ m₂ m₃ : CollectiveStateMachine} (h : m₁.Extends m₂)
    (h' : m₂.Extends m₃) : m₁.Extends m₃ :=
  List.IsSuffix.trans h h'

theorem extends_transitionTo (h : m.transitionTo dst = .ok m') : m.Extends m' := by
  obtain ⟨-, -, hpast⟩ := transitionTo_ok h
  exact ⟨[m'.state], by rw [← hpast]; rfl⟩

theorem extends_tryTransitionTo (m : CollectiveStateMachine) (dst : CollectiveState) :
    m.Extends (m.tryTransitionTo dst) := by
  rcases tryTransitionTo_cases m dst with ⟨-, -, hpast⟩ | ⟨-, heq⟩
  · exact ⟨[(m.tryTransitionTo dst).state], by rw [← hpast]; rfl⟩
  · rw [heq]
    exact Extends.refl m

/-- What a transition adds to the history. -/
theorem mem_of_transitionTo {s : CollectiveState} (h : m.transitionTo dst = .ok m')
    (hs : s ∈ m'.entered) : s = dst ∨ s ∈ m.entered := by
  obtain ⟨-, hstate, hpast⟩ := transitionTo_ok h
  rw [entered, hstate, hpast] at hs
  exact List.mem_cons.1 hs

theorem mem_of_tryTransitionTo {s : CollectiveState} (hs : s ∈ (m.tryTransitionTo dst).entered) :
    s = dst ∨ s ∈ m.entered := by
  rcases tryTransitionTo_cases m dst with ⟨-, hstate, hpast⟩ | ⟨-, heq⟩
  · rw [entered, hstate, hpast] at hs
    exact List.mem_cons.1 hs
  · exact .inr (heq ▸ hs)

/-- A state is entered once. -/
theorem not_mem_of_transitionTo (h : m.transitionTo dst = .ok m') : dst ∉ m.entered := by
  obtain ⟨-, hstate, hpast⟩ := transitionTo_ok h
  have hnodup := Trail.nodup rank_lt_of_allowed m'.legal
  rw [hstate, hpast] at hnodup
  exact (List.nodup_cons.1 hnodup).1

theorem Extends.mem {s : CollectiveState} (h : m.Extends m') (hs : s ∈ m.entered) :
    s ∈ m'.entered :=
  h.subset hs

/-- **An execution has at most one outcome.** -/
theorem outcome_unique {s s' : CollectiveState} (hs : s ∈ m.entered) (hs' : s' ∈ m.entered)
    (ho : s.IsOutcome) (ho' : s'.IsOutcome) : s = s' := by
  have hrank (x : CollectiveState) (hx : x.IsOutcome) : x.rank = 6 := by
    rcases hx with rfl | rfl | rfl | rfl <;> rfl
  exact Trail.eq_of_rank_eq rank_lt_of_allowed m.legal hs hs'
    ((hrank s ho).trans (hrank s' ho').symm)

/-- **After an outcome** there is only `STALE`, and only after a success
or a failure. -/
theorem state_of_outcome {o : CollectiveState} (h : o ∈ m.entered) (ho : o.IsOutcome) :
    m.state = o ∨ m.state = .stale ∧ (o = .succeeded ∨ o = .failed) := by
  refine Trail.mem_of_closed (P := fun s => s = o ∨ s = .stale ∧ (o = .succeeded ∨ o = .failed))
    ?_ m.legal h (.inl rfl)
  intro a b hmove ha
  rcases ha with rfl | ⟨rfl, -⟩
  · right
    revert hmove
    rcases ho with rfl | rfl | rfl | rfl <;> cases b <;> decide
  · exact absurd hmove (by cases b <;> decide)

/-- The states up to a success, newest first. -/
def successLine : List CollectiveState :=
  [.succeeded, .completing, .running, .dispatched, .reserved, .planned, .created]

/-- A state of the line is entered from the state below it. -/
theorem successLine_pred (a b : CollectiveState) (past : List CollectiveState)
    (hmove : a.allowed b = true) (h : b :: past <:+ successLine) : past.head? = some a := by
  simp only [successLine, List.suffix_cons_iff, List.suffix_nil, List.cons.injEq,
    reduceCtorEq, or_false] at h
  rcases h with ⟨rfl, rfl⟩ | ⟨rfl, rfl⟩ | ⟨rfl, rfl⟩ | ⟨rfl, rfl⟩ | ⟨rfl, rfl⟩ | ⟨rfl, rfl⟩ |
    ⟨rfl, rfl⟩ <;> cases a <;> simp [allowed] at hmove ⊢

theorem successLine_start (past : List CollectiveState)
    (h : CollectiveState.created :: past <:+ successLine) : past = [] := by
  simpa [successLine, List.suffix_cons_iff] using h

/-- **What is behind a state of the line** is the rest of the line. -/
theorem past_of_line {s : CollectiveState} {below newer older : List CollectiveState}
    (hline : s :: below <:+ successLine) (h : m.entered = newer ++ s :: older) :
    older = below := by
  have hlegal := m.legal
  change Trail _ _ m.entered at hlegal
  rw [h] at hlegal
  exact Trail.line successLine_pred successLine_start (Trail.of_append hlegal) hline

/-- `STALE` is entered from a success or a failure. -/
theorem past_of_stale (h : m.state = .stale) :
    ∃ older, m.past = .succeeded :: older ∨ m.past = .failed :: older := by
  have hlegal := m.legal
  rw [h] at hlegal
  generalize m.past = past at hlegal
  cases hlegal with
  | @move src _ older _ hmove =>
    refine ⟨older, ?_⟩
    cases src <;> first | exact .inl rfl | exact .inr rfl | exact absurd hmove (by decide)

/-- **A success has the whole line behind it**, in order. -/
theorem entered_of_succeeded (h : CollectiveState.succeeded ∈ m.entered) :
    m.entered = successLine ∨ m.entered = .stale :: successLine := by
  rcases state_of_outcome h (.inl rfl) with hs | ⟨hs, -⟩
  · left
    have hentered : m.entered = [] ++ .succeeded :: m.past := by rw [entered, hs]; rfl
    rw [hentered, past_of_line (List.suffix_refl successLine) hentered]
    rfl
  · right
    obtain ⟨older, hpast | hpast⟩ := past_of_stale hs
    · have hentered : m.entered = [.stale] ++ .succeeded :: older := by
        rw [entered, hs, hpast]
        rfl
      rw [hentered, past_of_line (List.suffix_refl successLine) hentered]
      rfl
    · -- the failure below `STALE` and the success are one outcome
      have hfailed : CollectiveState.failed ∈ m.entered := by
        rw [entered, hpast]
        simp
      cases outcome_unique h hfailed (.inl rfl) (.inr (.inl rfl))

/-- An execution that will never succeed stays so. -/
theorem isDead_of_extends (h : m.Extends m') (hdead : m.state.IsDead) : m'.state.IsDead :=
  Trail.mem_of_closed (fun _ _ => isDead_of_allowed) m'.legal (h.mem (List.mem_cons_self ..)) hdead

/-- **What can follow an outcome**: nothing, or `STALE` once. -/
theorem after_outcome {o : CollectiveState} (h : m.Extends m') (ho : o ∈ m.entered)
    (hout : o.IsOutcome) :
    m'.entered = m.entered ∨
      ((o = .succeeded ∨ o = .failed) ∧ m.state = o ∧ m'.entered = .stale :: m.entered) := by
  obtain ⟨newer, hnewer⟩ := h
  have hnodup : m'.entered.Nodup := Trail.nodup rank_lt_of_allowed m'.legal
  have ho' : o ∈ m'.entered := hnewer ▸ List.mem_append_right newer ho
  -- nothing newer than `m` is the outcome again
  have hnew (x : CollectiveState) (hx : x ∈ newer) : x ≠ o := by
    rintro rfl
    rw [← hnewer] at hnodup
    exact List.disjoint_of_nodup_append hnodup hx ho
  cases newer with
  | nil => exact .inl hnewer.symm
  | cons x newer =>
    right
    obtain ⟨rfl, hpast⟩ : x = m'.state ∧ newer ++ m.entered = m'.past := by
      simpa [entered] using hnewer
    obtain ⟨hstale, hcan⟩ :=
      (state_of_outcome ho' hout).resolve_left (hnew _ (List.mem_cons_self ..))
    obtain ⟨older, holder⟩ : ∃ older, m'.past = o :: older := by
      obtain ⟨older, hpast' | hpast'⟩ := past_of_stale hstale
      · refine ⟨older, ?_⟩
        rw [hpast', outcome_unique ho' (by rw [entered, hpast']; simp) hout (.inl rfl)]
      · refine ⟨older, ?_⟩
        rw [hpast', outcome_unique ho' (by rw [entered, hpast']; simp) hout (.inr (.inl rfl))]
    cases newer with
    | nil =>
      rw [List.nil_append, holder] at hpast
      refine ⟨hcan, (List.cons.inj hpast).1, ?_⟩
      rw [entered, hstale, holder, ← hpast]
    | cons y newer =>
      rw [holder] at hpast
      exact absurd (List.cons.inj hpast).1 (hnew y (by simp))

end CollectiveStateMachine

end CollectiveFabric
