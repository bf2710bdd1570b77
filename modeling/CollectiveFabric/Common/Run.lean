import Mathlib.Data.List.Basic
import Mathlib.Order.Basic

/-!
# Runs of a step function

A run takes the events of a list one after another. `Throughout` says
what holds of every state a run passes, `Along` what holds of every step
it takes: of the state before it and the event. An invariant needs only
the steps; and where each step keeps a property exactly when it meets a
condition, the runs the property holds throughout are those that meet the
condition all along.
-/

namespace Common

namespace Run

variable {σ ε : Type} (step : σ → ε → σ)

/-- The state after a list of events. -/
def run (s : σ) (evs : List ε) : σ := evs.foldl step s

/-- `P` holds in every state of the run, its first included. -/
def Throughout (P : σ → Prop) : σ → List ε → Prop
  | s, [] => P s
  | s, ev :: evs => P s ∧ Throughout P (step s ev) evs

/-- `Q` holds at every step of the run. -/
def Along (Q : σ → ε → Prop) : σ → List ε → Prop
  | _, [] => True
  | s, ev :: evs => Q s ev ∧ Along Q (step s ev) evs

instance instDecidableAlong {Q : σ → ε → Prop} [∀ s ev, Decidable (Q s ev)] :
    ∀ s evs, Decidable (Along step Q s evs)
  | _, [] => isTrue trivial
  | s, ev :: evs =>
    have : Decidable (Along step Q (step s ev) evs) := instDecidableAlong (step s ev) evs
    inferInstanceAs (Decidable (Q s ev ∧ Along step Q (step s ev) evs))

instance instDecidableThroughout {P : σ → Prop} [DecidablePred P] :
    ∀ s evs, Decidable (Throughout step P s evs)
  | s, [] => inferInstanceAs (Decidable (P s))
  | s, ev :: evs =>
    have : Decidable (Throughout step P (step s ev) evs) := instDecidableThroughout (step s ev) evs
    inferInstanceAs (Decidable (P s ∧ Throughout step P (step s ev) evs))

variable {step} {P I : σ → Prop} {Q H : σ → ε → Prop} {s : σ}

theorem run_append (evs later : List ε) :
    run step s (evs ++ later) = run step (run step s evs) later :=
  List.foldl_append

/-- What holds throughout holds at the end. -/
theorem Throughout.last {evs : List ε} (h : Throughout step P s evs) : P (run step s evs) := by
  induction evs generalizing s with
  | nil => exact h
  | cons ev evs ih => exact ih h.2

theorem Throughout.mono {P' : σ → Prop} (hP : ∀ s, P s → P' s) {evs : List ε}
    (h : Throughout step P s evs) : Throughout step P' s evs := by
  induction evs generalizing s with
  | nil => exact hP s h
  | cons ev evs ih => exact ⟨hP s h.1, ih h.2⟩

theorem Throughout.first {evs : List ε} (h : Throughout step P s evs) : P s := by
  cases evs with
  | nil => exact h
  | cons ev evs => exact h.1

theorem throughout_append {evs later : List ε} : Throughout step P s (evs ++ later) ↔
    Throughout step P s evs ∧ Throughout step P (run step s evs) later := by
  induction evs generalizing s with
  | nil => exact ⟨fun h => ⟨h.first, h⟩, And.right⟩
  | cons ev evs ih => exact (and_congr_right fun _ => ih).trans and_assoc.symm

theorem throughout_concat {evs : List ε} {ev : ε} : Throughout step P s (evs ++ [ev]) ↔
    Throughout step P s evs ∧ P (run step s (evs ++ [ev])) := by
  rw [throughout_append, run_append]
  exact and_congr_right fun h => ⟨And.right, fun hlast => ⟨h.last, hlast⟩⟩

/-- What holds throughout bears on every step. -/
theorem Throughout.along {evs : List ε} (h : Throughout step I s evs)
    (hQ : ∀ s ev, I s → Q s ev) : Along step Q s evs := by
  induction evs generalizing s with
  | nil => trivial
  | cons ev evs ih => exact ⟨hQ s ev h.1, ih h.2⟩

theorem Along.and {evs : List ε} (h : Along step H s evs) (h' : Along step Q s evs) :
    Along step (fun s ev => H s ev ∧ Q s ev) s evs := by
  induction evs generalizing s with
  | nil => trivial
  | cons ev evs ih => exact ⟨⟨h.1, h'.1⟩, ih h.2 h'.2⟩

theorem Along.imp (hQ : ∀ s ev, H s ev → Q s ev) {evs : List ε} (h : Along step H s evs) :
    Along step Q s evs := by
  induction evs generalizing s with
  | nil => trivial
  | cons ev evs ih => exact ⟨hQ s ev h.1, ih h.2⟩

theorem along_append {evs later : List ε} :
    Along step Q s (evs ++ later) ↔ Along step Q s evs ∧ Along step Q (run step s evs) later := by
  induction evs generalizing s with
  | nil => exact ⟨fun h => ⟨trivial, h⟩, And.right⟩
  | cons ev evs ih => exact (and_congr_right fun _ => ih).trans and_assoc.symm

/-- A run taken apart at each of its steps. -/
theorem along_iff {evs : List ε} :
    Along step Q s evs ↔
      ∀ before ev after, evs = before ++ ev :: after → Q (run step s before) ev := by
  constructor
  · rintro h before ev after rfl
    exact (along_append.1 h).2.1
  · intro h
    induction evs generalizing s with
    | nil => trivial
    | cons ev evs ih =>
      refine ⟨h [] ev evs rfl, ih fun before ev' after heq => ?_⟩
      exact h (ev :: before) ev' after (by rw [heq]; rfl)

/-- What holds at every step there is holds along any run. -/
theorem along_of_forall (h : ∀ s ev, Q s ev) (evs : List ε) : Along step Q s evs := by
  induction evs generalizing s with
  | nil => trivial
  | cons ev evs ih => exact ⟨h s ev, ih⟩

/-- What every event of a run meets holds along it. -/
theorem along_of_forall_mem {evs : List ε} (h : ∀ ev ∈ evs, ∀ s, Q s ev) : Along step Q s evs := by
  induction evs generalizing s with
  | nil => trivial
  | cons ev evs ih =>
    exact ⟨h ev List.mem_cons_self s, ih fun ev' hev => h ev' (List.mem_cons_of_mem ev hev)⟩

theorem along_congr {Q' : σ → ε → Prop} (hQ : ∀ s ev, Q s ev ↔ Q' s ev) {evs : List ε} :
    Along step Q s evs ↔ Along step Q' s evs := by
  induction evs generalizing s with
  | nil => exact Iff.rfl
  | cons ev evs ih => exact and_congr (hQ s ev) ih

/-- **The rule of invariants.** What every step along the run keeps holds
throughout it. -/
theorem throughout_of_step (hstep : ∀ s ev, I s → H s ev → I (step s ev)) (hs : I s)
    {evs : List ε} (h : Along step H s evs) : Throughout step I s evs := by
  induction evs generalizing s with
  | nil => exact hs
  | cons ev evs ih => exact ⟨hs, ih (hstep s ev hs h.1) h.2⟩

/-- **The rule of exact conditions.** Under an invariant, when a step
keeps `P` exactly if it meets `Q`, `P` holds throughout a run exactly if
`Q` holds all along it. -/
theorem throughout_iff_along (hI : ∀ s ev, I s → H s ev → I (step s ev))
    (hP : ∀ s ev, I s → H s ev → P s → (P (step s ev) ↔ Q s ev)) (hs : I s) (hs' : P s)
    {evs : List ε} (h : Along step H s evs) : Throughout step P s evs ↔ Along step Q s evs := by
  induction evs generalizing s with
  | nil => exact ⟨fun _ => trivial, fun _ => hs'⟩
  | cons ev evs ih =>
    have hone := hP s ev hs h.1 hs'
    constructor
    · rintro ⟨-, hrest⟩
      have hnext : P (step s ev) := by
        cases evs with
        | nil => exact hrest
        | cons ev' evs => exact hrest.1
      exact ⟨hone.1 hnext, (ih (hI s ev hs h.1) hnext h.2).1 hrest⟩
    · rintro ⟨hQ, hrest⟩
      have hnext := hone.2 hQ
      exact ⟨hs', (ih (hI s ev hs h.1) hnext h.2).2 hrest⟩

/-- What no step lowers ends no lower. -/
theorem le_run {α : Type} [Preorder α] (f : σ → α) (hmono : ∀ s ev, f s ≤ f (step s ev))
    (evs : List ε) : f s ≤ f (run step s evs) := by
  induction evs generalizing s with
  | nil => exact le_rfl
  | cons ev evs ih => exact (hmono s ev).trans ih

/-- **A bound at the end bounds every step**, of what no step lowers. -/
theorem along_of_le_run {α : Type} [Preorder α] (f : σ → α)
    (hmono : ∀ s ev, f s ≤ f (step s ev)) {b : α} {evs : List ε} (h : f (run step s evs) ≤ b) :
    Along step (fun s ev => f (step s ev) ≤ b) s evs := by
  induction evs generalizing s with
  | nil => trivial
  | cons ev evs ih => exact ⟨(le_run f hmono evs).trans h, ih h⟩

/-- **The rule of simulations.** Two systems that take the same events stay
related, if each step along the first one's run keeps them so. -/
theorem simulates {τ : Type} {step' : τ → ε → τ} {R : σ → τ → Prop}
    (hstep : ∀ s t ev, R s t → H s ev → R (step s ev) (step' t ev)) {t : τ} (h : R s t)
    {evs : List ε} (halong : Along step H s evs) : R (run step s evs) (run step' t evs) := by
  induction evs generalizing s t with
  | nil => exact h
  | cons ev evs ih => exact ih (hstep s t ev h halong.1) halong.2

/-! ## From a moment on -/

/-- For each `x`, `Q x` holds at every step the run takes after a state in
which `R x` holds. -/
def Since {α : Type} (step : σ → ε → σ) (R : α → σ → Prop) (Q : α → σ → ε → Prop) (s : σ)
    (evs : List ε) : Prop :=
  ∀ before after, evs = before ++ after → ∀ x, R x (run step s before) →
    Along step (Q x) (run step s before) after

/-- **What stays once it holds** needs to be asked only of the state before
each step. -/
theorem since_iff_along {α : Type} {R : α → σ → Prop} {Q : α → σ → ε → Prop}
    (hR : ∀ x s ev, R x s → R x (step s ev)) {evs : List ε} :
    Since step R Q s evs ↔ Along step (fun s ev => ∀ x, R x s → Q x s ev) s evs := by
  have hstays {x : α} {s : σ} {evs : List ε} (hx : R x s)
      (h : Along step (fun s ev => ∀ x, R x s → Q x s ev) s evs) : Along step (Q x) s evs := by
    induction evs generalizing s with
    | nil => trivial
    | cons ev evs ih => exact ⟨h.1 x hx, ih (hR x s ev hx) h.2⟩
  induction evs generalizing s with
  | nil =>
    refine ⟨fun _ => trivial, fun _ before after heq x _ => ?_⟩
    obtain ⟨rfl, rfl⟩ := List.append_eq_nil_iff.1 heq.symm
    trivial
  | cons ev evs ih =>
    constructor
    · intro h
      refine ⟨fun x hx => (h [] (ev :: evs) rfl x hx).1, ih.1 fun before after heq => ?_⟩
      exact h (ev :: before) after (by rw [heq]; rfl)
    · intro h before after heq x hx
      cases before with
      | nil =>
        obtain rfl : ev :: evs = after := heq
        exact hstays hx h
      | cons ev' before =>
        obtain ⟨rfl, rfl⟩ := List.cons.inj heq
        exact ih.2 h.2 before after rfl x hx

end Run

end Common
