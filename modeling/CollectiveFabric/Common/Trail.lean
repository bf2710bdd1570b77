import Mathlib.Order.Nat
import Mathlib.Data.List.Infix
import Mathlib.Data.List.Nodup

/-!
# Trails of a guarded state machine

A trail is the list of states a machine has passed through, newest first,
each reached from the one before it by an allowed move. When every move
climbs a rank a trail passes each rank once, and where a state can only
be entered from one other the trail below it is known.
-/

namespace Common

/-- The states passed through from `start`, newest first. -/
inductive Trail {σ : Type} (allowed : σ → σ → Prop) (start : σ) : List σ → Prop
  | start : Trail allowed start [start]
  | move {s s' : σ} {past : List σ} :
      Trail allowed start (s :: past) → allowed s s' → Trail allowed start (s' :: s :: past)

namespace Trail

variable {σ : Type} {allowed : σ → σ → Prop} {start : σ} {t newer older : List σ} {s s' : σ}

/-- What is left of a trail without its newest states is a trail. -/
theorem of_append (h : Trail allowed start (newer ++ s :: older)) :
    Trail allowed start (s :: older) := by
  induction newer with
  | nil => exact h
  | cons x newer ih =>
    apply ih
    rw [List.cons_append] at h
    generalize hrest : newer ++ s :: older = rest at h
    cases h with
    | start => exact absurd hrest (by simp)
    | move h _ => exact h

/-- **A rank every move climbs** is highest at the newest state. -/
theorem rank_lt {rank : σ → ℕ} (hrank : ∀ a b, allowed a b → rank a < rank b)
    (h : Trail allowed start (s :: older)) : ∀ x ∈ older, rank x < rank s := by
  generalize ht : s :: older = t at h
  induction h generalizing s older with
  | start =>
    obtain ⟨rfl, rfl⟩ := List.cons.inj ht
    simp
  | @move a b past h hmove ih =>
    obtain ⟨rfl, rfl⟩ := List.cons.inj ht
    intro x hx
    rcases List.mem_cons.1 hx with rfl | hx
    · exact hrank _ _ hmove
    · exact (ih rfl x hx).trans (hrank _ _ hmove)

/-- **No two states of a trail have one rank.** -/
theorem rank_inj {rank : σ → ℕ} (hrank : ∀ a b, allowed a b → rank a < rank b)
    (h : Trail allowed start t) : (t.map rank).Nodup := by
  induction h with
  | start => simp
  | @move a b past h hmove ih =>
    rw [List.map_cons, List.nodup_cons]
    refine ⟨fun hmem => ?_, ih⟩
    obtain ⟨x, hx, heq⟩ := List.mem_map.1 hmem
    have hlt := rank_lt hrank (Trail.move h hmove) x hx
    omega

theorem nodup {rank : σ → ℕ} (hrank : ∀ a b, allowed a b → rank a < rank b)
    (h : Trail allowed start t) : t.Nodup :=
  List.Nodup.of_map rank (rank_inj hrank h)

theorem eq_of_rank_eq {rank : σ → ℕ} (hrank : ∀ a b, allowed a b → rank a < rank b)
    (h : Trail allowed start t) (hs : s ∈ t) (hs' : s' ∈ t) (heq : rank s = rank s') : s = s' :=
  List.inj_on_of_nodup_map (rank_inj hrank h) hs hs' heq

/-- **A set of states that no move leaves**: a trail that entered it is
still in it. -/
theorem mem_of_closed {P : σ → Prop} (hclosed : ∀ a b, allowed a b → P a → P b)
    (h : Trail allowed start (s :: older)) {x : σ} (hx : x ∈ s :: older) (hP : P x) : P s := by
  generalize ht : s :: older = t at h
  induction h generalizing s older with
  | start =>
    obtain ⟨rfl, rfl⟩ := List.cons.inj ht
    rwa [List.mem_singleton.1 hx] at hP
  | @move a b past h hmove ih =>
    obtain ⟨rfl, rfl⟩ := List.cons.inj ht
    rcases List.mem_cons.1 hx with rfl | hx
    · exact hP
    · exact hclosed _ _ hmove (ih hx rfl)

/-- **A line of states each entered only from the one before it** is what
the trail below its last state is. -/
theorem line {pred : List σ}
    (hpred : ∀ a b past, allowed a b → b :: past <:+ pred → past.head? = some a)
    (hstart : ∀ past, start :: past <:+ pred → past = [])
    (h : Trail allowed start (s :: older)) {below : List σ} (hs : s :: below <:+ pred) :
    older = below := by
  generalize ht : s :: older = t at h
  induction h generalizing s older below with
  | start =>
    obtain ⟨rfl, rfl⟩ := List.cons.inj ht
    exact (hstart below hs).symm
  | @move a b past h hmove ih =>
    obtain ⟨rfl, rfl⟩ := List.cons.inj ht
    have hhead := hpred _ _ _ hmove hs
    obtain ⟨x, below, rfl⟩ : ∃ x xs, below = x :: xs := by
      cases below with
      | nil => simp at hhead
      | cons x xs => exact ⟨x, xs, rfl⟩
    obtain rfl : x = a := by simpa using hhead
    rw [ih ((List.suffix_cons _ _).trans hs) rfl]

end Trail

end Common
