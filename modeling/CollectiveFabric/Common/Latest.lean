import Mathlib.Order.Lattice

/-!
# The latest of a sequence

Values come one after another, each with a key of a linear order. Keeping
what is held unless an offer's key is at least as large leaves, of all the
values that came, the last of those with the largest key.
-/

namespace Common

namespace Latest

variable {α κ : Type} [LinearOrder κ] (key : α → κ)

/-- What is held after an offer. -/
def offer (held x : α) : α := if key x < key held then held else x

/-- `r` is the last among the values with the largest key. -/
def IsLatest (r : α) (xs : List α) : Prop :=
  ∃ before after, xs = before ++ r :: after ∧ (∀ x ∈ before, key x ≤ key r) ∧
    ∀ x ∈ after, key x < key r

variable {key} {r x : α} {xs : List α}

theorem isLatest_singleton (x : α) : IsLatest key x [x] :=
  ⟨[], [], rfl, by simp, by simp⟩

theorem IsLatest.le (h : IsLatest key r xs) (hx : x ∈ xs) : key x ≤ key r := by
  obtain ⟨before, after, rfl, hbefore, hafter⟩ := h
  rcases List.mem_append.1 hx with hx | hx
  · exact hbefore x hx
  · rcases List.mem_cons.1 hx with rfl | hx
    · exact le_rfl
    · exact (hafter x hx).le

/-- **One offer more** leaves the latest of one value more. -/
theorem IsLatest.offer (h : IsLatest key r xs) (x : α) :
    IsLatest key (offer key r x) (xs ++ [x]) := by
  unfold Latest.offer
  split_ifs with hlt
  · obtain ⟨before, after, rfl, hbefore, hafter⟩ := h
    refine ⟨before, after ++ [x], by simp, hbefore, fun y hy => ?_⟩
    rcases List.mem_append.1 hy with hy | hy
    · exact hafter y hy
    · rwa [List.mem_singleton.1 hy]
  · -- everything before is at most what was held, and that is at most `x`
    refine ⟨xs, [], rfl, fun y hy => ?_, by simp⟩
    exact (h.le hy).trans (not_lt.1 hlt)

/-- A first value below the others is not the latest. -/
theorem IsLatest.tail {y : α} (h : IsLatest key r (y :: xs)) (hne : xs ≠ [])
    (hmin : ∀ x ∈ xs, key y ≤ key x) : IsLatest key r xs := by
  obtain ⟨before, after, heq, hbefore, hafter⟩ := h
  cases before with
  | nil =>
    obtain ⟨rfl, rfl⟩ := List.cons.inj heq
    obtain ⟨x, rest, rfl⟩ := List.exists_cons_of_ne_nil hne
    have hx : x ∈ x :: rest := List.mem_cons_self ..
    exact absurd (hafter x hx) (not_lt.2 (hmin x hx))
  | cons b before =>
    obtain ⟨rfl, rfl⟩ := List.cons.inj heq
    exact ⟨before, after, rfl, fun x hx => hbefore x (List.mem_cons_of_mem _ hx), hafter⟩

end Latest

end Common
