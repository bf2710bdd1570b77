import Mathlib.Algebra.Order.Ring.Cast
import Mathlib.Data.List.Induction
import Mathlib.Tactic.Linarith

/-!
# Scanning for the best

One pass over a list that holds the best item seen so far and replaces it
where the next one is better. What the pass ends with depends on what
`better` decides: where it compares a key the end is a minimum; where it
compares a cost up to a tolerance it need not be transitive, and each
further item may move the end away from the minimum by one tolerance more.
-/

namespace Common

/-- What is held after the next item. -/
def offer {α : Type} (better : α → α → Bool) (held : Option α) (x : α) : Option α :=
  match held with
  | none => some x
  | some b => if better x b then some x else some b

/-- The best item of a list, in one pass. -/
def best {α : Type} (better : α → α → Bool) (xs : List α) : Option α :=
  xs.foldl (offer better) none

namespace Best

variable {α : Type} {better : α → α → Bool} {xs : List α} {b x : α}

theorem append_singleton (xs : List α) (x : α) :
    best better (xs ++ [x]) = offer better (best better xs) x := by
  simp [best]

/-- **Nothing is held** of an empty list alone. -/
theorem eq_none_iff : best better xs = none ↔ xs = [] := by
  induction xs using List.reverseRecOn with
  | nil => exact iff_of_true rfl rfl
  | append_singleton xs x _ =>
    refine iff_of_false ?_ (by simp)
    rw [append_singleton]
    unfold offer
    split
    · simp
    · split_ifs <;> simp

/-- **What is held** is an item of the list. -/
theorem mem (h : best better xs = some b) : b ∈ xs := by
  induction xs using List.reverseRecOn generalizing b with
  | nil => cases h
  | append_singleton xs x ih =>
    rw [append_singleton] at h
    unfold offer at h
    split at h
    · cases h
      simp
    · next held hheld =>
      split_ifs at h
      · cases h
        simp
      · cases h
        exact List.mem_append_left _ (ih hheld)

/-- **The scan rule.** `P k b c` says what `b` is worth against `c` after
`k` items: a relation every item has to itself and the held item to a
refused one, which one item more may only loosen by a step. -/
theorem rule {P : ℕ → α → α → Prop} (hself : ∀ c, P 1 c c)
    (hrefused : ∀ b c, better c b = false → P 1 b c)
    (htaken : ∀ k b c d, better d b = true → P k b c → P (k + 1) d c)
    (hmono : ∀ k b c, P k b c → P (k + 1) b c) (h : best better xs = some b) :
    ∀ c ∈ xs, P xs.length b c := by
  have hmore {b c : α} (hone : P 1 b c) (k : ℕ) : P (k + 1) b c := by
    induction k with
    | zero => exact hone
    | succ k ih => exact hmono _ b c ih
  induction xs using List.reverseRecOn generalizing b with
  | nil => cases h
  | append_singleton xs x ih =>
    rw [append_singleton] at h
    unfold offer at h
    rw [List.length_append, List.length_singleton]
    intro c hc
    split at h
    · next hnone =>
      cases h
      obtain rfl := eq_none_iff.1 hnone
      obtain rfl := List.mem_singleton.1 hc
      exact hself _
    · next held hheld =>
      rcases List.mem_append.1 hc with hc | hc
      · split_ifs at h with hbetter
        · cases h
          exact htaken _ held c _ hbetter (ih hheld c hc)
        · cases h
          exact hmono _ _ c (ih hheld c hc)
      · obtain rfl := List.mem_singleton.1 hc
        split_ifs at h with hbetter
        · cases h
          exact hmore (hself _) _
        · cases h
          exact hmore (hrefused _ _ (by simpa using hbetter)) _

/-- **Comparing keys** finds a least key. -/
theorem key_le {κ : Type} [LinearOrder κ] {key : α → κ}
    (hkey : ∀ c b, better c b = true ↔ key c < key b) (h : best better xs = some b) :
    ∀ c ∈ xs, key b ≤ key c := by
  refine rule (P := fun _ b c => key b ≤ key c) (fun c => le_rfl) ?_ ?_ (fun _ _ _ h => h) h
  · intro b c hrefused
    refine not_lt.1 fun hlt => ?_
    rw [(hkey c b).2 hlt] at hrefused
    cases hrefused
  · intro _ b c d hbetter hle
    exact ((hkey d b).1 hbetter).le.trans hle

/-- **Comparing costs up to a tolerance** finds a cost above any other by
at most one tolerance for each item. -/
theorem cost_le {K : Type} [CommRing K] [LinearOrder K] [IsStrictOrderedRing K] {cost : α → K}
    {tolerance : K} (htolerance : 0 ≤ tolerance)
    (htaken : ∀ c b, better c b = true → cost c ≤ cost b + tolerance)
    (hrefused : ∀ c b, better c b = false → cost b ≤ cost c + tolerance)
    (h : best better xs = some b) : ∀ c ∈ xs, cost b ≤ cost c + xs.length * tolerance := by
  refine rule (P := fun k b c => cost b ≤ cost c + k * tolerance) ?_ ?_ ?_ ?_ h
  · intro c
    rw [Nat.cast_one, one_mul]
    exact le_add_of_nonneg_right htolerance
  · intro b c h
    rw [Nat.cast_one, one_mul]
    exact hrefused c b h
  · intro k b c d hbetter hle
    calc cost d ≤ cost b + tolerance := htaken d b hbetter
      _ ≤ cost c + k * tolerance + tolerance := add_le_add_left hle tolerance
      _ = cost c + (k + 1 : ℕ) * tolerance := by
        rw [Nat.cast_add, Nat.cast_one, add_mul, one_mul, add_assoc]
  · intro k b c hle
    rw [Nat.cast_add, Nat.cast_one, add_mul, one_mul, ← add_assoc]
    exact le_add_of_le_of_nonneg hle htolerance

end Best

end Common
