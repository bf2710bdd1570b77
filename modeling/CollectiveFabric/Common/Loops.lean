import Mathlib.Data.List.Basic

/-!
# Loops over indices

A loop counts its indices and reads a list at each. When every read
succeeds, in whatever monad the loop body lives, it is the loop over the
list itself, or over a part of it when the count does not start at zero.
A loop that appends what it makes of each index is a map. And a loop over
`n * k` indices is a loop over `n` blocks of `k`.
-/

namespace Common

namespace Loops

variable {m : Type → Type} [Monad m] [LawfulMonad m] {α β γ : Type}

/-- **Counting is walking.** Reading a list at the indices from `s` on, the
body goes over the list from its entry `s` on. -/
theorem foldlM_range' {xs ys : List α} {s : ℕ} (hdrop : xs.drop s = ys) (get : ℕ → m α)
    (hget : ∀ i x, xs[i]? = some x → get i = pure x) (f : β → α → m β) (acc : β) :
    (List.range' s ys.length).foldlM (fun acc i => get i >>= f acc) acc = ys.foldlM f acc := by
  -- on what is left of the list, for every index it begins at
  induction ys generalizing s acc with
  | nil => rfl
  | cons y ys ih =>
    have hs : xs[s]? = some y := by
      rw [← List.head?_drop, hdrop]
      rfl
    have hrest : xs.drop (s + 1) = ys := by
      rw [← List.drop_drop, hdrop]
      rfl
    simp only [List.length_cons, List.range'_succ, List.foldlM_cons, hget s y hs, pure_bind]
    exact bind_congr fun acc' => ih hrest acc'

theorem foldlM_range {xs : List α} (get : ℕ → m α)
    (hget : ∀ i x, xs[i]? = some x → get i = pure x) (f : β → α → m β) (acc : β) :
    (List.range xs.length).foldlM (fun acc i => get i >>= f acc) acc = xs.foldlM f acc := by
  rw [List.range_eq_range']
  exact foldlM_range' List.drop_zero get hget f acc

/-- A loop whose every round returns folds. -/
theorem foldlM_eq_pure {f : β → α → m β} {g : β → α → β} {xs : List α}
    (h : ∀ acc, ∀ x ∈ xs, f acc x = pure (g acc x)) (acc : β) :
    xs.foldlM f acc = pure (xs.foldl g acc) := by
  induction xs generalizing acc with
  | nil => rfl
  | cons x xs ih =>
    rw [List.foldlM_cons, h acc x (List.mem_cons_self ..), pure_bind]
    exact ih (fun acc y hy => h acc y (List.mem_cons_of_mem x hy)) (g acc x)

/-- **A loop that appends** what it makes of each entry maps. -/
theorem foldlM_append {f : List γ → α → m (List γ)} {g : α → γ} {xs : List α}
    (h : ∀ acc, ∀ x ∈ xs, f acc x = pure (acc ++ [g x])) :
    xs.foldlM f [] = pure (xs.map g) := by
  rw [foldlM_eq_pure h, List.foldl_append_eq_append, List.nil_append]
  congr 1
  exact (List.map_eq_flatMap ..).symm

/-- **A row of `n * k` entries is `n` blocks of `k`.** -/
theorem flatMap_range_mul (f : ℕ → List γ) (n k : ℕ) :
    (List.range (n * k)).flatMap f =
      (List.range n).flatMap fun b => (List.range k).flatMap fun i => f (b * k + i) := by
  induction n with
  | zero => rw [Nat.zero_mul]; rfl
  | succ n ih =>
    have hlast : ((List.range k).map (n * k + ·)).flatMap f =
        (List.range k).flatMap fun i => f (n * k + i) := List.flatMap_map ..
    rw [Nat.succ_mul, List.range_add, List.flatMap_append, ih, hlast, List.range_succ,
      List.flatMap_append, List.flatMap_singleton]

/-! ## Order -/

/-- **A fold from the first entry on** does not depend on the order of the
entries, where the operation is commutative and associative. -/
theorem foldl_cons_perm {f : α → α → α} (hcomm : ∀ a b, f a b = f b a)
    (hassoc : ∀ a b c, f (f a b) c = f a (f b c)) {x y : α} {xs ys : List α}
    (h : (x :: xs).Perm (y :: ys)) : xs.foldl f x = ys.foldl f y := by
  -- without an entry there is no accumulator yet
  let step (acc : Option α) (x : α) : Option α := some (acc.elim x (f · x))
  have hsome (xs : List α) (x : α) : xs.foldl step (some x) = some (xs.foldl f x) := by
    induction xs generalizing x with
    | nil => rfl
    | cons z xs ih => exact ih (f x z)
  have hswap (x y : α) (acc : Option α) : step (step acc x) y = step (step acc y) x := by
    cases acc with
    | none => exact congrArg some (hcomm x y)
    | some a =>
      refine congrArg some ?_
      calc f (f a x) y = f a (f x y) := hassoc a x y
        _ = f a (f y x) := by rw [hcomm x y]
        _ = f (f a y) x := (hassoc a y x).symm
  have hfold := h.foldl_eq' (fun x _ y _ acc => hswap x y acc) none
  rw [List.foldl_cons, List.foldl_cons] at hfold
  exact Option.some.inj ((hsome xs x).symm.trans (hfold.trans (hsome ys y)))

end Loops

end Common
