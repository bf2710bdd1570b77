import Mathlib.Data.List.Basic
import Mathlib.Data.List.Induction

/-!
# Absorbing a stream block by block

Items come one at a time into a buffer that is handed on each time it
holds a whole block. However the stream was cut up, what has been handed
on is the whole blocks of the stream in order, and the buffer holds the
rest.
-/

namespace Common

namespace Blocks

variable {σ α : Type} (n : ℕ) (f : σ → List α → σ)

/-- One item more: a block that is full is handed on. -/
def absorb (x : σ × List α) (b : α) : σ × List α :=
  if x.2.length + 1 = n then (f x.1 (x.2 ++ [b]), []) else (x.1, x.2 ++ [b])

/-- Block `i` of a stream. -/
def block (l : List α) (i : ℕ) : List α := (l.drop (n * i)).take n

/-- The whole blocks of a stream, taken in order. -/
def fold (s : σ) (l : List α) : σ :=
  (List.range (l.length / n)).foldl (fun s i => f s (block n l i)) s

variable {n} {f}

/-- The buffer fills up, and starts again. -/
theorem length_absorb (x : σ × List α) (b : α) :
    (absorb n f x b).2.length = if x.2.length + 1 = n then 0 else x.2.length + 1 := by
  unfold absorb
  split_ifs
  · rfl
  · exact List.length_append

theorem length_block {l : List α} {i : ℕ} (h : i < l.length / n) : (block n l i).length = n := by
  have hle : n * (i + 1) ≤ n * (l.length / n) := Nat.mul_le_mul_left n h
  have hdiv : n * (l.length / n) ≤ l.length := Nat.mul_div_le l.length n
  rw [Nat.mul_succ] at hle
  rw [block, List.length_take, List.length_drop]
  omega

/-- What two consumers make of each block they make of the stream. -/
theorem fold_hom {τ : Type} {g : τ → List α → τ} (φ : σ → τ)
    (h : ∀ s b, b.length = n → φ (f s b) = g (φ s) b) (s : σ) (l : List α) :
    φ (fold n f s l) = fold n g (φ s) l := by
  unfold fold
  have hturns (is : List ℕ) (his : ∀ i ∈ is, i < l.length / n) (s : σ) :
      φ (is.foldl (fun s i => f s (block n l i)) s) =
        is.foldl (fun s i => g s (block n l i)) (φ s) := by
    induction is generalizing s with
    | nil => rfl
    | cons i is ih =>
      rw [List.foldl_cons, List.foldl_cons, ih fun j hj => his j (List.mem_cons_of_mem i hj),
        h _ _ (length_block (his i List.mem_cons_self))]
  exact hturns _ (fun i hi => List.mem_range.1 hi) s

/-- An item more changes no whole block. -/
theorem block_append {l : List α} {i : ℕ} (h : i < l.length / n) (later : List α) :
    block n (l ++ later) i = block n l i := by
  have hle : n * i + n ≤ l.length := by
    calc n * i + n = n * (i + 1) := (Nat.mul_succ n i).symm
      _ ≤ n * (l.length / n) := Nat.mul_le_mul_left n h
      _ ≤ l.length := Nat.mul_div_le l.length n
  rw [block, block, List.drop_append_of_le_length (by omega),
    List.take_append_of_le_length (by rw [List.length_drop]; omega)]

/-- The blocks of a stream do not change with what follows. -/
theorem foldl_append (s : σ) (l later : List α) :
    (List.range (l.length / n)).foldl (fun s i => f s (block n (l ++ later) i)) s =
      fold n f s l := by
  refine List.foldl_ext _ _ _ fun s i hi => ?_
  rw [block_append (List.mem_range.1 hi)]

/-- The item that completes a block. -/
theorem fold_append_full (hn : 0 < n) (s : σ) {l : List α} (b : α) (h : l.length % n + 1 = n) :
    fold n f s (l ++ [b]) = f (fold n f s l) (l.drop (n * (l.length / n)) ++ [b]) ∧
      n * ((l ++ [b]).length / n) = (l ++ [b]).length := by
  have hdiv : n * (l.length / n) + l.length % n = l.length := Nat.div_add_mod l.length n
  have hsucc : (l ++ [b]).length = n * (l.length / n + 1) := by
    rw [List.length_append, List.length_singleton, Nat.mul_succ]
    omega
  have hquot : (l ++ [b]).length / n = l.length / n + 1 := by
    rw [hsucc, Nat.mul_div_cancel_left _ hn]
  have hblock : block n (l ++ [b]) (l.length / n) = l.drop (n * (l.length / n)) ++ [b] := by
    rw [block, List.drop_append_of_le_length (by omega), List.take_of_length_le]
    rw [List.length_append, List.length_drop, List.length_singleton]
    omega
  constructor
  · rw [fold, hquot, List.range_succ, List.foldl_append, foldl_append, List.foldl_cons,
      List.foldl_nil, hblock]
  · rw [hquot, hsucc]

/-- An item that does not. -/
theorem fold_append_partial (hn : 0 < n) (s : σ) {l : List α} (b : α)
    (h : ¬l.length % n + 1 = n) :
    fold n f s (l ++ [b]) = fold n f s l ∧ (l ++ [b]).length / n = l.length / n := by
  have hdiv : n * (l.length / n) + l.length % n = l.length := Nat.div_add_mod l.length n
  have hmod : l.length % n < n := Nat.mod_lt _ hn
  have hquot : (l ++ [b]).length / n = l.length / n := by
    rw [List.length_append, List.length_singleton]
    refine Nat.div_eq_of_lt_le ?_ ?_
    · rw [Nat.mul_comm]
      omega
    · rw [Nat.succ_mul, Nat.mul_comm]
      omega
  exact ⟨by rw [fold, hquot, foldl_append], hquot⟩

/-- **What a stream leaves**: its whole blocks handed on, the rest held. -/
theorem foldl_absorb (hn : 0 < n) (s : σ) (l : List α) :
    l.foldl (absorb n f) (s, []) = (fold n f s l, l.drop (n * (l.length / n))) := by
  induction l using List.reverseRecOn with
  | nil => simp [fold]
  | append_singleton l b ih =>
    have hdiv : n * (l.length / n) + l.length % n = l.length := Nat.div_add_mod l.length n
    rw [List.foldl_append, List.foldl_cons, List.foldl_nil, ih, absorb]
    simp only [List.length_drop]
    by_cases hfull : l.length % n + 1 = n
    · -- the item fills the buffer: it completes the next block of the stream
      obtain ⟨hfold, hlength⟩ := fold_append_full (f := f) hn s b hfull
      rw [if_pos (by omega), hfold, hlength, List.drop_length]
    · obtain ⟨hfold, hquot⟩ := fold_append_partial (f := f) hn s b hfull
      rw [if_neg (by omega), hfold, hquot, List.drop_append_of_le_length (by omega)]

/-- A stream of whole blocks leaves nothing in the buffer. -/
theorem foldl_absorb_of_dvd (hn : 0 < n) (s : σ) {l : List α} (h : n ∣ l.length) :
    l.foldl (absorb n f) (s, []) = (fold n f s l, []) := by
  rw [foldl_absorb hn, Nat.mul_div_cancel' h, List.drop_length]

end Blocks

end Common
