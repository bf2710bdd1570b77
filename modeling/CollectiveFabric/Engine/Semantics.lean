import CollectiveFabric.Common.Loops
import CollectiveFabric.Engine.Model.ReferenceEngine
import Mathlib.Data.List.Infix

/-!
# What the collectives mean

The six collectives over integers. A buffer is a row of elements of one
numeric datatype, a reduction the left fold of the rows in rank order,
element by element. `result` is what each rank has in the end.
-/

namespace CollectiveFabric

open Common

/-! ## Integers -/

/-- A datatype whose reductions are integer arithmetic. -/
inductive Numeric
  | uint32 | int32 | int64
deriving DecidableEq

namespace Numeric

def datatype : Numeric → Datatype
  | uint32 => .uint32
  | int32 => .int32
  | int64 => .int64

/-- Bytes of an element. -/
def size : Numeric → ℕ
  | uint32 | int32 => 4
  | int64 => 8

/-- The integer little-endian bytes stand for, by two's complement where
the datatype is signed. -/
def load (t : Numeric) (bs : List UInt8) : ℤ :=
  match t with
  | uint32 => ReferenceEngine.loadLe bs
  | int32 => (ReferenceEngine.loadLe bs : ℤ).bmod (2 ^ 32)
  | int64 => (ReferenceEngine.loadLe bs : ℤ).bmod (2 ^ 64)

/-- The little-endian bytes of an integer, by two's complement. -/
def store (t : Numeric) (z : ℤ) : List UInt8 :=
  ReferenceEngine.storeLe t.size (z % 2 ^ (8 * t.size)).toNat

/-- The result of a reduction operator on two integers. What names no
operation gives the second one. -/
def eval (op : Scoped ReductionOp) (a b : ℤ) : ℤ :=
  match op.named with
  | some .sum => a + b
  | some .product => a * b
  | some .min => min a b
  | some .max => max a b
  | _ => b

/-- Unsigned arithmetic is modulo `2 ^ 32`; signed arithmetic is not
reduced. -/
def combine (t : Numeric) (op : Scoped ReductionOp) (a b : ℤ) : ℤ :=
  match t with
  | uint32 => eval op a b % 2 ^ 32
  | int32 | int64 => eval op a b

/-- The integer is no signed overflow. -/
def Fits (t : Numeric) (z : ℤ) : Prop :=
  match t with
  | uint32 => True
  | int32 => -2 ^ 31 ≤ z ∧ z < 2 ^ 31
  | int64 => -2 ^ 63 ≤ z ∧ z < 2 ^ 63

instance (t : Numeric) (z : ℤ) : Decidable (t.Fits z) :=
  match t with
  | uint32 => isTrue trivial
  | int32 | int64 => inferInstanceAs (Decidable (_ ∧ _))

/-! ## Rows -/

/-- Element `i` of a buffer. -/
def element (t : Numeric) (buffer : List UInt8) (i : ℕ) : ℤ :=
  t.load ((buffer.drop (i * t.size)).take t.size)

/-- **The left fold** of the ranks' elements `i`, from rank 0 on. -/
def foldAt (t : Numeric) (op : Scoped ReductionOp) (inputs : List (List UInt8)) (i : ℕ) : ℤ :=
  match inputs with
  | [] => 0
  | first :: rest =>
    rest.foldl (fun acc input => t.combine op acc (t.element input i)) (t.element first i)

/-- The folds of `k` elements, stored one after another. -/
def fold (t : Numeric) (op : Scoped ReductionOp) (k : ℕ) (inputs : List (List UInt8)) :
    List UInt8 :=
  (List.range k).flatMap fun i => t.store (t.foldAt op inputs i)

/-- No intermediate result of the folds of `k` elements overflows. -/
def NoOverflow (t : Numeric) (op : Scoped ReductionOp) (k : ℕ) (inputs : List (List UInt8)) :
    Prop :=
  ∀ i < k, ∀ ranks ∈ inputs.inits, t.Fits (t.foldAt op ranks i)

instance (t : Numeric) (op : Scoped ReductionOp) (k : ℕ) (inputs : List (List UInt8)) :
    Decidable (t.NoOverflow op k inputs) :=
  inferInstanceAs (Decidable (∀ i < k, ∀ ranks ∈ inputs.inits, t.Fits (t.foldAt op ranks i)))

/-- Block `b` of a buffer, in blocks of `k` elements. -/
def block (t : Numeric) (k b : ℕ) (buffer : List UInt8) : List UInt8 :=
  (buffer.drop (b * (k * t.size))).take (k * t.size)

@[simp] theorem foldAt_append_singleton (t : Numeric) (op : Scoped ReductionOp)
    (first input : List UInt8) (ranks : List (List UInt8)) (i : ℕ) :
    t.foldAt op (first :: (ranks ++ [input])) i =
      t.combine op (t.foldAt op (first :: ranks) i) (t.element input i) := by
  simp [foldAt]

/-! ## Blocks -/

/-- **An element of a block** is the element at its place in the row. -/
theorem element_block (t : Numeric) {k i : ℕ} (hi : i < k) (b : ℕ) (buffer : List UInt8) :
    t.element (t.block k b buffer) i = t.element buffer (b * k + i) := by
  have hle : (i + 1) * t.size ≤ k * t.size := Nat.mul_le_mul_right t.size hi
  rw [Nat.succ_mul] at hle
  have hstart : b * (k * t.size) + i * t.size = (b * k + i) * t.size := by ring
  have hshort : min t.size (k * t.size - i * t.size) = t.size := by omega
  simp only [element, block, List.drop_take, List.drop_drop, List.take_take, hstart, hshort]

/-- **Folding blocks** is folding the rows there. -/
theorem foldAt_block (t : Numeric) (op : Scoped ReductionOp) {k i : ℕ} (hi : i < k) (b : ℕ)
    (inputs : List (List UInt8)) :
    t.foldAt op (inputs.map (t.block k b)) i = t.foldAt op inputs (b * k + i) := by
  cases inputs with
  | nil => rfl
  | cons first rest => simp only [foldAt, List.map_cons, List.foldl_map, element_block t hi]

/-- A row that folds without overflow does so in every block. -/
theorem NoOverflow.block {t : Numeric} {op : Scoped ReductionOp} {n k b : ℕ}
    {inputs : List (List UInt8)} (h : t.NoOverflow op (n * k) inputs) (hb : b < n) :
    t.NoOverflow op k (inputs.map (t.block k b)) := by
  intro i hi ranks hranks
  rw [List.map_inits] at hranks
  obtain ⟨ranks', hranks', rfl⟩ := List.mem_map.1 hranks
  rw [foldAt_block t op hi]
  refine h _ ?_ ranks' hranks'
  calc b * k + i < b * k + k := Nat.add_lt_add_left hi _
    _ = (b + 1) * k := (Nat.succ_mul b k).symm
    _ ≤ n * k := Nat.mul_le_mul_right k hb

/-- **A fold of `n * k` elements is the folds of its `n` blocks.** -/
theorem fold_mul (t : Numeric) (op : Scoped ReductionOp) (n k : ℕ) (inputs : List (List UInt8)) :
    t.fold op (n * k) inputs =
      (List.range n).flatMap fun b => t.fold op k (inputs.map (t.block k b)) := by
  rw [fold, Loops.flatMap_range_mul]
  refine List.flatMap_congr fun b _ => List.flatMap_congr fun i hi => ?_
  rw [foldAt_block t op (List.mem_range.1 hi)]

@[simp] theorem length_store (t : Numeric) (z : ℤ) : (t.store z).length = t.size := by
  simp [store, ReferenceEngine.storeLe]

@[simp] theorem length_fold (t : Numeric) (op : Scoped ReductionOp) (k : ℕ)
    (inputs : List (List UInt8)) : (t.fold op k inputs).length = k * t.size := by
  simp [fold, List.length_flatMap]

end Numeric

/-! ## Results -/

namespace CollectiveKind

/-- The kinds that reduce. -/
def Reduces : CollectiveKind → Prop
  | reduce | allReduce | reduceScatter => True
  | barrier | broadcast | allGather => False

/-- Elements each rank contributes. -/
def contribution (kind : CollectiveKind) (k n : ℕ) : ℕ :=
  match kind with
  | reduceScatter => n * k
  | barrier | broadcast | reduce | allReduce | allGather => k

/-- The inputs have the sizes the kind requires: a barrier reads none, a
broadcast only the root's, the others one of each rank. -/
def Sized (kind : CollectiveKind) (t : Numeric) (k root n : ℕ) (inputs : List (List UInt8)) :
    Prop :=
  match kind with
  | barrier => True
  | broadcast => ∃ input, inputs[root]? = some input ∧ input.length = k * t.size
  | reduce | allReduce | allGather | reduceScatter =>
    inputs.length = n ∧ ∀ input ∈ inputs, input.length = kind.contribution k n * t.size

/-- **What each rank has in the end**, of `k` elements for each of `n`
ranks. -/
def result (kind : CollectiveKind) (t : Numeric) (op : Scoped ReductionOp) (k root n : ℕ)
    (inputs : List (List UInt8)) : List (List UInt8) :=
  (List.range n).map fun r =>
    match kind with
    | barrier => []
    | broadcast => inputs.getD root []
    | reduce => if r = root then t.fold op k inputs else []
    | allReduce => t.fold op k inputs
    | allGather => inputs.flatten
    | reduceScatter => t.fold op k (inputs.map (t.block k r))

end CollectiveKind

end CollectiveFabric
