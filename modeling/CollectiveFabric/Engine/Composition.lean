import CollectiveFabric.Engine.Reference

/-!
# Composing the collectives

An all-reduce is a reduce-scatter and then an all-gather, and it is a
reduce and then a broadcast: the blocks of a fold, one after another, are
the fold, and a copy of the root's result is the result at every rank.
-/

namespace CollectiveFabric

open Common

namespace CollectiveKind

variable (t : Numeric) (op : Scoped ReductionOp) (k root n : ℕ) (inputs : List (List UInt8))

@[simp] theorem length_result (kind : CollectiveKind) :
    (kind.result t op k root n inputs).length = n := by
  simp [result]

/-- **Gathering the scattered blocks** is the reduction of the whole rows. -/
theorem allGather_reduceScatter :
    allGather.result t op k root n (reduceScatter.result t op k root n inputs) =
      allReduce.result t op (n * k) root n inputs := by
  refine List.map_congr_left fun _ _ => ?_
  simp only [result]
  rw [Numeric.fold_mul, List.flatten_eq_flatMap, List.flatMap_map]
  rfl

/-- **Broadcasting the root's reduction** is the reduction at every rank,
whatever the other ranks pass. -/
theorem broadcast_reduce {sent : List (List UInt8)} (hroot : root < n)
    (hsent : sent[root]? = (reduce.result t op k root n inputs)[root]?) :
    broadcast.result t op k root n sent = allReduce.result t op k root n inputs := by
  refine List.map_congr_left fun _ _ => ?_
  simp only [List.getD, hsent]
  simp [result, hroot]

end CollectiveKind

namespace ReferenceEngine

/-! ## The calls of a composition are answered -/

section

variable {t : Numeric} {op : Scoped ReductionOp} {k root n : UInt64} {inputs : List (List UInt8)}

theorem toNat_blocks (hroot : root.toNat < n.toNat)
    (hfits : n.toNat * k.toNat * t.size * n.toNat < 2 ^ 64) :
    (n * k).toNat = n.toNat * k.toNat := by
  have hpos : 1 ≤ t.size := by cases t <;> decide
  rw [UInt64.toNat_mul]
  refine Nat.mod_eq_of_lt (lt_of_le_of_lt ?_ hfits)
  rw [Nat.mul_assoc]
  exact Nat.le_mul_of_pos_right _ (Nat.mul_pos hpos (Nat.one_le_of_lt hroot))

theorem block_fits (hroot : root.toNat < n.toNat)
    (hfits : n.toNat * k.toNat * t.size * n.toNat < 2 ^ 64) :
    k.toNat * t.size * n.toNat < 2 ^ 64 := by
  refine lt_of_le_of_lt (Nat.mul_le_mul_right _ (Nat.mul_le_mul_right _ ?_)) hfits
  exact Nat.le_mul_of_pos_left _ (Nat.one_le_of_lt hroot)

/-- The scattered blocks have the size an all-gather asks for. -/
theorem Answered.gather (h : Answered t .reduceScatter op k root n inputs) :
    Answered t .allGather op k root n
      (CollectiveKind.reduceScatter.result t op k.toNat root.toNat n.toNat inputs) where
  fits_size := h.fits_size
  root_lt := h.root_lt
  sized := by
    refine ⟨CollectiveKind.length_result .., fun block hblock => ?_⟩
    obtain ⟨b, -, rfl⟩ := List.mem_map.1 hblock
    exact Numeric.length_fold ..
  noOverflow hreduces := hreduces.elim

/-- The root's reduction has the size a broadcast asks for. -/
theorem Answered.sent (h : Answered t .reduce op k root n inputs) {sent : List (List UInt8)}
    (hsent : sent[root.toNat]? =
      (CollectiveKind.reduce.result t op k.toNat root.toNat n.toNat inputs)[root.toNat]?) :
    Answered t .broadcast op k root n sent where
  fits_size := h.fits_size
  root_lt := h.root_lt
  sized := by
    have hroot : sent[root.toNat]? = some (t.fold op k.toNat inputs) := by
      rw [hsent]
      simp [CollectiveKind.result, h.root_lt]
    exact ⟨_, hroot, Numeric.length_fold ..⟩
  noOverflow hreduces := hreduces.elim

end

/-! ## Main results -/

/-- **The composition laws of the engine.** Reduce-scatter in blocks of `k`
and then all-gather return what all-reduce returns of the `n * k`
elements; reduce to a root and then broadcast of what the root has return
what all-reduce returns. -/
theorem composition_laws (t : Numeric) (op : Scoped ReductionOp) (k root n : UInt64)
    (hroot : root.toNat < n.toNat) :
    (∀ inputs : List (List UInt8), inputs.length = n.toNat →
      (∀ input ∈ inputs, input.length = n.toNat * k.toNat * t.size) →
      n.toNat * k.toNat * t.size * n.toNat < 2 ^ 64 →
      t.NoOverflow op (n.toNat * k.toNat) inputs →
      ∃ blocks outputs,
        execute (.of .reduceScatter) op (.of t.datatype) k root n inputs = .returns blocks ∧
        execute (.of .allGather) op (.of t.datatype) k root n blocks = .returns outputs ∧
        execute (.of .allReduce) op (.of t.datatype) (n * k) root n inputs = .returns outputs) ∧
    (∀ inputs : List (List UInt8), inputs.length = n.toNat →
      (∀ input ∈ inputs, input.length = k.toNat * t.size) →
      k.toNat * t.size * n.toNat < 2 ^ 64 →
      t.NoOverflow op k.toNat inputs →
      ∃ reduced outputs,
        execute (.of .reduce) op (.of t.datatype) k root n inputs = .returns reduced ∧
        (∀ sent : List (List UInt8), sent[root.toNat]? = reduced[root.toNat]? →
          execute (.of .broadcast) op (.of t.datatype) k root n sent = .returns outputs) ∧
        execute (.of .allReduce) op (.of t.datatype) k root n inputs = .returns outputs) := by
  constructor
  · intro inputs hcount hlength hfits hno
    have hproduct := toNat_blocks hroot hfits
    have hscatter : Answered t .reduceScatter op k root n inputs :=
      ⟨block_fits hroot hfits, hroot, ⟨hcount, hlength⟩, fun _ => hno⟩
    have hwhole : Answered t .allReduce op (n * k) root n inputs :=
      ⟨by rwa [hproduct], hroot, ⟨hcount, by rwa [← hproduct] at hlength⟩,
        fun _ => by rwa [← hproduct] at hno⟩
    refine ⟨_, _, hscatter.returns, hscatter.gather.returns, ?_⟩
    -- what is gathered of the blocks is the reduction of the `n * k` elements
    rw [CollectiveKind.allGather_reduceScatter, ← hproduct]
    exact hwhole.returns
  · intro inputs hcount hlength hfits hno
    have hreduce : Answered t .reduce op k root n inputs :=
      ⟨hfits, hroot, ⟨hcount, hlength⟩, fun _ => hno⟩
    have hall : Answered t .allReduce op k root n inputs :=
      ⟨hfits, hroot, ⟨hcount, hlength⟩, fun _ => hno⟩
    refine ⟨_, _, hreduce.returns, fun sent hsent => ?_, hall.returns⟩
    rw [← CollectiveKind.broadcast_reduce t op k.toNat root.toNat n.toNat inputs hroot hsent]
    exact (hreduce.sent hsent).returns

/-- Two ranks and blocks of one element; the reduction goes to rank 1. -/
theorem composition_laws_pair :
    (∃ blocks outputs,
      execute (.of .reduceScatter) (.of .sum) (.of .int32) 1 1 2
          [[1, 0, 0, 0, 2, 0, 0, 0], [10, 0, 0, 0, 252, 255, 255, 255]] = .returns blocks ∧
        execute (.of .allGather) (.of .sum) (.of .int32) 1 1 2 blocks = .returns outputs ∧
        execute (.of .allReduce) (.of .sum) (.of .int32) 2 1 2
          [[1, 0, 0, 0, 2, 0, 0, 0], [10, 0, 0, 0, 252, 255, 255, 255]] = .returns outputs) ∧
    ∃ reduced outputs,
      execute (.of .reduce) (.of .sum) (.of .int32) 1 1 2 [[1, 0, 0, 0], [2, 0, 0, 0]] =
          .returns reduced ∧
        execute (.of .broadcast) (.of .sum) (.of .int32) 1 1 2 reduced = .returns outputs ∧
        execute (.of .allReduce) (.of .sum) (.of .int32) 1 1 2 [[1, 0, 0, 0], [2, 0, 0, 0]] =
          .returns outputs := by
  have hlaws := composition_laws .int32 (.of .sum) 1 1 2 (by decide)
  refine ⟨hlaws.1 _ rfl (by decide) (by decide) (by decide +kernel), ?_⟩
  obtain ⟨reduced, outputs, hreduced, hsent, hall⟩ :=
    hlaws.2 [[1, 0, 0, 0], [2, 0, 0, 0]] rfl (by decide) (by decide) (by decide +kernel)
  exact ⟨reduced, outputs, hreduced, hsent reduced rfl, hall⟩

end ReferenceEngine

end CollectiveFabric
