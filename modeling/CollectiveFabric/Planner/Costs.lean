import CollectiveFabric.Common.Saturation
import CollectiveFabric.Planner.Model.Planner
import Mathlib.Data.Nat.Log

/-!
# The cost model

`ceil_log2` ends for every rank count up to 2^63 and counts the rounds of
a binary tree. The structural costs are chains of saturating products, so
each is its exact value cut at the largest 64-bit number, and grows with
the ranks and the payload.
-/

namespace CollectiveFabric

open Common

/-! ## The logarithm -/

/-- A power of two of 64 bits, shifted. -/
theorem ofNat_pow_shiftLeft {i : ℕ} (hi : i < 63) :
    UInt64.ofNat (2 ^ i) <<< 1 = UInt64.ofNat (2 ^ (i + 1)) := by
  have hlt : 2 ^ i < 2 ^ 63 := Nat.pow_lt_pow_right (by decide) hi
  apply UInt64.toNat_inj.1
  rw [UInt64.toNat_shiftLeft, UInt64.toNat_ofNat', UInt64.toNat_ofNat',
    Nat.mod_eq_of_lt (hlt.trans (by decide))]
  simp [Nat.shiftLeft_eq, Nat.pow_succ]

/-- The loop from `2^i`, with turns enough left. -/
theorem ceilLog2Loop_eq {n : UInt64} (hn : n.toNat ≤ 2 ^ 63) (fuel : ℕ) {i : ℕ}
    (hi : i ≤ Nat.clog 2 n.toNat) (hfuel : Nat.clog 2 n.toNat < i + fuel) :
    ceilLog2Loop n fuel (UInt64.ofNat (2 ^ i)) (UInt64.ofNat i) =
      some (UInt64.ofNat (Nat.clog 2 n.toNat)) := by
  have hclog : Nat.clog 2 n.toNat ≤ 63 := Nat.clog_le_of_le_pow hn
  induction fuel generalizing i with
  | zero => omega
  | succ fuel ih =>
    have hlt : 2 ^ i < 2 ^ 64 := Nat.pow_lt_pow_right (by decide) (by omega)
    have hx : UInt64.ofNat (2 ^ i) < n ↔ i < Nat.clog 2 n.toNat := by
      rw [UInt64.lt_iff_toNat_lt, UInt64.toNat_ofNat', Nat.mod_eq_of_lt hlt,
        Nat.lt_clog_iff_pow_lt (by decide)]
    rw [ceilLog2Loop]
    split_ifs with hless
    · have hnext := hx.1 hless
      rw [ofNat_pow_shiftLeft (by omega)]
      have hs : UInt64.ofNat i + 1 = UInt64.ofNat (i + 1) := (UInt64.ofNat_add i 1).symm
      rw [hs]
      exact ih hnext (by omega)
    · rw [hx] at hless
      rw [show i = Nat.clog 2 n.toNat by omega]

/-- **`ceil_log2`** of up to 2^63 ends, with the ceiling of the logarithm. -/
theorem ceilLog2_eq {n : UInt64} (hn : n.toNat ≤ 2 ^ 63) :
    ceilLog2 n = some (UInt64.ofNat (Nat.clog 2 n.toNat)) := by
  have hclog : Nat.clog 2 n.toNat ≤ 63 := Nat.clog_le_of_le_pow hn
  exact ceilLog2Loop_eq hn 65 (i := 0) (Nat.zero_le _) (by omega)

/-! ## Exact costs -/

/-- `x` cut at the largest 64-bit number. -/
abbrev cut (x : ℕ) : ℕ := saturate (2 ^ 64 - 1) x

/-- **The saturating product** is the product, cut. -/
theorem satMul_toNat (a b : UInt64) : (satMul a b).toNat = cut (a.toNat * b.toNat) := by
  rw [satMul, checkedMul_eq]
  split_ifs with h
  · rw [Option.getD_some, UInt64.toNat_mul, Nat.mod_eq_of_lt h, cut, Saturate.of_le (by omega)]
  · rw [cut, Saturate.of_ge (by omega)]
    rfl

/-- A 64-bit number is not cut. -/
theorem cut_toNat (a : UInt64) : cut a.toNat = a.toNat :=
  Saturate.of_le (Nat.le_sub_one_of_lt a.toNat_lt)

/-- The communication rounds of an algorithm on `n` ranks. -/
def exactSteps (kind : Scoped CollectiveKind) (algo : Algorithm) (n : ℕ) : ℕ :=
  match algo with
  | .direct => 1
  | .ring => n - 1
  | .tree =>
    if kind = .of .broadcast ∨ kind = .of .reduce then Nat.clog 2 n else 2 * Nat.clog 2 n
  | .recursiveDoubling => Nat.clog 2 n
  | .reduceBroadcast => 2 * (n - 1)
  | .hierarchical => 2 * Nat.clog 2 n
  | .backendDefault => 1
  | .unknown => 0

/-- The bytes it moves for a payload of `p` bytes. -/
def exactMovement (kind : Scoped CollectiveKind) (algo : Algorithm) (n p : ℕ) : ℕ :=
  match algo with
  | .direct => p * (n - 1)
  | .ring => p * (n - 1)
  | .tree =>
    if kind = .of .broadcast ∨ kind = .of .reduce then p * Nat.clog 2 n
    else 2 * Nat.clog 2 n * p
  | .recursiveDoubling => 2 * p * Nat.clog 2 n
  | .reduceBroadcast => 2 * p * (n - 1)
  | .hierarchical => 2 * p * Nat.clog 2 n
  | .backendDefault => p
  | .unknown => 0

variable {kind : Scoped CollectiveKind} {algo : Algorithm} {n p : UInt64}

/-- What `model_path` counts of the ranks. -/
theorem others_toNat (n : UInt64) : (if n > 0 then n - 1 else 0).toNat = n.toNat - 1 := by
  split_ifs with h
  · rw [UInt64.toNat_sub_of_le _ _ (by rw [UInt64.le_iff_toNat_le]; exact h)]
    rfl
  · have hzero : ¬ 0 < n.toNat := fun hpos => h (UInt64.lt_iff_toNat_lt.2 hpos)
    rw [show n.toNat = 0 by omega]
    rfl

theorem logn_toNat (hn : n.toNat ≤ 2 ^ 63) :
    ((ceilLog2 n).getD 0).toNat = Nat.clog 2 n.toNat := by
  have hclog : Nat.clog 2 n.toNat ≤ 63 := Nat.clog_le_of_le_pow hn
  rw [ceilLog2_eq hn, Option.getD_some, UInt64.toNat_ofNat', Nat.mod_eq_of_lt (by omega)]

/-- **The rounds** are the exact ones, cut. -/
theorem modelPath_steps (hn : n.toNat ≤ 2 ^ 63) :
    (modelPath kind algo n p).steps.toNat = cut (exactSteps kind algo n.toNat) := by
  have hlogn : cut (Nat.clog 2 n.toNat) = Nat.clog 2 n.toNat := by
    rw [← logn_toNat hn, cut_toNat]
  have hothers : cut (n.toNat - 1) = n.toNat - 1 := by
    rw [← others_toNat, cut_toNat]
  cases algo with
  | direct => rfl
  | ring => exact (others_toNat n).trans hothers.symm
  | tree =>
    simp only [modelPath, exactSteps]
    split_ifs
    · rw [logn_toNat hn, hlogn]
    · rw [satMul_toNat, logn_toNat hn]
      rfl
  | recursiveDoubling => exact (logn_toNat hn).trans hlogn.symm
  | reduceBroadcast =>
    simp only [modelPath, exactSteps, satMul_toNat, others_toNat]
    rfl
  | hierarchical =>
    simp only [modelPath, exactSteps, satMul_toNat, logn_toNat hn]
    rfl
  | backendDefault => rfl
  | unknown => rfl

/-- **The bytes moved** are the exact ones, cut. -/
theorem modelPath_movement (hn : n.toNat ≤ 2 ^ 63) :
    (modelPath kind algo n p).movement.toNat = cut (exactMovement kind algo n.toNat p.toNat) := by
  have hmul_cut (x y : ℕ) : cut (x * cut y) = cut (x * y) := Saturate.mul_right ..
  have hcut_mul (x y : ℕ) : cut (cut x * y) = cut (x * y) := Saturate.mul_left ..
  have htwo : (2 : UInt64).toNat = 2 := rfl
  cases algo with
  | direct => simp only [modelPath, exactMovement, satMul_toNat, others_toNat]
  | ring => simp only [modelPath, exactMovement, satMul_toNat, others_toNat]
  | tree =>
    simp only [modelPath, exactMovement]
    split_ifs
    · rw [satMul_toNat, logn_toNat hn]
    · rw [satMul_toNat, satMul_toNat, logn_toNat hn, htwo, hmul_cut, Nat.mul_comm]
  | recursiveDoubling =>
    simp only [modelPath, exactMovement, satMul_toNat, logn_toNat hn, htwo, hcut_mul]
    rw [Nat.mul_comm _ 2, Nat.mul_assoc]
  | reduceBroadcast =>
    simp only [modelPath, exactMovement, satMul_toNat, others_toNat, htwo, hmul_cut]
    rw [← Nat.mul_assoc, Nat.mul_comm _ 2]
  | hierarchical =>
    simp only [modelPath, exactMovement, satMul_toNat, logn_toNat hn, htwo, hmul_cut]
    rw [← Nat.mul_assoc, Nat.mul_comm _ 2]
  | backendDefault => exact (cut_toNat p).symm
  | unknown => rfl

/-! ## Growth -/

theorem exactSteps_mono {n n' : ℕ} (hn : n ≤ n') :
    exactSteps kind algo n ≤ exactSteps kind algo n' := by
  have hclog : Nat.clog 2 n ≤ Nat.clog 2 n' := Nat.clog_mono_right 2 hn
  cases algo <;> simp only [exactSteps] <;> first | omega | (split_ifs <;> omega)

theorem exactMovement_mono {n n' p p' : ℕ} (hn : n ≤ n') (hp : p ≤ p') :
    exactMovement kind algo n p ≤ exactMovement kind algo n' p' := by
  have hclog : Nat.clog 2 n ≤ Nat.clog 2 n' := Nat.clog_mono_right 2 hn
  have hothers : n - 1 ≤ n' - 1 := by omega
  cases algo with
  | direct => exact Nat.mul_le_mul hp hothers
  | ring => exact Nat.mul_le_mul hp hothers
  | tree =>
    simp only [exactMovement]
    split_ifs
    · exact Nat.mul_le_mul hp hclog
    · exact Nat.mul_le_mul (by omega) hp
  | recursiveDoubling => exact Nat.mul_le_mul (by omega) hclog
  | reduceBroadcast => exact Nat.mul_le_mul (by omega) hothers
  | hierarchical => exact Nat.mul_le_mul (by omega) hclog
  | backendDefault => exact hp
  | unknown => exact le_rfl

/-- **The cost model saturates exactly and is monotone.** On up to 2^63
ranks `ceil_log2` ends, rounds and bytes moved are the exact values or the
largest 64-bit number where these exceed it, and more ranks or a larger
payload never cost less of either. -/
theorem modelPath_saturates (kind : Scoped CollectiveKind) (algo : Algorithm) (n p : UInt64)
    (hn : n.toNat ≤ 2 ^ 63) :
    ceilLog2 n = some (UInt64.ofNat (Nat.clog 2 n.toNat)) ∧
      (modelPath kind algo n p).steps.toNat = min (2 ^ 64 - 1) (exactSteps kind algo n.toNat) ∧
      (modelPath kind algo n p).movement.toNat =
        min (2 ^ 64 - 1) (exactMovement kind algo n.toNat p.toNat) ∧
      ∀ n' p' : UInt64, n ≤ n' → n'.toNat ≤ 2 ^ 63 → p ≤ p' →
        (modelPath kind algo n p).steps ≤ (modelPath kind algo n' p').steps ∧
          (modelPath kind algo n p).movement ≤ (modelPath kind algo n' p').movement := by
  refine ⟨ceilLog2_eq hn, modelPath_steps hn, modelPath_movement hn, ?_⟩
  intro n' p' hle hn' hp
  rw [UInt64.le_iff_toNat_le, UInt64.le_iff_toNat_le, modelPath_steps hn, modelPath_steps hn',
    modelPath_movement hn, modelPath_movement hn']
  exact ⟨Saturate.mono (exactSteps_mono hle), Saturate.mono (exactMovement_mono hle hp)⟩

/-- A tree of five ranks, and one whose bytes exceed 64 bits. -/
theorem modelPath_saturates_tree :
    (modelPath (.of .allReduce) .tree 5 100).movement.toNat = 600 ∧
      (modelPath (.of .allReduce) .tree 5 0xffffffffffffffff).movement.toNat = 2 ^ 64 - 1 :=
  ⟨(modelPath_saturates (.of .allReduce) .tree 5 100 (by decide)).2.2.1.trans (by decide +kernel),
    (modelPath_saturates (.of .allReduce) .tree 5 0xffffffffffffffff (by decide)).2.2.1.trans
      (by decide +kernel)⟩

end CollectiveFabric
