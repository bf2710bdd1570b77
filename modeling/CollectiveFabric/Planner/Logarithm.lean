import CollectiveFabric.Common.While
import CollectiveFabric.Planner.Costs
import Mathlib.Order.Bounds.Defs

/-!
# Where the doubling loop ends

`ceil_log2` doubles a 64-bit number until it reaches its argument. The
numbers it passes are the powers of two up to 2^63 and then, the shift
having dropped the only bit, zero for ever. An argument up to 2^63 is
reached, in the least number of turns; an argument above it never is.
-/

namespace CollectiveFabric

open Common While

/-- One turn of the loop of `ceil_log2`: `x <<= 1; ++s`. -/
def ceilLog2Turn (p : UInt64 × UInt64) : UInt64 × UInt64 := (p.1 <<< 1, p.2 + 1)

/-- **`ceil_log2` returns** `s` for `n`: its loop, entered with `x = 1` and
`s = 0`, is left with this `s`. -/
def CeilLog2Returns (n s : UInt64) : Prop :=
  ∃ x, Exits (fun p : UInt64 × UInt64 => p.1 < n) ceilLog2Turn (1, 0) (x, s)

/-- The loop of the model is this loop, cut off. -/
theorem ceilLog2Loop_eq_upTo (n : UInt64) (fuel : ℕ) (x s : UInt64) :
    ceilLog2Loop n fuel x s =
      (upTo (fun p : UInt64 × UInt64 => p.1 < n) ceilLog2Turn fuel (x, s)).map Prod.snd := by
  induction fuel generalizing x s with
  | zero => rfl
  | succ fuel ih =>
    rw [ceilLog2Loop, upTo]
    split_ifs
    · exact ih (x <<< 1) (s + 1)
    · rfl

theorem returns_of_ceilLog2 {n s : UInt64} (h : ceilLog2 n = some s) : CeilLog2Returns n s := by
  rw [ceilLog2, ceilLog2Loop_eq_upTo, Option.map_eq_some_iff] at h
  obtain ⟨⟨x, s'⟩, h, rfl⟩ := h
  exact ⟨x, exits_of_upTo h⟩

/-! ## Above 2^63 -/

/-- What the doubled variable can be: a power of two, or zero. -/
def Doubled (x : UInt64) : Prop := x = 0 ∨ ∃ i ≤ 63, x = UInt64.ofNat (2 ^ i)

theorem Doubled.shiftLeft {x : UInt64} (h : Doubled x) : Doubled (x <<< 1) := by
  obtain rfl | ⟨i, hi, rfl⟩ := h
  · exact .inl (by decide)
  · by_cases htop : i = 63
    · -- the last power of two loses its bit
      subst htop
      exact .inl (by decide)
    · exact .inr ⟨i + 1, by omega, ofNat_pow_shiftLeft (by omega)⟩

theorem Doubled.toNat_le {x : UInt64} (h : Doubled x) : x.toNat ≤ 2 ^ 63 := by
  obtain rfl | ⟨i, hi, rfl⟩ := h
  · decide
  · have hle : 2 ^ i ≤ 2 ^ 63 := Nat.pow_le_pow_right (by decide) hi
    rw [UInt64.toNat_ofNat', Nat.mod_eq_of_lt (by omega)]
    exact hle

/-- **Above 2^63 the loop never ends.** -/
theorem not_returns_of_lt {n : UInt64} (hn : 2 ^ 63 < n.toNat) (s : UInt64) :
    ¬ CeilLog2Returns n s := by
  rintro ⟨x, hexits⟩
  refine hexits.false_of_invariant (I := fun p => Doubled p.1) ?_ (.inr ⟨0, by omega, rfl⟩)
  intro p hp
  exact ⟨UInt64.lt_iff_toNat_lt.2 (hp.toNat_le.trans_lt hn), hp.shiftLeft⟩

/-- **The model gives up exactly where the loop never ends**: 65 tests
are enough. -/
theorem ceilLog2_eq_some_iff {n s : UInt64} : ceilLog2 n = some s ↔ CeilLog2Returns n s := by
  refine ⟨returns_of_ceilLog2, fun h => ?_⟩
  by_cases hn : n.toNat ≤ 2 ^ 63
  · obtain ⟨x, hexits⟩ := h
    obtain ⟨x', hexits'⟩ := returns_of_ceilLog2 (ceilLog2_eq hn)
    rw [ceilLog2_eq hn, (Prod.mk.inj (hexits.unique hexits')).2]
  · exact absurd h (not_returns_of_lt (by omega) s)

/-! ## The least power -/

/-- **`ceil_log2` is right for** `n`: it returns, and returns the least
power of two that reaches its argument. -/
def CeilLog2Exact (n : UInt64) : Prop :=
  ∃ s, CeilLog2Returns n s ∧ IsLeast {k : ℕ | n.toNat ≤ 2 ^ k} s.toNat

theorem isLeast_clog (n : ℕ) : IsLeast {k : ℕ | n ≤ 2 ^ k} (Nat.clog 2 n) :=
  ⟨Nat.le_pow_clog (by decide) n, fun _ hk => Nat.clog_le_of_le_pow hk⟩

/-- **`ceil_log2` ends with the least exponent exactly for arguments up
to 2^63.** -/
theorem ceilLog2_exact_iff (n : UInt64) : CeilLog2Exact n ↔ n.toNat ≤ 2 ^ 63 := by
  constructor
  · rintro ⟨s, hreturns, -⟩
    by_contra hn
    exact not_returns_of_lt (by omega) s hreturns
  · intro hn
    have hclog : Nat.clog 2 n.toNat ≤ 63 := Nat.clog_le_of_le_pow hn
    refine ⟨_, returns_of_ceilLog2 (ceilLog2_eq hn), ?_⟩
    rw [UInt64.toNat_ofNat', Nat.mod_eq_of_lt (by omega)]
    exact isLeast_clog n.toNat

/-- The first argument the doubling never reaches. -/
theorem not_ceilLog2_exact_top : ¬ CeilLog2Exact 0x8000000000000001 := by
  rintro ⟨s, hreturns, -⟩
  exact not_returns_of_lt (by decide) s hreturns

end CollectiveFabric
