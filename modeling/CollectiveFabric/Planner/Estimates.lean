import CollectiveFabric.Planner.Minimum
import Mathlib.Tactic.NormNum
import Mathlib.Tactic.Ring

/-!
# Estimates in exact arithmetic

The time estimates and their comparison read over the rationals. Whether
one candidate replaces another depends on their times up to the
tolerance, so after the scan the selected time is at most one tolerance a
candidate above the least. With only a bandwidth measured, one byte more
takes longer than the tolerance, whatever the bandwidth.
-/

namespace CollectiveFabric

instance : EstimateArith ℚ where
  ofUInt64 x := (x.toNat : ℚ)
  abs x := |x|
  zero := 0
  giga := 10 ^ 9
  tolerance := 1 / 10 ^ 12
  decLt := inferInstance

namespace Planner

open Common

variable {env : Ambient} {inp : PlannerInput} {cands : List Candidate} {b c : Candidate}

/-- `1e-12`. -/
def tolerance : ℚ := 1 / 10 ^ 12

theorem tolerance_pos : 0 < tolerance := by norm_num [tolerance]

/-- A positive bandwidth or a latency is measured. -/
def Measured (inp : PlannerInput) : Prop :=
  (∃ w, inp.measuredBandwidthBytesPerSec = some w ∧ 0 < w) ∨ ∃ l, inp.measuredLatencyNs = some l

/-- The estimated time of a candidate. -/
def time (inp : PlannerInput) (c : Candidate) : ℚ := (estTime ℚ inp c).getD 0

/-- Where something is measured every candidate has a time. -/
theorem estTime_of_measured (h : Measured inp) (c : Candidate) :
    estTime ℚ inp c = some (time inp c) := by
  unfold time estTime
  cases hlatency : inp.measuredLatencyNs with
  | some l => rfl
  | none =>
    rcases h with ⟨w, hw, hpos⟩ | ⟨l, hl⟩
    · rw [hw]
      simp only [if_pos hpos]
      rfl
    · rw [hlatency] at hl
      cases hl

/-- **The comparison of times**, with the tie-break where they are within
the tolerance. -/
theorem better_of_measured (h : Measured inp) : better ℚ inp c b = true ↔
    time inp c < time inp b - tolerance ∨
      |time inp c - time inp b| < tolerance ∧ tieBreak c b = true := by
  have hbetter : better ℚ inp c b =
      if time inp c < time inp b - tolerance then true
      else if |time inp c - time inp b| < tolerance then tieBreak c b else false := by
    rw [better, estTime_of_measured h, estTime_of_measured h]
    rfl
  rw [hbetter]
  split_ifs with hless hclose
  · exact iff_of_true rfl (.inl hless)
  · simp [hless, hclose]
  · simp [hless, hclose]

theorem time_le_of_better (h : Measured inp) (hbetter : better ℚ inp c b = true) :
    time inp c ≤ time inp b + tolerance := by
  have htolerance := tolerance_pos
  rcases (better_of_measured h).1 hbetter with hless | ⟨hclose, -⟩
  · linarith
  · have := (abs_lt.1 hclose).2
    linarith

theorem time_le_of_not_better (h : Measured inp) (hkept : better ℚ inp c b = false) :
    time inp b ≤ time inp c + tolerance := by
  have hnot : ¬ time inp c < time inp b - tolerance := by
    intro hless
    rw [(better_of_measured h).2 (.inl hless)] at hkept
    cases hkept
  linarith

/-- **The selected time is near the least**: the drifts of a scan of eight
candidates add up to less than 10 tolerances. -/
theorem time_lt_of_select (h : Measured inp) (hlength : cands.length ≤ 8)
    (hselect : select ℚ inp cands = some b) (hc : c ∈ cands) (hreal : c.Real) :
    time inp b < time inp c + 1 / 10 ^ 11 := by
  have hbest := selectReal_of_select hselect ⟨c, hc, hreal⟩
  have htaken (c b : Candidate) (hbetter : better ℚ inp c b = true) :
      time inp c ≤ time inp b + tolerance := time_le_of_better h hbetter
  have hrefused (c b : Candidate) (hkept : better ℚ inp c b = false) :
      time inp b ≤ time inp c + tolerance := time_le_of_not_better h hkept
  have hle := Best.cost_le tolerance_pos.le htaken hrefused hbest c
    (List.mem_filter.2 ⟨hc, decide_eq_true hreal⟩)
  have hcount : ((cands.filter fun c => c.Real).length : ℚ) ≤ 8 := by
    exact_mod_cast (List.length_filter_le ..).trans hlength
  have htolerance := tolerance_pos
  calc time inp b ≤ time inp c + (cands.filter fun c => c.Real).length * tolerance := hle
    _ ≤ time inp c + 8 * tolerance := by
      have := mul_le_mul_of_nonneg_right hcount htolerance.le
      linarith
    _ < time inp c + 1 / 10 ^ 11 := by
      norm_num [tolerance]

/-! ## Only a bandwidth -/

/-- A byte takes longer than the tolerance at any 64-bit bandwidth. -/
theorem tolerance_lt_rate {w : UInt64} (h : 0 < w) : tolerance < 10 ^ 9 / (w.toNat : ℚ) := by
  have hpos : (0 : ℚ) < w.toNat := by exact_mod_cast UInt64.lt_iff_toNat_lt.1 h
  have hlt : (w.toNat : ℚ) < 2 ^ 64 := by exact_mod_cast w.toNat_lt
  rw [lt_div_iff₀ hpos]
  calc tolerance * w.toNat < tolerance * 2 ^ 64 := by
        exact mul_lt_mul_of_pos_left hlt tolerance_pos
    _ < 10 ^ 9 := by norm_num [tolerance]

/-- Times are proportional to the bytes moved. -/
theorem time_of_bandwidth {w : UInt64} (hw : inp.measuredBandwidthBytesPerSec = some w)
    (hpos : 0 < w) (hlatency : inp.measuredLatencyNs = none) (c : Candidate) :
    time inp c = c.byteMovement.toNat * (10 ^ 9 / (w.toNat : ℚ)) := by
  have htime : time inp c = 0 + (c.byteMovement.toNat : ℚ) / (w.toNat : ℚ) * 10 ^ 9 := by
    unfold time estTime
    rw [hw, hlatency]
    simp only [if_pos hpos]
    rfl
  rw [htime]
  ring

/-- **With only a bandwidth** the comparison is one of keys. -/
theorem better_of_bandwidth {w : UInt64} (hw : inp.measuredBandwidthBytesPerSec = some w)
    (hpos : 0 < w) (hlatency : inp.measuredLatencyNs = none) :
    better ℚ inp c b = true ↔ movementKey c < movementKey b := by
  have hrate := tolerance_lt_rate hpos
  have htolerance := tolerance_pos
  rw [better_of_measured (.inl ⟨w, hw, hpos⟩), time_of_bandwidth hw hpos hlatency,
    time_of_bandwidth hw hpos hlatency, tieBreak_iff, structuralKey_lt, movementKey_lt]
  generalize 10 ^ 9 / (w.toNat : ℚ) = rate at hrate
  -- one byte more makes a difference of at least `rate`
  have hgap {x y : ℕ} (hxy : x < y) : (x : ℚ) * rate + rate ≤ y * rate := by
    have hle : ((x + 1 : ℕ) : ℚ) ≤ y := by exact_mod_cast hxy
    calc (x : ℚ) * rate + rate = ((x + 1 : ℕ) : ℚ) * rate := by push_cast; ring
      _ ≤ y * rate := mul_le_mul_of_nonneg_right hle (by linarith)
  rcases Nat.lt_trichotomy c.byteMovement.toNat b.byteMovement.toNat with hless | heq | hmore
  · refine iff_of_true (.inl ?_) (.inl hless)
    have := hgap hless
    linarith
  · rw [heq, sub_self, abs_zero]
    have hnot : ¬ (b.byteMovement.toNat : ℚ) * rate < b.byteMovement.toNat * rate - tolerance := by
      linarith
    simp [hnot, htolerance]
  · have := hgap hmore
    refine iff_of_false ?_ (by omega)
    rintro (hless | ⟨hclose, -⟩)
    · linarith
    · have := (abs_lt.1 hclose).2
      linarith

/-! ## Main results -/

/-- **With measurements the selection is near a minimum.** In exact
arithmetic the selected time is less than 10^-11 ns above that of every
feasible candidate but `BACKEND_DEFAULT`; with only a bandwidth measured
the selected candidate is the least of these by bytes moved, rounds and
place in the order. -/
theorem plan_near_minimum (env : Ambient) (inp : PlannerInput) (d : CollectiveDescriptor)
    (group : CollectiveGroup) (backend : BackendCapabilities) (p : UInt64)
    (h : Asked inp d group backend p) (hmeasured : Measured inp) (cands : List Candidate)
    (hcands : candidates inp = .ok cands) (hfeasible : ∃ c ∈ cands, c.feasible = true) :
    ∃ pl b, planIn ℚ env inp = .ok pl ∧ Chosen cands pl.algorithm b ∧
      (∀ c ∈ cands, c.Real → ∃ tb tc, estTime ℚ inp b = some tb ∧ estTime ℚ inp c = some tc ∧
        tb < tc + 1 / 10 ^ 11) ∧
      (inp.measuredLatencyNs = none → (∃ c ∈ cands, c.Real) → Least movementKey cands b) := by
  obtain rfl := Except.ok.inj (h.candidates.symm.trans hcands)
  cases hselect : select ℚ inp
      (algorithms.map (candidate d group.rankCount p backend inp.topology)) with
  | none =>
    obtain ⟨c, hc, hcfeasible⟩ := hfeasible
    rw [select_eq_none_iff.1 hselect c hc] at hcfeasible
    cases hcfeasible
  | some b =>
    obtain ⟨pl, hplan, halgorithm, -⟩ := h.planIn_some env hcands hselect
    refine ⟨pl, b, hplan, halgorithm ▸ chosen_of_select hselect, ?_, ?_⟩
    · intro c hc hreal
      exact ⟨_, _, estTime_of_measured hmeasured b, estTime_of_measured hmeasured c,
        time_lt_of_select hmeasured (by rw [List.length_map]; decide) hselect hc hreal⟩
    · intro hlatency
      obtain ⟨w, hw, hpos⟩ : ∃ w, inp.measuredBandwidthBytesPerSec = some w ∧ 0 < w := by
        rcases hmeasured with hbandwidth | ⟨l, hl⟩
        · exact hbandwidth
        · rw [hlatency] at hl
          cases hl
      refine least_of_select (fun c b => better_of_bandwidth hw hpos hlatency) ?_ hselect
      intro b hb c hc hkeys
      exact eq_of_algorithm hb hc (algorithm_of_movementKey hkeys)

/-- The sum of floats on a bandwidth of 1000 bytes per second. -/
theorem plan_near_minimum_pair :
    ∃ cands pl b, candidates { askPair floatSum reference with
        measuredBandwidthBytesPerSec := some 1000 } = .ok cands ∧
      planIn ℚ ⟨0, 0, 0⟩ { askPair floatSum reference with
        measuredBandwidthBytesPerSec := some 1000 } = .ok pl ∧
      pl.algorithm = b.algorithm ∧ Least movementKey cands b := by
  have hasked : Asked { askPair floatSum reference with measuredBandwidthBytesPerSec := some 1000 }
      floatSum pair reference 16 := ⟨rfl, rfl, rfl, floatSum_payload⟩
  obtain ⟨c, hc, hreal⟩ : ∃ c ∈ algorithms.map (candidate floatSum pair.rankCount 16 reference
      none), c.Real := by
    decide +kernel
  obtain ⟨pl, b, hplan, hchosen, -, hleast⟩ := plan_near_minimum ⟨0, 0, 0⟩ _ _ _ _ _ hasked
    (.inl ⟨1000, rfl, by decide⟩) _ hasked.candidates ⟨c, hc, hreal.1⟩
  exact ⟨_, pl, b, hasked.candidates, hplan, hchosen.algorithm, hleast rfl ⟨c, hc, hreal⟩⟩

end Planner

end CollectiveFabric
