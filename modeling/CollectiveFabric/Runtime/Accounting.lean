import CollectiveFabric.Common.Run
import CollectiveFabric.Runtime.Model.Records

/-!
# The reserved bytes under any traffic

`reserve` and `release` keep a running total beside the map of the live
reservations. The total is added to without a check, so it is the sum of
the live reservations exactly as long as every reservation accepted keeps
that sum below 2^64. Past it the total wraps, and the underflow guard then
refuses the release of a live reservation.
-/

namespace CollectiveFabric

open Common

namespace Accounting

/-- A call on the reservations. -/
inductive Call where
  | reserve (res : ReservationId) (bytes : UInt64)
  | release (res : ReservationId)

/-- What the call returns or throws. -/
def call (a : Accounting) : Call → Except Error Accounting
  | .reserve res bytes => a.reserve res bytes
  | .release res => a.release res

/-- The books after the call: both operations throw before they write. -/
def after (a : Accounting) (c : Call) : Accounting :=
  match a.call c with
  | .ok a' => a'
  | .error _ => a

/-- The exact sum of the sizes of the live reservations. -/
def live (a : Accounting) : ℕ := OrdMap.total UInt64.toNat a.reservations

/-- `reserved_bytes` is the sum of the live reservations, a rejected call
changes nothing, and the release of a live reservation succeeds and takes
off its own bytes and nothing else. -/
structure Exact (a : Accounting) : Prop where
  sum : a.reservedBytes.toNat = a.live
  rejected : ∀ c e, a.call c = .error e → a.after c = a
  released : ∀ res bytes, a.reservations[res]? = some bytes → ∃ a', a.release res = .ok a' ∧
    a'.reservedBytes.toNat + bytes.toNat = a.reservedBytes.toNat ∧
    a'.reservations = a.reservations.erase res

/-- A reservation that is accepted keeps the sum below 2^64. -/
def Fits (a : Accounting) : Call → Prop
  | .reserve res bytes => res ∉ a.reservations → a.live + bytes.toNat < 2 ^ 64
  | .release _ => True

variable {a : Accounting} {res : ReservationId} {bytes : UInt64}

/-- What `release` does of a live reservation whose bytes the total covers. -/
theorem release_of_le (h : a.reservations[res]? = some bytes) (hle : bytes ≤ a.reservedBytes) :
    a.release res = .ok { a with
      reservations := a.reservations.erase res
      reservedBytes := a.reservedBytes - bytes } := by
  simp only [release, h]
  rw [if_neg (UInt64.not_lt.2 hle)]

/-- While the total is the sum, it covers each live reservation. -/
theorem le_reservedBytes (hsum : a.reservedBytes.toNat = a.live)
    (h : a.reservations[res]? = some bytes) : bytes ≤ a.reservedBytes := by
  rw [UInt64.le_iff_toNat_le, hsum]
  exact OrdMap.weight_le_total UInt64.toNat h

/-- **The total is what counts**: where it is the sum, all else holds. -/
theorem exact_iff_sum : a.Exact ↔ a.reservedBytes.toNat = a.live := by
  refine ⟨Exact.sum, fun hsum => ⟨hsum, fun c e h => by rw [after, h], fun res bytes h => ?_⟩⟩
  have hle := le_reservedBytes hsum h
  refine ⟨_, release_of_le h hle, ?_, rfl⟩
  rw [UInt64.toNat_sub_of_le _ _ hle]
  exact Nat.sub_add_cancel (UInt64.le_iff_toNat_le.1 hle)

/-- A release keeps the sum. -/
theorem sum_release (hsum : a.reservedBytes.toNat = a.live) :
    (a.after (.release res)).reservedBytes.toNat = (a.after (.release res)).live := by
  cases h : a.reservations[res]? with
  | none =>
    have hrejected : a.call (.release res) =
        .error ⟨.notFound, "accounting: release of unknown reservation"⟩ := by
      simp only [call, release, h]
    simpa only [after, hrejected] using hsum
  | some bytes =>
    have hle := le_reservedBytes hsum h
    have hcall : a.call (.release res) = .ok _ := release_of_le h hle
    have herase : OrdMap.total UInt64.toNat (a.reservations.erase res) + bytes.toNat = a.live :=
      OrdMap.total_erase_of_some UInt64.toNat h
    simp only [after, hcall, live]
    rw [UInt64.toNat_sub_of_le _ _ hle]
    omega

/-- **A reservation keeps the sum exactly if it fits.** -/
theorem sum_reserve_iff (hsum : a.reservedBytes.toNat = a.live) :
    (a.after (.reserve res bytes)).reservedBytes.toNat = (a.after (.reserve res bytes)).live ↔
      a.Fits (.reserve res bytes) := by
  by_cases hmem : res ∈ a.reservations
  · have hcall : a.call (.reserve res bytes) =
        .error ⟨.alreadyExists, "accounting: duplicate reservation id"⟩ := if_pos hmem
    simp only [after, hcall, Fits]
    exact iff_of_true hsum fun hnot => absurd hmem hnot
  · have hcall : a.call (.reserve res bytes) = .ok _ := if_neg hmem
    have hnone : a.reservations[res]? = none := Std.TreeMap.getElem?_eq_none hmem
    have hinsert : OrdMap.total UInt64.toNat (a.reservations.insert res bytes) =
        a.live + bytes.toNat := OrdMap.total_insert_of_none UInt64.toNat bytes hnone
    simp only [after, hcall, Fits, live, hinsert, UInt64.toNat_add, hsum]
    -- the wrapped sum is the sum exactly if nothing was lost
    constructor
    · intro heq _
      exact heq ▸ Nat.mod_lt _ (by decide)
    · exact fun hfits => Nat.mod_eq_of_lt (hfits hmem)

/-- One call keeps the books exact exactly if it fits. -/
theorem exact_after_iff (h : a.Exact) (c : Call) : (a.after c).Exact ↔ a.Fits c := by
  rw [exact_iff_sum]
  cases c with
  | reserve res bytes => exact sum_reserve_iff h.sum
  | release res => exact iff_of_true (sum_release h.sum) trivial

theorem exact_fresh : Exact {} := exact_iff_sum.2 rfl

/-- **The reserved bytes are exact throughout any traffic exactly if every
reservation accepted fits.** -/
theorem exact_throughout_iff (cs : List Call) :
    Run.Throughout after Exact {} cs ↔ Run.Along after Fits {} cs :=
  Run.throughout_iff_along (I := fun _ => True) (H := fun _ _ => True) (P := Exact) (Q := Fits)
    (fun _ _ _ _ => trivial) (fun _ c _ _ h => exact_after_iff h c) trivial exact_fresh
    (Run.along_of_forall (fun _ _ => trivial) cs)

/-- Two reservations of 2^63 bytes. -/
def halves : List Call := [.reserve ⟨1⟩ 0x8000000000000000, .reserve ⟨2⟩ 0x8000000000000000]

/-- The total wraps to 0 with both reservations live, and the release of
the first is refused. -/
theorem not_exact_halves :
    ¬Run.Throughout after Exact {} halves ∧
      (Run.run after {} halves).reservedBytes = 0 ∧ (Run.run after {} halves).live = 2 ^ 64 ∧
      ((Run.run after {} halves).release ⟨1⟩).isOk = false := by
  refine ⟨fun h => ?_, by decide +kernel, by decide +kernel, by decide +kernel⟩
  exact absurd h.last.sum (by decide +kernel)

end Accounting

end CollectiveFabric
