import Mathlib.Algebra.Order.Group.Nat
import Mathlib.Order.Defs.LinearOrder
import Mathlib.Tactic.SplitIfs

/-!
# Identities and generations

A `StrongId` is a 64-bit identity whose tag keeps it apart from every
other kind of identity; value zero is the null one. A `Generation` is a
64-bit counter under a tag, advanced by `next`, which saturates. Both are
ordered by their value, which is the order the fabric's maps iterate in.
-/

namespace CollectiveFabric

/-- A strong, non-interchangeable identifier. Zero is reserved as null. -/
structure StrongId (Tag : Type) where
  raw : UInt64 := 0

namespace StrongId

variable {Tag : Type}

/-- `is_null`. -/
def isNull (i : StrongId Tag) : Bool := i.raw == 0

instance : DecidableEq (StrongId Tag) := fun a b =>
  decidable_of_iff (a.raw = b.raw) (by cases a; cases b; simp)

/-- The order of the raw values. -/
instance : LinearOrder (StrongId Tag) where
  le a b := a.raw.toNat ≤ b.raw.toNat
  lt a b := a.raw.toNat < b.raw.toNat
  le_refl _ := Nat.le_refl _
  le_trans _ _ _ := Nat.le_trans
  lt_iff_le_not_ge _ _ := Nat.lt_iff_le_and_not_ge
  le_antisymm a b h₁ h₂ := by
    cases a
    cases b
    exact congrArg StrongId.mk (UInt64.toNat_inj.1 (Nat.le_antisymm h₁ h₂))
  le_total _ _ := Nat.le_total _ _
  toDecidableLE a b := Nat.decLe a.raw.toNat b.raw.toNat
  toDecidableLT a b := Nat.decLt a.raw.toNat b.raw.toNat
  toDecidableEq := inferInstance

end StrongId

/-- A generation counter. Zero is the null generation. -/
structure Generation (Tag : Type) where
  value : UInt64 := 0

namespace Generation

variable {Tag : Type}

/-- `is_null`. -/
def isNull (g : Generation Tag) : Bool := g.value == 0

/-- The generation after this one; the largest one stays where it is. -/
def next (g : Generation Tag) : Generation Tag :=
  if g.value = 0 then ⟨1⟩
  else if g.value = 0xffffffffffffffff then g
  else ⟨g.value + 1⟩

instance : DecidableEq (Generation Tag) := fun a b =>
  decidable_of_iff (a.value = b.value) (by cases a; cases b; simp)

/-- The order of the values. -/
instance : LinearOrder (Generation Tag) where
  le a b := a.value.toNat ≤ b.value.toNat
  lt a b := a.value.toNat < b.value.toNat
  le_refl _ := Nat.le_refl _
  le_trans _ _ _ := Nat.le_trans
  lt_iff_le_not_ge _ _ := Nat.lt_iff_le_and_not_ge
  le_antisymm a b h₁ h₂ := by
    cases a
    cases b
    exact congrArg Generation.mk (UInt64.toNat_inj.1 (Nat.le_antisymm h₁ h₂))
  le_total _ _ := Nat.le_total _ _
  toDecidableLE a b := Nat.decLe a.value.toNat b.value.toNat
  toDecidableLT a b := Nat.decLt a.value.toNat b.value.toNat
  toDecidableEq := inferInstance

theorem lt_iff_toNat {a b : Generation Tag} : a < b ↔ a.value.toNat < b.value.toNat := Iff.rfl

theorem le_iff_toNat {a b : Generation Tag} : a ≤ b ↔ a.value.toNat ≤ b.value.toNat := Iff.rfl

/-- **A generation never goes back**: `next` is at least where it was,
also where it saturates. -/
theorem le_next (g : Generation Tag) : g ≤ g.next := by
  rw [le_iff_toNat, next]
  split_ifs with h0 hmax
  · simp [h0]
  · exact Nat.le_refl _
  · have hlt : g.value.toNat < 2 ^ 64 := g.value.toNat_lt
    have hne : g.value.toNat ≠ 2 ^ 64 - 1 := fun h =>
      hmax (UInt64.toNat_inj.1 (by rw [h]; rfl))
    rw [UInt64.toNat_add, UInt64.toNat_one, Nat.mod_eq_of_lt (by omega)]
    omega

end Generation

/-- `compare_generations`: the order of the two values. -/
def compareGenerations {Tag : Type} (a b : Generation Tag) : Ordering :=
  if a.value < b.value then .lt else if a.value = b.value then .eq else .gt

theorem compareGenerations_eq_lt {Tag : Type} {a b : Generation Tag} :
    compareGenerations a b = .lt ↔ a < b := by
  unfold compareGenerations
  split_ifs with h1 h2
  · simpa [Generation.lt_iff_toNat, ← UInt64.lt_iff_toNat_lt] using h1
  · simpa [Generation.lt_iff_toNat, ← UInt64.lt_iff_toNat_lt] using h1
  · simpa [Generation.lt_iff_toNat, ← UInt64.lt_iff_toNat_lt] using h1

/-! ## The tags -/

inductive CollectiveIdTag
inductive CollectiveGroupIdTag
inductive ParticipantIdTag
inductive RankIdTag
inductive WorkerIdTag
inductive WorkerBootIdTag
inductive NodeIdTag
inductive DeviceIdTag
inductive BackendIdTag
inductive ExecutionIdTag
inductive AttemptIdTag
inductive DispatchIdTag
inductive MeasurementIdTag
inductive ReservationIdTag
inductive SourceIdTag

abbrev CollectiveId := StrongId CollectiveIdTag
abbrev CollectiveGroupId := StrongId CollectiveGroupIdTag
abbrev ParticipantId := StrongId ParticipantIdTag
abbrev RankId := StrongId RankIdTag
abbrev WorkerId := StrongId WorkerIdTag
abbrev WorkerBootId := StrongId WorkerBootIdTag
abbrev NodeId := StrongId NodeIdTag
abbrev DeviceId := StrongId DeviceIdTag
abbrev BackendId := StrongId BackendIdTag
abbrev ExecutionId := StrongId ExecutionIdTag
abbrev AttemptId := StrongId AttemptIdTag
abbrev DispatchId := StrongId DispatchIdTag
abbrev MeasurementId := StrongId MeasurementIdTag
abbrev ReservationId := StrongId ReservationIdTag
abbrev SourceId := StrongId SourceIdTag

inductive CoordinatorEpochTag
inductive GroupGenerationTag
inductive MembershipGenerationTag
inductive TopologyGenerationTag
inductive BackendGenerationTag
inductive CollectiveGenerationTag
inductive AttemptGenerationTag
inductive DispatchGenerationTag
inductive HealthGenerationTag
inductive MeasurementGenerationTag
inductive PolicyGenerationTag
inductive SourceGenerationTag

abbrev CoordinatorEpoch := Generation CoordinatorEpochTag
abbrev GroupGeneration := Generation GroupGenerationTag
abbrev MembershipGeneration := Generation MembershipGenerationTag
abbrev TopologyGeneration := Generation TopologyGenerationTag
abbrev BackendGeneration := Generation BackendGenerationTag
abbrev CollectiveGeneration := Generation CollectiveGenerationTag
abbrev AttemptGeneration := Generation AttemptGenerationTag
abbrev DispatchGeneration := Generation DispatchGenerationTag
abbrev HealthGeneration := Generation HealthGenerationTag
abbrev MeasurementGeneration := Generation MeasurementGenerationTag
abbrev PolicyGeneration := Generation PolicyGenerationTag
abbrev SourceGeneration := Generation SourceGenerationTag

end CollectiveFabric
