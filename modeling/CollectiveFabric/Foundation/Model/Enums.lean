import Mathlib.Data.List.Basic

/-!
# The fabric's enumerations

Each enumeration is an inductive type of its enumerators, in the order
the source declares them, with the value its underlying integer gives
each. An object of a scoped enumeration type can hold any value of the
underlying integer, named or not: that is `Scoped`, and it is what
records that are decoded, persisted or filled by a caller hold.
-/

namespace CollectiveFabric

/-- An enumeration over the underlying integer `U`. -/
class Enumeration (E : Type) (U : outParam Type) where
  /-- The enumerator's value. -/
  toRaw : E → U
  /-- The enumerator with this value, if there is one. -/
  ofRaw : U → Option E
  ofRaw_toRaw : ∀ e, ofRaw (toRaw e) = some e

/-- An object of the scoped enumeration type `E`: any value of the
underlying integer. -/
structure Scoped (E : Type) {U : Type} [Enumeration E U] where
  raw : U

namespace Scoped

variable {E U : Type} [Enumeration E U]

/-- The object holding an enumerator. -/
def of (e : E) : Scoped E := ⟨Enumeration.toRaw e⟩

instance : Coe E (Scoped E) := ⟨of⟩

/-- The enumerator the object holds, if its value names one. -/
def named (s : Scoped E) : Option E := Enumeration.ofRaw s.raw

instance [DecidableEq U] : DecidableEq (Scoped E) := fun a b =>
  decidable_of_iff (a.raw = b.raw) (by cases a; cases b; simp)

@[simp] theorem named_of (e : E) : (of e).named = some e :=
  Enumeration.ofRaw_toRaw e

end Scoped

inductive CollectiveKind
  | barrier | broadcast | reduce | allReduce | allGather | reduceScatter
deriving DecidableEq

inductive ReductionOp
  | sum | product | min | max | none
deriving DecidableEq

inductive Datatype
  | int32 | uint32 | int64 | float32 | float64 | byte
deriving DecidableEq

inductive LinkClass
  | intraProcess | hostMemory | pcie | nvlinkClass | network | rdmaClass | sharedMemory | unknown
deriving DecidableEq

inductive TopologyProvenance
  | measured | reported | derived | synthetic | unknown
deriving DecidableEq

inductive GroupLifecycle
  | creating | ready | degraded | reconfiguring | failed | retired
deriving DecidableEq

inductive CollectiveState
  | created | planned | reserved | dispatched | running | completing | succeeded | failed
  | aborted | cancelled | stale
deriving DecidableEq

inductive Algorithm
  | direct | ring | tree | recursiveDoubling | reduceBroadcast | hierarchical | backendDefault
  | unknown
deriving DecidableEq

inductive MeasurementProvenance
  | theoretical | backendReported | measured | synthetic | unknown
deriving DecidableEq

inductive MeasurementFreshness
  | current | stale | revalidationRequired | unknown
deriving DecidableEq

inductive HealthState
  | healthy | degraded | unhealthy | unknown
deriving DecidableEq

inductive FailureClass
  | participantFailure | workerDeath | transportFailure | backendFailure | deviceFailure
  | contributionMissing | duplicateContribution | conflictingContribution | staleRank
  | staleBoot | staleEpoch | staleGroupGeneration | staleCollectiveGeneration | staleDispatch
  | abort | reconfigurationRequired | ambiguousLocalExecution | validation | unknown
deriving DecidableEq

inductive TransportClass
  | sharedMemory | hostMemory | tcp | rdma | nvlinkClass | gpuDirect | pcie | hostStagedTcp
  | unknown
deriving DecidableEq

inductive AuthorityVerdict
  | current | stale | fresh | duplicate | conflict | unknown | invalid
deriving DecidableEq

inductive SchedulingIntent
  | default | lowLatency | highThroughput | background
deriving DecidableEq

inductive BufferPlacement
  | host | device | unknown
deriving DecidableEq

inductive InPlace
  | outOfPlace | inPlace
deriving DecidableEq

inductive ProvenanceKind
  | measured | reported | derived | synthetic | unknown
deriving DecidableEq

/-! ## The underlying bytes

An enumerator's value is its place in the declaration. -/

/-- The enumerations over a byte, from the list of their enumerators. -/
abbrev byteEnumeration {E : Type} (place : E → ℕ) (all : List E)
    (h : ∀ e, all[(UInt8.ofNat (place e)).toNat]? = some e) : Enumeration E UInt8 where
  toRaw e := UInt8.ofNat (place e)
  ofRaw v := all[v.toNat]?
  ofRaw_toRaw := h

/-- Where no enumerator is listed twice, a byte that names one is its
value. -/
theorem eq_toRaw_of_getElem? {E : Type} {place : E → ℕ} {all : List E}
    (h : ∀ e, all[(UInt8.ofNat (place e)).toNat]? = some e) (hnodup : all.Nodup) {v : UInt8}
    {e : E} (hv : all[v.toNat]? = some e) : v = UInt8.ofNat (place e) := by
  have hlt : v.toNat < all.length := (List.getElem?_eq_some_iff.1 hv).1
  exact UInt8.toNat_inj.1 ((List.getElem?_inj hlt hnodup).1 (hv.trans (h e).symm))

instance : Enumeration CollectiveKind UInt8 :=
  byteEnumeration CollectiveKind.ctorIdx
    [.barrier, .broadcast, .reduce, .allReduce, .allGather, .reduceScatter]
    (by rintro ⟨⟩ <;> rfl)

instance : Enumeration ReductionOp UInt8 :=
  byteEnumeration ReductionOp.ctorIdx [.sum, .product, .min, .max, .none]
    (by rintro ⟨⟩ <;> rfl)

instance : Enumeration Datatype UInt8 :=
  byteEnumeration Datatype.ctorIdx [.int32, .uint32, .int64, .float32, .float64, .byte]
    (by rintro ⟨⟩ <;> rfl)

instance : Enumeration LinkClass UInt8 :=
  byteEnumeration LinkClass.ctorIdx
    [.intraProcess, .hostMemory, .pcie, .nvlinkClass, .network, .rdmaClass, .sharedMemory,
      .unknown]
    (by rintro ⟨⟩ <;> rfl)

instance : Enumeration TopologyProvenance UInt8 :=
  byteEnumeration TopologyProvenance.ctorIdx
    [.measured, .reported, .derived, .synthetic, .unknown]
    (by rintro ⟨⟩ <;> rfl)

instance : Enumeration GroupLifecycle UInt8 :=
  byteEnumeration GroupLifecycle.ctorIdx
    [.creating, .ready, .degraded, .reconfiguring, .failed, .retired]
    (by rintro ⟨⟩ <;> rfl)

instance : Enumeration Algorithm UInt8 :=
  byteEnumeration Algorithm.ctorIdx
    [.direct, .ring, .tree, .recursiveDoubling, .reduceBroadcast, .hierarchical,
      .backendDefault, .unknown]
    (by rintro ⟨⟩ <;> rfl)

instance : Enumeration MeasurementProvenance UInt8 :=
  byteEnumeration MeasurementProvenance.ctorIdx
    [.theoretical, .backendReported, .measured, .synthetic, .unknown]
    (by rintro ⟨⟩ <;> rfl)

instance : Enumeration MeasurementFreshness UInt8 :=
  byteEnumeration MeasurementFreshness.ctorIdx
    [.current, .stale, .revalidationRequired, .unknown]
    (by rintro ⟨⟩ <;> rfl)

instance : Enumeration HealthState UInt8 :=
  byteEnumeration HealthState.ctorIdx [.healthy, .degraded, .unhealthy, .unknown]
    (by rintro ⟨⟩ <;> rfl)

instance : Enumeration FailureClass UInt8 :=
  byteEnumeration FailureClass.ctorIdx
    [.participantFailure, .workerDeath, .transportFailure, .backendFailure, .deviceFailure,
      .contributionMissing, .duplicateContribution, .conflictingContribution, .staleRank,
      .staleBoot, .staleEpoch, .staleGroupGeneration, .staleCollectiveGeneration, .staleDispatch,
      .abort, .reconfigurationRequired, .ambiguousLocalExecution, .validation, .unknown]
    (by rintro ⟨⟩ <;> rfl)

instance : Enumeration TransportClass UInt8 :=
  byteEnumeration TransportClass.ctorIdx
    [.sharedMemory, .hostMemory, .tcp, .rdma, .nvlinkClass, .gpuDirect, .pcie, .hostStagedTcp,
      .unknown]
    (by rintro ⟨⟩ <;> rfl)

instance : Enumeration SchedulingIntent UInt8 :=
  byteEnumeration SchedulingIntent.ctorIdx
    [.default, .lowLatency, .highThroughput, .background]
    (by rintro ⟨⟩ <;> rfl)

instance : Enumeration BufferPlacement UInt8 :=
  byteEnumeration BufferPlacement.ctorIdx [.host, .device, .unknown]
    (by rintro ⟨⟩ <;> rfl)

instance : Enumeration InPlace UInt8 :=
  byteEnumeration InPlace.ctorIdx [.outOfPlace, .inPlace] (by rintro ⟨⟩ <;> rfl)

instance : Enumeration ProvenanceKind UInt8 :=
  byteEnumeration ProvenanceKind.ctorIdx [.measured, .reported, .derived, .synthetic, .unknown]
    (by rintro ⟨⟩ <;> rfl)

/-! ## Names and sizes -/

/-- `collective_kind_to_string`. -/
def collectiveKindToString (k : Scoped CollectiveKind) : String :=
  match k.named with
  | some .barrier => "BARRIER"
  | some .broadcast => "BROADCAST"
  | some .reduce => "REDUCE"
  | some .allReduce => "ALL_REDUCE"
  | some .allGather => "ALL_GATHER"
  | some .reduceScatter => "REDUCE_SCATTER"
  | none => "UNKNOWN"

/-- `collective_state_to_string`. -/
def collectiveStateToString : CollectiveState → String
  | .created => "CREATED"
  | .planned => "PLANNED"
  | .reserved => "RESERVED"
  | .dispatched => "DISPATCHED"
  | .running => "RUNNING"
  | .completing => "COMPLETING"
  | .succeeded => "SUCCEEDED"
  | .failed => "FAILED"
  | .aborted => "ABORTED"
  | .cancelled => "CANCELLED"
  | .stale => "STALE"

/-- `algorithm_to_string`. -/
def algorithmToString : Algorithm → String
  | .direct => "DIRECT"
  | .ring => "RING"
  | .tree => "TREE"
  | .recursiveDoubling => "RECURSIVE_DOUBLING"
  | .reduceBroadcast => "REDUCE_BROADCAST"
  | .hierarchical => "HIERARCHICAL"
  | .backendDefault => "BACKEND_DEFAULT"
  | .unknown => "UNKNOWN"

/-- `measurement_freshness_to_string`. -/
def measurementFreshnessToString (f : Scoped MeasurementFreshness) : String :=
  match f.named with
  | some .current => "CURRENT"
  | some .stale => "STALE"
  | some .revalidationRequired => "REVALIDATION_REQUIRED"
  | some .unknown => "UNKNOWN"
  | none => "UNKNOWN"

/-- `datatype_size_bytes`: zero for a value that names no datatype. -/
def datatypeSizeBytes (d : Scoped Datatype) : ℕ :=
  match d.named with
  | some .int32 => 4
  | some .uint32 => 4
  | some .int64 => 8
  | some .float32 => 4
  | some .float64 => 8
  | some .byte => 1
  | none => 0

end CollectiveFabric
