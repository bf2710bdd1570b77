import CollectiveFabric.Digest.Model.Canonical
import CollectiveFabric.Digest.Model.Sha256

/-!
# Collective descriptors and plans

A descriptor says which collective is asked for: the group and its
generation, the operation, the datatype and the element count, and the
constraints on how it may run. A plan is what the planner chose for it.
-/

namespace CollectiveFabric

structure CollectiveDescriptor where
  collectiveId : CollectiveId := {}
  groupId : CollectiveGroupId := {}
  groupGeneration : GroupGeneration := {}
  collectiveGeneration : CollectiveGeneration := {}
  kind : Scoped CollectiveKind := .of .barrier
  reduction : Scoped ReductionOp := .of .none
  datatype : Scoped Datatype := .of .byte
  elementCount : UInt64 := 0
  root : RankId := {}
  hasRoot : Bool := false
  requestedBackend : BackendId := {}
  policyGeneration : PolicyGeneration := {}
  source : Source := {}
  intent : Scoped SchedulingIntent := .of .default
  inPlace : Scoped InPlace := .of .outOfPlace
  constraints : List (Scoped TransportClass) := []
  inputPlacement : Scoped BufferPlacement := .of .host
  outputPlacement : Scoped BufferPlacement := .of .host

namespace CollectiveDescriptor

/-- `element_byte_count`: the byte count of one rank's payload. -/
def elementByteCount (d : CollectiveDescriptor) : Except Error UInt64 :=
  match checkedMul d.elementCount (UInt64.ofNat (datatypeSizeBytes d.datatype)) with
  | none =>
    .error ⟨.arithmeticOverflow, "element_count * datatype_size overflows uint64"⟩
  | some bytes => .ok bytes

/-- `aggregate_byte_count`: the byte count of all ranks' payloads. -/
def aggregateByteCount (d : CollectiveDescriptor) (rankCount : UInt64) : Except Error UInt64 :=
  match checkedMul d.elementCount (UInt64.ofNat (datatypeSizeBytes d.datatype)) with
  | none =>
    .error ⟨.arithmeticOverflow, "element_count * datatype_size overflows uint64"⟩
  | some per =>
    match checkedMul per rankCount with
    | none => .error ⟨.arithmeticOverflow, "per-rank * rank_count overflows uint64"⟩
    | some total => .ok total

/-- The first checks of `validate`: whether the operation may carry a
reduction. -/
def validateReduction (d : CollectiveDescriptor) : Except Error Unit :=
  if d.kind = .of .reduce ∨ d.kind = .of .allReduce ∨ d.kind = .of .reduceScatter then
    if d.reduction = .of .none then
      .error ⟨.validation, "reduction collective requires a reduction operation"⟩
    else .ok ()
  else if d.kind = .of .barrier ∨ d.kind = .of .broadcast then
    if d.reduction ≠ .of .none then
      .error ⟨.validation, "barrier/broadcast must not carry a reduction operation"⟩
    else .ok ()
  else .ok ()

/-- `validate`. -/
def validate (d : CollectiveDescriptor) : Except Error Unit :=
  match d.validateReduction with
  | .error e => .error e
  | .ok () =>
    if d.datatype = ⟨0xff⟩ then .error ⟨.validation, "invalid datatype"⟩
    else if datatypeSizeBytes d.datatype = 0 then
      .error ⟨.validation, "datatype has no known byte size"⟩
    else if d.kind = .of .barrier then .ok ()
    else
      match d.elementByteCount with
      | .error e => .error e
      | .ok _ =>
        if (d.kind = .of .broadcast ∨ d.kind = .of .reduce) ∧ d.hasRoot = false then
          .error ⟨.validation, "broadcast/reduce requires a root rank"⟩
        else if (d.kind = .of .broadcast ∨ d.kind = .of .reduce ∨ d.kind = .of .allReduce ∨
            d.kind = .of .allGather ∨ d.kind = .of .reduceScatter) ∧ d.elementCount = 0 then
          .error ⟨.validation, "payload collectives require a nonzero element count"⟩
        else .ok ()

/-- What `canonical_digest` writes. -/
def canonical (d : CollectiveDescriptor) : List UInt8 :=
  let w : CanonicalWriter := {}
  let w := ((w.u64 d.collectiveId.raw).u64 d.groupId.raw).u64 d.groupGeneration.value
  let w := (((w.u64 d.collectiveGeneration.value).u8 d.kind.raw).u8 d.reduction.raw).u8
    d.datatype.raw
  let w := (((w.u64 d.elementCount).u64 d.root.raw).boolean d.hasRoot).u8 d.inPlace.raw
  let w := (w.u64 d.requestedBackend.raw).u64 d.policyGeneration.value
  let w := ((w.u8 d.inputPlacement.raw).u8 d.outputPlacement.raw).u8 d.intent.raw
  let w := w.u64 (UInt64.ofNat d.constraints.length)
  (d.constraints.foldl (fun w t => w.u8 t.raw) w).buf

/-- `canonical_digest`. -/
def canonicalDigest (d : CollectiveDescriptor) : Sha256.Digest := Sha256.digest d.canonical

end CollectiveDescriptor

/-! ## Plans -/

structure DecisionFactor where
  name : String
  value : Float := 0.0
  unit : String
  hard : Bool := false
  reason : String

structure CollectivePlan where
  algorithm : Algorithm := .unknown
  backend : BackendId := {}
  transport : Scoped TransportClass := .of .unknown
  expectedByteMovement : UInt64 := 0
  expectedSteps : UInt64 := 0
  expectedCriticalPathNs : Option UInt64 := none
  rankOrder : List UInt64 := []
  hierarchyDepth : UInt64 := 0
  overlapEligible : Bool := false
  overlapReason : String := ""
  factors : List DecisionFactor := []
  explanation : List String := []
  hardConstraints : List String := []
  provenance : Scoped ProvenanceKind := .of .unknown
  policyGeneration : PolicyGeneration := {}
  topologyGeneration : TopologyGeneration := {}
  healthGeneration : HealthGeneration := {}
  collectiveGeneration : CollectiveGeneration := {}
  backendGeneration : BackendGeneration := {}
  source : Source := {}

end CollectiveFabric
