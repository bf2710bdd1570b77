import CollectiveFabric.Foundation.Model.Values

/-!
# Backends

What a backend says it can do, and the reference backend's answer.
-/

namespace CollectiveFabric

structure BackendCapabilities where
  id : BackendId := {}
  generation : BackendGeneration := {}
  name : String := ""
  supportedCollectiveKinds : List (Scoped CollectiveKind) := []
  supportedDatatypes : List (Scoped Datatype) := []
  supportedReductions : List (Scoped ReductionOp) := []
  supportsDeviceBuffers : Bool := false
  supportsHostBuffers : Bool := false
  supportsInPlace : Bool := false
  supportsNonblockingProgress : Bool := false
  supportsStreamBinding : Bool := false
  supportsGraphCapture : Bool := false
  supportsAsyncErrorQuery : Bool := false
  supportsAbort : Bool := false
  supportsMultiProcess : Bool := false
  supportsMultiNode : Bool := false
  supportedTransportClasses : List (Scoped TransportClass) := []
  maximumRankCount : Option UInt64 := none
  provenance : Source := {}
  isReference : Bool := false

namespace BackendCapabilities

/-- `supports_kind`. -/
def supportsKind (c : BackendCapabilities) (k : Scoped CollectiveKind) : Bool :=
  k ∈ c.supportedCollectiveKinds

/-- `supports_datatype`. -/
def supportsDatatype (c : BackendCapabilities) (d : Scoped Datatype) : Bool :=
  d ∈ c.supportedDatatypes

/-- `supports_reduction`. -/
def supportsReduction (c : BackendCapabilities) (r : Scoped ReductionOp) : Bool :=
  r ∈ c.supportedReductions

/-- `supports_transport`. -/
def supportsTransport (c : BackendCapabilities) (t : Scoped TransportClass) : Bool :=
  t ∈ c.supportedTransportClasses

end BackendCapabilities

/-- `reference_backend_capabilities`. -/
def referenceBackendCapabilities (id : BackendId) (generation : BackendGeneration) :
    BackendCapabilities where
  id := id
  generation := generation
  name := "deterministic-reference"
  supportedCollectiveKinds := [.of .barrier, .of .broadcast, .of .reduce, .of .allReduce,
    .of .allGather, .of .reduceScatter]
  supportedDatatypes := [.of .int32, .of .uint32, .of .int64, .of .float32, .of .float64,
    .of .byte]
  supportedReductions := [.of .sum, .of .product, .of .min, .of .max, .of .none]
  supportsHostBuffers := true
  supportsInPlace := true
  supportsNonblockingProgress := true
  supportsAbort := true
  supportedTransportClasses := [.of .hostMemory]
  maximumRankCount := some 1048576
  isReference := true

/-- A registered backend: what the `CollectiveBackend` interface answers. -/
structure CollectiveBackend where
  capabilities : BackendCapabilities
  id : BackendId
  name : String
  isReference : Bool

end CollectiveFabric
