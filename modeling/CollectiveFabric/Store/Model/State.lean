import CollectiveFabric.Common.Reading
import CollectiveFabric.Digest.Model.Canonical

/-!
# The persistent state and its payload

What the store saves, the payload it writes for it and the strict decoder
that reads a payload back: every field bounded, every enumeration in
range, no duplicate identity, nothing left over.
-/

namespace CollectiveFabric

open Common

structure PersistedParticipant where
  participantId : ParticipantId := {}
  worker : WorkerId := {}
  boot : WorkerBootId := {}
  node : NodeId := {}
  device : DeviceId := {}
  rank : RankId := {}
  backendGeneration : BackendGeneration := {}
  isKnown : Bool := true

structure PersistedGroup where
  groupId : CollectiveGroupId := {}
  generation : GroupGeneration := {}
  membership : MembershipGeneration := {}
  topology : TopologyGeneration := {}
  health : HealthGeneration := {}
  backend : BackendGeneration := {}
  lifecycle : Scoped GroupLifecycle := .of .ready
  provenance : Bytes := ∅
  participants : Vec PersistedParticipant := ∅

structure PersistedMeasurement where
  id : MeasurementId := {}
  collective : CollectiveId := {}
  collectiveGeneration : CollectiveGeneration := {}
  groupGeneration : GroupGeneration := {}
  algorithm : Scoped Algorithm := .of .unknown
  backend : BackendId := {}
  rankCount : UInt64 := 0
  payloadBytes : UInt64 := 0
  wallTimeUs : UInt64 := 0
  provenance : Scoped MeasurementProvenance := .of .unknown
  freshness : Scoped MeasurementFreshness := .of .revalidationRequired
  timestampNs : UInt64 := 0
  measurementGeneration : MeasurementGeneration := {}
  success : Bool := false

structure PersistedHealth where
  state : Scoped HealthState := .of .unknown
  generation : HealthGeneration := {}
  observedNs : UInt64 := 0
  narrative : Bytes := ∅

structure PersistedBackend where
  id : BackendId := {}
  generation : BackendGeneration := {}
  name : Bytes := ∅

structure PersistentState where
  formatVersion : UInt64 := 1
  epoch : CoordinatorEpoch := {}
  liveBoot : WorkerBootId := {}
  groups : Vec PersistedGroup := ∅
  measurements : Vec PersistedMeasurement := ∅
  health : Option PersistedHealth := none
  backends : Vec PersistedBackend := ∅
  policyCount : UInt64 := 0
  savedNs : UInt64 := 0

namespace Store

/-- `kFormatVersion`. -/
def formatVersion : UInt64 := 1

/-- `kMaxCount`. -/
def maxCount : UInt64 := 10000000

/-! ## Ranges -/

def validLifecycle (v : UInt8) : Bool := v ≤ Enumeration.toRaw GroupLifecycle.retired

def validAlgorithm (v : UInt8) : Bool := v ≤ Enumeration.toRaw Algorithm.unknown

def validProv (v : UInt8) : Bool := v ≤ Enumeration.toRaw MeasurementProvenance.unknown

def validFresh (v : UInt8) : Bool := v ≤ Enumeration.toRaw MeasurementFreshness.unknown

def validHealth (v : UInt8) : Bool := v ≤ Enumeration.toRaw HealthState.unknown

/-! ## Writing -/

/-- One turn of the participant loop of `write_group`. -/
def writeParticipant (w : CanonicalWriter) (p : PersistedParticipant) : CanonicalWriter :=
  (((((((w.u64 p.participantId.raw).u64 p.worker.raw).u64 p.boot.raw).u64 p.node.raw).u64
    p.device.raw).u64 p.rank.raw).u64 p.backendGeneration.value).boolean p.isKnown

/-- `write_group`. -/
def writeGroup (w : CanonicalWriter) (g : PersistedGroup) : CanonicalWriter :=
  let w := ((w.u64 g.groupId.raw).u64 g.generation.value).u64 g.membership.value
  let w := ((w.u64 g.topology.value).u64 g.health.value).u64 g.backend.value
  let w := ((w.u8 g.lifecycle.raw).string g.provenance).u64 g.participants.size
  g.participants.toList.foldl writeParticipant w

/-- `write_measurement`. -/
def writeMeasurement (w : CanonicalWriter) (m : PersistedMeasurement) : CanonicalWriter :=
  let w := ((w.u64 m.id.raw).u64 m.collective.raw).u64 m.collectiveGeneration.value
  let w := ((w.u64 m.groupGeneration.value).u8 m.algorithm.raw).u64 m.backend.raw
  let w := ((w.u64 m.rankCount).u64 m.payloadBytes).u64 m.wallTimeUs
  let w := (w.u8 m.provenance.raw).u8 m.freshness.raw
  ((w.u64 m.timestampNs).u64 m.measurementGeneration.value).boolean m.success

/-- One turn of the backend loop of `encode`. -/
def writeBackend (w : CanonicalWriter) (b : PersistedBackend) : CanonicalWriter :=
  ((w.u64 b.id.raw).u64 b.generation.value).string b.name

/-- The optional health record of `encode`. -/
def writeHealth (w : CanonicalWriter) (health : Option PersistedHealth) : CanonicalWriter :=
  let w := w.boolean health.isSome
  match health with
  | none => w
  | some h => (((w.u8 h.state.raw).u64 h.generation.value).u64 h.observedNs).string h.narrative

/-- `Store::encode`. -/
def encode (s : PersistentState) : List UInt8 :=
  let w : CanonicalWriter := {}
  let w := ((w.u64 s.formatVersion).u64 s.epoch.value).u64 s.liveBoot.raw
  let w := s.groups.toList.foldl writeGroup (w.u64 s.groups.size)
  let w := s.measurements.toList.foldl writeMeasurement (w.u64 s.measurements.size)
  let w := writeHealth w s.health
  let w := s.backends.toList.foldl writeBackend (w.u64 s.backends.size)
  ((w.u64 s.policyCount).u64 s.savedNs).buf

/-! ## Reading -/

open CanonicalReader (u8 u64 boolean string)

/-- The decoder: it advances a canonical reader, or throws. -/
abbrev Decoder := Reader CanonicalReader Error

/-- `if (!r.read(v)) throw Error(ErrorCode::DECODE, message)`. -/
def need {α : Type} (read : CanonicalReader → Option α × CanonicalReader) (message : String) :
    Decoder α := fun r =>
  match read r with
  | (some a, r') => .ok (a, r')
  | (none, _) => .error ⟨.decode, message⟩

/-- `if (bad) throw Error(ErrorCode::DECODE, message)`. -/
def refuse (bad : Prop) [Decidable bad] (message : String) : Decoder Unit :=
  if bad then throw ⟨.decode, message⟩ else pure ()

/-- What the participant loop carries: the participants read and the sets
of identities and ranks seen. -/
structure ParticipantLoop where
  participants : List PersistedParticipant := []
  pidSeen : List ParticipantId := []
  rankSeen : List RankId := []

/-- One turn of the participant loop of `decode`. -/
def readParticipant (l : ParticipantLoop) : Decoder ParticipantLoop := do
  let id ← need u64 "store: truncated participant id"
  let worker ← need u64 "store: truncated worker"
  let boot ← need u64 "store: truncated boot"
  let node ← need u64 "store: truncated node"
  let device ← need u64 "store: truncated device"
  let rank ← need u64 "store: truncated rank"
  let backendGeneration ← need u64 "store: truncated backend gen"
  let isKnown ← need boolean "store: truncated known"
  refuse (⟨id⟩ ∈ l.pidSeen) "store: duplicate participant id"
  refuse (⟨rank⟩ ∈ l.rankSeen) "store: duplicate participant rank"
  let p : PersistedParticipant :=
    ⟨⟨id⟩, ⟨worker⟩, ⟨boot⟩, ⟨node⟩, ⟨device⟩, ⟨rank⟩, ⟨backendGeneration⟩, isKnown⟩
  return ⟨l.participants ++ [p], l.pidSeen ++ [⟨id⟩], l.rankSeen ++ [⟨rank⟩]⟩

/-- What the group loop carries. -/
structure GroupLoop where
  groups : List PersistedGroup := []
  seenGroups : List (CollectiveGroupId × GroupGeneration) := []

/-- One turn of the group loop of `decode`. -/
def readGroup (l : GroupLoop) : Decoder GroupLoop := do
  let groupId ← need u64 "store: truncated group id"
  let generation ← need u64 "store: truncated group generation"
  let membership ← need u64 "store: truncated membership"
  let topology ← need u64 "store: truncated topology"
  let health ← need u64 "store: truncated health"
  let backend ← need u64 "store: truncated backend"
  let lc ← need u8 "store: truncated lifecycle"
  refuse (¬ validLifecycle lc) "store: invalid lifecycle enum"
  let provenance ← need string "store: truncated provenance"
  let pc ← need u64 "store: invalid participant count"
  refuse (pc > maxCount) "store: invalid participant count"
  let loop ← Reader.iterate readParticipant pc.toNat {}
  let g : PersistedGroup :=
    ⟨⟨groupId⟩, ⟨generation⟩, ⟨membership⟩, ⟨topology⟩, ⟨health⟩, ⟨backend⟩, ⟨lc⟩, provenance,
      .ofList loop.participants⟩
  refuse ((g.groupId, g.generation) ∈ l.seenGroups) "store: duplicate group id/generation"
  return ⟨l.groups ++ [g], l.seenGroups ++ [(g.groupId, g.generation)]⟩

/-- What the measurement loop carries. -/
structure MeasurementLoop where
  measurements : List PersistedMeasurement := []
  midSeen : List MeasurementId := []

/-- One turn of the measurement loop of `decode`. -/
def readMeasurement (l : MeasurementLoop) : Decoder MeasurementLoop := do
  let id ← need u64 "store: truncated measurement id"
  let collective ← need u64 "store: truncated collective"
  let collectiveGeneration ← need u64 "store: truncated collective gen"
  let groupGeneration ← need u64 "store: truncated group gen"
  let al ← need u8 "store: truncated algorithm"
  refuse (¬ validAlgorithm al) "store: invalid algorithm enum"
  let backend ← need u64 "store: truncated backend"
  let rankCount ← need u64 "store: truncated measurement counters"
  let payloadBytes ← need u64 "store: truncated measurement counters"
  let wallTimeUs ← need u64 "store: truncated measurement counters"
  let pr ← need u8 "store: truncated provenance/freshness"
  let fr ← need u8 "store: truncated provenance/freshness"
  refuse (¬ validProv pr ∨ ¬ validFresh fr) "store: invalid measurement enum"
  let timestampNs ← need u64 "store: truncated timestamp"
  let measurementGeneration ← need u64 "store: truncated measurement gen"
  let success ← need boolean "store: truncated success"
  refuse (⟨id⟩ ∈ l.midSeen) "store: duplicate measurement id"
  let m : PersistedMeasurement :=
    ⟨⟨id⟩, ⟨collective⟩, ⟨collectiveGeneration⟩, ⟨groupGeneration⟩, ⟨al⟩, ⟨backend⟩, rankCount,
      payloadBytes, wallTimeUs, ⟨pr⟩, ⟨fr⟩, timestampNs, ⟨measurementGeneration⟩, success⟩
  return ⟨l.measurements ++ [m], l.midSeen ++ [⟨id⟩]⟩

/-- The optional health record of `decode`. -/
def readHealth : Decoder (Option PersistedHealth) := do
  let hasHealth ← need boolean "store: truncated health flag"
  if hasHealth then
    let st ← need u8 "store: truncated health state"
    refuse (¬ validHealth st) "store: invalid health enum"
    let generation ← need u64 "store: truncated health gen"
    let observedNs ← need u64 "store: truncated health time"
    let narrative ← need string "store: truncated health narrative"
    return some ⟨⟨st⟩, ⟨generation⟩, observedNs, narrative⟩
  else
    return none

/-- One turn of the backend loop of `decode`. -/
def readBackend (backends : List PersistedBackend) : Decoder (List PersistedBackend) := do
  let id ← need u64 "store: truncated backend id"
  let generation ← need u64 "store: truncated backend gen"
  let name ← need string "store: truncated backend name"
  return backends ++ [⟨⟨id⟩, ⟨generation⟩, name⟩]

/-- `Store::decode` up to the check for trailing bytes. -/
def readState : Decoder PersistentState := do
  let version ← need u64 "store: truncated format version"
  refuse (version > formatVersion) "store: unsupported version"
  let epoch ← need u64 "store: truncated epoch/boot"
  let liveBoot ← need u64 "store: truncated epoch/boot"
  let gcount ← need u64 "store: invalid group count"
  refuse (gcount > maxCount) "store: invalid group count"
  let groups ← Reader.iterate readGroup gcount.toNat {}
  let mcount ← need u64 "store: invalid measurement count"
  refuse (mcount > maxCount) "store: invalid measurement count"
  let measurements ← Reader.iterate readMeasurement mcount.toNat {}
  let health ← readHealth
  let bcount ← need u64 "store: invalid backend count"
  refuse (bcount > maxCount) "store: invalid backend count"
  let backends ← Reader.iterate readBackend bcount.toNat []
  let policyCount ← need u64 "store: truncated policy count"
  let savedNs ← need u64 "store: truncated saved time"
  return ⟨version, ⟨epoch⟩, ⟨liveBoot⟩, .ofList groups.groups, .ofList measurements.measurements,
    health, .ofList backends, policyCount, savedNs⟩

/-- `Store::decode`. -/
def decode (payload : List UInt8) : Except Error PersistentState :=
  match readState (.ofData payload) with
  | .error e => .error e
  | .ok (s, r) =>
    if ¬ r.atEnd then .error ⟨.decode, "store: trailing garbage in payload"⟩ else .ok s

end Store

end CollectiveFabric
