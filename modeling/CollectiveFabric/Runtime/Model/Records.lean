import CollectiveFabric.Common.OrdMap
import CollectiveFabric.Foundation.Model.Values
import Mathlib.Order.Std

/-!
# What the runtime records

Failures, health reports, measurements and the accounting counters. The
counters are 64-bit and wrap; the operations that check one throw before
they change anything.
-/

namespace CollectiveFabric

open Common

structure CollectiveFailure where
  failureClass : Scoped FailureClass := .of .unknown
  participant : Option ParticipantId := none
  rank : Option RankId := none
  collective : CollectiveId := {}
  collectiveGeneration : CollectiveGeneration := {}
  attempt : AttemptId := {}
  attemptGeneration : AttemptGeneration := {}
  sideEffectsMayHaveOccurred : Bool := false
  retryPermitted : Bool := false
  reconfigurationRequired : Bool := false
  priorResultsInvalid : Bool := false
  source : Source := {}
  observedUtcNs : UInt64 := 0
  narrative : String := ""

structure HealthRecord where
  state : Scoped HealthState := .of .unknown
  generation : HealthGeneration := {}
  source : Source := {}
  observedUtcNs : UInt64 := 0
  narrative : String := ""

/-- `is_zero`. -/
def HealthRecord.isZero (h : HealthRecord) : Bool := h.state = .of .unknown

structure CollectiveMeasurement where
  id : MeasurementId := {}
  collective : CollectiveId := {}
  collectiveGeneration : CollectiveGeneration := {}
  groupGeneration : GroupGeneration := {}
  algorithm : Scoped Algorithm := .of .unknown
  backend : BackendId := {}
  rankCount : UInt64 := 0
  payloadBytes : UInt64 := 0
  logicalCollectiveBytes : UInt64 := 0
  estimatedNetworkBytes : Option UInt64 := none
  wallTimeUs : UInt64 := 0
  perRankDurationUs : Option UInt64 := none
  payloadThroughputBytesPerSec : Option Float := none
  logicalCollectiveBytesPerSec : Option Float := none
  estimatedLinkBytesPerSec : Option Float := none
  latencyUs : Option UInt64 := none
  overlapDurationUs : Option UInt64 := none
  queueWaitDurationUs : Option UInt64 := none
  executionDurationUs : Option UInt64 := none
  success : Bool := false
  topologyGeneration : TopologyGeneration := {}
  provenance : Scoped MeasurementProvenance := .of .unknown
  freshness : Scoped MeasurementFreshness := .of .unknown
  confidence : Option Float := none
  timestampUtcNs : UInt64 := 0
  intervalNs : UInt64 := 0
  measurementGeneration : MeasurementGeneration := {}
  source : Source := {}
  narrative : String := ""

/-! ## Accounting -/

structure Accounting where
  activeCollectives : UInt64 := 0
  activeRankContributions : UInt64 := 0
  reservedBytes : UInt64 := 0
  totalSubmitted : UInt64 := 0
  completedBytes : UInt64 := 0
  failedBytes : UInt64 := 0
  transmittedRefBytes : UInt64 := 0
  retries : UInt64 := 0
  abortedCollectives : UInt64 := 0
  staleRejections : UInt64 := 0
  duplicateRejections : UInt64 := 0
  participantRestarts : UInt64 := 0
  reconfigurations : UInt64 := 0
  reservations : OrdMap ReservationId UInt64 := ∅

namespace Accounting

/-- `collective_started`. -/
def collectiveStarted (a : Accounting) : Accounting :=
  { a with
    activeCollectives := a.activeCollectives + 1
    totalSubmitted := a.totalSubmitted + 1 }

/-- `collective_completed`. -/
def collectiveCompleted (a : Accounting) : Except Error Accounting :=
  if a.activeCollectives = 0 then
    .error ⟨.validation, "accounting: collective_completed with no active collective"⟩
  else .ok { a with activeCollectives := a.activeCollectives - 1 }

/-- `collective_aborted`. -/
def collectiveAborted (a : Accounting) : Except Error Accounting :=
  if a.activeCollectives = 0 then
    .error ⟨.validation, "accounting: collective_aborted with no active collective"⟩
  else
    .ok { a with
      activeCollectives := a.activeCollectives - 1
      abortedCollectives := a.abortedCollectives + 1 }

/-- `active_rank_contribution`. -/
def activeRankContribution (a : Accounting) : Accounting :=
  { a with activeRankContributions := a.activeRankContributions + 1 }

/-- `rank_contribution_complete`. -/
def rankContributionComplete (a : Accounting) : Except Error Accounting :=
  if a.activeRankContributions = 0 then
    .error ⟨.validation, "accounting: rank_contribution_complete underflow"⟩
  else .ok { a with activeRankContributions := a.activeRankContributions - 1 }

/-- `reserve`. -/
def reserve (a : Accounting) (res : ReservationId) (bytes : UInt64) : Except Error Accounting :=
  if res ∈ a.reservations then
    .error ⟨.alreadyExists, "accounting: duplicate reservation id"⟩
  else
    .ok { a with
      reservations := a.reservations.insert res bytes
      reservedBytes := a.reservedBytes + bytes }

/-- `release`. -/
def release (a : Accounting) (res : ReservationId) : Except Error Accounting :=
  match a.reservations[res]? with
  | none => .error ⟨.notFound, "accounting: release of unknown reservation"⟩
  | some bytes =>
    if bytes > a.reservedBytes then .error ⟨.validation, "accounting: reserved bytes underflow"⟩
    else
      .ok { a with
        reservations := a.reservations.erase res
        reservedBytes := a.reservedBytes - bytes }

/-- `completed_bytes`. -/
def addCompletedBytes (a : Accounting) (n : UInt64) : Accounting :=
  { a with completedBytes := a.completedBytes + n }

/-- `failed_bytes`. -/
def addFailedBytes (a : Accounting) (n : UInt64) : Accounting :=
  { a with failedBytes := a.failedBytes + n }

/-- `stale_message_rejected`. -/
def staleMessageRejected (a : Accounting) : Accounting :=
  { a with staleRejections := a.staleRejections + 1 }

end Accounting

end CollectiveFabric
