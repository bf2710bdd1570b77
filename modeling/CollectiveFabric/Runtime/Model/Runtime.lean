import CollectiveFabric.Authority.Model.Evaluation
import CollectiveFabric.Engine.Model.ReferenceEngine
import CollectiveFabric.Lifecycle.Model.StateMachine
import CollectiveFabric.Planner.Model.Planner
import CollectiveFabric.Runtime.Model.Records

/-!
# The runtime

Its tables and its operations. Each operation here is one critical section
of the source: a function of the runtime that gives what the call returns
or throws and the runtime it leaves. What was written before an exception
stays written.
-/

namespace CollectiveFabric

open Common

/-- The key of a registered group; pairs are ordered lexicographically. -/
abbrev GroupKey := CollectiveGroupId × GroupGeneration

instance : Ord GroupKey := lexOrd

instance : Std.TransOrd GroupKey := Std.instTransOrdProd

instance : Std.LawfulEqOrd GroupKey := Std.instLawfulEqOrdProd

structure Execution where
  descriptor : CollectiveDescriptor := {}
  plan : CollectivePlan := {}
  lifecycle : CollectiveStateMachine := .created
  attempt : AttemptId := {}
  attemptGeneration : AttemptGeneration := {}
  dispatch : DispatchId := {}
  reservation : ReservationId := {}
  rankCompletions : OrdMap RankId Bool := ∅
  failure : Option CollectiveFailure := none
  measurement : Option MeasurementId := none
  outputs : List (List UInt8) := []
  collectiveId : CollectiveId := {}

/-- The key of the group an execution's descriptor names. -/
def CollectiveDescriptor.groupKey (d : CollectiveDescriptor) : GroupKey :=
  (d.groupId, d.groupGeneration)

/-- The runtime's tables. `nextId` counts the ids issued; an id is its low
64 bits. -/
structure Runtime where
  nextId : ℕ := 1
  backends : OrdMap BackendId CollectiveBackend := ∅
  topology : Option Topology := none
  groups : OrdMap GroupKey CollectiveGroup := ∅
  executions : OrdMap ExecutionId Execution := ∅
  measurements : OrdMap MeasurementId CollectiveMeasurement := ∅
  health : HealthRecord := {}
  accounting : Accounting := {}
  authority : AuthorityGroundTruth := { epoch := ⟨1⟩ }

/-- Where a call of `execute_collective` is between its steps. -/
inductive Stage where
  | begun
  | returned (outputs : List (List UInt8))
  | caught (failure : CollectiveFailure)

/-- A call of `execute_collective` in flight. -/
structure Call where
  execution : ExecutionId
  rankCount : UInt64
  startUs : UInt64
  inputs : List (List UInt8)
  stage : Stage

namespace Runtime

/-- What an operation returns or throws, and the runtime it leaves. -/
abbrev Result (α : Type) := Except Error α × Runtime

/-- The id `next_id_++` gives. -/
def freshId (rt : Runtime) : UInt64 := UInt64.ofNat rt.nextId

/-- The runtime after `next_id_++`. -/
def bump (rt : Runtime) : Runtime := { rt with nextId := rt.nextId + 1 }

def setExecution (rt : Runtime) (e : ExecutionId) (ex : Execution) : Runtime :=
  { rt with executions := rt.executions.insert e ex }

def setAccounting (rt : Runtime) (acc : Accounting) : Runtime := { rt with accounting := acc }

/-- `require`, followed by the rest of the operation. -/
def onExecution {α : Type} (rt : Runtime) (e : ExecutionId) (k : Execution → Result α) :
    Result α :=
  match rt.executions[e]? with
  | none => (.error ⟨.notFound, "unknown execution"⟩, rt)
  | some ex => k ex

/-- A transition that throws, followed by the rest of the operation. -/
def onTransition {α : Type} (rt : Runtime) (ex : Execution) (dst : CollectiveState)
    (k : Execution → Result α) : Result α :=
  match ex.lifecycle.transitionTo dst with
  | .error err => (.error err, rt)
  | .ok lifecycle => k { ex with lifecycle := lifecycle }

/-! ## Backends, topology and groups -/

/-- `register_backend`. -/
def registerBackend (rt : Runtime) (b : Option CollectiveBackend) : Result Unit :=
  match b with
  | none => (.error ⟨.invalidArgument, "register_backend: null backend"⟩, rt)
  | some b => (.ok (), { rt with backends := rt.backends.insert b.id b })

/-- `adopt_topology`. -/
def adoptTopology (rt : Runtime) (t : Topology) : Runtime := { rt with topology := some t }

/-- `register_group`. -/
def registerGroup (rt : Runtime) (g : CollectiveGroup) : Result CollectiveGroup :=
  if (g.id, g.generation) ∈ rt.groups then
    (.error ⟨.alreadyExists, "group generation already registered"⟩, rt)
  else (.ok g, { rt with groups := rt.groups.insert (g.id, g.generation) g })

/-- `find_group`. -/
def findGroup (rt : Runtime) (id : CollectiveGroupId) (gen : GroupGeneration) :
    Option CollectiveGroup :=
  rt.groups[((id, gen) : GroupKey)]?

/-- `find_group_by_boot`: the earliest generation the boot is in. -/
def findGroupByBoot (rt : Runtime) (id : CollectiveGroupId) (boot : WorkerBootId) :
    Option CollectiveGroup :=
  (rt.groups.toList.find? fun entry => entry.1.1 = id ∧ entry.2.isLiveAuthority boot = true).map
    (·.2)

/-! ## Setting an execution up -/

/-- `create_collective`. -/
def createCollective (rt : Runtime) (d : CollectiveDescriptor) : Result ExecutionId :=
  if d.groupId.isNull ∨ d.groupGeneration.isNull then
    (.error ⟨.validation, "collective requires a group id and group generation"⟩, rt)
  else if ¬ d.groupKey ∈ rt.groups then
    (.error ⟨.validation, "collective references an unknown group generation"⟩, rt)
  else
    match d.validate with
    | .error err => (.error err, rt)
    | .ok () =>
      let e : ExecutionId := ⟨rt.freshId⟩
      let ex : Execution :=
        { descriptor := d, collectiveId := d.collectiveId, attempt := ⟨rt.bump.freshId⟩,
          attemptGeneration := ⟨1⟩ }
      (.ok e, rt.bump.bump.setExecution e ex)

/-- `plan_collective`. The transition is made before the planner is asked. -/
def planCollective (rt : Runtime) (env : Ambient) (e : ExecutionId) (inp : PlannerInput) :
    Result CollectivePlan :=
  rt.onExecution e fun ex => rt.onTransition ex .planned fun ex =>
    match Planner.plan env { inp with descriptor := some ex.descriptor } with
    | .error err => (.error err, rt.setExecution e ex)
    | .ok plan => (.ok plan, rt.setExecution e { ex with plan := plan })

/-- `reserve_collective`. -/
def reserveCollective (rt : Runtime) (e : ExecutionId) : Result ReservationId :=
  rt.onExecution e fun ex => rt.onTransition ex .reserved fun ex =>
    match ex.descriptor.elementByteCount with
    | .error err => (.error err, rt.setExecution e ex)
    | .ok bytes =>
      let res : ReservationId := ⟨rt.freshId⟩
      let rt' := rt.bump.setExecution e { ex with reservation := res }
      match rt.accounting.reserve res bytes with
      | .error err => (.error err, rt')
      | .ok acc => (.ok res, rt'.setAccounting acc.collectiveStarted)

/-- `dispatch_collective`. -/
def dispatchCollective (rt : Runtime) (e : ExecutionId) : Result DispatchId :=
  rt.onExecution e fun ex => rt.onTransition ex .dispatched fun ex =>
    let dispatch : DispatchId := ⟨rt.freshId⟩
    (.ok dispatch, rt.bump.setExecution e { ex with dispatch := dispatch })

/-! ## Quorum -/

/-- The test of `apply_quorum_unlocked`: as many participants have
completed as the group has. -/
def quorum (grp : CollectiveGroup) (completions : OrdMap RankId Bool) : Bool :=
  (grp.participants.toList.filter fun p => decide (p.rank ∈ completions)).length ==
    grp.participants.toList.length

/-- `apply_quorum_unlocked`. -/
def applyQuorum (rt : Runtime) (ex : Execution) : Execution :=
  match rt.findGroup ex.descriptor.groupId ex.descriptor.groupGeneration with
  | none => { ex with lifecycle := ex.lifecycle.tryTransitionTo .failed }
  | some grp =>
    if quorum grp ex.rankCompletions ∧ ex.lifecycle.state = .completing then
      { ex with lifecycle := ex.lifecycle.tryTransitionTo .succeeded }
    else ex

/-! ## Executing

`execute_collective` is three steps: up to the transition to `RUNNING`,
the engine outside the lock, and the commit. The descriptor and the group
are read before the lock is taken, but neither ever changes. -/

/-- `per_rank_bytes`. -/
def perRankBytes (d : CollectiveDescriptor) (rankCount : UInt64) : Except Error UInt64 :=
  if d.kind = .of .allGather ∨ d.kind = .of .reduceScatter then d.aggregateByteCount rankCount
  else d.elementByteCount

/-- The checks on the inputs. -/
def checkInputs (d : CollectiveDescriptor) (grp : Option CollectiveGroup) (rankCount : UInt64)
    (inputs : List (List UInt8)) : Except Error Unit :=
  if grp.isNone then .error ⟨.validation, "execute: group not found"⟩
  else if inputs.length < rankCount.toNat then
    .error ⟨.validation, "execute: missing rank inputs"⟩
  else
    match perRankBytes d rankCount with
    | .error err => .error err
    | .ok expected =>
      if (inputs.take rankCount.toNat).any (fun input => input.length ≠ expected.toNat) then
        .error ⟨.validation, "execute: rank input size mismatch"⟩
      else .ok ()

/-- The failure record of the `catch` clause. -/
def caughtFailure (d : CollectiveDescriptor) (env : Ambient) (err : Error) : CollectiveFailure :=
  { failureClass := .of .unknown
    collective := d.collectiveId
    collectiveGeneration := d.collectiveGeneration
    observedUtcNs := env.wallNs
    narrative := err.message
    sideEffectsMayHaveOccurred := true }

/-- The step that begins: the call in flight after it, if the execution
exists. -/
def executeBegin (rt : Runtime) (env : Ambient) (e : ExecutionId) (inputs : List (List UInt8)) :
    Option Call × Runtime :=
  match rt.executions[e]? with
  | none => (none, rt)
  | some ex =>
    let grp := rt.findGroup ex.descriptor.groupId ex.descriptor.groupGeneration
    let rankCount := (grp.map (·.rankCount)).getD 0
    let call (stage : Stage) : Call := ⟨e, rankCount, env.steadyUs, inputs, stage⟩
    match checkInputs ex.descriptor grp rankCount inputs with
    | .error err => (some (call (.caught (caughtFailure ex.descriptor env err))), rt)
    | .ok () =>
      match ex.lifecycle.transitionTo .running with
      | .error err => (some (call (.caught (caughtFailure ex.descriptor env err))), rt)
      | .ok lifecycle =>
        (some (call .begun), rt.setExecution e { ex with lifecycle := lifecycle })

/-- The engine's answer to a call on an execution with this descriptor. -/
def engineCall (d : CollectiveDescriptor) (rankCount : UInt64) (inputs : List (List UInt8)) :
    Outcome (List (List UInt8)) :=
  ReferenceEngine.execute d.kind d.reduction d.datatype d.elementCount
    (if d.root.isNull then 0 else d.root.raw) rankCount inputs

/-- The engine's step. A call whose behaviour is undefined has no step. -/
def executeEngine (rt : Runtime) (env : Ambient) (call : Call) : Option Call :=
  match call.stage, rt.executions[call.execution]? with
  | .begun, some ex =>
    match engineCall ex.descriptor call.rankCount call.inputs with
    | .returns outputs => some { call with stage := .returned outputs }
    | .throws err => some { call with stage := .caught (caughtFailure ex.descriptor env err) }
    | .undefined => none
  | _, _ => none

/-- The completions after `for (r = 0; r < rank_count; ++r)`. -/
def completeRanks (completions : OrdMap RankId Bool) (rankCount : UInt64) :
    OrdMap RankId Bool :=
  (List.range rankCount.toNat).foldl (fun acc r => acc.insert ⟨UInt64.ofNat r⟩ true) completions

/-- The measurement the commit records. -/
def commitMeasurement (rt : Runtime) (env : Ambient) (call : Call) (ex : Execution)
    (payloadBytes : UInt64) : CollectiveMeasurement :=
  let wallTimeUs := env.steadyUs - call.startUs
  let logicalBytes := (checkedMul payloadBytes call.rankCount).getD 0
  let secs := wallTimeUs.toFloat / 1e6
  { id := ⟨rt.freshId⟩
    collective := ex.collectiveId
    collectiveGeneration := ex.descriptor.collectiveGeneration
    groupGeneration := ex.descriptor.groupGeneration
    algorithm := .of ex.plan.algorithm
    backend := ex.plan.backend
    rankCount := call.rankCount
    payloadBytes := payloadBytes
    wallTimeUs := wallTimeUs
    executionDurationUs := some wallTimeUs
    success := true
    topologyGeneration := (rt.topology.map (·.generation)).getD {}
    provenance := .of .measured
    freshness := .of .current
    timestampUtcNs := env.wallNs
    measurementGeneration := ⟨1⟩
    source := makeSource env "reference in-process execution" .measured
    logicalCollectiveBytes := logicalBytes
    payloadThroughputBytesPerSec :=
      if wallTimeUs > 0 then some (payloadBytes.toFloat / secs) else none
    logicalCollectiveBytesPerSec :=
      if wallTimeUs > 0 ∧ logicalBytes > 0 then some (logicalBytes.toFloat / secs) else none }

/-- The commit after an exception was caught. -/
def commitCaught (rt : Runtime) (e : ExecutionId) (failure : CollectiveFailure) :
    Result MeasurementId :=
  rt.onExecution e fun ex =>
    let ex' := { ex with
      lifecycle := ex.lifecycle.tryTransitionTo .failed
      failure := some failure }
    let rt' := rt.setExecution e ex'
    match ex.descriptor.elementByteCount with
    | .error err => (.error err, rt')
    | .ok bytes => (.ok {}, rt'.setAccounting (rt.accounting.addFailedBytes bytes))

/-- The execution after the commit has stored the outputs and applied the
quorum. -/
def commitExecution (rt : Runtime) (call : Call) (outputs : List (List UInt8))
    (ex : Execution) : Execution :=
  rt.applyQuorum { ex with
    rankCompletions := completeRanks ex.rankCompletions call.rankCount
    outputs := outputs
    lifecycle := ex.lifecycle.tryTransitionTo .completing }

/-- The commit of what the engine returned. -/
def commitReturned (rt : Runtime) (env : Ambient) (call : Call) (outputs : List (List UInt8)) :
    Result MeasurementId :=
  rt.onExecution call.execution fun ex =>
    let ex' := rt.commitExecution call outputs ex
    match ex'.descriptor.elementByteCount with
    | .error err => (.error err, rt.bump.setExecution call.execution ex')
    | .ok payloadBytes =>
      let m := rt.commitMeasurement env call ex' payloadBytes
      let rt' := { rt.bump.setExecution call.execution { ex' with measurement := some m.id } with
        measurements := rt.measurements.insert m.id m }
      match rt.accounting.collectiveCompleted with
      | .error err => (.error err, rt')
      | .ok acc =>
        let completed := (checkedMul payloadBytes call.rankCount).getD 0
        (.ok m.id, rt'.setAccounting (acc.addCompletedBytes completed))

/-- The commit step, for a call that has come to it. -/
def executeCommit (rt : Runtime) (env : Ambient) (call : Call) : Option (Result MeasurementId) :=
  match call.stage with
  | .begun => none
  | .caught failure => some (rt.commitCaught call.execution failure)
  | .returned outputs => some (rt.commitReturned env call outputs)

/-! ## Reports on an execution -/

/-- `complete_rank`. The completion is recorded before the accounting is
asked. -/
def completeRank (rt : Runtime) (e : ExecutionId) (r : RankId) : Result Unit :=
  rt.onExecution e fun ex =>
    if r ∈ ex.rankCompletions then (.error ⟨.conflict, "duplicate rank completion"⟩, rt)
    else
      let ex' := { ex with rankCompletions := ex.rankCompletions.insert r true }
      match rt.accounting.rankContributionComplete with
      | .error err => (.error err, rt.setExecution e ex')
      | .ok acc =>
        let ex'' := if ex'.lifecycle.state = .running then
            { ex' with lifecycle := ex'.lifecycle.tryTransitionTo .completing }
          else ex'
        (.ok (), (rt.setExecution e (rt.applyQuorum ex'')).setAccounting acc)

/-- `fail_collective`. -/
def failCollective (rt : Runtime) (e : ExecutionId) (f : CollectiveFailure) : Result Unit :=
  rt.onExecution e fun ex =>
    if ex.lifecycle.state = .failed then (.ok (), rt)
    else
      match ex.lifecycle.transitionTo .failed with
      | .error _ => (.error ⟨.lifecycle, "cannot fail collective in current state"⟩, rt)
      | .ok lifecycle =>
        let rt' := rt.setExecution e { ex with lifecycle := lifecycle, failure := some f }
        match ex.descriptor.elementByteCount with
        | .error err => (.error err, rt')
        | .ok bytes => (.ok (), rt'.setAccounting (rt.accounting.addFailedBytes bytes))

/-- `abort_collective`. -/
def abortCollective (rt : Runtime) (e : ExecutionId) : Result Unit :=
  rt.onExecution e fun ex => rt.onTransition ex .aborted fun ex =>
    match rt.accounting.collectiveAborted with
    | .error err => (.error err, rt.setExecution e ex)
    | .ok acc => (.ok (), (rt.setExecution e ex).setAccounting acc)

/-- `cancel_collective`. -/
def cancelCollective (rt : Runtime) (e : ExecutionId) : Result Unit :=
  rt.onExecution e fun ex => rt.onTransition ex .cancelled fun ex =>
    (.ok (), rt.setExecution e ex)

/-- `mark_stale_collective`. -/
def markStaleCollective (rt : Runtime) (e : ExecutionId) : Result Unit :=
  rt.onExecution e fun ex => rt.onTransition ex .stale fun ex =>
    (.ok (), rt.setExecution e ex)

/-! ## Measurements, health and authority -/

/-- `ingest_measurement`. -/
def ingestMeasurement (rt : Runtime) (m : CollectiveMeasurement) : Runtime :=
  { rt with measurements := rt.measurements.insert m.id m }

/-- `update_health`. -/
def updateHealth (rt : Runtime) (h : HealthRecord) : Result Unit :=
  if rt.health.isZero = false ∧ compareGenerations h.generation rt.health.generation = .lt then
    (.error ⟨.staleAuthority, "old health report rejected"⟩,
      rt.setAccounting rt.accounting.staleMessageRejected)
  else (.ok (), { rt with health := h })

/-- `advance_epoch`. -/
def advanceEpoch (rt : Runtime) : Runtime :=
  { rt with authority := { rt.authority with epoch := rt.authority.epoch.next } }

/-- `set_live_boot`. -/
def setLiveBoot (rt : Runtime) (b : WorkerBootId) : Runtime :=
  { rt with authority := { rt.authority with liveBoot := b } }

/-- `accounting().active_rank_contribution()`. -/
def activeRankContribution (rt : Runtime) : Runtime :=
  rt.setAccounting rt.accounting.activeRankContribution

end Runtime

end CollectiveFabric
