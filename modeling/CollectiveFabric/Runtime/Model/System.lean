import CollectiveFabric.Common.Run
import CollectiveFabric.Runtime.Model.Runtime

/-!
# The runtime and its callers

Any number of callers share a runtime. A call of `execute_collective` is
three events, begin, engine and commit, tied by the number of the call;
every other call is one event. The system also remembers, for what is
said about it and for no step, the inputs of the call that moved each
execution to `RUNNING` and what the calls of `execute_collective` have
returned.
-/

namespace CollectiveFabric

open Common

/-- A call that is one critical section. -/
inductive Operation where
  | registerBackend (b : Option CollectiveBackend)
  | adoptTopology (t : Topology)
  | registerGroup (g : CollectiveGroup)
  | createCollective (d : CollectiveDescriptor)
  | planCollective (env : Ambient) (e : ExecutionId) (inp : PlannerInput)
  | reserveCollective (e : ExecutionId)
  | dispatchCollective (e : ExecutionId)
  | completeRank (e : ExecutionId) (r : RankId)
  | failCollective (e : ExecutionId) (f : CollectiveFailure)
  | abortCollective (e : ExecutionId)
  | cancelCollective (e : ExecutionId)
  | markStaleCollective (e : ExecutionId)
  | ingestMeasurement (m : CollectiveMeasurement)
  | updateHealth (h : HealthRecord)
  | advanceEpoch
  | setLiveBoot (b : WorkerBootId)
  | activeRankContribution

/-- The runtime a call leaves, whether it returns or throws. -/
def Operation.apply (rt : Runtime) : Operation → Runtime
  | registerBackend b => (rt.registerBackend b).2
  | adoptTopology t => rt.adoptTopology t
  | registerGroup g => (rt.registerGroup g).2
  | createCollective d => (rt.createCollective d).2
  | planCollective env e inp => (rt.planCollective env e inp).2
  | reserveCollective e => (rt.reserveCollective e).2
  | dispatchCollective e => (rt.dispatchCollective e).2
  | completeRank e r => (rt.completeRank e r).2
  | failCollective e f => (rt.failCollective e f).2
  | abortCollective e => (rt.abortCollective e).2
  | cancelCollective e => (rt.cancelCollective e).2
  | markStaleCollective e => (rt.markStaleCollective e).2
  | ingestMeasurement m => rt.ingestMeasurement m
  | updateHealth h => (rt.updateHealth h).2
  | advanceEpoch => rt.advanceEpoch
  | setLiveBoot b => rt.setLiveBoot b
  | activeRankContribution => rt.activeRankContribution

/-- What a caller does next. `c` is the number of a call of
`execute_collective`. -/
inductive Event where
  | call (op : Operation)
  | begin (c : ℕ) (env : Ambient) (e : ExecutionId) (inputs : List (List UInt8))
  | engine (c : ℕ) (env : Ambient)
  | commit (c : ℕ) (env : Ambient)

structure System where
  runtime : Runtime := {}
  calls : OrdMap ℕ Call := ∅
  started : OrdMap ExecutionId (List (List UInt8)) := ∅
  returned : List (ExecutionId × MeasurementId) := []

namespace System

/-- A call begins, under a number no call in flight has. -/
def begin (s : System) (c : ℕ) (env : Ambient) (e : ExecutionId) (inputs : List (List UInt8)) :
    System :=
  if c ∈ s.calls then s
  else
    match s.runtime.executeBegin env e inputs with
    | (none, rt) => { s with runtime := rt, returned := (e, {}) :: s.returned }
    | (some call, rt) =>
      { s with
        runtime := rt
        calls := s.calls.insert c call
        started := match call.stage with
          | .begun => s.started.insert e inputs
          | _ => s.started }

/-- The engine answers a call. -/
def engine (s : System) (c : ℕ) (env : Ambient) : System :=
  match (s.calls[c]?).bind (s.runtime.executeEngine env) with
  | none => s
  | some call => { s with calls := s.calls.insert c call }

/-- A call commits and ends. -/
def commit (s : System) (c : ℕ) (env : Ambient) : System :=
  match s.calls[c]? with
  | none => s
  | some call =>
    match s.runtime.executeCommit env call with
    | none => s
    | some (result, rt) =>
      { s with
        runtime := rt
        calls := s.calls.erase c
        returned := match result with
          | .ok m => (call.execution, m) :: s.returned
          | .error _ => s.returned }

def step (s : System) : Event → System
  | .call op => { s with runtime := op.apply s.runtime }
  | .begin c env e inputs => s.begin c env e inputs
  | .engine c env => s.engine c env
  | .commit c env => s.commit c env

/-- A fresh runtime without callers. -/
def init : System := {}

/-- Some call of `execute_collective` on `e` is in flight. -/
def InFlight (s : System) (e : ExecutionId) : Prop :=
  ∃ (c : ℕ) (call : Call), s.calls[c]? = some call ∧ call.execution = e

end System

/-! ## Critical sections on an execution -/

/-- What is done under the lock to one execution. -/
inductive Act where
  | plan
  | reserve
  | dispatch
  | begin (inputs : List (List UInt8))
  | commitCaught (f : CollectiveFailure)
  | commitReturned (call : Call) (outputs : List (List UInt8))
  | completeRank (r : RankId)
  | fail (f : CollectiveFailure)
  | abort
  | cancel
  | markStale

/-- The execution a call is on and what it does to it. -/
def Operation.act : Operation → Option (ExecutionId × Act)
  | planCollective _ e _ => some (e, .plan)
  | reserveCollective e => some (e, .reserve)
  | dispatchCollective e => some (e, .dispatch)
  | completeRank e r => some (e, .completeRank r)
  | failCollective e f => some (e, .fail f)
  | abortCollective e => some (e, .abort)
  | cancelCollective e => some (e, .cancel)
  | markStaleCollective e => some (e, .markStale)
  | _ => none

/-- The critical section a call in flight comes to. -/
def Call.act (call : Call) : Option (ExecutionId × Act) :=
  match call.stage with
  | .begun => none
  | .returned outputs => some (call.execution, .commitReturned call outputs)
  | .caught failure => some (call.execution, .commitCaught failure)

/-- The execution an event is on and what it does to it. -/
def System.act (s : System) : Event → Option (ExecutionId × Act)
  | .call op => op.act
  | .begin c _ e inputs => if c ∈ s.calls then none else some (e, .begin inputs)
  | .engine _ _ => none
  | .commit c _ => (s.calls[c]?).bind Call.act

/-! ## A first collective -/

namespace System

/-- The surroundings of a call, all clocks at zero. -/
def still : Ambient := ⟨0, 0, 0⟩

/-- A builder for a group of one rank. -/
def soloGroup : GroupBuilder :=
  ({ id := ⟨7⟩, generation := ⟨1⟩ } : GroupBuilder).addParticipant ⟨1⟩ ⟨1⟩ ⟨1⟩ ⟨1⟩ ⟨1⟩ ⟨1⟩

/-- A collective of one byte a rank on that group. -/
def soloDescriptor (kind : CollectiveKind) (reduction : ReductionOp) : CollectiveDescriptor :=
  { groupId := ⟨7⟩, groupGeneration := ⟨1⟩, kind := .of kind, reduction := .of reduction,
    elementCount := 1, hasRoot := true }

/-- The calls that create a collective on a fresh runtime, under the
execution id 1, and bring it to `RESERVED`. The planner is asked without a
backend, so `plan_collective` throws, with the execution `PLANNED`. -/
def reserving (d : CollectiveDescriptor) : List Event :=
  match soloGroup.build.1 with
  | .error _ => []
  | .ok group =>
    [.call (.registerGroup group), .call (.createCollective d),
      .call (.planCollective still ⟨1⟩ {}), .call (.reserveCollective ⟨1⟩)]

/-- The calls that bring it to `DISPATCHED`. -/
def dispatching (d : CollectiveDescriptor) : List Event :=
  reserving d ++ [.call (.dispatchCollective ⟨1⟩)]

/-- A broadcast that runs undisturbed. -/
def soloBroadcast : List Event :=
  dispatching (soloDescriptor .broadcast .none) ++
    [.begin 0 still ⟨1⟩ [[5]], .engine 0 still, .commit 0 still]

end System

end CollectiveFabric
