import CollectiveFabric.Runtime.Model.System

/-!
# Calls made whole

What `execute_collective` is meant to be to its callers: one section. The
callers' system again, over the same events, where a begin and an answer
of the engine only note what the call was given, and the commit makes the
whole call on the runtime it finds.
-/

namespace CollectiveFabric

open Common

/-- A call of `execute_collective` that is still to be made: what it was
given, and what surrounded its begin and the engine's answer. -/
structure Request where
  execution : ExecutionId
  inputs : List (List UInt8)
  begun : Ambient
  answered : Option Ambient := none

namespace Runtime

/-- The call up to its commit. -/
def serve (rt : Runtime) (r : Request) : Option Call × Runtime :=
  match rt.executeBegin r.begun r.execution r.inputs with
  | (none, rt) => (none, rt)
  | (some call, rt) => (some ((r.answered.bind (rt.executeEngine · call)).getD call), rt)

/-- `execute_collective` without a step in between. -/
def executeCollective (rt : Runtime) (r : Request) (env : Ambient) :
    Option (Result MeasurementId) :=
  match rt.serve r with
  | (none, rt) => some (.ok {}, rt)
  | (some call, rt) => rt.executeCommit env call

end Runtime

structure SerialSystem where
  runtime : Runtime := {}
  pending : OrdMap ℕ Request := ∅
  returned : List (ExecutionId × MeasurementId) := []

namespace SerialSystem

/-- A call is noted. -/
def begin (t : SerialSystem) (c : ℕ) (env : Ambient) (e : ExecutionId)
    (inputs : List (List UInt8)) : SerialSystem :=
  if c ∈ t.pending then t
  else
    match t.runtime.executions[e]? with
    | none => { t with returned := (e, {}) :: t.returned }
    | some _ => { t with pending := t.pending.insert c { execution := e, inputs, begun := env } }

/-- The first answer of the engine is noted. -/
def engine (t : SerialSystem) (c : ℕ) (env : Ambient) : SerialSystem :=
  match t.pending[c]? with
  | none => t
  | some r =>
    { t with pending := t.pending.insert c { r with answered := some (r.answered.getD env) } }

/-- The call is made. -/
def commit (t : SerialSystem) (c : ℕ) (env : Ambient) : SerialSystem :=
  match t.pending[c]? with
  | none => t
  | some r =>
    match t.runtime.executeCollective r env with
    | none => t
    | some (result, rt) =>
      { runtime := rt
        pending := t.pending.erase c
        returned := match result with
          | .ok m => (r.execution, m) :: t.returned
          | .error _ => t.returned }

def step (t : SerialSystem) : Event → SerialSystem
  | .call op => { t with runtime := op.apply t.runtime }
  | .begin c env e inputs => t.begin c env e inputs
  | .engine c env => t.engine c env
  | .commit c env => t.commit c env

def init : SerialSystem := {}

end SerialSystem

end CollectiveFabric
