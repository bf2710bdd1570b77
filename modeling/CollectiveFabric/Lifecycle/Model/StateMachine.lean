import CollectiveFabric.Common.Trail
import CollectiveFabric.Foundation.Model.Values

/-!
# The collective lifecycle

Every transition of an execution is guarded by the table `allowed`. The
machine of the source holds its state; here it also holds the states
passed through before, newest first, with the proof that each of them was
left by a move of the table.
-/

namespace CollectiveFabric

open Common

namespace CollectiveState

/-- `is_terminal`. -/
def isTerminal (s : CollectiveState) : Bool :=
  s = .succeeded || s = .failed || s = .aborted || s = .cancelled || s = .stale

/-- `allowed`. -/
def allowed (src dst : CollectiveState) : Bool :=
  match src with
  | .created => dst = .planned || dst = .failed || dst = .cancelled || dst = .aborted
  | .planned => dst = .reserved || dst = .failed || dst = .cancelled
  | .reserved => dst = .dispatched || dst = .failed || dst = .cancelled
  | .dispatched => dst = .running || dst = .failed || dst = .aborted || dst = .cancelled
  | .running => dst = .completing || dst = .failed || dst = .aborted || dst = .cancelled
  | .completing => dst = .succeeded || dst = .failed || dst = .aborted
  | .succeeded => dst = .stale
  | .failed => dst = .stale
  | .aborted => false
  | .cancelled => false
  | .stale => false

end CollectiveState

/-- `CollectiveStateMachine`, with the states behind it. -/
structure CollectiveStateMachine where
  state : CollectiveState
  past : List CollectiveState
  legal : Trail (fun a b => a.allowed b = true) .created (state :: past)

namespace CollectiveStateMachine

/-- A machine in `CREATED`. -/
def created : CollectiveStateMachine := ⟨.created, [], .start⟩

/-- `is_terminal`. -/
def isTerminal (m : CollectiveStateMachine) : Bool := m.state.isTerminal

/-- `can_transition_to`. -/
def canTransitionTo (m : CollectiveStateMachine) (dst : CollectiveState) : Bool :=
  m.state.allowed dst

/-- `transition_to`. -/
def transitionTo (m : CollectiveStateMachine) (dst : CollectiveState) :
    Except Error CollectiveStateMachine :=
  if h : m.state.allowed dst = true then .ok ⟨dst, m.state :: m.past, .move m.legal h⟩
  else
    .error ⟨.lifecycle, "illegal lifecycle transition " ++ collectiveStateToString m.state ++
      " -> " ++ collectiveStateToString dst⟩

/-- `try { transition_to(dst); } catch (const Error&) {}`. -/
def tryTransitionTo (m : CollectiveStateMachine) (dst : CollectiveState) :
    CollectiveStateMachine :=
  match m.transitionTo dst with
  | .ok m' => m'
  | .error _ => m

/-- The states the machine has entered, newest first. -/
def entered (m : CollectiveStateMachine) : List CollectiveState := m.state :: m.past

end CollectiveStateMachine

end CollectiveFabric
