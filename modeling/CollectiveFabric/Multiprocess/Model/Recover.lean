import CollectiveFabric.Multiprocess.Model.Coordinator
import CollectiveFabric.Store.Model.File

/-!
# The recovery path

What becomes of a saved file: the command line's `recover` and the
coordinator's `recover` scenario, each on the bytes of the state file.
-/

namespace CollectiveFabric

open Common

namespace Recover

/-- What the two recovery paths print. -/
inductive Line where
  | loaded (groups measurements : ℕ)
  | freshness (name : String)
  | remain (name : String)
  | provenance
  | forced (measurements : ℕ)
  | authorityCleared
  | done
  | error (message : String)
deriving DecidableEq

/-- `cmd_save_recover` with `recover` set. The runtime and the state it
also builds are for saving. -/
def cmdRecover (buf : List UInt8) : Except Error (List Line) :=
  match Store.load buf with
  | .error e => .error e
  | .ok (loaded, _) =>
    .ok ([.loaded loaded.groups.toList.length loaded.measurements.toList.length] ++
      (loaded.measurements.toList.map fun m =>
        .freshness (measurementFreshnessToString m.freshness)) ++
      [.remain (measurementFreshnessToString (.of .revalidationRequired)), .provenance])

/-- The measurement `cmd_save_recover` persists. -/
def cmdMeasurement : PersistedMeasurement where
  id := ⟨1⟩
  collective := ⟨1⟩
  groupGeneration := ⟨1⟩
  measurementGeneration := ⟨1⟩
  provenance := .of .measured
  freshness := .of .current
  success := true
  rankCount := 2
  payloadBytes := 8
  timestampNs := 1

/-- Where `run_recover` is once the state is read: it listens with a
recovered runtime, or has returned. -/
inductive Outcome where
  | listening (rt : Runtime)
  | returned (code : ℕ)

/-- The recovered runtime before the groups are rebuilt. -/
def startRuntime (state : PersistentState) : Runtime :=
  let rt := (({} : Runtime).registerBackend (some Coordinator.backend)).2
  { rt with authority := { rt.authority with epoch := state.epoch } }.setLiveBoot {}

/-- `forced_reval`. -/
def forcedReval (state : PersistentState) : ℕ :=
  state.measurements.toList.countP fun m => m.freshness = .of .current

/-- `run_recover` up to the call that listens. -/
def runRecover (buf : List UInt8) (envs : ℕ → Ambient) : List Line × Outcome :=
  match Store.load buf with
  | .error e => ([.error e.message], .returned 0)
  | .ok (state, _) =>
    let loaded : Line := .loaded state.groups.toList.length state.measurements.toList.length
    if state.groups.toList = [] then ([loaded, .done], .returned 1)
    else
      match rebuildRuntime (startRuntime state) state.groups.toList envs with
      | (.error e, _) => ([loaded, .error e.message], .returned 0)
      | (.ok _, rt) => ([loaded, .forced (forcedReval state), .authorityCleared], .listening rt)

end Recover

end CollectiveFabric
