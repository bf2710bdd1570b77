import CollectiveFabric.Runtime.Model.Runtime
import CollectiveFabric.Store.Model.State

/-!
# Saving and recovering

What the coordinator exports of its runtime before it saves, and how a
fresh coordinator process rebuilds a runtime from the state it loads.
-/

namespace CollectiveFabric

open Common

/-! ## Export -/

/-- One turn of the participant loop of `build_state`. -/
def exportParticipant (p : Participant) : PersistedParticipant where
  participantId := p.id
  worker := p.worker
  boot := p.boot
  node := p.node
  device := p.device
  rank := p.rank
  backendGeneration := p.backendGeneration
  isKnown := p.isKnown

/-- One turn of the group loop of `build_state`. -/
def exportGroup (g : CollectiveGroup) : PersistedGroup where
  groupId := g.id
  generation := g.generation
  membership := g.membership
  topology := g.topology
  health := g.health
  backend := g.backend
  lifecycle := g.lifecycle
  participants := .ofList (g.participants.toList.map exportParticipant)

/-- One turn of the measurement loop of `build_state`. -/
def exportMeasurement (m : CollectiveMeasurement) : PersistedMeasurement where
  id := m.id
  collective := m.collective
  collectiveGeneration := m.collectiveGeneration
  groupGeneration := m.groupGeneration
  algorithm := m.algorithm
  backend := m.backend
  rankCount := m.rankCount
  payloadBytes := m.payloadBytes
  wallTimeUs := m.wallTimeUs
  provenance := m.provenance
  freshness := m.freshness
  timestampNs := m.timestampUtcNs
  measurementGeneration := m.measurementGeneration
  success := m.success

/-- `build_state`: of the groups only the first generation of group 1. -/
def buildState (rt : Runtime) (wallNs : UInt64) : PersistentState where
  savedNs := wallNs
  epoch := rt.authority.epoch
  liveBoot := rt.authority.liveBoot
  groups := .ofList ((rt.findGroup ⟨1⟩ ⟨1⟩).toList.map exportGroup)
  measurements := .ofList (rt.measurements.toList.map fun entry => exportMeasurement entry.2)

/-! ## Recovery -/

/-- The builder of one turn of `rebuild_runtime`. -/
def groupBuilder (env : Ambient) (pg : PersistedGroup) : GroupBuilder :=
  let gb : GroupBuilder :=
    { id := pg.groupId
      generation := pg.generation
      membership := pg.membership
      topology := pg.topology
      health := pg.health
      backend := pg.backend
      lifecycle := pg.lifecycle
      provenance := makeSource env "recovered group" .derived }
  pg.participants.toList.foldl (fun gb pp =>
    gb.addParticipant pp.participantId pp.worker pp.boot pp.node pp.device pp.backendGeneration
      pp.rank) gb

/-- `rebuild_runtime`; `envs` gives the surroundings of each turn. -/
def rebuildRuntime (rt : Runtime) :
    List PersistedGroup → (ℕ → Ambient) → Runtime.Result Unit
  | [], _ => (.ok (), rt)
  | pg :: rest, envs =>
    match (groupBuilder (envs 0) pg).build.1 with
    | .error err => (.error err, rt)
    | .ok g =>
      match rt.registerGroup g with
      | (.error err, rt') => (.error err, rt')
      | (.ok _, rt') => rebuildRuntime rt' rest fun i => envs (i + 1)

end CollectiveFabric
