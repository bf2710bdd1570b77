import CollectiveFabric.Backend.Model.Capabilities
import CollectiveFabric.Collective.Model.Descriptor
import CollectiveFabric.Group.Model.Group
import CollectiveFabric.Topology.Model.Topology

/-!
# The planner

Candidates with their feasibility and structural cost, the selection among
them and the plan it makes. The time estimates are computed in an
arithmetic of their own, `EstimateArith`; the runtime's is `Float`.
-/

namespace CollectiveFabric

structure PlannerInput where
  descriptor : Option CollectiveDescriptor := none
  group : Option CollectiveGroup := none
  topology : Option Topology := none
  backend : Option BackendCapabilities := none
  pathHealth : Option (Scoped HealthState) := none
  measuredBandwidthBytesPerSec : Option UInt64 := none
  measuredLatencyNs : Option UInt64 := none
  deterministicPreference : Bool := true
  preferDeviceBuffers : Bool := false

/-! ## The cost model -/

/-- The loop of `ceil_log2`; the shift wraps at 64 bits. -/
def ceilLog2Loop (n : UInt64) : ℕ → UInt64 → UInt64 → Option UInt64
  | 0, _, _ => none
  | fuel + 1, x, s => if x < n then ceilLog2Loop n fuel (x <<< 1) (s + 1) else some s

/-- `ceil_log2`. After 64 turns `x` has become zero and stays zero: where
the loop has not ended by then, it never does. -/
def ceilLog2 (n : UInt64) : Option UInt64 := ceilLog2Loop n 65 1 0

structure PathModel where
  steps : UInt64 := 0
  movement : UInt64 := 0
deriving DecidableEq

/-- `is_reduce_family`. -/
def isReduceFamily (k : Scoped CollectiveKind) : Bool :=
  k = .of .reduce || k = .of .allReduce || k = .of .reduceScatter

/-- `sat_mul`. -/
def satMul (a b : UInt64) : UInt64 := (checkedMul a b).getD 0xffffffffffffffff

/-- `model_path`. A group of ranks more than `ceil_log2` can count does
not exist, so what the path would be for it does not matter. -/
def modelPath (kind : Scoped CollectiveKind) (algo : Algorithm) (n p : UInt64) : PathModel :=
  let logn := (ceilLog2 n).getD 0
  let others := if n > 0 then n - 1 else 0
  match algo with
  | .direct => ⟨1, satMul p others⟩
  | .ring => ⟨others, satMul p others⟩
  | .tree =>
    let steps := if kind = .of .broadcast ∨ kind = .of .reduce then logn else satMul 2 logn
    ⟨steps, satMul p steps⟩
  | .recursiveDoubling => ⟨logn, satMul (satMul p logn) 2⟩
  | .reduceBroadcast => ⟨satMul 2 others, satMul p (satMul 2 others)⟩
  | .hierarchical => ⟨satMul 2 logn, satMul p (satMul 2 logn)⟩
  | .backendDefault => ⟨1, p⟩
  | .unknown => ⟨0, 0⟩

/-- `algorithm_feasible`. -/
def algorithmFeasible (kind : Scoped CollectiveKind) (a : Algorithm) : Bool :=
  match a with
  | .direct => kind = .of .broadcast || kind = .of .reduce
  | .ring =>
    kind = .of .allReduce || kind = .of .reduceScatter || kind = .of .allGather ||
      kind = .of .reduce || kind = .of .broadcast
  | .tree =>
    kind = .of .barrier || kind = .of .broadcast || kind = .of .reduce || kind = .of .allReduce ||
      kind = .of .allGather || kind = .of .reduceScatter
  | .recursiveDoubling => kind = .of .allReduce || kind = .of .allGather
  | .reduceBroadcast => kind = .of .allReduce || kind = .of .reduce
  | .hierarchical =>
    kind = .of .allReduce || kind = .of .allGather || kind = .of .reduceScatter
  | .backendDefault => true
  | .unknown => false

namespace Planner

structure Candidate where
  algorithm : Algorithm := .unknown
  feasible : Bool := false
  rejectReason : String := ""
  steps : UInt64 := 0
  byteMovement : UInt64 := 0
deriving DecidableEq

/-- The algorithms in the order `candidates` goes through them. -/
def algorithms : List Algorithm :=
  [.direct, .ring, .tree, .recursiveDoubling, .reduceBroadcast, .hierarchical, .backendDefault,
    .unknown]

/-- The payload byte count the planner ranks by. -/
def payloadBytes (d : CollectiveDescriptor) (n : UInt64) : Except Error UInt64 :=
  if d.kind = .of .broadcast ∨ d.kind = .of .reduce ∨ d.kind = .of .allReduce then
    d.elementByteCount
  else d.aggregateByteCount n

/-- The hard constraint an algorithm fails, if it fails one. -/
def rejectReason (d : CollectiveDescriptor) (n : UInt64) (backend : BackendCapabilities)
    (topology : Option Topology) (a : Algorithm) : Option String :=
  if algorithmFeasible d.kind a = false then
    some "algorithm not applicable to collective kind"
  else if backend.supportsKind d.kind = false then
    some "backend does not support collective kind"
  else if backend.supportsDatatype d.datatype = false then
    some "backend does not support datatype"
  else if isReduceFamily d.kind ∧ backend.supportsReduction d.reduction = false then
    some "backend does not support reduction"
  else if backend.supportsTransport (.of .hostMemory) = false then
    some "no compatible host transport"
  else if backend.maximumRankCount.any (fun limit => n > limit) then
    some "rank count exceeds backend maximum"
  else if ¬ (d.inputPlacement = .of .host ∧ backend.supportsHostBuffers) then
    some "backend does not support requested buffer placement"
  else if a = .hierarchical ∧ topology.any (fun t => t.nodeCount < 2) then
    some "topology contains no inter-node subgroup boundary"
  else none

/-- One turn of the loop of `candidates`. -/
def candidate (d : CollectiveDescriptor) (n p : UInt64) (backend : BackendCapabilities)
    (topology : Option Topology) (a : Algorithm) : Candidate :=
  match rejectReason d n backend topology a with
  | some reason => { algorithm := a, feasible := false, rejectReason := reason }
  | none =>
    let pm := modelPath d.kind a n p
    { algorithm := a, feasible := true, steps := pm.steps, byteMovement := pm.movement }

/-- `candidates`. -/
def candidates (inp : PlannerInput) : Except Error (List Candidate) :=
  match inp.descriptor, inp.group, inp.backend with
  | some d, some group, some backend =>
    match payloadBytes d group.rankCount with
    | .error e => .error e
    | .ok p => .ok (algorithms.map (candidate d group.rankCount p backend inp.topology))
  | _, _, _ => .ok []

/-! ## Selection -/

end Planner

/-- The arithmetic the time estimates are computed and compared in. -/
class EstimateArith (R : Type) extends Add R, Sub R, Mul R, Div R, LT R where
  /-- `static_cast<double>`. -/
  ofUInt64 : UInt64 → R
  abs : R → R
  /-- `0.0`. -/
  zero : R
  /-- `1e9`. -/
  giga : R
  /-- `1e-12`. -/
  tolerance : R
  decLt : DecidableLT R

instance EstimateArith.decidableLT {R : Type} [EstimateArith R] : DecidableLT R :=
  EstimateArith.decLt

instance : EstimateArith Float where
  ofUInt64 := UInt64.toFloat
  abs := Float.abs
  zero := 0.0
  giga := 1e9
  tolerance := 1e-12
  decLt := inferInstance

namespace Planner

section

variable (R : Type) [EstimateArith R]

open EstimateArith

/-- `est_time`. -/
def estTime (inp : PlannerInput) (c : Candidate) : Option R :=
  let bandwidth : Option R :=
    match inp.measuredBandwidthBytesPerSec with
    | some b =>
      if b > 0 then some (zero + ofUInt64 c.byteMovement / ofUInt64 b * giga) else none
    | none => none
  match inp.measuredLatencyNs with
  | some latency => some (bandwidth.getD zero + ofUInt64 c.steps * ofUInt64 latency)
  | none => bandwidth

/-- The deterministic tie-break. -/
def tieBreak (c best : Candidate) : Bool :=
  if c.steps ≠ best.steps then c.steps < best.steps
  else if c.byteMovement ≠ best.byteMovement then c.byteMovement < best.byteMovement
  else c.algorithm.ctorIdx < best.algorithm.ctorIdx

/-- Whether `c` replaces `best` in the first pass. -/
def better (inp : PlannerInput) (c best : Candidate) : Bool :=
  match estTime R inp c, estTime R inp best with
  | some ta, some tb =>
    if ta < tb - tolerance then true
    else if abs (ta - tb) < tolerance then tieBreak c best
    else false
  | _, _ => tieBreak c best

/-- The first pass: the best feasible algorithm but the backend's own. -/
def selectReal (inp : PlannerInput) (cands : List Candidate) : Option Candidate :=
  cands.foldl (fun best c =>
    if c.feasible = false ∨ c.algorithm = .backendDefault then best
    else
      match best with
      | none => some c
      | some b => if better R inp c b then some c else some b) none

/-- The second pass, when no algorithm of the first is feasible. -/
def selectFallback (cands : List Candidate) : Option Candidate :=
  cands.foldl (fun best c =>
    if c.feasible = false then best
    else
      match best with
      | none => some c
      | some b =>
        if c.steps < b.steps ∨ c.steps = b.steps ∧ c.byteMovement < b.byteMovement then some c
        else some b) none

/-- The candidate `plan` settles on. -/
def select (inp : PlannerInput) (cands : List Candidate) : Option Candidate :=
  match selectReal R inp cands with
  | some c => some c
  | none => selectFallback cands

end

/-! ## The plan -/

/-- `build_explanation`. -/
def buildExplanation (d : CollectiveDescriptor) (chosen : PathModel) (n p : UInt64)
    (inp : PlannerInput) (selected : Algorithm) : String :=
  let s := algorithmToString selected ++ " selected for " ++ collectiveKindToString d.kind ++
    " with " ++ toString n.toNat ++ " ranks and " ++ toString p.toNat ++ " payload bytes"
  let s := if chosen.steps ≤ 1 then s ++ "; direct/one-shot path has minimal critical path" else s
  let bdp : Float :=
    match inp.measuredBandwidthBytesPerSec, inp.measuredLatencyNs with
    | some b, some l => if l > 0 then b.toFloat * l.toFloat / 1e9 else 0
    | _, _ => 0
  if bdp > 0 then
    if p.toFloat < bdp then
      s ++ ("; message is small relative to bandwidth-delay product, " ++
        "so latency-favoring choice dominates")
    else
      s ++ ("; message is large relative to bandwidth-delay product, " ++
        "so bandwidth-favoring choice dominates")
  else
    s ++ ("; no measured bandwidth/latency, " ++
      "so the planner ranks on structural steps and byte movement")

/-- The decision factors of a plan, in the order they are added. -/
def planFactors (d : CollectiveDescriptor) (n p : UInt64) (pm : PathModel) (inp : PlannerInput)
    (backend : BackendCapabilities) : List DecisionFactor :=
  [⟨"collective_kind", d.kind.raw.toFloat, "enum", true, collectiveKindToString d.kind⟩,
    ⟨"rank_count", n.toFloat, "ranks", true, "participant count at group generation"⟩,
    ⟨"payload_bytes", p.toFloat, "bytes", true, "per-rank payload"⟩,
    ⟨"expected_steps", pm.steps.toFloat, "steps", false,
      "critical path length in communication rounds"⟩,
    ⟨"expected_byte_movement", pm.movement.toFloat, "bytes", false,
      "total bytes that cross at least one link"⟩,
    match inp.measuredBandwidthBytesPerSec with
    | some b => ⟨"measured_bandwidth_bytes_per_sec", b.toFloat, "bytes/s", false, "measured"⟩
    | none =>
      ⟨"measured_bandwidth_bytes_per_sec", 0, "unknown", false,
        "not measured; link bandwidth UNKNOWN"⟩,
    match inp.measuredLatencyNs with
    | some l => ⟨"measured_latency_ns", l.toFloat, "ns", false, "measured"⟩
    | none => ⟨"measured_latency_ns", 0, "unknown", false, "not measured; latency UNKNOWN"⟩] ++
  (match inp.topology with
    | some t =>
      [⟨"topology_diameter_nodes", t.nodeCount.toFloat, "nodes", false,
          "distinct nodes in topology"⟩,
        ⟨"intra_node_device_pairs", t.intraNodeDevicePairs.toFloat, "pairs", false,
          "intra-node locality"⟩]
    | none => []) ++
  [⟨"device_buffer_support", if backend.supportsDeviceBuffers then 1.0 else 0.0, "bool", false,
    if backend.supportsDeviceBuffers then "backend supports device buffers"
    else "backend is host-buffer only"⟩]

/-- Whether communication may overlap, and why. -/
def overlap (d : CollectiveDescriptor) (backend : BackendCapabilities) : Bool × String :=
  let first : Bool × String :=
    if backend.supportsNonblockingProgress then
      (true, "independent stream/queue semantics; no in-place hazard identified")
    else (false, "backend has no nonblocking progress")
  if backend.supportsHostBuffers = false ∧ d.inputPlacement = .of .device then
    (false, "device buffer backend requires binding")
  else first

/-- `plan`, with the time estimates in the arithmetic `R`. -/
def planIn (R : Type) [EstimateArith R] (env : Ambient) (inp : PlannerInput) :
    Except Error CollectivePlan :=
  match inp.descriptor, inp.group, inp.backend with
  | some d, some group, some backend =>
    let n := group.rankCount
    match payloadBytes d n with
    | .error e => .error e
    | .ok p =>
      match candidates inp with
      | .error e => .error e
      | .ok cands =>
        match select R inp cands with
        | none =>
          .error ⟨.unsupported, "no feasible algorithm for the requested collective"⟩
        | some best =>
          let pm := modelPath d.kind best.algorithm n p
          .ok {
            algorithm := best.algorithm
            backend := backend.id
            transport := .of .hostMemory
            expectedSteps := pm.steps
            expectedByteMovement := pm.movement
            rankOrder := (List.range n.toNat).map UInt64.ofNat
            hierarchyDepth := if inp.topology.any (fun t => t.nodeCount ≥ 2) then 2 else 0
            provenance := .of .derived
            policyGeneration := d.policyGeneration
            topologyGeneration := (inp.topology.map (·.generation)).getD {}
            collectiveGeneration := d.collectiveGeneration
            backendGeneration := backend.generation
            healthGeneration := if inp.pathHealth.isSome then ⟨1⟩ else {}
            source := makeSource env "deterministic planner selection" .derived
            factors := planFactors d n p pm inp backend
            hardConstraints := (cands.filter (!·.feasible)).map (·.rejectReason)
            explanation := [buildExplanation d pm n p inp best.algorithm]
            overlapEligible := (overlap d backend).1
            overlapReason := (overlap d backend).2 }
  | _, _, _ => .error ⟨.validation, "planner requires descriptor, group, and backend"⟩

/-- `plan`. -/
def plan (env : Ambient) (inp : PlannerInput) : Except Error CollectivePlan :=
  planIn Float env inp

end Planner

end CollectiveFabric
