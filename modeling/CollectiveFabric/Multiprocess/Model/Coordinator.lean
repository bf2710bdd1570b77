import CollectiveFabric.Multiprocess.Model.Channel
import CollectiveFabric.Multiprocess.Model.Messages
import CollectiveFabric.Multiprocess.Model.Recovery

/-!
# The coordinator

`run_coordinator`, from the moment it listens. Its phase is the blocking
call it stands at, and a turn is one turn of that call with everything up
to the next blocking call. Workers are seen through their connections:
whatever arrives, in whatever pieces, and whether the peer is still there
is decided outside. The coordinator also remembers, for what is said about
it and for no step, the rounds it handed to the engine.
-/

namespace CollectiveFabric

/-- What `run_coordinator` logs. -/
inductive Line where
  | text (s : String)
  | acceptedWorker (name : Bytes) (boot : UInt64)
  | groupAccept (boot : UInt64) (rank : RankId)
  | regenGroupAccept (boot : UInt64) (rank : RankId)
  | lossDetected (label : String) (boot : UInt64) (reason : String)
  | contribution (label : String) (rank bytes : ℕ)
  | completeLost (label : String) (boot : UInt64) (reason : String)
  | allreduceDone (label : String) (sum : UInt32)
  | droppingDeadWorker (boot : UInt64)
  | newWorker (boot : UInt64)
  | stale (verdict : AuthorityVerdict) (rejected : Bool) (reason : String)
  | staleReplay (rejected accepted : ℕ)

/-- `WorkerState`; `ch` counts the connections in the order of their
acceptance. -/
structure WorkerState where
  ch : ℕ
  boot : UInt64 := 0
  name : Bytes := ∅
deriving DecidableEq

/-- The calls of `run_allreduce`. -/
inductive Site where
  | first | loss | second
deriving DecidableEq

namespace Site

def gen : Site → UInt64
  | first => 1
  | loss => 1
  | second => 2

def label : Site → String
  | first => "PHASE_ALLREDUCE"
  | loss => "PHASE_LOSS"
  | second => "PHASE_ALLREDUCE2"

def expectLoss (site : Site) : Bool := site = .loss

/-- The descriptor of the round's `REQUEST_COLLECTIVE`. -/
def request (site : Site) : Desc where
  kind := Enumeration.toRaw CollectiveKind.allReduce
  datatype := Enumeration.toRaw Datatype.float32
  reduction := Enumeration.toRaw ReductionOp.sum
  elementCount := 4
  root := 0
  rankCount := 2
  groupId := 1
  groupGen := site.gen
  collectiveGen := 1
  epoch := if site.expectLoss then 1 else 2
  attemptGen := 1
  dispatchGen := 1

end Site

/-- A contribution read from a channel: the boot registered for it, the
claim it carried and its bytes. -/
structure Contribution where
  boot : UInt64
  auth : AuthClaim
  bytes : Bytes
deriving DecidableEq

/-- A round of `run_allreduce`, with `auths` and `inputs` as far as they
are read. -/
structure Round where
  site : Site
  request : Desc
  contributions : List Contribution := []
deriving DecidableEq

/-- The blocking call the coordinator stands at, or how it ended. The boot
of the fresh worker is `none` where it was not read, and the variable holds
nothing. -/
inductive Phase where
  | accept
  | hello (ch : ℕ)
  | join (ch : ℕ) (boot : UInt64) (name : Bytes)
  | barrier (i : ℕ)
  | contribution (r : Round)
  | complete (r : Round) (outputs : List (List UInt8)) (i : ℕ)
  | acceptFresh
  | helloFresh (ch : ℕ)
  | joinFresh (ch : ℕ) (boot : Option UInt64) (name : Bytes)
  | returned (code : ℕ)
  | threw (e : Error)
  | undefined
deriving DecidableEq

/-- What is decided outside at a turn: whether `accept_client` gives a
connection, how many bytes `recv_some` gives, the readings of the clocks,
and the error the file system makes `Store::save` throw. -/
structure Surroundings where
  accepts : Bool := true
  received : ℕ
  clocks : ℕ → Ambient
  disk : Option Error := none

namespace Coordinator

/-- `topo.generation()`. -/
def topoGeneration : TopologyGeneration := ⟨1⟩

/-- `topo`, created at `wallNs`. -/
def topo (wallNs : UInt64) : Topology where
  generation := topoGeneration
  provenance := .of .synthetic
  createdUtcNs := wallNs
  nextId := 4
  nodes := [⟨⟨1⟩, .ofList "localhost".toUTF8.toList, [⟨2⟩, ⟨3⟩]⟩]
  devices :=
    [⟨⟨2⟩, ⟨1⟩, .ofList "dev0".toUTF8.toList, false, 0, true⟩,
      ⟨⟨3⟩, ⟨1⟩, .ofList "dev1".toUTF8.toList, false, 0, true⟩]
  links :=
    [{ sourceNode := ⟨1⟩, destNode := ⟨1⟩, sourceDevice := ⟨2⟩, destDevice := ⟨3⟩
       linkClass := .of .sharedMemory, provenance := .of .synthetic
       snapshotGeneration := topoGeneration }]

def backend : CollectiveBackend where
  capabilities := referenceBackendCapabilities ⟨1⟩ ⟨1⟩
  id := ⟨1⟩
  name := (referenceBackendCapabilities ⟨1⟩ ⟨1⟩).name
  isReference := true

/-- The runtime when the coordinator begins to accept. -/
def startRuntime (wallNs : UInt64) : Runtime :=
  ((({} : Runtime).registerBackend (some backend)).2.advanceEpoch).adoptTopology (topo wallNs)

end Coordinator

structure Coordinator where
  statefile : String
  runtime : Runtime
  connections : List FrameChannel := []
  workers : List WorkerState := []
  phase : Phase := .accept
  saved : List (String × PersistentState) := []
  log : List Line := []
  executed : List Round := []

/-- The coordinator when it begins to accept. -/
def Coordinator.start (statefile : String) (wallNs : UInt64) : Coordinator where
  statefile := statefile
  runtime := startRuntime wallNs

/-! ## Forming a group -/

/-- The group id of the scenario. -/
def groupId : CollectiveGroupId := ⟨1⟩

/-- The builder of `form_group`, over the workers in their order: a
worker's rank is its place. -/
def formBuilder (env : Ambient) (ordered : List WorkerState) (groupGen : UInt64)
    (topoGen : TopologyGeneration) : GroupBuilder :=
  let gb : GroupBuilder :=
    { id := groupId
      generation := ⟨groupGen⟩
      membership := ⟨groupGen⟩
      topology := topoGen
      backend := ⟨1⟩
      lifecycle := .of .ready
      provenance := makeSource env "multiprocess group" .derived }
  ordered.zipIdx.foldl (fun gb (w, i) =>
    gb.addParticipant ⟨w.boot⟩ ⟨w.boot⟩ ⟨w.boot⟩ ⟨1⟩ ⟨1 + UInt64.ofNat i⟩ ⟨1⟩
      ⟨UInt64.ofNat i⟩) gb

/-- `form_group`: the workers in places 0 and 1, by boot. -/
def formGroup (rt : Runtime) (env : Ambient) (w₀ w₁ : WorkerState) (groupGen : UInt64)
    (topoGen : TopologyGeneration) : Runtime.Result CollectiveGroup :=
  -- two pointers, sorted: they change places only where the second boot is below the first
  let ordered := if w₁.boot < w₀.boot then [w₁, w₀] else [w₀, w₁]
  match (formBuilder env ordered groupGen topoGen).build.1 with
  | .error err => (.error err, rt)
  | .ok g => rt.registerGroup g

/-- `rank_of`. -/
def rankOfBoot (g : CollectiveGroup) (boot : UInt64) : RankId :=
  ((g.participants.toList.find? (·.boot.raw = boot)).map (·.rank)).getD {}

namespace Coordinator

/-! ## Logging, sending and saving -/

/-- `logline`. -/
def say (s : Coordinator) (line : Line) : Coordinator := { s with log := s.log ++ [line] }

def goto (s : Coordinator) (phase : Phase) : Coordinator := { s with phase := phase }

/-- `logline(line); return 1;`. -/
def quit (s : Coordinator) (line : String) : Coordinator := (s.say (.text line)).goto (.returned 1)

/-- `workers.push_back`. -/
def join (s : Coordinator) (w : WorkerState) : Coordinator :=
  { s with workers := s.workers ++ [w] }

def setChannel (s : Coordinator) (ch : ℕ) (c : FrameChannel) : Coordinator :=
  { s with connections := s.connections.set ch c }

def send (s : Coordinator) (ch : ℕ) (f : Frame) : Coordinator :=
  { s with connections := s.connections.modify ch (·.send f) }

/-- A frame for each worker. -/
def sendEach (s : Coordinator) (f : WorkerState → Frame) : Coordinator :=
  s.workers.foldl (fun s w => s.send w.ch (f w)) s

/-- `Store::save` of `build_state()`, and what follows it. -/
def save (s : Coordinator) (env : Surroundings) (path : String)
    (k : Coordinator → Coordinator) : Coordinator :=
  match env.disk with
  | some err => s.goto (.threw err)
  | none => k { s with saved := s.saved ++ [(path, buildState s.runtime (env.clocks 1).wallNs)] }

/-- One turn of `recv` on a channel, and what follows it. -/
def recv (s : Coordinator) (env : Surroundings) (ch : ℕ)
    (onFrame : Frame → Coordinator → Coordinator)
    (onLoss : String → Coordinator → Coordinator) : Coordinator :=
  match s.connections[ch]? with
  | none => s.goto .undefined
  | some c =>
    match c.recv env.received with
    | (.frame f, c) => onFrame f (s.setChannel ch c)
    | (.failed reason, c) => onLoss reason (s.setChannel ch c)
    | (.pending, c) => s.setChannel ch c

/-- The `GROUP_ACCEPT` of every worker. -/
def announce (s : Coordinator) (g : CollectiveGroup) (gen : UInt64)
    (line : UInt64 → RankId → Line) : Coordinator :=
  s.workers.foldl (fun s w =>
    let rank := rankOfBoot g w.boot
    let accept : Frame :=
      { kind := .of .groupAccept
        payload := encRankAccept rank.raw g.rankCount groupId.raw gen }
    (s.send w.ch accept).say (line w.boot rank)) s

/-! ## A round -/

/-- `run_allreduce`, up to its first read. -/
def beginAllreduce (s : Coordinator) (site : Site) : Coordinator :=
  let req : Frame := { kind := .of .requestCollective, payload := encDesc site.request }
  (s.sendEach fun _ => req).goto (.contribution ⟨site, site.request, []⟩)

/-- A worker `run_coordinator` erases after a loss. -/
def dead (s : Coordinator) (w : WorkerState) : Bool :=
  match s.connections[w.ch]? with
  | none => true
  | some c => !c.valid

/-- The erasing of dead workers. -/
def prune (s : Coordinator) : Coordinator :=
  let s' := (s.workers.filter s.dead).foldl (fun s w => s.say (.droppingDeadWorker w.boot)) s
  { s' with workers := s.workers.filter (!s.dead ·) }

/-- What follows a call of `run_allreduce`. Nothing reads its result. -/
def afterAllreduce (s : Coordinator) (env : Surroundings) : Site → Coordinator
  | .first =>
    (s.say (.text "PHASE_ALLREDUCE_DONE gen=1")).save env s.statefile fun s =>
      let s := s.say (.text ("PHASE_SAVED path=" ++ s.statefile))
      (s.say (.text "PHASE_BEGIN_LIVE_COLLECTIVE")).beginAllreduce .loss
  | .loss =>
    -- logged, and the epoch advanced, also where the round ended without a loss
    let s := s.say (.text "PHASE_LOSS_DETECTED")
    let s := { s with runtime := s.runtime.advanceEpoch }.prune
    (s.say (.text "PHASE_RECONFIGURE epoch=2")).goto .acceptFresh
  | .second =>
    (s.say (.text "PHASE_ALLREDUCE_DONE gen=2")).save env s.statefile fun s =>
      ((s.say (.text "PHASE_SAVED_FINAL")).say (.text "PHASE_DONE")).goto (.returned 0)

/-- The claim the coordinator writes into a worker's result. -/
def resultAuth (gen boot : UInt64) : AuthClaim := ⟨2, boot, gen, 1, 1, 1⟩

/-- The measurement a finished round records. -/
def measurement (env : Surroundings) (gen : UInt64) : CollectiveMeasurement where
  id := ⟨1000 + gen⟩
  collective := ⟨1⟩
  collectiveGeneration := ⟨gen⟩
  groupGeneration := ⟨gen⟩
  algorithm := .of .ring
  backend := ⟨1⟩
  rankCount := 2
  payloadBytes := 4 * 4
  wallTimeUs := 1
  success := true
  topologyGeneration := topoGeneration
  provenance := .of .measured
  freshness := .of .current
  timestampUtcNs := (env.clocks 0).wallNs
  measurementGeneration := ⟨gen⟩
  source := makeSource (env.clocks 0) "host-staged tcp" .measured

/-- The end of a round all workers completed. -/
def finishAllreduce (s : Coordinator) (env : Surroundings) (r : Round) (output : List UInt8) :
    Coordinator :=
  let sum := UInt32.ofNat (ReferenceEngine.loadLe (output.take 4))
  let s := s.say (.allreduceDone r.site.label sum)
  let s := { s with runtime := s.runtime.ingestMeasurement (measurement env r.site.gen) }
  s.afterAllreduce env r.site

/-- The wait for the `COMPLETE` of the worker in place `i`. -/
def awaitComplete (s : Coordinator) (env : Surroundings) (r : Round)
    (outputs : List (List UInt8)) (i : ℕ) : Coordinator :=
  if i < s.workers.length then s.goto (.complete r outputs i)
  else
    match outputs[0]? with
    | none => s.goto .undefined
    | some output => s.finishAllreduce env r output

/-- The engine and the results, once both contributions are read. -/
def execute (s : Coordinator) (env : Surroundings) (r : Round) : Coordinator :=
  let s := { s with executed := s.executed ++ [r] }
  match ReferenceEngine.execute (.of .allReduce) (.of .sum) (.of .float32) 4 0 2
    (r.contributions.map (·.bytes.toList)) with
  | .throws err => s.goto (.threw err)
  | .undefined => s.goto .undefined
  | .returns outputs =>
    match outputs[0]? with
    | none => s.goto .undefined
    | some output =>
      let s := s.sendEach fun w =>
        { kind := .of .result
          payload := encBlob (resultAuth r.site.gen w.boot) (.ofList output) }
      s.awaitComplete env r outputs 0

/-- A frame read where the round's next contribution was expected, from
the worker in the next place. -/
def onContribution (env : Surroundings) (r : Round) (w : WorkerState) (f : Frame)
    (s : Coordinator) : Coordinator :=
  let abandon (line : String) :=
    (s.say (.text (r.site.label ++ line))).afterAllreduce env r.site
  if f.kind ≠ .of .contribution then abandon " expected CONTRIBUTION"
  else
    match decAuth f.payload with
    | none => abandon " contribution auth decode failed"
    | some auth =>
      match Fields.blob.decode f.payload with
      | none => abandon " contribution blob decode failed"
      | some (_, bytes) =>
        -- the claim is kept beside the bytes, and compared with nothing
        let i := r.contributions.length
        let r' := { r with contributions := r.contributions ++ [⟨w.boot, auth, bytes⟩] }
        let s := s.say (.contribution r.site.label i bytes.toList.length)
        if i + 1 < 2 then s.goto (.contribution r') else s.execute env r'

/-- A read of a contribution that failed. -/
def onContributionLoss (env : Surroundings) (r : Round) (w : WorkerState) (reason : String)
    (s : Coordinator) : Coordinator :=
  (s.say (.lossDetected r.site.label w.boot reason)).afterAllreduce env r.site

/-- A frame, of any kind, read where a `COMPLETE` was expected. -/
def onComplete (env : Surroundings) (r : Round) (outputs : List (List UInt8)) (i : ℕ)
    (s : Coordinator) : Coordinator :=
  s.awaitComplete env r outputs (i + 1)

/-- A read of a `COMPLETE` that failed. -/
def onCompleteLoss (env : Surroundings) (r : Round) (w : WorkerState) (reason : String)
    (s : Coordinator) : Coordinator :=
  (s.say (.completeLost r.site.label w.boot reason)).afterAllreduce env r.site

/-! ## Accepting the workers -/

def onHello (ch : ℕ) (f : Frame) (s : Coordinator) : Coordinator :=
  if f.kind ≠ .of .hello then s.quit "COORD expected HELLO"
  else
    match Fields.bootName.decode f.payload with
    | none => s.quit "COORD HELLO decode failed"
    | some (boot, name) => s.goto (.join ch boot name)

/-- The wait for the `BARRIER` of the worker in place `i`. -/
def awaitBarrier (s : Coordinator) (i : ℕ) : Coordinator :=
  if i < s.workers.length then s.goto (.barrier i)
  else
    let s := s.sendEach fun _ => { kind := .of .complete, payload := encSimple 1 1 }
    (s.say (.text "PHASE_BARRIER_DONE")).beginAllreduce .first

/-- The first group, once two workers have joined. -/
def groupReady (s : Coordinator) (env : Surroundings) : Coordinator :=
  match s.workers[0]?, s.workers[1]? with
  | some w₀, some w₁ =>
    match formGroup s.runtime (env.clocks 0) w₀ w₁ 1 topoGeneration with
    | (.error err, rt) => { s with runtime := rt }.goto (.threw err)
    | (.ok _, rt) =>
      match rt.findGroup groupId ⟨1⟩ with
      | none => s.goto .undefined
      | some g =>
        let s := { s with runtime := rt }.announce g 1 .groupAccept
        (s.say (.text "PHASE_GROUP_READY gen=1 ranks=2")).awaitBarrier 0
  | _, _ => s.goto .undefined

def onJoin (env : Surroundings) (ch : ℕ) (boot : UInt64) (name : Bytes) (f : Frame)
    (s : Coordinator) : Coordinator :=
  if f.kind ≠ .of .joinGroup then s.quit "COORD expected JOIN_GROUP"
  else
    let s := (s.join ⟨ch, boot, name⟩).say (.acceptedWorker name boot)
    if s.workers.length < 2 then s.goto .accept else s.groupReady env

def onBarrier (i : ℕ) (f : Frame) (s : Coordinator) : Coordinator :=
  if f.kind ≠ .of .barrier then s.quit "COORD expected BARRIER"
  else
    match decAuth f.payload with
    | none => s.quit "COORD barrier auth decode failed"
    | some c =>
      if c.groupGen ≠ 1 ∨ c.epoch ≠ 1 then s.quit "COORD barrier stale auth rejected"
      else s.awaitBarrier (i + 1)

/-! ## Accepting the fresh worker -/

/-- The claims the stale replay checks, in its order. -/
def staleClaims (live : WorkerBootId) : List AuthorityClaim :=
  let c : AuthorityClaim := ⟨live, ⟨2⟩, ⟨2⟩, ⟨1⟩, ⟨2⟩, ⟨2⟩, false⟩
  [{ c with epoch := ⟨1⟩ }, { c with boot := ⟨999⟩ }, { c with groupGeneration := ⟨1⟩ },
    { c with collectiveGeneration := ⟨0⟩ }, { c with attemptGeneration := ⟨1⟩ },
    { c with dispatchGeneration := ⟨1⟩ }, { c with isCompletion := true }, c]

/-- The stale replay. -/
def staleReplay (s : Coordinator) (live : WorkerBootId) : Coordinator :=
  let truth : AuthorityGroundTruth := ⟨⟨2⟩, live, ⟨2⟩, ⟨1⟩, ⟨2⟩, ⟨2⟩⟩
  let decisions := (staleClaims live).map (evaluateAuthority truth)
  let rejects (d : AuthorityDecision) : Bool := d.verdict = .stale ∨ d.verdict = .duplicate
  let s := decisions.foldl (fun s d => s.say (.stale d.verdict (rejects d) d.reason)) s
  s.say (.staleReplay (decisions.filter rejects).length (decisions.filter (!rejects ·)).length)

/-- What follows the registration of the second group, up to the save: the
`GROUP_ACCEPT`s, the new authority and the stale replay. -/
def regrouped (s : Coordinator) (g : CollectiveGroup) (live : WorkerBootId) : Coordinator :=
  let s := s.announce g 2 .regenGroupAccept
  let rt := s.runtime.setLiveBoot live
  let authority := { rt.authority with
    groupGeneration := ⟨2⟩
    collectiveGeneration := ⟨1⟩
    attemptGeneration := ⟨2⟩
    dispatchGeneration := ⟨2⟩ }
  let s := { s with runtime := { rt with authority := authority } }
  (s.say (.text "PHASE_REGROUP gen=2")).staleReplay live

/-- The second group, and the round on it. -/
def regroup (s : Coordinator) (env : Surroundings) : Coordinator :=
  match s.workers[0]?, s.workers[1]? with
  | some w₀, some w₁ =>
    match formGroup s.runtime (env.clocks 0) w₀ w₁ 2 topoGeneration with
    | (.error err, rt) => { s with runtime := rt }.goto (.threw err)
    | (.ok _, rt) =>
      -- the pointer found is dereferenced unchecked
      match rt.findGroup groupId ⟨2⟩ with
      | none => s.goto .undefined
      | some g =>
        ({ s with runtime := rt }.regrouped g ⟨w₀.boot⟩).save env (s.statefile ++ ".before2")
          fun s => s.beginAllreduce .second
  | _, _ => s.goto .undefined

/-- What is read of the fresh worker's `HELLO`: neither read is checked. -/
def onHelloFresh (ch : ℕ) (f : Frame) (s : Coordinator) : Coordinator :=
  if f.kind ≠ .of .hello then s.quit "COORD expected HELLO from A'"
  else
    let (boot, r) := (CanonicalReader.ofData f.payload.toList).u64
    let name := r.string.1
    s.goto (.joinFresh ch boot (name.getD ∅))

/-- The fresh worker joins, whatever the last read gave. A `boot` that was
not read is used here for the first time. -/
def onJoinFresh (env : Surroundings) (ch : ℕ) (boot : Option UInt64) (name : Bytes)
    (s : Coordinator) : Coordinator :=
  match boot with
  | none => s.goto .undefined
  | some boot => ((s.join ⟨ch, boot, name⟩).say (.newWorker boot)).regroup env

/-! ## Steps -/

/-- A client is accepted, and `phase` waits for its first frame. -/
def onAccept (env : Surroundings) (failure : String) (phase : ℕ → Phase) (s : Coordinator) :
    Coordinator :=
  if env.accepts then
    { s with connections := s.connections ++ [({} : FrameChannel)] }.goto
      (phase s.connections.length)
  else s.quit failure

/-- One turn of the coordinator. -/
def turn (s : Coordinator) (env : Surroundings) : Coordinator :=
  match s.phase with
  | .accept => s.onAccept env "COORD accept failed" .hello
  | .hello ch =>
    s.recv env ch (onHello ch) fun reason s => s.quit ("COORD HELLO read failed " ++ reason)
  | .join ch boot name =>
    s.recv env ch (onJoin env ch boot name) fun reason s =>
      s.quit ("COORD JOIN read failed " ++ reason)
  | .barrier i =>
    match s.workers[i]? with
    | none => s.goto .undefined
    | some w =>
      s.recv env w.ch (onBarrier i) fun reason s => s.quit ("COORD barrier read failed " ++ reason)
  | .contribution r =>
    match s.workers[r.contributions.length]? with
    | none => s.goto .undefined
    | some w => s.recv env w.ch (onContribution env r w) (onContributionLoss env r w)
  | .complete r outputs i =>
    match s.workers[i]? with
    | none => s.goto .undefined
    | some w =>
      s.recv env w.ch (fun _ => onComplete env r outputs i) (onCompleteLoss env r w)
  | .acceptFresh => s.onAccept env "COORD accept A' failed" .helloFresh
  | .helloFresh ch =>
    -- a failed read leaves the default frame, which is no `HELLO`
    s.recv env ch (onHelloFresh ch) fun _ => onHelloFresh ch {}
  | .joinFresh ch boot name =>
    s.recv env ch (fun _ => onJoinFresh env ch boot name) fun _ => onJoinFresh env ch boot name
  | .returned _ | .threw _ | .undefined => s

/-- What happens next: a peer sends or is gone, or the coordinator takes a
turn. -/
inductive Event where
  | arrive (ch : ℕ) (bs : List UInt8)
  | hangUp (ch : ℕ) (reset : Bool)
  | turn (env : Surroundings)

def step (s : Coordinator) : Event → Coordinator
  | .arrive ch bs =>
    { s with connections := s.connections.modify ch fun c => { c with conn := c.conn.arrive bs } }
  | .hangUp ch reset =>
    { s with
      connections := s.connections.modify ch fun c => { c with conn := c.conn.hangUp reset } }
  | .turn env => s.turn env

end Coordinator

end CollectiveFabric
