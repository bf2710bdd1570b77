import CollectiveFabric.Multiprocess.Model.Recover

/-!
# The recovered coordinator

`run_recover` from the moment it listens: two workers are accepted, a
fresh group is formed of them beside the recovered ones, and one round is
run on it. The phase is the blocking call the process stands at, as in the
first coordinator; here no frame's kind is asked for, most reads are
unchecked, and whatever throws is caught and logged.
-/

namespace CollectiveFabric

open Common

namespace Recover

/-- What `run_recover` logs once it listens. -/
inductive Entry where
  | text (s : String)
  | worker (boot : UInt64)
  | allreduceDone (sum : UInt32)
  | error (message : String)
deriving DecidableEq

/-- The blocking call `run_recover` stands at, or how it ended. A boot that
was not read is `none`. -/
inductive Phase where
  | accept
  | hello (ch : ℕ)
  | join (ch : ℕ) (boot : Option UInt64)
  | barrier (i : ℕ)
  | contribution (held : List Bytes)
  | complete (output : List UInt8) (i : ℕ)
  | returned (code : ℕ)
  | undefined
deriving DecidableEq

/-- `gen`. -/
def freshGeneration : UInt64 := 3

/-- The group formed after the recovery. -/
def freshGroup : CollectiveGroupId := ⟨7⟩

/-- The builder of the fresh group, over the boots in the order of their
ranks. -/
def freshBuilder (env : Ambient) (boots : List UInt64) : GroupBuilder :=
  let gb : GroupBuilder :=
    { id := freshGroup
      generation := ⟨freshGeneration⟩
      membership := ⟨freshGeneration⟩
      topology := ⟨1⟩
      backend := ⟨1⟩
      lifecycle := .of .ready
      provenance := makeSource env "recovered fresh group" .derived }
  boots.zipIdx.foldl (fun gb (boot, r) =>
    gb.addParticipant ⟨900 + UInt64.ofNat r⟩ ⟨boot⟩ ⟨boot⟩ ⟨1⟩ ⟨1 + UInt64.ofNat r⟩ ⟨1⟩
      ⟨UInt64.ofNat r⟩) gb

/-- The descriptor of the `REQUEST_COLLECTIVE`, in the epoch recovered. -/
def request (epoch : CoordinatorEpoch) : Desc where
  kind := Enumeration.toRaw CollectiveKind.allReduce
  datatype := Enumeration.toRaw Datatype.float32
  reduction := Enumeration.toRaw ReductionOp.sum
  elementCount := 4
  root := 0
  rankCount := 2
  groupId := freshGroup.raw
  groupGen := freshGeneration
  collectiveGen := 1
  epoch := epoch.value
  attemptGen := 1
  dispatchGen := 1

/-- The bytes of a contribution. The six fields before them are read and
not looked at, and a read that fails leaves them empty. -/
def contributed (f : Frame) : Bytes :=
  let r := CanonicalReader.ofData f.payload.toList
  (r.u64.2.u64.2.u64.2.u64.2.u64.2.u64.2.bytes.1).getD ∅

/-- `run_recover` once it listens. The connections are `chs`, in the order
of their acceptance, and `boots` stands beside them. -/
structure Host where
  state : PersistentState
  runtime : Runtime
  connections : List FrameChannel := []
  boots : List UInt64 := []
  phase : Phase := .accept
  log : List Entry := []

namespace Host

/-- The process that recovered the file. -/
def start (buf : List UInt8) (envs : ℕ → Ambient) : Option Host :=
  match Store.load buf, (runRecover buf envs).2 with
  | .ok (state, _), .listening rt => some { state := state, runtime := rt }
  | _, _ => none

/-! ## Logging and sending -/

/-- `logline`. -/
def say (s : Host) (e : Entry) : Host := { s with log := s.log ++ [e] }

def goto (s : Host) (phase : Phase) : Host := { s with phase := phase }

/-- The handler of `std::exception`, and the end of the process. -/
def caught (s : Host) (err : Error) : Host := (s.say (.error err.message)).goto (.returned 0)

def send (s : Host) (ch : ℕ) (f : Frame) : Host :=
  { s with connections := s.connections.modify ch (·.send f) }

/-- The same frame on every channel. -/
def sendEach (s : Host) (f : Frame) : Host :=
  { s with connections := s.connections.map (·.send f) }

/-- One turn of `recv` on a channel, and what follows it. -/
def recv (s : Host) (env : Surroundings) (ch : ℕ) (onFrame : Frame → Host → Host)
    (onLoss : Host → Host) : Host :=
  match s.connections[ch]? with
  | none => s.goto .undefined
  | some c =>
    match c.recv env.received with
    | (.frame f, c) => onFrame f { s with connections := s.connections.set ch c }
    | (.failed _, c) => onLoss { s with connections := s.connections.set ch c }
    | (.pending, c) => { s with connections := s.connections.set ch c }

/-! ## The round -/

/-- The wait for the last frame of the worker in place `i`, which is not
looked at. -/
def awaitComplete (s : Host) (output : List UInt8) (i : ℕ) : Host :=
  if i < s.connections.length then s.goto (.complete output i)
  else
    let sum := UInt32.ofNat (ReferenceEngine.loadLe (output.take 4))
    ((s.say (.allreduceDone sum)).say (.text "RECOVERY_DONE")).goto (.returned 0)

/-- The engine and the results. -/
def execute (s : Host) (held : List Bytes) : Host :=
  match ReferenceEngine.execute (.of .allReduce) (.of .sum) (.of .float32) 4 0 2
    (held.map (·.toList)) with
  | .throws err => s.caught err
  | .undefined => s.goto .undefined
  | .returns outputs =>
    match outputs[0]? with
    | none => s.goto .undefined
    | some output =>
      (s.sendEach { kind := .of .result, payload := encBlob {} (.ofList output) }).awaitComplete
        output 0

/-- A frame, of any kind, read where a contribution was expected. -/
def onContribution (held : List Bytes) (f : Frame) (s : Host) : Host :=
  let held := held ++ [contributed f]
  if held.length < s.connections.length then s.goto (.contribution held) else s.execute held

/-- The wait for the barrier of the worker in place `i`, which is not looked
at. -/
def awaitBarrier (s : Host) (i : ℕ) : Host :=
  if i < s.connections.length then s.goto (.barrier i)
  else
    let s := s.sendEach { kind := .of .complete, payload := encSimple 1 1 }
    let req : Frame :=
      { kind := .of .requestCollective, payload := encDesc (request s.state.epoch) }
    (s.sendEach req).goto (.contribution [])

/-! ## The fresh group -/

/-- `GROUP_ACCEPT` to the worker on a channel. -/
def accepts (s : Host) (ch : ℕ) (rank : UInt64) : Host :=
  s.send ch
    { kind := .of .groupAccept, payload := encRankAccept rank 2 freshGroup.raw freshGeneration }

/-- The fresh group, once two workers have joined: ranks go by boot. -/
def form (s : Host) (env : Surroundings) : Host :=
  match s.boots[0]?, s.boots[1]? with
  | some b₀, some b₁ =>
    -- two places, sorted: they change only where the second boot is below the first
    let (ch₀, ch₁, ordered) := if b₁ < b₀ then (1, 0, [b₁, b₀]) else (0, 1, [b₀, b₁])
    match (freshBuilder (env.clocks 0) ordered).build.1 with
    | .error err => s.caught err
    | .ok g =>
      match s.runtime.registerGroup g with
      | (.error err, rt) => { s with runtime := rt }.caught err
      | (.ok _, rt) => ((({ s with runtime := rt }).accepts ch₀ 0).accepts ch₁ 1).awaitBarrier 0
  | _, _ => s.goto .undefined

/-! ## Accepting the workers -/

/-- A frame, of any kind, read where a `HELLO` was expected. -/
def onHello (ch : ℕ) (f : Frame) (s : Host) : Host :=
  s.goto (.join ch (CanonicalReader.ofData f.payload.toList).u64.1)

/-- A frame, of any kind, read where a `JOIN_GROUP` was expected. A `boot`
that was not read is used here for the first time. -/
def onJoin (env : Surroundings) (boot : Option UInt64) (s : Host) : Host :=
  match boot with
  | none => s.goto .undefined
  | some boot =>
    let s := ({ s with boots := s.boots ++ [boot] }).say (.worker boot)
    if s.boots.length < 2 then s.goto .accept else s.form env

/-- Whatever `accept_client` gives is read from: a failed accept is noticed
by the first read. -/
def onAccept (env : Surroundings) (s : Host) : Host :=
  let conn : TcpConnection := if env.accepts then {} else { valid := false, ended := true }
  { s with
    connections := s.connections ++ [{ conn := conn }]
    phase := .hello s.connections.length }

/-! ## Steps -/

/-- One turn of the recovered coordinator. -/
def turn (s : Host) (env : Surroundings) : Host :=
  match s.phase with
  | .accept => s.onAccept env
  | .hello ch =>
    s.recv env ch (onHello ch) fun s =>
      (s.say (.text "RECOVERY recv failed")).goto (.returned 1)
  | .join ch boot => s.recv env ch (fun _ => onJoin env boot) (goto · (.returned 1))
  | .barrier i => s.recv env i (fun _ s => s.awaitBarrier (i + 1)) (awaitBarrier · (i + 1))
  | .contribution held =>
    s.recv env held.length (onContribution held) fun s =>
      (s.say (.text "RECOVERY contrib recv failed")).goto (.returned 1)
  | .complete output i =>
    s.recv env i (fun _ s => s.awaitComplete output (i + 1)) (awaitComplete · output (i + 1))
  | .returned _ | .undefined => s

/-- What happens next: a peer sends or is gone, or the process takes a
turn. -/
def step (s : Host) : Coordinator.Event → Host
  | .arrive ch bs =>
    { s with connections := s.connections.modify ch fun c => { c with conn := c.conn.arrive bs } }
  | .hangUp ch reset =>
    { s with
      connections := s.connections.modify ch fun c => { c with conn := c.conn.hangUp reset } }
  | .turn env => s.turn env

end Host

end Recover

end CollectiveFabric
