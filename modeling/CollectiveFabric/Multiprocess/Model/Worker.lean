import CollectiveFabric.Engine.Model.ReferenceEngine
import CollectiveFabric.Multiprocess.Model.Channel
import CollectiveFabric.Multiprocess.Model.Messages
import Mathlib.Data.List.Infix

/-!
# A worker

`run_worker`, from the moment it is connected. Its phase is the blocking
call it stands at, and a turn is one turn of that call with everything up
to the next. The worker also remembers, for what is said about it and for
no step, the frames it sent.
-/

namespace CollectiveFabric

namespace Fields

/-- The reads of a `GROUP_ACCEPT`. -/
def rankAccept : Fields (UInt64 × UInt64 × UInt64 × UInt64) := do
  let rank ← field CanonicalReader.u64
  let rankCount ← field CanonicalReader.u64
  let groupId ← field CanonicalReader.u64
  let groupGen ← field CanonicalReader.u64
  return (rank, rankCount, groupId, groupGen)

end Fields

namespace Worker

/-- What `run_worker` prints. -/
inductive Line where
  | acceptFailed (reason : String)
  | acceptDecodeFailed
  | accepted (boot rank rankCount groupGen : UInt64)
  | barrierDone
  | coordinatorClosed
  | recvFailed (reason : String)
  | descDecodeFailed
  | stall (boot : UInt64) (index : ℕ)
  | contributed (rank : UInt64) (bytes : ℕ)
  | resultRecvFailed (reason : String)
  | expectedResult
  | resultDecodeFailed
  | result (first : UInt32)
  | completeAck
  | error
deriving DecidableEq

/-- What `main` passes on from the command line. -/
structure Args where
  boot : UInt64
  name : Bytes := ∅
  stallAfter : UInt64 := 999
deriving DecidableEq

/-- The blocking call the worker stands at, or how it ended. `index` is
`collective_index`. -/
inductive Phase where
  | accept
  | barrier (rank : UInt64)
  | serve (rank : UInt64) (index : ℕ)
  | result (rank : UInt64) (index : ℕ)
  | stalled
  | returned (code : ℕ)
  | killed
  | undefined
deriving DecidableEq

/-- What is decided outside at a turn: how many bytes `recv_some` gives,
and whether a sleeping worker wakes. -/
structure Surroundings where
  received : ℕ
  wakes : Bool := false

end Worker

structure Worker where
  args : Worker.Args
  channel : FrameChannel := {}
  phase : Worker.Phase := .accept
  log : List Worker.Line := []
  sent : List Frame := []
deriving DecidableEq

namespace Worker

/-! ## Printing and sending -/

def say (w : Worker) (line : Line) : Worker := { w with log := w.log ++ [line] }

def goto (w : Worker) (phase : Phase) : Worker := { w with phase := phase }

/-- `printf(line); return 1;`. -/
def quit (w : Worker) (line : Line) : Worker := (w.say line).goto (.returned 1)

def send (w : Worker) (f : Frame) : Worker :=
  { w with channel := w.channel.send f, sent := w.sent ++ [f] }

/-- The worker that has connected, sent its first two frames and waits for
the answer. -/
def start (args : Args) : Worker :=
  (({ args } : Worker).send (hello args.boot args.name)).send (joinGroup args.boot)

/-! ## What a frame makes it do -/

/-- The first frame, of any kind: it is read as a `GROUP_ACCEPT`. -/
def onAccept (f : Frame) (w : Worker) : Worker :=
  match Fields.rankAccept.decode f.payload with
  | none => w.quit .acceptDecodeFailed
  | some (rank, rankCount, _, groupGen) =>
    ((w.say (.accepted w.args.boot rank rankCount groupGen)).send
      (barrier w.args.boot groupGen)).goto (.barrier rank)

/-- The second frame. One of another kind is dropped. -/
def onBarrier (rank : UInt64) (f : Frame) (w : Worker) : Worker :=
  (if f.kind = .of .complete then w.say .barrierDone else w).goto (.serve rank 0)

def onRequest (rank : UInt64) (index : ℕ) (f : Frame) (w : Worker) : Worker :=
  match decDesc f.payload with
  | none => w.quit .descDecodeFailed
  | some d =>
    if w.args.stallAfter ≤ UInt64.ofNat index then
      (w.say (.stall w.args.boot index)).goto .stalled
    -- `v0` and `v1` have four elements, and `collective_index` is an `int`
    else if 4 < d.elementCount ∨ index = 2 ^ 31 - 1 then w.goto .undefined
    else
      ((w.send (contribution w.args.boot rank d)).say
        (.contributed rank (4 * d.elementCount.toNat))).goto (.result rank (index + 1))

/-- A frame at the head of the loop. -/
def onServe (rank : UInt64) (index : ℕ) (f : Frame) (w : Worker) : Worker :=
  if f.kind = .of .requestCollective then w.onRequest rank index f
  else if f.kind = .of .complete then w.say .completeAck
  else if f.kind = .of .errorMsg then w.quit .error
  else w

def onResult (rank : UInt64) (index : ℕ) (f : Frame) (w : Worker) : Worker :=
  if f.kind ≠ .of .result then w.quit .expectedResult
  else
    match Fields.blob.decode f.payload with
    | none => w.quit .resultDecodeFailed
    | some _ =>
      -- `rv[0]` is read where the blob begins, however long the blob is
      let first := (f.payload.toList.drop 56).take 4
      if first.length < 4 then w.goto .undefined
      else
        ((w.say (.result (UInt32.ofNat (ReferenceEngine.loadLe first)))).send
          complete).goto (.serve rank index)

/-- A frame, where the worker awaits one. -/
def onFrame (f : Frame) (w : Worker) : Worker :=
  match w.phase with
  | .accept => w.onAccept f
  | .barrier rank => w.onBarrier rank f
  | .serve rank index => w.onServe rank index f
  | .result rank index => w.onResult rank index f
  | .stalled | .returned _ | .killed | .undefined => w

/-! ## Reads that fail -/

/-- The loop ends well if the reason says that the connection closed. -/
def onServeLoss (reason : String) (w : Worker) : Worker :=
  if reason = "connection closed" ∨ "closed".toList <:+: reason.toList then
    (w.say .coordinatorClosed).goto (.returned 0)
  else w.quit (.recvFailed reason)

/-- A read that failed, where the worker awaits a frame. The barrier does
not ask. -/
def onLoss (reason : String) (w : Worker) : Worker :=
  match w.phase with
  | .accept => w.quit (.acceptFailed reason)
  | .barrier rank => w.goto (.serve rank 0)
  | .serve _ _ => w.onServeLoss reason
  | .result _ _ => w.quit (.resultRecvFailed reason)
  | .stalled | .returned _ | .killed | .undefined => w

/-! ## Turns -/

/-- One turn of `recv`, and what follows it. -/
def recv (w : Worker) (env : Surroundings) : Worker :=
  match w.channel.recv env.received with
  | (.frame f, c) => { w with channel := c }.onFrame f
  | (.failed reason, c) => { w with channel := c }.onLoss reason
  | (.pending, c) => { w with channel := c }

/-- One turn of the worker. -/
def turn (w : Worker) (env : Surroundings) : Worker :=
  match w.phase with
  | .accept | .barrier _ | .serve _ _ | .result _ _ => w.recv env
  | .stalled => if env.wakes then w.goto (.returned 0) else w
  | .returned _ | .killed | .undefined => w

end Worker

end CollectiveFabric
