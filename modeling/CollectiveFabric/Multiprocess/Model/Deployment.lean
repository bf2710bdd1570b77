import CollectiveFabric.Multiprocess.Model.Coordinator
import CollectiveFabric.Multiprocess.Model.Worker

/-!
# A deployment

A process that serves workers, the workers that connected to it, and the
bytes between them. Every process takes its turns when it likes, the bytes
of a connection arrive in order and in any pieces, a worker can be killed
at any time and either end of a connection can be lost at any time.
Workers are accepted in the order in which they connected, so that the
worker in place `k` has the server's connection `k`.
-/

namespace CollectiveFabric

/-- A process that serves workers: its connections, whether it stands at
`accept_client`, and its turn. -/
structure Host where
  State : Type
  connections : State → List FrameChannel
  setConnections : State → List FrameChannel → State
  connections_setConnections : ∀ s cs, connections (setConnections s cs) = cs
  accepting : State → Bool
  turn : State → Surroundings → State

/-- A worker and its connection: how many of the bytes it sent have arrived
at the server, and how many of the server's at the worker. -/
structure Link where
  worker : Worker
  up : ℕ := 0
  down : ℕ := 0
deriving DecidableEq

structure Deployment (H : Host) where
  state : H.State
  links : List Link := []

namespace Deployment

/-- What happens next. -/
inductive Event where
  /-- A worker is started and connects. -/
  | launch (args : Worker.Args)
  | host (env : Surroundings)
  | worker (k : ℕ) (env : Worker.Surroundings)
  /-- Some bytes a worker sent arrive. -/
  | up (k n : ℕ)
  /-- Some bytes the server sent arrive. -/
  | down (k n : ℕ)
  /-- The server's end of a connection ends. -/
  | lose (k : ℕ) (reset : Bool)
  /-- The worker's end ends. -/
  | close (k : ℕ) (reset : Bool)
  | kill (k : ℕ)

variable {H : Host}

def connection (d : Deployment H) (k : ℕ) : Option FrameChannel := (H.connections d.state)[k]?

/-- A connection and its link change. -/
def setLink (d : Deployment H) (k : ℕ) (c : FrameChannel) (l : Link) : Deployment H :=
  { state := H.setConnections d.state ((H.connections d.state).set k c)
    links := d.links.set k l }

/-- Nobody is there to be accepted. -/
def waits (d : Deployment H) (env : Surroundings) : Bool :=
  H.accepting d.state && env.accepts && d.links.length ≤ (H.connections d.state).length

def step (d : Deployment H) : Event → Deployment H
  | .launch args => { d with links := d.links ++ [{ worker := Worker.start args }] }
  | .host env => if d.waits env then d else { d with state := H.turn d.state env }
  | .worker k env =>
    { d with links := d.links.modify k fun l => { l with worker := l.worker.turn env } }
  | .up k n =>
    match d.connection k, d.links[k]? with
    | some c, some l =>
      let bs := (l.worker.channel.conn.outgoing.drop l.up).take n
      d.setLink k { c with conn := c.conn.arrive bs } { l with up := l.up + bs.length }
    | _, _ => d
  | .down k n =>
    match d.connection k, d.links[k]? with
    | some c, some l =>
      let bs := (c.conn.outgoing.drop l.down).take n
      let channel := { l.worker.channel with conn := l.worker.channel.conn.arrive bs }
      d.setLink k c { l with
        worker := { l.worker with channel := channel }
        down := l.down + bs.length }
    | _, _ => d
  | .lose k reset =>
    match d.connection k, d.links[k]? with
    | some c, some l => d.setLink k { c with conn := c.conn.hangUp reset } l
    | _, _ => d
  | .close k reset =>
    { d with links := d.links.modify k fun l =>
        let channel := { l.worker.channel with conn := l.worker.channel.conn.hangUp reset }
        { l with worker := { l.worker with channel := channel } } }
  | .kill k =>
    { d with links := d.links.modify k fun l => { l with worker := l.worker.goto .killed } }

end Deployment

/-- `run_coordinator` as a server. -/
def Coordinator.host : Host where
  State := Coordinator
  connections := Coordinator.connections
  setConnections s cs := { s with connections := cs }
  connections_setConnections _ _ := rfl
  accepting s := s.phase = .accept ∨ s.phase = .acceptFresh
  turn := Coordinator.turn

end CollectiveFabric
