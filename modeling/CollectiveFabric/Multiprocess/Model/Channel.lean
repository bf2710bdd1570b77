import CollectiveFabric.Protocol.Model.Frame

/-!
# Frame channels

A blocking channel of frames over a socket, seen from the coordinator.
The peer's bytes arrive in the order it sent them and wait until
`recv_some` takes some of them; how many it takes is the network's
choice. A peer that is gone is noticed by `recv_some` alone: the handle
stays open until `close`.
-/

namespace CollectiveFabric

/-- `TcpConnection`, with what the network holds for it. -/
structure TcpConnection where
  /-- `valid()`: the handle is not `INVALID_SOCKET`. -/
  valid : Bool := true
  incoming : List UInt8 := []
  ended : Bool := false
  outgoing : List UInt8 := []
deriving DecidableEq

/-- What `recv_some` has: bytes, the end of the connection, or nothing yet. -/
inductive Arrival where
  | bytes (bs : List UInt8)
  | closed
  | nothing

namespace TcpConnection

/-- The peer sends bytes; after its end nothing more arrives. -/
def arrive (c : TcpConnection) (bs : List UInt8) : TcpConnection :=
  if c.ended then c else { c with incoming := c.incoming ++ bs }

/-- The peer's end. A reset takes what was still in flight with it. -/
def hangUp (c : TcpConnection) (reset : Bool) : TcpConnection :=
  { c with ended := true, incoming := if reset then [] else c.incoming }

/-- `send_all`. -/
def sendAll (c : TcpConnection) (data : List UInt8) : TcpConnection :=
  { c with outgoing := c.outgoing ++ data }

/-- `recv_some` into a buffer of 8192 bytes, where the network gives `n`
of those that wait. -/
def recvSome (c : TcpConnection) (n : ℕ) : Arrival × TcpConnection :=
  if c.incoming = [] then (if c.ended then .closed else .nothing, c)
  else
    let n := max 1 (min n 8192)
    (.bytes (c.incoming.take n), { c with incoming := c.incoming.drop n })

end TcpConnection

structure FrameChannel where
  conn : TcpConnection := {}
  decoder : FrameDecoder := []
deriving DecidableEq

/-- How one turn of the loop of `recv` ends. -/
inductive Received where
  | frame (f : Frame)
  | failed (reason : String)
  | pending
deriving DecidableEq

namespace FrameChannel

/-- `send`. -/
def send (ch : FrameChannel) (f : Frame) : FrameChannel :=
  { ch with conn := ch.conn.sendAll (Protocol.encode f) }

/-- One turn of the loop of `recv`. -/
def recv (ch : FrameChannel) (n : ℕ) : Received × FrameChannel :=
  match ch.decoder.next with
  | (.frame f _, decoder) => (.frame f, { ch with decoder := decoder })
  | (.reject why, decoder) => (.failed why, { ch with decoder := decoder })
  | (.needMore, decoder) =>
    match ch.conn.recvSome n with
    | (.bytes bs, conn) => (.pending, ⟨conn, decoder.feed bs⟩)
    | (.closed, conn) => (.failed "connection closed", ⟨conn, decoder⟩)
    | (.nothing, conn) => (.pending, ⟨conn, decoder⟩)

/-- `valid`. -/
def valid (ch : FrameChannel) : Bool := ch.conn.valid

end FrameChannel

end CollectiveFabric
