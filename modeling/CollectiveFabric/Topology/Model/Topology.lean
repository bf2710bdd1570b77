import CollectiveFabric.Digest.Model.Canonical
import CollectiveFabric.Digest.Model.Sha256

/-!
# Topology snapshots

Nodes, the devices on them and the links between devices, as they are
added one by one, and what the planner, the runtime and the callers of
the lookups read of them.
-/

namespace CollectiveFabric

structure LinkCapability where
  bandwidthBytesPerSec : Option UInt64 := none
  latencyNs : Option UInt64 := none
deriving DecidableEq

/-- `is_known`. -/
def LinkCapability.isKnown (c : LinkCapability) : Bool :=
  c.bandwidthBytesPerSec.isSome || c.latencyNs.isSome

structure TopologyLink where
  sourceNode : NodeId := {}
  destNode : NodeId := {}
  sourceDevice : DeviceId := {}
  destDevice : DeviceId := {}
  linkClass : Scoped LinkClass := .of .unknown
  nominal : LinkCapability := {}
  measured : LinkCapability := {}
  provenance : Scoped ProvenanceKind := .of .unknown
  health : Scoped HealthState := .of .unknown
  snapshotGeneration : TopologyGeneration := {}
  degraded : Bool := false

/-- The link joins the two devices, in either direction. -/
def TopologyLink.joins (l : TopologyLink) (a b : DeviceId) : Bool :=
  (l.sourceDevice = a && l.destDevice = b) || (l.sourceDevice = b && l.destDevice = a)

/-- What `link_between` answers from the link. -/
def TopologyLink.capability (l : TopologyLink) : LinkCapability :=
  if l.measured.isKnown then l.measured
  else if l.nominal.isKnown then l.nominal
  else {}

structure NodeEntry where
  id : NodeId
  hostName : Bytes
  devices : List DeviceId := []

structure DeviceEntry where
  id : DeviceId
  node : NodeId
  name : Bytes
  isCuda : Bool := false
  computeCapability : UInt32 := 0
  isKnown : Bool := false

structure Topology where
  generation : TopologyGeneration
  provenance : Scoped TopologyProvenance := .of .unknown
  createdUtcNs : UInt64 := 0
  nextId : UInt64 := 1
  nodes : List NodeEntry := []
  devices : List DeviceEntry := []
  links : List TopologyLink := []

namespace Topology

/-- A topology just made, at `wallNs`. -/
def fresh (generation : TopologyGeneration) (wallNs : UInt64) : Topology :=
  { generation, createdUtcNs := wallNs }

/-- `set_provenance`. -/
def setProvenance (t : Topology) (p : Scoped TopologyProvenance) : Topology :=
  { t with provenance := p }

/-- `has_node`. -/
def hasNode (t : Topology) (n : NodeId) : Bool := t.nodes.any (·.id = n)

/-- `has_device`. -/
def hasDevice (t : Topology) (d : DeviceId) : Bool := t.devices.any (·.id = d)

/-- `add_node`: the id `next_id_++` issues, and the topology. -/
def addNode (t : Topology) (hostName : Bytes) : NodeId × Topology :=
  let id : NodeId := ⟨t.nextId⟩
  (id, { t with nextId := t.nextId + 1, nodes := t.nodes ++ [⟨id, hostName, []⟩] })

/-- `add_device`. -/
def addDevice (t : Topology) (node : NodeId) (name : Bytes) (isCuda : Bool := false)
    (cc : UInt32 := 0) : Except Error (DeviceId × Topology) :=
  if t.hasNode node then
    let id : DeviceId := ⟨t.nextId⟩
    .ok (id, { t with
      nextId := t.nextId + 1
      devices := t.devices ++ [⟨id, node, name, isCuda, cc, true⟩]
      nodes := t.nodes.map fun n =>
        if n.id = node then { n with devices := n.devices ++ [id] } else n })
  else .error ⟨.validation, "add_device: unknown node"⟩

/-- `add_link`. -/
def addLink (t : Topology) (link : TopologyLink) : Except Error Topology :=
  if !t.hasNode link.sourceNode || !t.hasNode link.destNode then
    .error ⟨.validation, "add_link: unknown node"⟩
  else if !t.hasDevice link.sourceDevice || !t.hasDevice link.destDevice then
    .error ⟨.validation, "add_link: unknown device"⟩
  else .ok { t with links := t.links ++ [{ link with snapshotGeneration := t.generation }] }

/-- `node_count`. -/
def nodeCount (t : Topology) : UInt64 := UInt64.ofNat t.nodes.length

/-- `node_of`. -/
def nodeOf (t : Topology) (d : DeviceId) : Option NodeId :=
  (t.devices.find? (·.id = d)).map (·.node)

/-- `link_between`: the first link that joins the devices answers. -/
def linkBetween (t : Topology) (a b : DeviceId) : Option LinkCapability :=
  (t.links.find? (·.joins a b)).map (·.capability)

/-- `same_node`. -/
def sameNode (t : Topology) (a b : DeviceId) : Bool :=
  match t.nodeOf a, t.nodeOf b with
  | some na, some nb => na = nb
  | _, _ => false

/-- `link_class_rank`. -/
def linkClassRank (c : Scoped LinkClass) : ℕ :=
  match c.named with
  | some .intraProcess => 0
  | some .sharedMemory => 1
  | some .hostMemory => 2
  | some .nvlinkClass => 3
  | some .rdmaClass => 4
  | some .pcie => 5
  | some .network => 6
  | some .unknown => 7
  | none => 8

/-- One turn of the loop of `locality_between`. -/
def keepLocal (a b : DeviceId) (best : Option (Scoped LinkClass)) (l : TopologyLink) :
    Option (Scoped LinkClass) :=
  if l.joins a b then
    match best with
    | none => some l.linkClass
    | some c => if linkClassRank l.linkClass < linkClassRank c then some l.linkClass else some c
  else best

/-- `locality_between`. -/
def localityBetween (t : Topology) (a b : DeviceId) : Option (Scoped LinkClass) :=
  if t.sameNode a b then some (.of .intraProcess)
  else t.links.foldl (keepLocal a b) none

/-- `intra_node_device_pairs`, in the arithmetic of `size_t`. -/
def intraNodeDevicePairs (t : Topology) : UInt64 :=
  t.nodes.foldl (fun count n =>
    let d := UInt64.ofNat n.devices.length
    count + d * (d - 1) / 2) 0

/-! ## The digest -/

/-- One turn of the loop of `digest` over the nodes. -/
def writeNode (w : CanonicalWriter) (n : NodeEntry) : CanonicalWriter :=
  (w.u64 n.id.raw).string n.hostName

/-- One turn of the loop over the devices. -/
def writeDevice (w : CanonicalWriter) (d : DeviceEntry) : CanonicalWriter :=
  (((((w.u64 d.id.raw).u64 d.node.raw).string d.name).boolean d.isCuda).u32
    d.computeCapability).boolean d.isKnown

/-- A value that may be absent, behind whether it is there. -/
def writeOptional (w : CanonicalWriter) (v : Option UInt64) : CanonicalWriter :=
  match v with
  | some v => (w.boolean true).u64 v
  | none => w.boolean false

/-- One turn of the loop over the links. -/
def writeLink (w : CanonicalWriter) (l : TopologyLink) : CanonicalWriter :=
  let w := (((w.u64 l.sourceNode.raw).u64 l.destNode.raw).u64 l.sourceDevice.raw).u64
    l.destDevice.raw
  let w := w.u8 l.linkClass.raw
  let w := writeOptional (writeOptional w l.nominal.bandwidthBytesPerSec) l.nominal.latencyNs
  let w := writeOptional (writeOptional w l.measured.bandwidthBytesPerSec) l.measured.latencyNs
  ((w.u8 l.provenance.raw).u8 l.health.raw).boolean l.degraded

/-- What `digest` writes. -/
def canonical (t : Topology) : List UInt8 :=
  let w : CanonicalWriter := {}
  let w := ((w.u64 t.generation.value).u8 t.provenance.raw).u64 t.createdUtcNs
  let w := t.nodes.foldl writeNode (w.u64 (UInt64.ofNat t.nodes.length))
  let w := t.devices.foldl writeDevice (w.u64 (UInt64.ofNat t.devices.length))
  (t.links.foldl writeLink (w.u64 (UInt64.ofNat t.links.length))).buf

/-- `digest`. -/
def digest (t : Topology) : Sha256.Digest := Sha256.digest t.canonical

end Topology

end CollectiveFabric
