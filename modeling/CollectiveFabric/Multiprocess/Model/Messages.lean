import CollectiveFabric.Common.BigEndian
import CollectiveFabric.Common.Reading
import CollectiveFabric.Digest.Model.Canonical
import CollectiveFabric.Protocol.Model.Frame

/-!
# The messages between coordinator and workers

The payloads both sides write and read, and the frames a worker sends.
A payload is read by typed reads joined with `&&`: the first that fails
ends the chain, and nothing asks whether bytes are left over.
-/

namespace CollectiveFabric

open Common

structure AuthClaim where
  epoch : UInt64 := 0
  boot : UInt64 := 0
  groupGen : UInt64 := 0
  collectiveGen : UInt64 := 0
  attemptGen : UInt64 := 0
  dispatchGen : UInt64 := 0
deriving DecidableEq

structure Desc where
  kind : UInt8 := 0
  datatype : UInt8 := 0
  reduction : UInt8 := 0
  elementCount : UInt64 := 0
  root : UInt64 := 0
  rankCount : UInt64 := 0
  groupId : UInt64 := 0
  groupGen : UInt64 := 0
  collectiveGen : UInt64 := 0
  epoch : UInt64 := 0
  attemptGen : UInt64 := 0
  dispatchGen : UInt64 := 0
deriving DecidableEq

/-! ## Writing -/

/-- The six fields of a claim, as `enc_auth` and `enc_blob` write them. -/
def AuthClaim.write (w : CanonicalWriter) (a : AuthClaim) : CanonicalWriter :=
  (((((w.u64 a.epoch).u64 a.boot).u64 a.groupGen).u64 a.collectiveGen).u64 a.attemptGen).u64
    a.dispatchGen

/-- `enc_boot_name`. -/
def encBootName (boot : UInt64) (name : Bytes) : Bytes :=
  .ofList ((({} : CanonicalWriter).u64 boot).string name).buf

/-- `enc_auth`. -/
def encAuth (a : AuthClaim) : Bytes := .ofList (a.write {}).buf

/-- `enc_simple`. -/
def encSimple (a b : UInt64) : Bytes := .ofList ((({} : CanonicalWriter).u64 a).u64 b).buf

/-- `enc_rank_accept`. -/
def encRankAccept (rank rankCount groupId groupGen : UInt64) : Bytes :=
  .ofList ((((({} : CanonicalWriter).u64 rank).u64 rankCount).u64 groupId).u64 groupGen).buf

/-- `enc_blob`. -/
def encBlob (a : AuthClaim) (bytes : Bytes) : Bytes := .ofList ((a.write {}).bytes bytes).buf

/-- `enc_desc`. -/
def encDesc (d : Desc) : Bytes :=
  let w : CanonicalWriter := {}
  let w := (((w.u8 d.kind).u8 d.datatype).u8 d.reduction).u64 d.elementCount
  let w := (((w.u64 d.root).u64 d.rankCount).u64 d.groupId).u64 d.groupGen
  .ofList ((((w.u64 d.collectiveGen).u64 d.epoch).u64 d.attemptGen).u64 d.dispatchGen).buf

/-! ## Reading -/

/-- Typed reads joined with `&&`. -/
abbrev Fields := Reader CanonicalReader Unit

namespace Fields

/-- One typed read of the chain. -/
def field {α : Type} (read : CanonicalReader → Option α × CanonicalReader) : Fields α := fun r =>
  match read r with
  | (some a, r') => .ok (a, r')
  | (none, _) => .error ()

/-- What the chain reads from a payload, if none of its reads fails. -/
def decode {α : Type} (p : Fields α) (payload : Bytes) : Option α :=
  match p (.ofData payload.toList) with
  | .ok (a, _) => some a
  | .error () => none

/-- The reads of `dec_auth`. -/
def auth : Fields AuthClaim := do
  let epoch ← field CanonicalReader.u64
  let boot ← field CanonicalReader.u64
  let groupGen ← field CanonicalReader.u64
  let collectiveGen ← field CanonicalReader.u64
  let attemptGen ← field CanonicalReader.u64
  let dispatchGen ← field CanonicalReader.u64
  return ⟨epoch, boot, groupGen, collectiveGen, attemptGen, dispatchGen⟩

/-- The reads of a contribution or a result: a claim, then the bytes. -/
def blob : Fields (AuthClaim × Bytes) := do
  let a ← auth
  let bytes ← field CanonicalReader.bytes
  return (a, bytes)

/-- The reads of a `HELLO`. -/
def bootName : Fields (UInt64 × Bytes) := do
  let boot ← field CanonicalReader.u64
  let name ← field CanonicalReader.string
  return (boot, name)

/-- The reads of `dec_desc`. -/
def desc : Fields Desc := do
  let kind ← field CanonicalReader.u8
  let datatype ← field CanonicalReader.u8
  let reduction ← field CanonicalReader.u8
  let elementCount ← field CanonicalReader.u64
  let root ← field CanonicalReader.u64
  let rankCount ← field CanonicalReader.u64
  let groupId ← field CanonicalReader.u64
  let groupGen ← field CanonicalReader.u64
  let collectiveGen ← field CanonicalReader.u64
  let epoch ← field CanonicalReader.u64
  let attemptGen ← field CanonicalReader.u64
  let dispatchGen ← field CanonicalReader.u64
  return ⟨kind, datatype, reduction, elementCount, root, rankCount, groupId, groupGen,
    collectiveGen, epoch, attemptGen, dispatchGen⟩

end Fields

/-- `dec_auth`. -/
def decAuth (p : Bytes) : Option AuthClaim := Fields.auth.decode p

/-- `dec_desc`. -/
def decDesc (p : Bytes) : Option Desc := Fields.desc.decode p

/-! ## What a worker sends -/

namespace Worker

def hello (boot : UInt64) (name : Bytes) : Frame where
  kind := .of .hello
  payload := encBootName boot name

def joinGroup (boot : UInt64) : Frame where
  kind := .of .joinGroup
  payload := encAuth ⟨1, boot, 1, 0, 0, 0⟩

def barrier (boot groupGen : UInt64) : Frame where
  kind := .of .barrier
  payload := encAuth ⟨1, boot, groupGen, 0, 0, 0⟩

/-- The bits of `v0` and `v1`. -/
def values (rank : UInt64) : List UInt32 :=
  if rank = 0 then [0x3f800000, 0x40000000, 0x40400000, 0x40800000]
  else [0x41200000, 0x41a00000, 0x41f00000, 0x42200000]

/-- The answer to a request for at most four elements. The epoch a worker
claims is always 1. -/
def contribution (boot rank : UInt64) (d : Desc) : Frame where
  kind := .of .contribution
  payload :=
    let elements := (values rank).take d.elementCount.toNat
    encBlob ⟨1, boot, d.groupGen, d.collectiveGen, d.attemptGen, d.dispatchGen⟩
      (.ofList (elements.flatMap fun v => (BigEndian.digits 4 v.toNat).reverse))

def complete : Frame where
  kind := .of .complete
  payload := encSimple 1 1

end Worker

end CollectiveFabric
