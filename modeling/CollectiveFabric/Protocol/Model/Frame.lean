import CollectiveFabric.Common.Framing
import CollectiveFabric.Digest.Model.Crc32

/-!
# The frame protocol

Frames on a stream transport, big-endian: magic (4), version (2), kind
(2), length (8), checksum (4), payload. The checksum covers the first
sixteen bytes and the payload, not itself. `decode` recognises one frame
at the front of its input, and `FrameDecoder` is the buffer a connection
decodes its stream with.
-/

namespace CollectiveFabric

open Common

inductive ProtocolMessageKind
  | hello | joinGroup | groupAccept | contribution | result | barrier | complete | epoch
  | requestCollective | errorMsg
deriving DecidableEq

/-- The kinds are numbered from one. -/
instance : Enumeration ProtocolMessageKind UInt16 where
  toRaw k := UInt16.ofNat (k.ctorIdx + 1)
  ofRaw v := if v = 0 then none else
    [ProtocolMessageKind.hello, .joinGroup, .groupAccept, .contribution, .result, .barrier,
      .complete, .epoch, .requestCollective, .errorMsg][v.toNat - 1]?
  ofRaw_toRaw := by rintro ⟨⟩ <;> rfl

structure Frame where
  version : UInt16 := 1
  kind : Scoped ProtocolMessageKind := .of .errorMsg
  payload : Bytes := ∅
deriving DecidableEq

/-- `DecodeResult`, with what the call filled in. -/
abbrev DecodeResult := Framing.Decoded Frame String

namespace Protocol

/-- `COLLECTIVEFABRIC_PROTOCOL_MAGIC`. -/
def magic : UInt32 := 0x43464250

/-- `COLLECTIVEFABRIC_PROTOCOL_VERSION`. -/
def version : UInt16 := 1

/-- `COLLECTIVEFABRIC_PROTOCOL_MAX_PAYLOAD`. -/
def maxPayload : UInt64 := 64 * 1024 * 1024

/-! ## Integers -/

/-- `put_u16`. -/
def putU16 (v : List UInt8) (x : UInt16) : List UInt8 :=
  v ++ [((x >>> 8) &&& 0xff).toUInt8, (x &&& 0xff).toUInt8]

/-- `put_u32`. -/
def putU32 (v : List UInt8) (x : UInt32) : List UInt8 :=
  v ++ [((x >>> 24) &&& 0xff).toUInt8, ((x >>> 16) &&& 0xff).toUInt8,
    ((x >>> 8) &&& 0xff).toUInt8, (x &&& 0xff).toUInt8]

/-- `put_u64`: a byte for each of the places 7 down to 0. -/
def putU64 (v : List UInt8) (x : UInt64) : List UInt8 :=
  v ++ ([7, 6, 5, 4, 3, 2, 1, 0] : List UInt64).map fun i => ((x >>> (i * 8)) &&& 0xff).toUInt8

/-- `p[i]`, for a pointer into a buffer long enough. -/
def byteAt (p : List UInt8) (i : ℕ) : UInt8 := p.getD i 0

/-- `get_u16`. -/
def getU16 (p : List UInt8) : UInt16 :=
  ((byteAt p 0).toUInt16 <<< 8) ||| (byteAt p 1).toUInt16

/-- `get_u32`. -/
def getU32 (p : List UInt8) : UInt32 :=
  ((byteAt p 0).toUInt32 <<< 24) ||| ((byteAt p 1).toUInt32 <<< 16) |||
    ((byteAt p 2).toUInt32 <<< 8) ||| (byteAt p 3).toUInt32

/-- `get_u64`. -/
def getU64 (p : List UInt8) : UInt64 :=
  (List.range 8).foldl (fun v i => (v <<< 8) ||| (byteAt p i).toUInt64) 0

/-! ## Frames -/

/-- The sixteen bytes `encode` writes before the checksum. -/
def header (f : Frame) : List UInt8 :=
  putU64 (putU16 (putU16 (putU32 [] magic) f.version) f.kind.raw) f.payload.size

/-- `Protocol::encode`. -/
def encode (f : Frame) : List UInt8 :=
  let crc := (({} : Crc32).update (header f)).update f.payload.toList
  putU32 (header f) crc.value ++ f.payload.toList

/-- `Protocol::decode`. -/
def decode (bytes : List UInt8) : DecodeResult :=
  if bytes.length < 16 then .needMore
  else if getU32 bytes ≠ magic then .reject "bad magic"
  else if getU16 (bytes.drop 4) ≠ version then .reject "unsupported protocol version"
  else if getU16 (bytes.drop 6) = 0 ∨
      getU16 (bytes.drop 6) > Enumeration.toRaw ProtocolMessageKind.errorMsg then
    .reject "invalid message kind enum"
  else if getU64 (bytes.drop 8) > maxPayload then .reject "oversized payload"
  else if bytes.length < 20 then .needMore
  else if bytes.length < (20 + getU64 (bytes.drop 8)).toNat then .needMore
  else
    let payload : Bytes := ⟨(bytes.drop 20).take (getU64 (bytes.drop 8)).toNat, by
      rw [List.length_take]
      exact Nat.lt_of_le_of_lt (Nat.min_le_left _ _) (UInt64.toNat_lt _)⟩
    if ((({} : Crc32).update (bytes.take 16)).update payload.toList).value ≠
        getU32 (bytes.drop 16) then
      .reject "checksum mismatch"
    else
      .frame ⟨getU16 (bytes.drop 4), ⟨getU16 (bytes.drop 6)⟩, payload⟩
        (20 + getU64 (bytes.drop 8)).toNat

end Protocol

/-! ## The stream decoder -/

/-- `FrameDecoder`: its `buffer_`. -/
abbrev FrameDecoder := List UInt8

namespace FrameDecoder

/-- `feed`. -/
def feed (buffer : FrameDecoder) (data : List UInt8) : FrameDecoder := buffer ++ data

/-- `next`. -/
def next (buffer : FrameDecoder) : DecodeResult × FrameDecoder :=
  Framing.next Protocol.decode buffer

end FrameDecoder

end CollectiveFabric
