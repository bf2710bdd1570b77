import CollectiveFabric.Digest.Model.Crc32
import CollectiveFabric.Digest.Model.Sha256
import CollectiveFabric.Store.Model.State

/-!
# State files

A state file is a magic, a version, the length of the payload, its
checksum and the payload. What `save` writes and what `load` makes of the
bytes of a file; the file system between them is not modelled here.
-/

namespace CollectiveFabric

namespace Store

/-- `kMagic`. -/
def magic : UInt32 := 0x43464142

/-- `kHeaderBytes`. -/
def headerBytes : ℕ := 4 + 4 + 8 + 4

structure SaveResult where
  digest : Sha256.Digest
  bytes : ℕ

/-- `Store::semantic_digest`. -/
def semanticDigest (s : PersistentState) : Sha256.Digest := Sha256.digest (encode s)

/-- The frame `Store::save` puts around a payload. -/
def frame (payload : List UInt8) : List UInt8 :=
  CanonicalWriter.beBytes magic.toUInt64 4 ++ CanonicalWriter.beBytes formatVersion 4 ++
    CanonicalWriter.beBytes (UInt64.ofNat payload.length) 8 ++
    CanonicalWriter.beBytes (Crc32.compute payload).toUInt64 4 ++ payload

/-- The bytes `Store::save` writes. -/
def file (s : PersistentState) : List UInt8 := frame (encode s)

/-- What `Store::save` returns once the file is in place. -/
def saveResult (s : PersistentState) : SaveResult :=
  ⟨Sha256.digest (encode s), (file s).length⟩

/-- The payload of a file. -/
def payload (buf : List UInt8) : List UInt8 := buf.drop headerBytes

/-- `Store::load`, on the bytes of the file. -/
def load (buf : List UInt8) : Except Error (PersistentState × SaveResult) :=
  if buf.length < headerBytes then .error ⟨.decode, "store: file too small"⟩
  else if CanonicalReader.foldBe 32 0 (buf.take 4) ≠ magic.toBitVec then
    .error ⟨.decode, "store: bad magic"⟩
  else if UInt64.ofBitVec (CanonicalReader.foldBe 64 0 ((buf.drop 4).take 4)) > formatVersion then
    .error ⟨.decode, "store: unsupported version"⟩
  else if (CanonicalReader.foldBe 64 0 ((buf.drop 8).take 8)).toNat ≠ buf.length - headerBytes then
    .error ⟨.decode, "store: payload length mismatch"⟩
  else if (Crc32.compute (payload buf)).toBitVec ≠
      CanonicalReader.foldBe 32 0 ((buf.drop 16).take 4) then
    .error ⟨.decode, "store: checksum mismatch"⟩
  else
    match decode (payload buf) with
    | .error e => .error e
    | .ok s => .ok (s, ⟨Sha256.digest (payload buf), buf.length⟩)

/-- **What `load` accepts carries a payload `decode` accepts**, and the
digest it returns is the digest of that payload. -/
theorem decode_of_load {buf : List UInt8} {s : PersistentState} {res : SaveResult}
    (h : load buf = .ok (s, res)) :
    decode (payload buf) = .ok s ∧ res = ⟨Sha256.digest (payload buf), buf.length⟩ := by
  rw [load] at h
  split_ifs at h
  split at h
  · cases h
  · next s' hs =>
    cases h
    exact ⟨hs, rfl⟩

end Store

end CollectiveFabric
