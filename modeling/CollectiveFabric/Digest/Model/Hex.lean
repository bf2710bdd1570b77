import CollectiveFabric.Digest.Model.Sha256

/-!
# Printed digests

A digest as it is printed and read back. A string is its bytes here, as
everywhere.
-/

namespace CollectiveFabric

namespace Sha256

/-- `hex`. -/
def hexDigits : List UInt8 := "0123456789abcdef".toUTF8.toList

/-- `to_hex`. -/
def toHex (d : Digest) : List UInt8 :=
  d.flatMap fun (b : UInt8) =>
    [hexDigits.getD ((b >>> 4) &&& 0xf).toNat 0, hexDigits.getD (b &&& 0xf).toNat 0]

/-- `hex_val`, where a character that is no digit has none. -/
def hexVal (c : UInt8) : Option UInt8 :=
  if 0x30 ≤ c ∧ c ≤ 0x39 then some (c - 0x30)
  else if 0x61 ≤ c ∧ c ≤ 0x66 then some (c - 0x61 + 10)
  else if 0x41 ≤ c ∧ c ≤ 0x46 then some (c - 0x41 + 10)
  else none

/-- The loop of `from_hex`, with `n` bytes of the digest to fill. It breaks
off at the first pair that is not two digits. -/
def readHex : ℕ → List UInt8 → List UInt8
  | n + 1, hi :: lo :: rest =>
    match hexVal hi, hexVal lo with
    | some h, some l => ((h <<< 4) ||| l) :: readHex n rest
    | _, _ => []
  | _, _ => []

/-- `from_hex`. What the loop does not fill is zero. -/
def fromHex (hex : List UInt8) : Digest :=
  let read := readHex 32 (hex.take 64)
  read ++ List.replicate (32 - read.length) 0

end Sha256

end CollectiveFabric
