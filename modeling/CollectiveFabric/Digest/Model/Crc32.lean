import CollectiveFabric.Foundation.Model.Values

/-!
# The frame checksum

The reflected CRC-32 of `crc32.hpp`, a byte at a time from a table of 256
words.
-/

namespace CollectiveFabric

structure Crc32 where
  crc : UInt32 := 0xffffffff

namespace Crc32

/-- One round of `make_table`. -/
def tableRound (crc : UInt32) : UInt32 :=
  if crc &&& 1 ≠ 0 then (0xEDB88320 : UInt32) ^^^ (crc >>> 1) else crc >>> 1

/-- The entry of the table at `i`. -/
def tableEntry (i : UInt32) : UInt32 := (List.range 8).foldl (fun crc _ => tableRound crc) i

/-- `make_table`. -/
def makeTable : List UInt32 := (List.range 256).map fun i => tableEntry (UInt32.ofNat i)

/-- One step of the loop of `update`. -/
def step (crc : UInt32) (b : UInt8) : UInt32 :=
  makeTable.getD ((crc ^^^ b.toUInt32) &&& 0xff).toNat 0 ^^^ (crc >>> 8)

def update (c : Crc32) (data : List UInt8) : Crc32 := ⟨data.foldl step c.crc⟩

def value (c : Crc32) : UInt32 := c.crc ^^^ 0xffffffff

/-- `compute`. -/
def compute (data : List UInt8) : UInt32 := (update {} data).value

end Crc32

end CollectiveFabric
