import CollectiveFabric.Foundation.Model.Values

/-!
# The canonical binary encoding

`CanonicalWriter` appends big-endian integers and length-prefixed byte
strings to a buffer; `CanonicalReader` reads them back from a position in
its data. A reader's call returns whether it succeeded; what a failed
call had already consumed stays consumed.
-/

namespace CollectiveFabric

structure CanonicalWriter where
  buf : List UInt8 := []

namespace CanonicalWriter

/-- The loop of `push_be`: the bytes of `v` from place `n - 1` down to
place 0. -/
def beBytes (v : UInt64) : ℕ → List UInt8
  | 0 => []
  | n + 1 => ((v >>> UInt64.ofNat (n * 8)) &&& 0xff).toUInt8 :: beBytes v n

/-- `push_be`. -/
def pushBe (w : CanonicalWriter) (v : UInt64) (n : ℕ) : CanonicalWriter :=
  ⟨w.buf ++ beBytes v n⟩

def u8 (w : CanonicalWriter) (v : UInt8) : CanonicalWriter := ⟨w.buf ++ [v]⟩

def u16 (w : CanonicalWriter) (v : UInt16) : CanonicalWriter := w.pushBe v.toUInt64 2

def u32 (w : CanonicalWriter) (v : UInt32) : CanonicalWriter := w.pushBe v.toUInt64 4

def u64 (w : CanonicalWriter) (v : UInt64) : CanonicalWriter := w.pushBe v 8

def i32 (w : CanonicalWriter) (v : Int32) : CanonicalWriter := w.u32 v.toUInt32

def i64 (w : CanonicalWriter) (v : Int64) : CanonicalWriter := w.u64 v.toUInt64

def boolean (w : CanonicalWriter) (v : Bool) : CanonicalWriter := w.u8 (if v then 1 else 0)

def bytes (w : CanonicalWriter) (data : Bytes) : CanonicalWriter :=
  ⟨(w.u64 data.size).buf ++ data.toList⟩

/-- `string`: the bytes of a string. -/
def string (w : CanonicalWriter) (s : Bytes) : CanonicalWriter := w.bytes s

end CanonicalWriter

structure CanonicalReader where
  data : List UInt8
  pos : ℕ
  pos_le : pos ≤ data.length

namespace CanonicalReader

/-- A reader at the start of its data. -/
def ofData (data : List UInt8) : CanonicalReader := ⟨data, 0, Nat.zero_le _⟩

def remaining (r : CanonicalReader) : ℕ := r.data.length - r.pos

/-- `at_end`. -/
def atEnd (r : CanonicalReader) : Bool := r.pos == r.data.length

/-- The reader `n` bytes on. -/
def advance (r : CanonicalReader) (n : ℕ) (h : n ≤ r.remaining) : CanonicalReader :=
  ⟨r.data, r.pos + n, by
    have := r.pos_le
    rw [remaining] at h
    omega⟩

def u8 (r : CanonicalReader) : Option UInt8 × CanonicalReader :=
  if h : r.remaining < 1 then (none, r)
  else (r.data[r.pos]?, r.advance 1 (Nat.le_of_not_lt h))

/-- The loop of `read_be` at the width of its integer type. -/
def foldBe (width : ℕ) (v : BitVec width) (bs : List UInt8) : BitVec width :=
  bs.foldl (fun v b => (v <<< 8) ||| b.toBitVec.setWidth width) v

/-- `read_be`. -/
def readBe (width : ℕ) (r : CanonicalReader) (n : ℕ) :
    Option (BitVec width) × CanonicalReader :=
  if h : r.remaining < n then (none, r)
  else (some (foldBe width 0 ((r.data.drop r.pos).take n)), r.advance n (Nat.le_of_not_lt h))

def u16 (r : CanonicalReader) : Option UInt16 × CanonicalReader :=
  let (v, r') := r.readBe 16 2
  (v.map UInt16.ofBitVec, r')

def u32 (r : CanonicalReader) : Option UInt32 × CanonicalReader :=
  let (v, r') := r.readBe 32 4
  (v.map UInt32.ofBitVec, r')

def u64 (r : CanonicalReader) : Option UInt64 × CanonicalReader :=
  let (v, r') := r.readBe 64 8
  (v.map UInt64.ofBitVec, r')

def i32 (r : CanonicalReader) : Option Int32 × CanonicalReader :=
  match r.u32 with
  | (none, r') => (none, r')
  | (some u, r') => (some u.toInt32, r')

def i64 (r : CanonicalReader) : Option Int64 × CanonicalReader :=
  match r.u64 with
  | (none, r') => (none, r')
  | (some u, r') => (some u.toInt64, r')

def boolean (r : CanonicalReader) : Option Bool × CanonicalReader :=
  match r.u8 with
  | (none, r') => (none, r')
  | (some b, r') => (some (b != 0), r')

def bytes (r : CanonicalReader) : Option Bytes × CanonicalReader :=
  match r.u64 with
  | (none, r') => (none, r')
  | (some len, r') =>
    if h : len.toNat > r'.remaining then (none, r')
    else
      (some ⟨(r'.data.drop r'.pos).take len.toNat, by
          rw [List.length_take]
          exact Nat.lt_of_le_of_lt (Nat.min_le_left _ _) len.toNat_lt⟩,
        r'.advance len.toNat (Nat.le_of_not_lt h))

def string (r : CanonicalReader) : Option Bytes × CanonicalReader := r.bytes

end CanonicalReader

end CollectiveFabric
