import CollectiveFabric.Foundation.Model.Values

/-!
# The semantic digest

SHA-256 as `sha256.hpp` computes it: a buffer of less than a block that
is compressed each time it fills up, and the padding fed through the same
loop at the end.
-/

namespace CollectiveFabric

namespace Sha256

/-- The eight words of the state, and of a round. -/
structure Words where
  a : UInt32
  b : UInt32
  c : UInt32
  d : UInt32
  e : UInt32
  f : UInt32
  g : UInt32
  h : UInt32

/-- The table `k`. -/
def k : List UInt32 :=
  [0x428a2f98, 0x71374491, 0xb5c0fbcf, 0xe9b5dba5, 0x3956c25b, 0x59f111f1, 0x923f82a4, 0xab1c5ed5,
    0xd807aa98, 0x12835b01, 0x243185be, 0x550c7dc3, 0x72be5d74, 0x80deb1fe, 0x9bdc06a7, 0xc19bf174,
    0xe49b69c1, 0xefbe4786, 0x0fc19dc6, 0x240ca1cc, 0x2de92c6f, 0x4a7484aa, 0x5cb0a9dc, 0x76f988da,
    0x983e5152, 0xa831c66d, 0xb00327c8, 0xbf597fc7, 0xc6e00bf3, 0xd5a79147, 0x06ca6351, 0x14292967,
    0x27b70a85, 0x2e1b2138, 0x4d2c6dfc, 0x53380d13, 0x650a7354, 0x766a0abb, 0x81c2c92e, 0x92722c85,
    0xa2bfe8a1, 0xa81a664b, 0xc24b8b70, 0xc76c51a3, 0xd192e819, 0xd6990624, 0xf40e3585, 0x106aa070,
    0x19a4c116, 0x1e376c08, 0x2748774c, 0x34b0bcb5, 0x391c0cb3, 0x4ed8aa4a, 0x5b9cca4f, 0x682e6ff3,
    0x748f82ee, 0x78a5636f, 0x84c87814, 0x8cc70208, 0x90befffa, 0xa4506ceb, 0xbef9a3f7, 0xc67178f2]

def rotr (x n : UInt32) : UInt32 := (x >>> n) ||| (x <<< (32 - n))

/-- The first loop of `transform`: word `i` of a block. -/
def blockWord (block : List UInt8) (i : ℕ) : UInt32 :=
  ((block.getD (i * 4) 0).toUInt32 <<< 24) ||| ((block.getD (i * 4 + 1) 0).toUInt32 <<< 16) |||
    ((block.getD (i * 4 + 2) 0).toUInt32 <<< 8) ||| (block.getD (i * 4 + 3) 0).toUInt32

/-- One turn of the second loop of `transform`. -/
def extend (w : List UInt32) (i : ℕ) : List UInt32 :=
  let w15 := w.getD (i - 15) 0
  let w2 := w.getD (i - 2) 0
  let s0 := rotr w15 7 ^^^ rotr w15 18 ^^^ (w15 >>> 3)
  let s1 := rotr w2 17 ^^^ rotr w2 19 ^^^ (w2 >>> 10)
  w ++ [w.getD (i - 16) 0 + s0 + w.getD (i - 7) 0 + s1]

/-- The message schedule `w`. -/
def schedule (block : List UInt8) : List UInt32 :=
  (List.range' 16 48).foldl extend ((List.range 16).map (blockWord block))

/-- One turn of the third loop of `transform`, with its constant and its
word of the schedule. -/
def round (v : Words) (kw : UInt32 × UInt32) : Words :=
  let s1 := rotr v.e 6 ^^^ rotr v.e 11 ^^^ rotr v.e 25
  let ch := (v.e &&& v.f) ^^^ (~~~v.e &&& v.g)
  let temp1 := v.h + s1 + ch + kw.1 + kw.2
  let s0 := rotr v.a 2 ^^^ rotr v.a 13 ^^^ rotr v.a 22
  let maj := (v.a &&& v.b) ^^^ (v.a &&& v.c) ^^^ (v.b &&& v.c)
  let temp2 := s0 + maj
  ⟨temp1 + temp2, v.a, v.b, v.c, v.d + temp1, v.e, v.f, v.g⟩

/-- `transform`. -/
def transform (state : Words) (block : List UInt8) : Words :=
  let v := (k.zip (schedule block)).foldl round state
  ⟨state.a + v.a, state.b + v.b, state.c + v.c, state.d + v.d, state.e + v.e, state.f + v.f,
    state.g + v.g, state.h + v.h⟩

/-- The words `reset` sets. -/
def initial : Words :=
  ⟨0x6a09e667, 0xbb67ae85, 0x3c6ef372, 0xa54ff53a, 0x510e527f, 0x9b05688c, 0x1f83d9ab,
    0x5be0cd19⟩

end Sha256

open Sha256 in
/-- `Sha256`, reset. The buffer never holds a whole block. -/
structure Sha256 where
  state : Words := initial
  buffer : List UInt8 := []
  totalBytes : UInt64 := 0
  buffer_lt : buffer.length < 64 := by decide

namespace Sha256

/-- `Digest`: its bytes. -/
abbrev Digest := List UInt8

/-- One turn of the loop of `update`. -/
def push (s : Sha256) (b : UInt8) : Sha256 :=
  if h : s.buffer.length + 1 = 64 then
    { s with state := transform s.state (s.buffer ++ [b]), buffer := [], buffer_lt := by decide }
  else
    { s with
      buffer := s.buffer ++ [b]
      buffer_lt := by
        have := s.buffer_lt
        rw [List.length_append, List.length_singleton]
        omega }

def update (s : Sha256) (data : List UInt8) : Sha256 :=
  let s' := data.foldl push s
  { s' with totalBytes := s'.totalBytes + UInt64.ofNat data.length }

/-- The loop of `finish` that pads the buffer to 56 bytes; 64 turns reach
them from any length. -/
def pad : ℕ → Sha256 → Sha256
  | 0, s => s
  | n + 1, s => if s.buffer.length = 56 then s else pad n (s.update [0])

/-- The four bytes of a word in the digest. -/
def wordBytes (x : UInt32) : List UInt8 :=
  [((x >>> 24) &&& 0xff).toUInt8, ((x >>> 16) &&& 0xff).toUInt8, ((x >>> 8) &&& 0xff).toUInt8,
    (x &&& 0xff).toUInt8]

def finish (s : Sha256) : Digest :=
  let bitLen := s.totalBytes * 8
  let s := pad 64 (s.update [0x80])
  let s := ([7, 6, 5, 4, 3, 2, 1, 0] : List UInt64).foldl
    (fun s i => s.update [((bitLen >>> (i * 8)) &&& 0xff).toUInt8]) s
  [s.state.a, s.state.b, s.state.c, s.state.d, s.state.e, s.state.f, s.state.g,
    s.state.h].flatMap wordBytes

def digest (data : List UInt8) : Digest := (update {} data).finish

/-- The digest of the empty string. -/
example : digest [] =
    [0xe3, 0xb0, 0xc4, 0x42, 0x98, 0xfc, 0x1c, 0x14, 0x9a, 0xfb, 0xf4, 0xc8, 0x99, 0x6f, 0xb9, 0x24,
      0x27, 0xae, 0x41, 0xe4, 0x64, 0x9b, 0x93, 0x4c, 0xa4, 0x95, 0x99, 0x1b, 0x78, 0x52, 0xb8,
      0x55] := by
  decide +kernel

end Sha256

end CollectiveFabric
