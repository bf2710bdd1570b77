import CollectiveFabric.Common.BigEndian
import CollectiveFabric.Common.Blocks
import Mathlib.Data.Nat.Nth
import Mathlib.Data.Nat.Prime.Basic

/-!
# SHA-256, as FIPS 180-4 defines it

The one-shot definition over whole byte strings: the message is padded to
blocks of 512 bits, each block is expanded to a schedule of sixty-four
words, and the words are mixed into the hash value one round at a time.
The constants are the fractions of the roots of the first primes, not a
table.
-/

namespace Common

namespace Fips180

abbrev Word := BitVec 32

/-! ## Functions and constants -/

def ch (x y z : Word) : Word := (x &&& y) ^^^ (~~~x &&& z)

def maj (x y z : Word) : Word := (x &&& y) ^^^ (x &&& z) ^^^ (y &&& z)

def bigSigma0 (x : Word) : Word := x.rotateRight 2 ^^^ x.rotateRight 13 ^^^ x.rotateRight 22

def bigSigma1 (x : Word) : Word := x.rotateRight 6 ^^^ x.rotateRight 11 ^^^ x.rotateRight 25

def smallSigma0 (x : Word) : Word := x.rotateRight 7 ^^^ x.rotateRight 18 ^^^ (x >>> 3)

def smallSigma1 (x : Word) : Word := x.rotateRight 17 ^^^ x.rotateRight 19 ^^^ (x >>> 10)

/-- The first thirty-two bits of the fractional part of the `n`-th root of
`p`: the root of `p * 2 ^ (32 * n)`, rounded down, without its integer
part. -/
def fraction (n p : ℕ) : Word :=
  BitVec.ofNat 32 (Nat.findGreatest (fun r => r ^ n ≤ p * 2 ^ (32 * n)) (p * 2 ^ (32 * n)))

/-- The constant `K` of round `t`, from the cube root of the prime in place
`t`. -/
noncomputable def k (t : ℕ) : Word := fraction 3 (Nat.nth Nat.Prime t)

/-- The eight words of a hash value, or the working variables. -/
structure State where
  a : Word
  b : Word
  c : Word
  d : Word
  e : Word
  f : Word
  g : Word
  h : Word

/-- The initial hash value, from the square roots of the first eight
primes. -/
noncomputable def initial : State :=
  let h (j : ℕ) := fraction 2 (Nat.nth Nat.Prime j)
  ⟨h 0, h 1, h 2, h 3, h 4, h 5, h 6, h 7⟩

/-! ## Preprocessing -/

/-- How many zero bytes stand between the byte with the appended bit and
the length. -/
def zeros (length : ℕ) : ℕ := (119 - length % 64) % 64

/-- The message, the bit 1, zeros and the length in bits. -/
def pad (m : List UInt8) : List UInt8 :=
  m ++ (0x80 :: (List.replicate (zeros m.length) 0 ++ BigEndian.digits 8 (8 * m.length)))

/-- **The padding is the standard's**: of the zero bits after the bit 1,
seven stand in its byte, and there are as few as leave 64 bits of the last
block for the length. -/
theorem zeros_least (length : ℕ) :
    (8 * length + 1 + (7 + 8 * zeros length)) % 512 = 448 ∧
      ∀ bits, (8 * length + 1 + bits) % 512 = 448 → 7 + 8 * zeros length ≤ bits := by
  unfold zeros
  constructor
  · omega
  · intro bits h
    omega

theorem pad_length (m : List UInt8) : 64 ∣ (pad m).length := by
  simp only [pad, List.length_append, List.length_cons, List.length_replicate,
    BigEndian.digits_length, zeros]
  omega

/-! ## The computation -/

/-- Word `t` of a block. -/
def word (block : List UInt8) (t : ℕ) : Word :=
  BitVec.ofNat 32 (BigEndian.value ((block.drop (4 * t)).take 4))

/-- Word `t` of the message schedule. -/
def schedule (m : ℕ → Word) (t : ℕ) : Word :=
  if t < 16 then m t
  else
    smallSigma1 (schedule m (t - 2)) + schedule m (t - 7) + smallSigma0 (schedule m (t - 15)) +
      schedule m (t - 16)
termination_by t

/-- One round, with its constant and its word of the schedule. -/
def turn (k w : Word) (v : State) : State :=
  let t1 := v.h + bigSigma1 v.e + ch v.e v.f v.g + k + w
  let t2 := bigSigma0 v.a + maj v.a v.b v.c
  ⟨t1 + t2, v.a, v.b, v.c, v.d + t1, v.e, v.f, v.g⟩

/-- The sum of two hash values, word by word. -/
def State.add (x y : State) : State :=
  ⟨x.a + y.a, x.b + y.b, x.c + y.c, x.d + y.d, x.e + y.e, x.f + y.f, x.g + y.g, x.h + y.h⟩

/-- The hash value after one block. -/
noncomputable def compress (h : State) (block : List UInt8) : State :=
  h.add ((List.range 64).foldl (fun v t => turn (k t) (schedule (word block) t) v) h)

/-- The bytes of a hash value. -/
def State.bytes (x : State) : List UInt8 :=
  [x.a, x.b, x.c, x.d, x.e, x.f, x.g, x.h].flatMap fun w => BigEndian.digits 4 w.toNat

/-- **SHA-256** of a message. -/
noncomputable def sha256 (m : List UInt8) : List UInt8 :=
  (Blocks.fold 64 compress initial (pad m)).bytes

/-! ## The constants evaluated -/

/-- A fraction, from a root rounded down. -/
theorem fraction_eq {n p r : ℕ} (hn : n ≠ 0) (hle : r ^ n ≤ p * 2 ^ (32 * n))
    (hlt : p * 2 ^ (32 * n) < (r + 1) ^ n) : fraction n p = BitVec.ofNat 32 r := by
  rw [fraction]
  congr 1
  rw [Nat.findGreatest_eq_iff]
  refine ⟨(Nat.le_self_pow hn r).trans hle, fun _ => hle, fun s hs _ hs' => ?_⟩
  exact absurd (hlt.trans_le (Nat.pow_le_pow_left hs n)) (not_lt.2 hs')

/-- `w` is the fraction of a root with integer part at most 17. -/
def IsFraction (n p : ℕ) (w : ℕ) : Prop :=
  ∃ i < 18, (i * 2 ^ 32 + w) ^ n ≤ p * 2 ^ (32 * n) ∧
    p * 2 ^ (32 * n) < (i * 2 ^ 32 + w + 1) ^ n

instance (n p w : ℕ) : Decidable (IsFraction n p w) :=
  inferInstanceAs (Decidable (∃ i < 18, _ ∧ _))

/-- The fraction of the root of a prime, from its place among the primes. -/
theorem fraction_nth_eq {n p t w : ℕ} (hn : n ≠ 0) (hp : p.Prime) (ht : Nat.count Nat.Prime p = t)
    (h : IsFraction n p w) : fraction n (Nat.nth Nat.Prime t) = BitVec.ofNat 32 w := by
  obtain ⟨i, -, hle, hlt⟩ := h
  rw [← ht, Nat.nth_count hp, fraction_eq hn hle hlt]
  refine BitVec.eq_of_toNat_eq ?_
  rw [BitVec.toNat_ofNat, BitVec.toNat_ofNat, Nat.add_comm, Nat.add_mul_mod_self_right]

end Fips180

end Common
