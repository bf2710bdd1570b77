import Mathlib.Algebra.Order.Group.Nat
import Mathlib.Tactic.Ring

/-!
# Big-endian numerals

A natural number written in base 256, most significant byte first, in a
fixed number of bytes. `digits n v` is the numeral and `value` reads one
back. The two are inverse on numbers below `256 ^ n` and on byte strings
of length `n`, so a fixed-width field has exactly one encoding.
-/

namespace Common

namespace BigEndian

/-- The `n` low bytes of `v`, most significant first. -/
def digits : ℕ → ℕ → List UInt8
  | 0, _ => []
  | n + 1, v => UInt8.ofNat (v / 256 ^ n) :: digits n v

/-- The number a byte string spells, most significant byte first. -/
def value (bs : List UInt8) : ℕ :=
  bs.foldl (fun acc b => acc * 256 + b.toNat) 0

@[simp] theorem digits_length (n v : ℕ) : (digits n v).length = n := by
  induction n with
  | zero => rfl
  | succ n ih => simp [digits, ih]

theorem foldl_value (bs : List UInt8) (acc : ℕ) :
    bs.foldl (fun acc b => acc * 256 + b.toNat) acc = acc * 256 ^ bs.length + value bs := by
  induction bs generalizing acc with
  | nil => simp [value]
  | cons b bs ih =>
    simp only [List.foldl_cons, List.length_cons, value]
    rw [ih, ih]
    ring

@[simp] theorem value_nil : value [] = 0 := rfl

theorem value_cons (b : UInt8) (bs : List UInt8) :
    value (b :: bs) = b.toNat * 256 ^ bs.length + value bs := by
  simp only [value, List.foldl_cons]
  rw [foldl_value]
  simp [value]

/-- A byte string spells a number below the bound its length sets. -/
theorem value_lt (bs : List UInt8) : value bs < 256 ^ bs.length := by
  induction bs with
  | nil => simp
  | cons b bs ih =>
    have hb : b.toNat ≤ 255 := Nat.le_of_lt_succ b.toNat_lt
    have hmul : b.toNat * 256 ^ bs.length ≤ 255 * 256 ^ bs.length :=
      Nat.mul_le_mul_right _ hb
    rw [value_cons, List.length_cons, pow_succ]
    omega

/-- **Reading back what was written** gives the number, up to the width. -/
theorem value_digits (n v : ℕ) : value (digits n v) = v % 256 ^ n := by
  induction n with
  | zero => simp [digits, Nat.mod_one]
  | succ n ih =>
    have hbyte : (UInt8.ofNat (v / 256 ^ n)).toNat = v / 256 ^ n % 256 := by
      simp
    rw [digits, value_cons, ih, digits_length, hbyte, pow_succ, Nat.mod_mul]
    ring

theorem value_digits_of_lt {n v : ℕ} (h : v < 256 ^ n) : value (digits n v) = v := by
  rw [value_digits, Nat.mod_eq_of_lt h]

/-- Adding a multiple of the width's bound leaves the numeral as it is. -/
theorem digits_add_mul (n v k : ℕ) : digits n (v + k * 256 ^ n) = digits n v := by
  induction n generalizing k with
  | zero => rfl
  | succ n ih =>
    have hpow : v + k * 256 ^ (n + 1) = v + k * 256 * 256 ^ n := by ring
    have hdiv : (v + k * 256 ^ (n + 1)) / 256 ^ n = v / 256 ^ n + k * 256 := by
      rw [hpow, Nat.add_mul_div_right _ _ (Nat.pow_pos (by decide))]
    rw [digits, digits, hdiv, hpow, ih]
    congr 1
    apply UInt8.toNat_inj.1
    simp

/-- **Writing back what was read** gives the bytes: a byte string is the
only numeral of its length for its value. -/
theorem digits_value (bs : List UInt8) : digits bs.length (value bs) = bs := by
  induction bs with
  | nil => rfl
  | cons b bs ih =>
    have hlt := value_lt bs
    have hdiv : value (b :: bs) / 256 ^ bs.length = b.toNat := by
      rw [value_cons, Nat.add_comm, Nat.add_mul_div_right _ _ (Nat.pow_pos (by decide)),
        Nat.div_eq_of_lt hlt, Nat.zero_add]
    rw [List.length_cons, digits, hdiv]
    congr 1
    · simp
    · rw [value_cons, Nat.add_comm, digits_add_mul, ih]

end BigEndian

end Common
