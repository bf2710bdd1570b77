import CollectiveFabric.Common.Cyclic
import CollectiveFabric.Digest.Model.Crc32

/-!
# The checksum

The table-driven loop feeds the cyclic register of the reflected IEEE
polynomial a byte at a time, which is shifting in the bits of all bytes one
after another, however the bytes are split into updates. Four bytes fill
the register, so two byte strings that differ only within four consecutive
bytes never have the same checksum.
-/

namespace CollectiveFabric

namespace Crc32

open Common Cyclic

/-- The reflected polynomial. -/
def poly : BitVec 32 := 0xEDB88320#32

theorem toBitVec_tableRound (crc : UInt32) :
    (tableRound crc).toBitVec = Cyclic.round poly crc.toBitVec := by
  have hand : (crc &&& 1).toBitVec = (BitVec.ofBool (crc.toBitVec.getLsbD 0)).setWidth 32 := by
    rw [UInt32.toBitVec_and]
    exact BitVec.and_one_eq_setWidth_ofBool_getLsbD
  have hlow : crc &&& 1 ≠ 0 ↔ crc.toBitVec.getLsbD 0 = true := by
    rw [ne_eq, ← UInt32.toBitVec_inj, hand]
    cases crc.toBitVec.getLsbD 0 <;> decide
  unfold tableRound Cyclic.round
  by_cases h : crc.toBitVec.getLsbD 0 = true
  · rw [if_pos (hlow.2 h), if_pos h, UInt32.toBitVec_xor, UInt32.toBitVec_shiftRight]
    rfl
  · rw [if_neg (mt hlow.1 h), if_neg h, UInt32.toBitVec_shiftRight]
    rfl

theorem toBitVec_tableEntry (i : UInt32) : (tableEntry i).toBitVec = rounds poly 8 i.toBitVec := by
  have hrounds (n : ℕ) (crc : UInt32) :
      ((List.range n).foldl (fun crc _ => tableRound crc) crc).toBitVec =
        rounds poly n crc.toBitVec := by
    induction n with
    | zero => rfl
    | succ n ih =>
      rw [List.range_succ, List.foldl_append, List.foldl_cons, List.foldl_nil,
        toBitVec_tableRound, ih, rounds, rounds, Function.iterate_succ_apply']
  exact hrounds 8 i

/-- The table at the lowest byte of a word. -/
theorem getD_makeTable (x : UInt32) :
    makeTable.getD (x &&& 0xff).toNat 0 = tableEntry (x &&& 0xff) := by
  have hlt : (x &&& 0xff).toNat < 256 := by
    have hmask : (0xff : UInt32).toNat = 2 ^ 8 - 1 := rfl
    rw [UInt32.toNat_and, hmask, Nat.and_two_pow_sub_one_eq_mod]
    omega
  rw [makeTable, List.getD_eq_getElem?_getD, List.getElem?_map, List.getElem?_range hlt,
    Option.map_some, Option.getD_some, UInt32.ofNat_toNat]

/-- **A step of the loop feeds the register one byte.** -/
theorem toBitVec_step (crc : UInt32) (b : UInt8) :
    (step crc b).toBitVec = feed poly crc.toBitVec b.toBitVec := by
  have hmask (x : BitVec 32) : x &&& 0xff#32 = (x.setWidth 8).setWidth 32 := by
    have hand : (x &&& 0xff#32).toNat = x.toNat % 2 ^ 8 :=
      Nat.and_two_pow_sub_one_eq_mod x.toNat 8
    apply BitVec.eq_of_toNat_eq
    rw [hand, BitVec.toNat_setWidth, BitVec.toNat_setWidth]
    omega
  rw [step, getD_makeTable, UInt32.toBitVec_xor, toBitVec_tableEntry, UInt32.toBitVec_and,
    UInt32.toBitVec_xor, UInt32.toBitVec_shiftRight, feed_eq, UInt8.toBitVec_toUInt32]
  exact congrArg (fun x => rounds poly 8 x ^^^ _) (hmask _)

theorem toBitVec_update (c : Crc32) (data : List UInt8) :
    (c.update data).crc.toBitVec =
      (data.map UInt8.toBitVec).foldl (feed poly) c.crc.toBitVec := by
  rw [update, List.foldl_map]
  induction data generalizing c with
  | nil => rfl
  | cons b data ih => rw [List.foldl_cons, List.foldl_cons, ← toBitVec_step, ih ⟨step c.crc b⟩]

theorem update_append (c : Crc32) (data data' : List UInt8) :
    (c.update data).update data' = c.update (data ++ data') := by
  simp only [update, List.foldl_append]

/-! ## Bit by bit -/

/-- **The reflected CRC-32** of a byte string, bit by bit: the lowest bit
of a byte comes first, the register is full of ones at the start and
inverted at the end. -/
def bitwise (data : List UInt8) : BitVec 32 :=
  (data.flatMap fun b => bits b.toBitVec).foldl (shiftIn poly) 0xffffffff#32 ^^^ 0xffffffff#32

/-- The check value of the polynomial, of the nine digits from 1 to 9. -/
example : bitwise [0x31, 0x32, 0x33, 0x34, 0x35, 0x36, 0x37, 0x38, 0x39] = 0xCBF43926#32 := by
  decide +kernel

theorem toBitVec_compute (data : List UInt8) : (compute data).toBitVec = bitwise data := by
  have hbits : (data.flatMap fun b => bits b.toBitVec) = (data.map UInt8.toBitVec).flatMap bits :=
    (List.flatMap_map ..).symm
  rw [compute, value, UInt32.toBitVec_xor, toBitVec_update, bitwise, hbits,
    foldl_shiftIn poly (by decide) (by decide)]
  rfl

theorem foldl_update (pieces : List (List UInt8)) (c : Crc32) :
    pieces.foldl update c = c.update pieces.flatten := by
  induction pieces generalizing c with
  | nil => rfl
  | cons piece pieces ih => rw [List.foldl_cons, ih, update_append, List.flatten_cons]

/-- **The table-driven checksum is the bitwise one**, of the whole string
and for every way of splitting it into updates. -/
theorem value_updates (pieces : List (List UInt8)) :
    (pieces.foldl update {}).value.toBitVec = bitwise pieces.flatten := by
  rw [foldl_update]
  exact toBitVec_compute pieces.flatten

/-! ## Bursts -/

/-- Different states have different values. -/
theorem value_inj {c c' : Crc32} : c.value = c'.value ↔ c.crc = c'.crc := by
  rw [value, value, ← UInt32.toBitVec_inj, ← UInt32.toBitVec_inj, UInt32.toBitVec_xor,
    UInt32.toBitVec_xor]
  exact BitVec.xor_left_inj _

/-- **Bursts of four bytes are detected.** -/
theorem compute_ne {xs ys : List UInt8} (h : Burst 4 xs ys) : compute xs ≠ compute ys := by
  intro heq
  have hstate := congrArg UInt32.toBitVec (value_inj.1 heq)
  rw [toBitVec_update, toBitVec_update] at hstate
  exact foldl_feed_ne (by decide) (by decide) (h.map fun _ _ => UInt8.toBitVec_inj.1) _ hstate

end Crc32

end CollectiveFabric
