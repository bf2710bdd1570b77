import CollectiveFabric.Common.Fips180
import CollectiveFabric.Digest.Canonical
import CollectiveFabric.Digest.Model.Sha256

/-!
# The semantic digest is SHA-256

The buffer of the streaming computation holds what the whole blocks of the
message leave, however the message was cut up, so feeding it the padding
absorbs the padded message of the standard; and `transform` is the
standard's computation on a block, word by word.
-/

namespace CollectiveFabric

open Common

namespace Sha256

/-! ## Words -/

/-- A rotation by fewer places than the word has. -/
theorem toBitVec_rotr (x n : UInt32) (hpos : 0 < n.toNat) (hlt : n.toNat < 32) :
    (rotr x n).toBitVec = x.toBitVec.rotateRight n.toNat := by
  have hright : (n.toBitVec % 32).toNat = n.toNat := Nat.mod_eq_of_lt hlt
  have hleft : ((32 - n).toBitVec % 32).toNat = 32 - n.toNat := by
    have hsub : (32 - n).toNat = 32 - n.toNat :=
      UInt32.toNat_sub_of_le _ _ (UInt32.le_iff_toNat_le.2 hlt.le)
    exact (congrArg (· % 32) hsub).trans (Nat.mod_eq_of_lt (Nat.sub_lt (by decide) hpos))
  rw [rotr, UInt32.toBitVec_or, UInt32.toBitVec_shiftRight, UInt32.toBitVec_shiftLeft,
    BitVec.ushiftRight_eq', BitVec.shiftLeft_eq', BitVec.rotateRight_def, Nat.mod_eq_of_lt hlt]
  exact congrArg₂ (fun i j => x.toBitVec >>> i ||| x.toBitVec <<< j) hright hleft

/-- A shift by fewer places. -/
theorem toBitVec_shiftRight (x n : UInt32) (hlt : n.toNat < 32) :
    (x >>> n).toBitVec = x.toBitVec >>> n.toNat := by
  rw [UInt32.toBitVec_shiftRight, BitVec.ushiftRight_eq']
  exact congrArg (x.toBitVec >>> ·) (Nat.mod_eq_of_lt hlt)

/-- The byte at place `j` of a word of a block. -/
theorem drop_take_eq {block : List UInt8} {i : ℕ} (h : i * 4 + 4 ≤ block.length) :
    (block.drop (4 * i)).take 4 =
      [block.getD (i * 4) 0, block.getD (i * 4 + 1) 0, block.getD (i * 4 + 2) 0,
        block.getD (i * 4 + 3) 0] := by
  refine List.ext_getElem ?_ fun j hj hj' => ?_
  · rw [List.length_take, List.length_drop]
    simp only [List.length_cons, List.length_nil]
    omega
  · simp only [List.length_cons, List.length_nil] at hj'
    have hcases : j = 0 ∨ j = 1 ∨ j = 2 ∨ j = 3 := by omega
    rcases hcases with rfl | rfl | rfl | rfl <;>
      simp only [List.getElem_take, List.getElem_drop, List.getElem_cons_zero,
        List.getElem_cons_succ, Nat.mul_comm 4 i, Nat.add_zero] <;>
      exact (List.getD_eq_getElem _ _ (by omega)).symm

/-- **The words of a block** are read most significant byte first. -/
theorem toBitVec_blockWord {block : List UInt8} {i : ℕ} (h : i * 4 + 4 ≤ block.length) :
    (blockWord block i).toBitVec = Fips180.word block i := by
  have hshift (a b c d : UInt8) :
      ((a.toUInt32 <<< 24) ||| (b.toUInt32 <<< 16) ||| (c.toUInt32 <<< 8) |||
        d.toUInt32).toBitVec = CanonicalReader.foldBe 32 0 [a, b, c, d] := by
    simp only [CanonicalReader.foldBe, List.foldl_cons, List.foldl_nil, BitVec.ofNat_eq_ofNat,
      BitVec.zero_shiftLeft, BitVec.zero_or, BitVec.shiftLeft_or_distrib, ← BitVec.shiftLeft_add]
    rfl
  rw [Fips180.word, drop_take_eq h, blockWord, hshift]
  refine BitVec.eq_of_toNat_eq ?_
  rw [foldBe_toNat (by decide), BitVec.toNat_ofNat]
  simp

/-! ## The message schedule -/

/-- A list of the schedule's first words. -/
def Holds (block : List UInt8) (w : List UInt32) : Prop :=
  w.map UInt32.toBitVec =
    (List.range w.length).map (Fips180.schedule (Fips180.word block))

theorem Holds.getD {block : List UInt8} {w : List UInt32} (h : Holds block w) {t : ℕ}
    (ht : t < w.length) :
    (w.getD t 0).toBitVec = Fips180.schedule (Fips180.word block) t := by
  have hget := congrArg (·[t]?) h
  simp only [List.getElem?_map, List.getElem?_range ht, List.getElem?_eq_getElem ht,
    Option.map_some, Option.some.injEq] at hget
  rw [List.getD_eq_getElem _ _ ht]
  exact hget

theorem schedule_of_lt {m : ℕ → Fips180.Word} {t : ℕ} (h : t < 16) :
    Fips180.schedule m t = m t := by
  rw [Fips180.schedule, if_pos h]

/-- One turn of the loop adds the next word. -/
theorem Holds.extend {block : List UInt8} {w : List UInt32} (h : Holds block w)
    (hw : 16 ≤ w.length) : Holds block (extend w w.length) := by
  have hword : (w.getD (w.length - 16) 0 + (rotr (w.getD (w.length - 15) 0) 7 ^^^
      rotr (w.getD (w.length - 15) 0) 18 ^^^ (w.getD (w.length - 15) 0 >>> 3)) +
      w.getD (w.length - 7) 0 + (rotr (w.getD (w.length - 2) 0) 17 ^^^
      rotr (w.getD (w.length - 2) 0) 19 ^^^ (w.getD (w.length - 2) 0 >>> 10))).toBitVec =
      Fips180.schedule (Fips180.word block) w.length := by
    rw [Fips180.schedule, if_neg (by omega)]
    simp only [UInt32.toBitVec_add, UInt32.toBitVec_xor]
    rw [toBitVec_rotr _ 7 (by decide) (by decide), toBitVec_rotr _ 18 (by decide) (by decide),
      toBitVec_rotr _ 17 (by decide) (by decide), toBitVec_rotr _ 19 (by decide) (by decide),
      toBitVec_shiftRight _ 3 (by decide), toBitVec_shiftRight _ 10 (by decide),
      h.getD (by omega), h.getD (by omega), h.getD (by omega), h.getD (by omega)]
    change _ + Fips180.smallSigma0 _ + _ + Fips180.smallSigma1 _ = _
    ac_rfl
  rw [Holds, Sha256.extend, List.map_append, List.length_append, List.length_singleton,
    List.range_succ, List.map_append, h]
  exact congrArg (_ ++ [·]) hword

/-- **The schedule** is the standard's. -/
theorem map_schedule {block : List UInt8} (hblock : block.length = 64) :
    (schedule block).map UInt32.toBitVec =
      (List.range 64).map (Fips180.schedule (Fips180.word block)) := by
  have hstart : Holds block ((List.range 16).map (blockWord block)) := by
    rw [Holds, List.map_map, List.length_map, List.length_range]
    refine List.map_congr_left fun t ht => ?_
    have ht := List.mem_range.1 ht
    rw [Function.comp_apply, toBitVec_blockWord (by omega), schedule_of_lt ht]
  have hturns (n : ℕ) (w : List UInt32) (hw : Holds block w) (hlength : 16 ≤ w.length) :
      Holds block ((List.range' w.length n).foldl extend w) ∧
        ((List.range' w.length n).foldl extend w).length = w.length + n := by
    induction n generalizing w with
    | zero => exact ⟨hw, rfl⟩
    | succ n ih =>
      have hnext : (extend w w.length).length = w.length + 1 := by simp [extend]
      obtain ⟨hholds, heq⟩ := ih _ (hw.extend hlength) (by omega)
      rw [hnext] at hholds heq
      rw [List.range'_succ, List.foldl_cons]
      exact ⟨hholds, by omega⟩
  obtain ⟨hholds, hlength⟩ := hturns 48 _ hstart (by simp)
  rw [List.length_map, List.length_range] at hholds hlength
  rw [Holds, hlength] at hholds
  exact hholds

/-! ## The constants -/

/-- The first sixty-four primes. -/
def primes : List ℕ :=
  [2, 3, 5, 7, 11, 13, 17, 19, 23, 29, 31, 37, 41, 43, 47, 53, 59, 61, 67, 71, 73, 79, 83, 89, 97,
    101, 103, 107, 109, 113, 127, 131, 137, 139, 149, 151, 157, 163, 167, 173, 179, 181, 191, 193,
    197, 199, 211, 223, 227, 229, 233, 239, 241, 251, 257, 263, 269, 271, 277, 281, 283, 293, 307,
    311]

/-- Below 18^2 only the divisors below 18 count. -/
theorem prime_iff {n : ℕ} (hn : n < 312) :
    n.Prime ↔ 2 ≤ n ∧ ∀ m < 18, 2 ≤ m → m * m ≤ n → ¬m ∣ n := by
  rw [Nat.prime_def_le_sqrt]
  refine and_congr_right fun _ =>
    ⟨fun h m _ hm hsq => h m hm (Nat.le_sqrt.2 hsq), fun h m hm hle => ?_⟩
  have hsq := Nat.le_sqrt.1 hle
  have hlt : m < 18 := lt_of_not_ge fun hge => absurd (Nat.mul_le_mul hge hge) (by omega)
  exact h m hlt hm hsq

theorem mem_primes {n : ℕ} : n ∈ primes ↔ n < 312 ∧ n.Prime := by
  have hlt : ∀ p ∈ primes, p < 312 := by decide +kernel
  have htrial : ∀ n < 312, n ∈ primes ↔ 2 ≤ n ∧ ∀ m < 18, 2 ≤ m → m * m ≤ n → ¬m ∣ n := by
    decide +kernel
  constructor
  · exact fun h => ⟨hlt n h, (prime_iff (hlt n h)).2 ((htrial n (hlt n h)).1 h)⟩
  · exact fun ⟨hn, hprime⟩ => (htrial n hn).2 ((prime_iff hn).1 hprime)

/-- The primes below one of them are the ones listed before it. -/
theorem count_prime {p : ℕ} (hp : p ∈ primes) :
    Nat.count Nat.Prime p = (primes.filter (· < p)).length := by
  have hnodup : (primes.filter (· < p)).Nodup := List.Nodup.filter _ (by decide +kernel)
  rw [Nat.count_eq_card_filter_range, ← List.toFinset_card_of_nodup hnodup]
  congr 1
  ext n
  have hlt := (mem_primes.1 hp).1
  simp only [Finset.mem_filter, Finset.mem_range, List.mem_toFinset, List.mem_filter, mem_primes,
    decide_eq_true_iff]
  exact ⟨fun ⟨hn, hprime⟩ => ⟨⟨hn.trans hlt, hprime⟩, hn⟩, fun ⟨⟨_, hprime⟩, hn⟩ => ⟨hn, hprime⟩⟩

theorem primes_spec {t : ℕ} (ht : t < 64) :
    (primes.getD t 0).Prime ∧ Nat.count Nat.Prime (primes.getD t 0) = t := by
  have hmem : primes.getD t 0 ∈ primes := by
    rw [List.getD_eq_getElem _ _ (show t < primes.length from ht)]
    exact List.getElem_mem _
  have hplaces : ∀ t < 64, (primes.filter (· < primes.getD t 0)).length = t := by decide +kernel
  exact ⟨(mem_primes.1 hmem).2, (count_prime hmem).trans (hplaces t ht)⟩

/-- A word of a table of fractions. -/
theorem toBitVec_fraction {n t : ℕ} {w : UInt32} (hn : n ≠ 0) (ht : t < 64)
    (h : Fips180.IsFraction n (primes.getD t 0) w.toNat) :
    w.toBitVec = Fips180.fraction n (Nat.nth Nat.Prime t) := by
  obtain ⟨hprime, hcount⟩ := primes_spec ht
  rw [Fips180.fraction_nth_eq hn hprime hcount h]
  refine BitVec.eq_of_toNat_eq ?_
  rw [BitVec.toNat_ofNat]
  exact (Nat.mod_eq_of_lt w.toNat_lt).symm

/-- **The table `k`** holds the fractions of the cube roots. -/
theorem map_k : k.map UInt32.toBitVec = (List.range 64).map Fips180.k := by
  have htable : ∀ t < 64, Fips180.IsFraction 3 (primes.getD t 0) (k.getD t 0).toNat := by
    decide +kernel
  have hlist : k = (List.range 64).map (k.getD · 0) := by decide +kernel
  rw [hlist, List.map_map]
  refine List.map_congr_left fun t ht => ?_
  have ht := List.mem_range.1 ht
  exact toBitVec_fraction (by decide) ht (htable t ht)

/-! ## Blocks -/

/-- The words of a state, as the standard's. -/
def Words.standard (v : Words) : Fips180.State :=
  ⟨v.a.toBitVec, v.b.toBitVec, v.c.toBitVec, v.d.toBitVec, v.e.toBitVec, v.f.toBitVec,
    v.g.toBitVec, v.h.toBitVec⟩

/-- **The initial state** holds the fractions of the square roots. -/
theorem standard_initial : initial.standard = Fips180.initial := by
  have hroot {t : ℕ} {w : UInt32} (ht : t < 64)
      (h : Fips180.IsFraction 2 (primes.getD t 0) w.toNat) :
      w.toBitVec = Fips180.fraction 2 (Nat.nth Nat.Prime t) := toBitVec_fraction (by decide) ht h
  rw [Words.standard, initial, Fips180.initial, hroot (t := 0) (by decide) (by decide +kernel),
    hroot (t := 1) (by decide) (by decide +kernel), hroot (t := 2) (by decide) (by decide +kernel),
    hroot (t := 3) (by decide) (by decide +kernel), hroot (t := 4) (by decide) (by decide +kernel),
    hroot (t := 5) (by decide) (by decide +kernel), hroot (t := 6) (by decide) (by decide +kernel),
    hroot (t := 7) (by decide) (by decide +kernel)]

/-- **A round** is the standard's. -/
theorem standard_round (v : Words) (kw : UInt32 × UInt32) :
    (Sha256.round v kw).standard =
      Fips180.turn kw.1.toBitVec kw.2.toBitVec v.standard := by
  simp only [Sha256.round, Words.standard, Fips180.turn, UInt32.toBitVec_add, UInt32.toBitVec_xor,
    UInt32.toBitVec_and, UInt32.toBitVec_not]
  rw [toBitVec_rotr _ 6 (by decide) (by decide), toBitVec_rotr _ 11 (by decide) (by decide),
    toBitVec_rotr _ 25 (by decide) (by decide), toBitVec_rotr _ 2 (by decide) (by decide),
    toBitVec_rotr _ 13 (by decide) (by decide), toBitVec_rotr _ 22 (by decide) (by decide)]
  rfl

/-- **`transform` is the standard's computation** on a block. -/
theorem standard_transform (s : Words) {block : List UInt8} (hblock : block.length = 64) :
    (transform s block).standard = Fips180.compress s.standard block := by
  have hrounds (kws : List (UInt32 × UInt32)) (v : Words) :
      (kws.foldl Sha256.round v).standard =
        (kws.map fun kw => (kw.1.toBitVec, kw.2.toBitVec)).foldl
          (fun v kw => Fips180.turn kw.1 kw.2 v) v.standard := by
    induction kws generalizing v with
    | nil => rfl
    | cons kw kws ih => rw [List.foldl_cons, ih, standard_round, List.map_cons, List.foldl_cons]
  have hzip : ((k.zip (schedule block)).map fun kw => (kw.1.toBitVec, kw.2.toBitVec)) =
      (List.range 64).map fun t =>
        (Fips180.k t, Fips180.schedule (Fips180.word block) t) := by
    have hpairs : (k.map UInt32.toBitVec).zip ((schedule block).map UInt32.toBitVec) = _ :=
      List.zip_map
    rw [map_k, map_schedule hblock, List.zip_map'] at hpairs
    exact hpairs.symm
  have hfold := hrounds (k.zip (schedule block)) s
  rw [hzip, List.foldl_map] at hfold
  rw [Fips180.compress, ← hfold]
  simp only [transform, Words.standard, Fips180.State.add, UInt32.toBitVec_add]

/-! ## The stream -/

/-- The state and the buffer. -/
def held (s : Sha256) : Words × List UInt8 := (s.state, s.buffer)

theorem held_push (s : Sha256) (b : UInt8) :
    (s.push b).held = Blocks.absorb 64 transform s.held b := by
  unfold push Blocks.absorb held
  split_ifs <;> rfl

theorem foldl_push (s : Sha256) (data : List UInt8) :
    (data.foldl push s).held = data.foldl (Blocks.absorb 64 transform) s.held ∧
      (data.foldl push s).totalBytes = s.totalBytes := by
  induction data generalizing s with
  | nil => exact ⟨rfl, rfl⟩
  | cons b data ih =>
    obtain ⟨hheld, htotal⟩ := ih (s.push b)
    have htotal' : (s.push b).totalBytes = s.totalBytes := by
      unfold push
      split_ifs <;> rfl
    exact ⟨by rw [List.foldl_cons, hheld, held_push, List.foldl_cons], htotal.trans htotal'⟩

/-- **An update absorbs its bytes** and counts them. -/
theorem held_update (s : Sha256) (data : List UInt8) :
    (s.update data).held = data.foldl (Blocks.absorb 64 transform) s.held :=
  (foldl_push s data).1

theorem totalBytes_update (s : Sha256) (data : List UInt8) :
    (s.update data).totalBytes = s.totalBytes + UInt64.ofNat data.length :=
  congrArg (· + UInt64.ofNat data.length) (foldl_push s data).2

/-- **However the message is cut up**, its bytes are absorbed in order. -/
theorem foldl_update (s : Sha256) (pieces : List (List UInt8)) :
    (pieces.foldl update s).held = pieces.flatten.foldl (Blocks.absorb 64 transform) s.held ∧
      (pieces.foldl update s).totalBytes =
        s.totalBytes + UInt64.ofNat pieces.flatten.length := by
  induction pieces generalizing s with
  | nil => exact ⟨rfl, (UInt64.add_zero _).symm⟩
  | cons data pieces ih =>
    obtain ⟨hheld, htotal⟩ := ih (s.update data)
    rw [List.foldl_cons, List.flatten_cons, List.foldl_append, List.length_append,
      UInt64.ofNat_add, ← UInt64.add_assoc, ← totalBytes_update, ← held_update]
    exact ⟨hheld, htotal⟩

/-- **The loop that pads** absorbs the zeros that bring the buffer to 56
bytes. -/
theorem held_pad (n : ℕ) (s : Sha256) (hn : (120 - s.buffer.length) % 64 ≤ n) :
    (pad n s).held = (List.replicate ((120 - s.buffer.length) % 64) 0).foldl
      (Blocks.absorb 64 transform) s.held := by
  have hlt := s.buffer_lt
  induction n generalizing s with
  | zero =>
    rw [Nat.le_zero.1 hn]
    rfl
  | succ n ih =>
    unfold pad
    split_ifs with hfull
    · rw [hfull]
      rfl
    · have hnext := held_update s [0]
      rw [List.foldl_cons, List.foldl_nil] at hnext
      have hbuffer : (s.update [0]).buffer.length =
          if s.buffer.length + 1 = 64 then 0 else s.buffer.length + 1 :=
        (congrArg (fun x => x.2.length) hnext).trans (Blocks.length_absorb s.held 0)
      have hlength : (120 - s.buffer.length) % 64 =
          (120 - (s.update [0]).buffer.length) % 64 + 1 := by
        rw [hbuffer]
        split_ifs <;> omega
      rw [ih (s.update [0]) (by omega) (s.update [0]).buffer_lt, hnext, hlength,
        List.replicate_succ, List.foldl_cons]

/-- The bytes of a word in the digest. -/
theorem wordBytes_eq (x : UInt32) : wordBytes x = BigEndian.digits 4 x.toBitVec.toNat := by
  have hbyte (n : UInt32) (j : ℕ) (hn : n.toNat = 8 * j) (hlt : n.toNat < 32) :
      ((x >>> n) &&& 0xff).toUInt8 = UInt8.ofNat (x.toNat / 256 ^ j) := by
    refine UInt8.toNat_inj.1 ?_
    have hmask : (0xff : UInt32).toNat = 2 ^ 8 - 1 := rfl
    rw [UInt32.toNat_toUInt8, UInt32.toNat_and, UInt32.toNat_shiftRight, hmask,
      Nat.and_two_pow_sub_one_eq_mod, Nat.mod_eq_of_lt hlt, Nat.shiftRight_eq_div_pow, hn, pow_mul,
      UInt8.toNat_ofNat', Nat.mod_mod]
    rfl
  have hlast : (x &&& 0xff).toUInt8 = UInt8.ofNat (x.toNat / 256 ^ 0) := by
    have hzero := hbyte 0 0 rfl (by decide)
    rwa [UInt32.shiftRight_zero] at hzero
  rw [wordBytes, hbyte 24 3 rfl (by decide), hbyte 16 2 rfl (by decide),
    hbyte 8 1 rfl (by decide), hlast]
  rfl

theorem finish_bytes (s : Sha256) :
    [s.state.a, s.state.b, s.state.c, s.state.d, s.state.e, s.state.f, s.state.g,
      s.state.h].flatMap wordBytes = s.state.standard.bytes := by
  simp only [Fips180.State.bytes, Words.standard, List.flatMap_cons, List.flatMap_nil,
    wordBytes_eq]

/-- The loop of `finish` that writes the length absorbs its eight bytes. -/
theorem held_length (s : Sha256) (bitLen : UInt64) :
    (([7, 6, 5, 4, 3, 2, 1, 0] : List UInt64).foldl
      (fun s i => s.update [((bitLen >>> (i * 8)) &&& 0xff).toUInt8]) s).held =
      (BigEndian.digits 8 bitLen.toNat).foldl (Blocks.absorb 64 transform) s.held := by
  have hloop (is : List UInt64) (s : Sha256) :
      (is.foldl (fun s i => s.update [((bitLen >>> (i * 8)) &&& 0xff).toUInt8]) s).held =
        (is.map fun i => ((bitLen >>> (i * 8)) &&& 0xff).toUInt8).foldl
          (Blocks.absorb 64 transform) s.held := by
    induction is generalizing s with
    | nil => rfl
    | cons i is ih => rw [List.foldl_cons, ih, held_update]; rfl
  rw [hloop, ← beBytes_eq_digits bitLen le_rfl]
  rfl

/-- The loop of `finish` that writes the length. -/
def writeLength (bitLen : UInt64) (s : Sha256) : Sha256 :=
  ([7, 6, 5, 4, 3, 2, 1, 0] : List UInt64).foldl
    (fun s i => s.update [((bitLen >>> (i * 8)) &&& 0xff).toUInt8]) s

theorem finish_eq (s : Sha256) :
    s.finish =
      (writeLength (s.totalBytes * 8) (pad 64 (s.update [0x80]))).state.standard.bytes :=
  finish_bytes _

/-- A message absorbed from the start. -/
def Absorbed (s : Sha256) (m : List UInt8) : Prop :=
  s.held = m.foldl (Blocks.absorb 64 transform) (initial, [])

namespace Absorbed

variable {s : Sha256} {m : List UInt8}

theorem update (h : s.Absorbed m) (data : List UInt8) : (s.update data).Absorbed (m ++ data) := by
  rw [Absorbed, held_update, h, List.foldl_append]

/-- The buffer holds the end of the message. -/
theorem length_buffer (h : s.Absorbed m) : s.buffer.length = m.length % 64 := by
  have hbuffer := congrArg (fun x => x.2.length) h
  rw [Blocks.foldl_absorb (by decide)] at hbuffer
  refine hbuffer.trans ?_
  rw [List.length_drop]
  omega

theorem pad (h : s.Absorbed m) :
    (Sha256.pad 64 s).Absorbed (m ++ List.replicate ((120 - m.length % 64) % 64) 0) := by
  rw [Absorbed, held_pad 64 s (Nat.mod_lt _ (by decide)).le, h, h.length_buffer,
    List.foldl_append]

theorem writeLength (h : s.Absorbed m) (bitLen : UInt64) :
    (Sha256.writeLength bitLen s).Absorbed (m ++ BigEndian.digits 8 bitLen.toNat) := by
  rw [Absorbed, Sha256.writeLength, held_length, h, List.foldl_append]

/-- Whole blocks absorbed, the state is the standard's. -/
theorem standard (h : s.Absorbed m) (hdvd : 64 ∣ m.length) :
    s.state.standard = Blocks.fold 64 Fips180.compress Fips180.initial m := by
  have hstate := congrArg Prod.fst (h.trans (Blocks.foldl_absorb_of_dvd (by decide) _ hdvd))
  rw [← standard_initial,
    ← Blocks.fold_hom Words.standard fun s b hb => standard_transform s hb]
  exact congrArg Words.standard hstate

end Absorbed

/-- **The digest of a message, however it is cut up**, is the standard's. -/
theorem finish_eq_sha256 (pieces : List (List UInt8)) (h : pieces.flatten.length < 2 ^ 61) :
    (pieces.foldl update {}).finish = Fips180.sha256 pieces.flatten := by
  obtain ⟨hheld, htotal⟩ := foldl_update {} pieces
  have habsorbed : (pieces.foldl update {}).Absorbed pieces.flatten := hheld
  have hbits : ((pieces.foldl update {}).totalBytes * 8).toNat = 8 * pieces.flatten.length := by
    have hlength : (UInt64.ofNat pieces.flatten.length).toNat = pieces.flatten.length :=
      UInt64.toNat_ofNat_of_lt' (h.trans (by decide))
    have height : (8 : UInt64).toNat = 8 := rfl
    rw [htotal, UInt64.zero_add, UInt64.toNat_mul, hlength, height, Nat.mul_comm]
    exact Nat.mod_eq_of_lt (by omega)
  have hpadded := ((habsorbed.update [0x80]).pad.writeLength
    ((pieces.foldl update {}).totalBytes * 8))
  have heq : pieces.flatten ++ [0x80] ++
      List.replicate ((120 - (pieces.flatten ++ [0x80]).length % 64) % 64) 0 ++
        BigEndian.digits 8 (8 * pieces.flatten.length) = Fips180.pad pieces.flatten := by
    have hzeros : (120 - (pieces.flatten ++ [(0x80 : UInt8)]).length % 64) % 64 =
        Fips180.zeros pieces.flatten.length := by
      rw [List.length_append, List.length_singleton, Fips180.zeros]
      omega
    rw [hzeros, Fips180.pad, List.append_assoc, List.append_assoc, List.singleton_append]
  rw [hbits, heq] at hpadded
  rw [finish_eq, hpadded.standard (Fips180.pad_length _), Fips180.sha256]

/-- The message "abc" in three pieces, one of them empty. -/
theorem finish_eq_sha256_abc :
    (([[0x61], [], [0x62, 0x63]] : List (List UInt8)).foldl update {}).finish =
      Fips180.sha256 [0x61, 0x62, 0x63] :=
  finish_eq_sha256 [[0x61], [], [0x62, 0x63]] (by decide)

end Sha256

end CollectiveFabric
