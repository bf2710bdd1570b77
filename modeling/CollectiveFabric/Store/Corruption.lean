import CollectiveFabric.Digest.Crc32
import CollectiveFabric.Store.Frame

/-!
# State files with an altered byte

A state file is five fields. `load` compares the magic and the length with
what they must be and the checksum with the payload's, so a byte altered in
any of these fields, or in the payload, is found. The version it only
bounds from above, and the header is outside the checksum: a file whose
version is lowered to 0 is loaded.
-/

namespace CollectiveFabric

namespace Store

open Common Cyclic CanonicalReader

/-! ## One byte -/

/-- Another byte makes another string. -/
theorem set_ne {bs : List UInt8} {i : ℕ} {b : UInt8} (hi : i < bs.length)
    (hb : bs[i]? ≠ some b) : bs.set i b ≠ bs := by
  intro heq
  refine hb ?_
  rw [← heq, List.getElem?_set_self hi]

/-- One byte is a burst. -/
theorem burst_set {bs : List UInt8} {i : ℕ} {b : UInt8} (hi : i < bs.length)
    (hb : bs[i]? ≠ some b) : Burst 4 bs (bs.set i b) := by
  refine ⟨List.length_set.symm, (set_ne hi hb).symm, i, fun j hj => ?_⟩
  by_cases hij : i = j
  · omega
  · rw [List.getElem?_set_ne hij] at hj
    exact absurd rfl hj

theorem version_gt_iff {v : List UInt8} (hv : v.length = 4) :
    UInt64.ofBitVec (foldBe 64 0 v) > formatVersion ↔ 1 < BigEndian.value v := by
  have hone : formatVersion.toNat = 1 := rfl
  rw [gt_iff_lt, UInt64.lt_iff_toNat_lt, hone, UInt64.toNat_ofBitVec,
    foldBe_toNat_of_le (by decide) (by omega)]

/-- **The version with one byte altered** is accepted only where the last
byte becomes 0. -/
theorem version_set {i : ℕ} {b : UInt8} (hi : i < 4)
    (hb : (CanonicalWriter.beBytes formatVersion 4)[i]? ≠ some b) :
    ¬ UInt64.ofBitVec (foldBe 64 0 ((CanonicalWriter.beBytes formatVersion 4).set i b)) >
      formatVersion ↔ i = 3 ∧ b = 0 := by
  have hbytes : CanonicalWriter.beBytes formatVersion 4 = [0, 0, 0, 1] := by decide +kernel
  have hnat (c : UInt8) (hne : c ≠ b) : c.toNat ≠ b.toNat := fun h => hne (UInt8.toNat_inj.1 h)
  rw [version_gt_iff (by rw [List.length_set, hbytes]; rfl), hbytes, not_lt]
  rw [hbytes] at hb
  obtain rfl | rfl | rfl | rfl : i = 0 ∨ i = 1 ∨ i = 2 ∨ i = 3 := by omega
  · have hpos := hnat 0 fun h => hb (by rw [← h]; rfl)
    simp [BigEndian.value] at hpos ⊢
    omega
  · have hpos := hnat 0 fun h => hb (by rw [← h]; rfl)
    simp [BigEndian.value] at hpos ⊢
    omega
  · have hpos := hnat 0 fun h => hb (by rw [← h]; rfl)
    simp [BigEndian.value] at hpos ⊢
    omega
  · have hone := hnat 1 fun h => hb (by rw [← h]; rfl)
    have hzero : b = 0 ↔ b.toNat = 0 := UInt8.toNat_inj.symm
    simp [BigEndian.value, hzero] at hone ⊢
    omega

/-- A field with an altered byte is read as another number. -/
theorem foldBe_set_ne {w i : ℕ} {bs : List UInt8} {b : UInt8} (hw : 8 ≤ w)
    (hfits : 8 * bs.length ≤ w) (hi : i < bs.length) (hb : bs[i]? ≠ some b) :
    foldBe w 0 (bs.set i b) ≠ foldBe w 0 bs := fun h =>
  set_ne hi hb (foldBe_inj hw List.length_set (by rwa [List.length_set]) h)

/-- **One altered byte is found, but for one.** In a saved file whose
payload decodes, `load` throws for another value of the byte at any offset
exactly unless it is the last byte of the version, at offset 7, set to 0,
in a file whose payload's length fits its field. -/
theorem corruption_caught_iff (s s' : PersistentState) (h : decode (encode s) = .ok s') (i : ℕ)
    (b : UInt8) (hi : i < (file s).length) (hb : (file s)[i]? ≠ some b) :
    (∃ e, load ((file s).set i b) = .error e) ↔
      ¬ (i = 7 ∧ b = 0 ∧ (encode s).length < 2 ^ 64) := by
  have hset {bs : List UInt8} {n j : ℕ} (hbs : bs.length = n) : (bs.set j b).length = n := by
    rw [List.length_set, hbs]
  rw [load_error_iff]
  rw [file_eq] at hi hb ⊢
  simp only [List.set_append, List.getElem?_append, List.length_append, length_be4,
    length_be8] at hi hb ⊢
  split_ifs at hb ⊢ with hmagic hversion hlength hchecksum
  · -- the magic
    rw [load_iff (hset (length_be4 _)) (length_be4 _) (length_be8 _) (length_be4 _)]
    refine iff_of_true (fun haccepted => ?_) (by omega)
    refine foldBe_set_ne (w := 32) (by decide) (by rw [length_be4]) (by rwa [length_be4]) hb ?_
    rw [haccepted.magic, foldBe_word]
  · -- the version
    rw [load_iff (length_be4 _) (hset (length_be4 _)) (length_be8 _) (length_be4 _)]
    have haccepted := version_set hversion hb
    have hoffset : i = 7 ↔ i - 4 = 3 := by omega
    rw [hoffset, ← and_assoc, ← haccepted, ← foldBe_length]
    exact not_congr ⟨fun h => ⟨h.version, h.length⟩, fun h' =>
      ⟨foldBe_word _, h'.1, h'.2, (foldBe_word _).symm, s', h⟩⟩
  · -- the length
    rw [load_iff (length_be4 _) (length_be4 _) (hset (length_be8 _)) (length_be4 _)]
    refine iff_of_true (fun haccepted => ?_) (by omega)
    have hfits : (encode s).length < 2 ^ 64 := by
      rw [← haccepted.length]
      exact BitVec.isLt _
    refine foldBe_set_ne (w := 64) (by decide) (by rw [length_be8]) (by rwa [length_be8]) hb ?_
    exact BitVec.eq_of_toNat_eq (haccepted.length.trans (foldBe_length.2 hfits).symm)
  · -- the checksum
    rw [load_iff (length_be4 _) (length_be4 _) (length_be8 _) (hset (length_be4 _))]
    refine iff_of_true (fun haccepted => ?_) (by omega)
    refine foldBe_set_ne (w := 32) (by decide) (by rw [length_be4]) (by rwa [length_be4]) hb ?_
    rw [← haccepted.checksum, foldBe_word]
  · -- the payload
    rw [load_iff (length_be4 _) (length_be4 _) (length_be8 _) (length_be4 _)]
    refine iff_of_true (fun haccepted => ?_) (by omega)
    refine Crc32.compute_ne (burst_set (by omega) hb) ?_
    rw [← UInt32.toBitVec_inj, haccepted.checksum, foldBe_word]

/-- A file with the boot of its participant altered, with the rank count of
its measurement altered, and with a version of 2. -/
theorem corruption_caught_filled :
    (∃ e, load ((file filled).set 140 101) = .error e) ∧
      (∃ e, load ((file filled).set 230 3) = .error e) ∧
      ∃ e, load ((file filled).set 7 2) = .error e := by
  have hdecode : decode (encode filled) = .ok filled := decode_encode_of_fits fits_filled
  exact ⟨(corruption_caught_iff filled filled hdecode 140 101 (by decide +kernel)
      (by decide +kernel)).2 fun h => absurd h.1 (by decide),
    (corruption_caught_iff filled filled hdecode 230 3 (by decide +kernel)
      (by decide +kernel)).2 fun h => absurd h.1 (by decide),
    (corruption_caught_iff filled filled hdecode 7 2 (by decide +kernel)
      (by decide +kernel)).2 fun h => absurd h.2.1 (by decide)⟩

/-- **A version lowered to 0 is loaded**: the empty state's file with the
byte at offset 7 changed from 1 to 0. -/
theorem not_corruption_caught_version : decode (encode {}) = .ok {} ∧
    (file {})[7]? = some 1 ∧ ∃ r, load ((file {}).set 7 0) = .ok r := by
  refine ⟨decode_encode_of_fits fits_empty, by decide +kernel, ?_⟩
  have hloads : (load ((file {}).set 7 0)).toBool = true := by decide +kernel
  cases hload : load ((file {}).set 7 0) with
  | error e =>
    rw [hload] at hloads
    cases hloads
  | ok r => exact ⟨r, rfl⟩

end Store

end CollectiveFabric
