import CollectiveFabric.Store.Model.File
import CollectiveFabric.Store.RoundTrip

/-!
# The fields of a state file

A state file is a magic, a version, a length, a checksum and the payload.
What `load` asks of the five, and that what `save` writes is loaded
exactly where its state is in the store's domain and its length fits.
-/

namespace CollectiveFabric

namespace Store

open Common CanonicalReader

/-! ## Fields of fixed width -/

/-- Bytes that fit the width they are read at are read as the number they
spell. -/
theorem foldBe_toNat_of_le {w : ℕ} (hw : 8 ≤ w) {bs : List UInt8} (hfits : 8 * bs.length ≤ w) :
    (foldBe w 0 bs).toNat = BigEndian.value bs := by
  have hlt : BigEndian.value bs < 2 ^ w := by
    refine lt_of_lt_of_le (BigEndian.value_lt bs) ?_
    calc 256 ^ bs.length = 2 ^ (8 * bs.length) := by rw [pow_mul]; rfl
      _ ≤ 2 ^ w := Nat.pow_le_pow_right (by decide) hfits
  rw [foldBe_toNat hw]
  simp only [BitVec.ofNat_eq_ofNat, BitVec.toNat_ofNat, Nat.zero_mod, Nat.zero_mul, Nat.zero_add]
  exact Nat.mod_eq_of_lt hlt

/-- So different bytes are read as different numbers. -/
theorem foldBe_inj {w : ℕ} (hw : 8 ≤ w) {bs bs' : List UInt8} (hlength : bs.length = bs'.length)
    (hfits : 8 * bs.length ≤ w) (h : foldBe w 0 bs = foldBe w 0 bs') : bs = bs' := by
  have hnat := congrArg BitVec.toNat h
  rw [foldBe_toNat_of_le hw hfits, foldBe_toNat_of_le hw (hlength ▸ hfits)] at hnat
  rw [← BigEndian.digits_value bs, ← BigEndian.digits_value bs', hlength, hnat]

theorem length_be4 (v : UInt64) : (CanonicalWriter.beBytes v 4).length = 4 :=
  beBytes_length v (by decide)

theorem length_be8 (v : UInt64) : (CanonicalWriter.beBytes v 8).length = 8 :=
  beBytes_length v le_rfl

/-- A word of 32 bits is read back from its field. -/
theorem foldBe_word (x : UInt32) :
    foldBe 32 0 (CanonicalWriter.beBytes x.toUInt64 4) = x.toBitVec := by
  have hlt : x.toUInt64.toNat < 2 ^ 32 := by
    rw [UInt32.toNat_toUInt64]
    exact x.toNat_lt
  apply BitVec.eq_of_toNat_eq
  rw [foldBe_beBytes_toNat (by decide) (by decide) hlt hlt, UInt32.toNat_toUInt64,
    UInt32.toNat_toBitVec]

/-- A length is read back from its field where it fits. -/
theorem foldBe_length {n : ℕ} :
    (foldBe 64 0 (CanonicalWriter.beBytes (UInt64.ofNat n) 8)).toNat = n ↔ n < 2 ^ 64 := by
  rw [foldBe_beBytes_toNat (by decide) le_rfl (UInt64.toNat_lt _) (UInt64.toNat_lt _),
    UInt64.toNat_ofNat']
  constructor
  · intro h
    omega
  · exact fun h => Nat.mod_eq_of_lt h

/-! ## The file -/

variable {m v l c p : List UInt8}

/-- What `load` asks of a file's magic, version, length, checksum and
payload. -/
structure Accepted (m v l c p : List UInt8) : Prop where
  magic : foldBe 32 0 m = magic.toBitVec
  version : ¬ UInt64.ofBitVec (foldBe 64 0 v) > formatVersion
  length : (foldBe 64 0 l).toNat = p.length
  checksum : (Crc32.compute p).toBitVec = foldBe 32 0 c
  payload : ∃ s, decode p = .ok s

/-- The payload follows the four other fields. -/
theorem payload_append (hm : m.length = 4) (hv : v.length = 4) (hl : l.length = 8)
    (hc : c.length = 4) : payload (m ++ (v ++ (l ++ (c ++ p)))) = p := by
  have hheader : (m ++ (v ++ (l ++ c))).length = headerBytes := by
    simp only [List.length_append, hm, hv, hl, hc, headerBytes]
  have happend : m ++ (v ++ (l ++ (c ++ p))) = (m ++ (v ++ (l ++ c))) ++ p := by
    simp only [List.append_assoc]
  rw [payload, happend, List.drop_left' hheader]

/-- **A file is loaded** exactly if its fields are accepted. -/
theorem load_iff (hm : m.length = 4) (hv : v.length = 4) (hl : l.length = 8) (hc : c.length = 4) :
    (∃ r, load (m ++ (v ++ (l ++ (c ++ p)))) = .ok r) ↔ Accepted m v l c p := by
  have h4 : (m ++ (v ++ (l ++ (c ++ p)))).drop 4 = v ++ (l ++ (c ++ p)) := List.drop_left' hm
  have h8 : (m ++ (v ++ (l ++ (c ++ p)))).drop 8 = l ++ (c ++ p) := by
    rw [← List.drop_drop (i := 4) (j := 4), h4, List.drop_left' hv]
  have h16 : (m ++ (v ++ (l ++ (c ++ p)))).drop 16 = c ++ p := by
    rw [← List.drop_drop (i := 8) (j := 8), h8, List.drop_left' hl]
  have hpayload := payload_append (p := p) hm hv hl hc
  have hsize : (m ++ (v ++ (l ++ (c ++ p)))).length = headerBytes + p.length := by
    simp only [List.length_append, hm, hv, hl, hc, headerBytes]
    omega
  rw [load, if_neg (by omega), List.take_left' hm, h4, List.take_left' hv, h8,
    List.take_left' hl, h16, List.take_left' hc, hpayload, hsize, Nat.add_sub_cancel_left]
  constructor
  · rintro ⟨r, hr⟩
    split_ifs at hr with hmagic hversion hlength hcrc
    refine ⟨not_not.1 hmagic, hversion, not_not.1 hlength, not_not.1 hcrc, ?_⟩
    cases hdecode : decode p with
    | error e =>
      rw [hdecode] at hr
      cases hr
    | ok s => exact ⟨s, rfl⟩
  · rintro ⟨hmagic, hversion, hlength, hcrc, s, hs⟩
    rw [if_neg (not_not.2 hmagic), if_neg hversion, if_neg (not_not.2 hlength),
      if_neg (not_not.2 hcrc), hs]
    exact ⟨_, rfl⟩

theorem load_error_iff (buf : List UInt8) :
    (∃ e, load buf = .error e) ↔ ¬ ∃ r, load buf = .ok r := by
  cases load buf with
  | error e => simp
  | ok r => simp

/-- The fields of a saved file. -/
theorem file_eq (s : PersistentState) : file s =
    CanonicalWriter.beBytes Store.magic.toUInt64 4 ++ (CanonicalWriter.beBytes formatVersion 4 ++
      (CanonicalWriter.beBytes (UInt64.ofNat (encode s).length) 8 ++
        (CanonicalWriter.beBytes (Crc32.compute (encode s)).toUInt64 4 ++ encode s))) := by
  simp only [file, frame, List.append_assoc]

/-- **What `save` writes `load` reads back**, with the digest `save`
returned, where the decoder's checks hold of the state and its length
fits; and then only. -/
theorem load_file_iff (s : PersistentState) {s' : PersistentState} {res : SaveResult} :
    load (file s) = .ok (s', res) ↔
      (Fits s ∧ (encode s).length < 2 ^ 64) ∧ s' = s ∧ res = saveResult s := by
  have hpayload : payload (file s) = encode s := by
    rw [file_eq, payload_append (length_be4 _) (length_be4 _) (length_be8 _) (length_be4 _)]
  have hloads := load_iff (p := encode s) (length_be4 Store.magic.toUInt64)
    (length_be4 formatVersion) (length_be8 (UInt64.ofNat (encode s).length))
    (length_be4 (Crc32.compute (encode s)).toUInt64)
  rw [← file_eq] at hloads
  constructor
  · intro h
    have hlen := foldBe_length.1 (hloads.1 ⟨_, h⟩).length
    obtain ⟨hdecode, hres⟩ := decode_of_load h
    rw [hpayload] at hdecode hres
    by_cases hfits : Fits s
    · rw [decode_encode_of_fits hfits] at hdecode
      cases hdecode
      exact ⟨⟨hfits, hlen⟩, rfl, hres⟩
    · obtain ⟨e, -, he⟩ := decode_encode_of_not_fits hfits
      rw [he] at hdecode
      cases hdecode
  · rintro ⟨⟨hfits, hlen⟩, rfl, rfl⟩
    have hdecode := decode_encode_of_fits hfits
    obtain ⟨⟨s', res⟩, h⟩ := hloads.2 ⟨foldBe_word _, by decide +kernel, foldBe_length.2 hlen,
      (foldBe_word _).symm, _, hdecode⟩
    obtain ⟨hdecode', rfl⟩ := decode_of_load h
    rw [hpayload, hdecode] at hdecode'
    cases hdecode'
    rw [h, hpayload]
    rfl

theorem load_file {s : PersistentState} (h : Fits s) (hlen : (encode s).length < 2 ^ 64) :
    load (file s) = .ok (s, saveResult s) :=
  (load_file_iff s).2 ⟨⟨h, hlen⟩, rfl, rfl⟩

end Store

end CollectiveFabric
