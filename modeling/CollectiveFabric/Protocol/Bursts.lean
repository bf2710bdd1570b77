import CollectiveFabric.Digest.Crc32
import CollectiveFabric.Protocol.Codec

/-!
# Frames with altered bytes

The checksum covers the header's first sixteen bytes and the payload. While
the length and the checksum of a frame stay as they were encoded, what is
decoded of it covers as many bytes as before, and a burst of four bytes in
them is detected.
-/

namespace CollectiveFabric

namespace Protocol

open Common Cyclic

/-- The eight bytes before the length: magic, version and kind. -/
def lead (f : Frame) : List UInt8 :=
  BigEndian.digits 4 magic.toNat ++
    (BigEndian.digits 2 f.version.toNat ++ BigEndian.digits 2 f.kind.raw.toNat)

theorem header_eq_lead (f : Frame) :
    header f = lead f ++ BigEndian.digits 8 f.payload.size.toNat := by
  simp only [header_eq, lead, List.append_assoc]

theorem length_lead (f : Frame) : (lead f).length = 8 := by
  simp [lead]

/-- The checksum of a frame is taken over its header and payload. -/
theorem checksum_eq (f : Frame) : checksum f = Crc32.compute (header f ++ f.payload.toList) := by
  rw [checksum, Crc32.update_append]
  rfl

/-- The two pieces a frame's checksum is computed in are one bitwise
checksum. -/
theorem toBitVec_checksum (f : Frame) :
    (checksum f).toBitVec = Crc32.bitwise (header f ++ f.payload.toList) := by
  rw [checksum_eq, Crc32.toBitVec_compute]

/-- **A burst in what the checksum covers is never decoded**: other bytes
in the places of the lead and of the payload, length and checksum as they
were. -/
theorem decode_ne_frame {f : Frame} {lead' payload : List UInt8} (hlead : lead'.length = 8)
    (hburst : Burst 4 (header f ++ f.payload.toList)
      (lead' ++ (BigEndian.digits 8 f.payload.size.toNat ++ payload)))
    (t : List UInt8) (g : Frame) (c : ℕ) :
    decode (lead' ++ (BigEndian.digits 8 f.payload.size.toNat ++
      (BigEndian.digits 4 (checksum f).toNat ++ (payload ++ t)))) ≠ .frame g c := by
  intro hdecode
  obtain ⟨-, -, -, -, -, -, hsize, hpayload, hcrc⟩ := decode_eq_frame hdecode
  have hlength : payload.length = f.payload.toList.length := by
    have hlength := hburst.length_eq
    simp only [List.length_append, header_length, BigEndian.digits_length, hlead] at hlength
    omega
  -- the length field says how much of the altered bytes is the payload: all of it
  have hcount : g.payload.toList.length = payload.length := by
    rw [List.drop_left' hlead, getU64_digits] at hsize
    rw [hlength, ← Vec.toNat_size, ← Vec.toNat_size, hsize]
  have h16 : (lead' ++ (BigEndian.digits 8 f.payload.size.toNat ++
      (BigEndian.digits 4 (checksum f).toNat ++ (payload ++ t)))).drop 16 =
        BigEndian.digits 4 (checksum f).toNat ++ (payload ++ t) := by
    rw [← List.append_assoc, List.drop_left' (by simp [hlead])]
  have hbytes : g.payload.toList = payload := by
    rw [hpayload, hcount, ← List.drop_drop (i := 4) (j := 16), h16, List.drop_left' (by simp),
      List.take_left]
  have hcovered : (lead' ++ (BigEndian.digits 8 f.payload.size.toNat ++
      (BigEndian.digits 4 (checksum f).toNat ++ (payload ++ t)))).take 16 =
        lead' ++ BigEndian.digits 8 f.payload.size.toNat := by
    rw [← List.append_assoc, List.take_left' (by simp [hlead])]
  rw [h16, getU32_digits, hcovered, hbytes, Crc32.update_append, List.append_assoc,
    checksum_eq] at hcrc
  exact Crc32.compute_ne hburst hcrc.symm

/-- The bytes of an encoding. -/
theorem encode_eq_lead (f : Frame) :
    encode f = lead f ++ (BigEndian.digits 8 f.payload.size.toNat ++
      (BigEndian.digits 4 (checksum f).toNat ++ f.payload.toList)) := by
  rw [encode_eq, header_eq_lead, List.append_assoc]

/-- **Burst errors never pass the checksum.** Byte strings of one length
that differ, and only within four consecutive bytes, have different
checksums; and an encoded frame with such a change of its payload, or with
other bytes in the place of its kind, is never decoded as a frame, whatever
follows it. -/
theorem bursts_detected :
    (∀ xs ys : List UInt8, Burst 4 xs ys → Crc32.compute xs ≠ Crc32.compute ys) ∧
      ∀ (f : Frame) (t : List UInt8) (g : Frame) (c : ℕ),
        (∀ payload, Burst 4 f.payload.toList payload →
          decode ((encode f).take 20 ++ (payload ++ t)) ≠ .frame g c) ∧
        ∀ kind : List UInt8, kind.length = 2 → kind ≠ ((encode f).drop 6).take 2 →
          decode ((encode f).take 6 ++ (kind ++ ((encode f).drop 8 ++ t))) ≠ .frame g c := by
  refine ⟨fun xs ys h => Crc32.compute_ne h, fun f t g c => ⟨?_, ?_⟩⟩
  · intro payload hburst
    have htake : (encode f).take 20 = lead f ++ (BigEndian.digits 8 f.payload.size.toNat ++
        BigEndian.digits 4 (checksum f).toNat) := by
      rw [encode_eq_lead, ← List.append_assoc (BigEndian.digits 8 _), ← List.append_assoc,
        List.take_left' (by simp [length_lead])]
    have hcovered := hburst.append_left (header f)
    rw [header_eq_lead, List.append_assoc (lead f) _ payload, ← header_eq_lead] at hcovered
    rw [htake, List.append_assoc, List.append_assoc]
    exact decode_ne_frame (length_lead f) hcovered t g c
  · intro kind hlength hne
    -- six bytes, the two of the kind, and the rest
    have hsix : lead f = (BigEndian.digits 4 magic.toNat ++ BigEndian.digits 2 f.version.toNat) ++
        BigEndian.digits 2 f.kind.raw.toNat := by
      rw [lead, List.append_assoc]
    have htake : (encode f).take 6 =
        BigEndian.digits 4 magic.toNat ++ BigEndian.digits 2 f.version.toNat := by
      rw [encode_eq_lead, hsix, List.append_assoc, List.take_left' (by simp)]
    have hkind : ((encode f).drop 6).take 2 = BigEndian.digits 2 f.kind.raw.toNat := by
      rw [encode_eq_lead, hsix, List.append_assoc, List.drop_left' (by simp),
        List.take_left' (by simp)]
    have hdrop : (encode f).drop 8 = BigEndian.digits 8 f.payload.size.toNat ++
        (BigEndian.digits 4 (checksum f).toNat ++ f.payload.toList) := by
      rw [encode_eq_lead, List.drop_left' (length_lead f)]
    rw [hkind] at hne
    have hburst : Burst 4 (BigEndian.digits 2 f.kind.raw.toNat) kind :=
      Burst.of_length_le (by simp [hlength]) (by simp) hne.symm
    have hcovered := (hburst.append_right (BigEndian.digits 8 f.payload.size.toNat ++
      f.payload.toList)).append_left
        (BigEndian.digits 4 magic.toNat ++ BigEndian.digits 2 f.version.toNat)
    rw [← List.append_assoc, ← hsix, ← List.append_assoc, ← header_eq_lead,
      ← List.append_assoc (_ ++ _) kind] at hcovered
    rw [htake, hdrop, ← List.append_assoc (_ ++ _) kind, List.append_assoc (BigEndian.digits 8 _),
      List.append_assoc (BigEndian.digits 4 (checksum f).toNat)]
    exact decode_ne_frame (by simp [hlength]) hcovered t g c

/-- A byte string with another last byte, a frame with another byte in its
payload, and the same frame with the kind of a barrier. -/
theorem bursts_detected_result : Crc32.compute [1, 2, 3] ≠ Crc32.compute [1, 2, 2] ∧
    ∀ g c, decode ((encode { kind := .of .result, payload := ⟨[7, 8], by decide⟩ }).take 20 ++
        ([7, 9] ++ [])) ≠ .frame g c ∧
      decode ((encode { kind := .of .result, payload := ⟨[7, 8], by decide⟩ }).take 6 ++
        ([0, 6] ++ ((encode { kind := .of .result, payload := ⟨[7, 8], by decide⟩ }).drop 8 ++
          []))) ≠ .frame g c :=
  ⟨bursts_detected.1 _ _ (.of_length_le rfl (by decide) (by decide)), fun g c =>
    ⟨(bursts_detected.2 _ [] g c).1 _ (.of_length_le rfl (by decide) (by decide)),
      (bursts_detected.2 _ [] g c).2 _ rfl (by decide +kernel)⟩⟩

end Protocol

end CollectiveFabric
