import CollectiveFabric.Protocol.Model.Frame
import CollectiveFabric.Digest.Canonical

/-!
# The frame codec is exact

The integers of the header are fixed-width numerals, so each has one
spelling. `decode` accepts exactly the encodings of the frames the
protocol admits, whatever follows them, and an encoding of any other
frame is rejected.
-/

namespace CollectiveFabric

namespace Protocol

open Common

/-! ## Writing integers -/

theorem putU16_eq (v : List UInt8) (x : UInt16) :
    putU16 v x = v ++ BigEndian.digits 2 x.toNat := by
  have hbyte (y : UInt16) : (y &&& 0xff).toUInt8 = UInt8.ofNat y.toNat := by
    apply UInt8.toNat_inj.1
    have hmask : (0xff : UInt16).toNat = 2 ^ 8 - 1 := rfl
    rw [UInt16.toNat_toUInt8, UInt16.toNat_and, hmask, Nat.and_two_pow_sub_one_eq_mod,
      Nat.mod_mod, UInt8.toNat_ofNat']
  simp only [putU16, BigEndian.digits, hbyte, UInt16.toNat_shiftRight, Nat.shiftRight_eq_div_pow]
  simp

theorem putU32_eq (v : List UInt8) (x : UInt32) :
    putU32 v x = v ++ BigEndian.digits 4 x.toNat := by
  have hbyte (y : UInt32) : (y &&& 0xff).toUInt8 = UInt8.ofNat y.toNat := by
    apply UInt8.toNat_inj.1
    have hmask : (0xff : UInt32).toNat = 2 ^ 8 - 1 := rfl
    rw [UInt32.toNat_toUInt8, UInt32.toNat_and, hmask, Nat.and_two_pow_sub_one_eq_mod,
      Nat.mod_mod, UInt8.toNat_ofNat']
  simp only [putU32, BigEndian.digits, hbyte, UInt32.toNat_shiftRight, Nat.shiftRight_eq_div_pow]
  simp

theorem putU64_eq (v : List UInt8) (x : UInt64) :
    putU64 v x = v ++ BigEndian.digits 8 x.toNat := by
  rw [← beBytes_eq_digits x le_rfl]
  rfl

/-! ## Reading integers -/

/-- A byte or'ed in below a multiple of its place is added to it. -/
theorem lor_eq_add {a b i : ℕ} (h : b < 2 ^ i) : a * 2 ^ i ||| b = a * 2 ^ i + b := by
  rw [← Nat.shiftLeft_eq, Nat.shiftLeft_add_eq_or_of_lt h]

theorem getU16_toNat {p : List UInt8} (h : 2 ≤ p.length) :
    (getU16 p).toNat = BigEndian.value (p.take 2) := by
  obtain ⟨a, b, t, rfl⟩ : ∃ a b t, p = a :: b :: t := by
    match p, h with
    | a :: b :: t, _ => exact ⟨a, b, t, rfl⟩
  have ha : a.toNat < 256 := a.toNat_lt
  have hmod : a.toNat * 256 % 65536 = a.toNat * 256 := Nat.mod_eq_of_lt (by omega)
  have hor : a.toNat * 256 ||| b.toNat = a.toNat * 256 + b.toNat := lor_eq_add (i := 8) b.toNat_lt
  have hread : (getU16 (a :: b :: t)).toNat = a.toNat * 256 % 65536 ||| b.toNat := by
    simp [getU16, byteAt, Nat.shiftLeft_eq]
  rw [hread, hmod, hor]
  simp [BigEndian.value]

theorem getU32_toNat {p : List UInt8} (h : 4 ≤ p.length) :
    (getU32 p).toNat = BigEndian.value (p.take 4) := by
  obtain ⟨a, b, c, d, t, rfl⟩ : ∃ a b c d t, p = a :: b :: c :: d :: t := by
    match p, h with
    | a :: b :: c :: d :: t, _ => exact ⟨a, b, c, d, t, rfl⟩
  have ha : a.toNat < 256 := a.toNat_lt
  have hb : b.toNat < 256 := b.toNat_lt
  have hc : c.toNat < 256 := c.toNat_lt
  have hread : (getU32 (a :: b :: c :: d :: t)).toNat =
      a.toNat * 16777216 % 4294967296 ||| b.toNat * 65536 % 4294967296 |||
        c.toNat * 256 % 4294967296 ||| d.toNat := by
    simp [getU32, byteAt, Nat.shiftLeft_eq]
  have h₁ : a.toNat * 16777216 ||| b.toNat * 65536 = (a.toNat * 256 + b.toNat) * 65536 := by
    have h := lor_eq_add (a := a.toNat) (b := b.toNat * 65536) (i := 24) (by omega)
    exact h.trans (by omega)
  have h₂ : (a.toNat * 256 + b.toNat) * 65536 ||| c.toNat * 256 =
      ((a.toNat * 256 + b.toNat) * 256 + c.toNat) * 256 := by
    have h := lor_eq_add (a := a.toNat * 256 + b.toNat) (b := c.toNat * 256) (i := 16) (by omega)
    exact h.trans (by omega)
  have h₃ : ((a.toNat * 256 + b.toNat) * 256 + c.toNat) * 256 ||| d.toNat =
      ((a.toNat * 256 + b.toNat) * 256 + c.toNat) * 256 + d.toNat := lor_eq_add (i := 8) d.toNat_lt
  rw [hread, Nat.mod_eq_of_lt (by omega), Nat.mod_eq_of_lt (by omega), Nat.mod_eq_of_lt (by omega),
    h₁, h₂, h₃]
  simp [BigEndian.value]

theorem getU64_toNat {p : List UInt8} (h : 8 ≤ p.length) :
    (getU64 p).toNat = BigEndian.value (p.take 8) := by
  obtain ⟨a, b, c, d, e, f, g, i, t, rfl⟩ : ∃ a b c d e f g i t,
      p = a :: b :: c :: d :: e :: f :: g :: i :: t := by
    match p, h with
    | a :: b :: c :: d :: e :: f :: g :: i :: t, _ => exact ⟨a, b, c, d, e, f, g, i, t, rfl⟩
  -- the loop is the canonical reader's, a byte at a time
  have hloop : (getU64 (a :: b :: c :: d :: e :: f :: g :: i :: t)).toNat =
      (CanonicalReader.foldBe 64 0 [a, b, c, d, e, f, g, i]).toNat := rfl
  have hlt : BigEndian.value [a, b, c, d, e, f, g, i] < 2 ^ 64 :=
    Nat.lt_of_lt_of_eq (BigEndian.value_lt _) (by simp)
  rw [hloop, foldBe_toNat (by decide)]
  simp only [BitVec.ofNat_eq_ofNat, BitVec.toNat_ofNat, Nat.zero_mod, Nat.zero_mul, Nat.zero_add]
  exact Nat.mod_eq_of_lt hlt

/-! ## One spelling for each integer -/

section

variable {p t : List UInt8}

theorem getU16_digits (x : UInt16) : getU16 (BigEndian.digits 2 x.toNat ++ t) = x := by
  apply UInt16.toNat_inj.1
  rw [getU16_toNat (by simp), List.take_left' (by simp), BigEndian.value_digits_of_lt x.toNat_lt]

theorem getU32_digits (x : UInt32) : getU32 (BigEndian.digits 4 x.toNat ++ t) = x := by
  apply UInt32.toNat_inj.1
  rw [getU32_toNat (by simp), List.take_left' (by simp), BigEndian.value_digits_of_lt x.toNat_lt]

theorem getU64_digits (x : UInt64) : getU64 (BigEndian.digits 8 x.toNat ++ t) = x := by
  apply UInt64.toNat_inj.1
  rw [getU64_toNat (by simp), List.take_left' (by simp), BigEndian.value_digits_of_lt x.toNat_lt]

/-- The numeral of what the first `n` bytes spell is these bytes. -/
theorem digits_value_take {n : ℕ} (h : n ≤ p.length) :
    BigEndian.digits n (BigEndian.value (p.take n)) = p.take n := by
  have hvalue := BigEndian.digits_value (p.take n)
  rwa [List.length_take_of_le h] at hvalue

theorem digits_getU16 (h : 2 ≤ p.length) : BigEndian.digits 2 (getU16 p).toNat = p.take 2 := by
  rw [getU16_toNat h, digits_value_take h]

theorem digits_getU32 (h : 4 ≤ p.length) : BigEndian.digits 4 (getU32 p).toNat = p.take 4 := by
  rw [getU32_toNat h, digits_value_take h]

theorem digits_getU64 (h : 8 ≤ p.length) : BigEndian.digits 8 (getU64 p).toNat = p.take 8 := by
  rw [getU64_toNat h, digits_value_take h]

end

/-! ## The layout of an encoding -/

/-- The checksum `encode` stores. -/
def checksum (f : Frame) : UInt32 :=
  ((({} : Crc32).update (header f)).update f.payload.toList).value

theorem header_eq (f : Frame) :
    header f = BigEndian.digits 4 magic.toNat ++ (BigEndian.digits 2 f.version.toNat ++
      (BigEndian.digits 2 f.kind.raw.toNat ++ BigEndian.digits 8 f.payload.size.toNat)) := by
  simp only [header, putU64_eq, putU32_eq, putU16_eq, List.nil_append, List.append_assoc]

theorem header_length (f : Frame) : (header f).length = 16 := by
  simp [header_eq]

theorem encode_eq (f : Frame) :
    encode f = header f ++ (BigEndian.digits 4 (checksum f).toNat ++ f.payload.toList) := by
  rw [encode, putU32_eq, List.append_assoc]
  rfl

theorem encode_length (f : Frame) : (encode f).length = 20 + f.payload.toList.length := by
  simp only [encode_eq, List.length_append, header_length, BigEndian.digits_length]
  omega

/-- What `decode` finds at each offset of a byte string that starts with
an encoding. -/
structure Fields (b : List UInt8) (f : Frame) : Prop where
  magic : getU32 b = magic
  version : getU16 (b.drop 4) = f.version
  kind : getU16 (b.drop 6) = f.kind.raw
  size : getU64 (b.drop 8) = f.payload.size
  header : b.take 16 = header f
  checksum : getU32 (b.drop 16) = checksum f
  payload : (b.drop 20).take f.payload.toList.length = f.payload.toList

theorem fields_encode (f : Frame) (t : List UInt8) : Fields (encode f ++ t) f := by
  rw [encode_eq, List.append_assoc, List.append_assoc]
  constructor
  · rw [header_eq, List.append_assoc, getU32_digits]
  · rw [header_eq, List.append_assoc, List.drop_left' (by simp), List.append_assoc, getU16_digits]
  · rw [header_eq, ← List.append_assoc (BigEndian.digits 4 _), List.append_assoc,
      List.drop_left' (by simp), List.append_assoc, getU16_digits]
  · rw [header_eq, ← List.append_assoc (BigEndian.digits 4 _),
      ← List.append_assoc (BigEndian.digits 4 _ ++ _), List.append_assoc,
      List.drop_left' (by simp), getU64_digits]
  · rw [List.take_left' (header_length f)]
  · rw [List.drop_left' (header_length f), getU32_digits]
  · rw [← List.append_assoc, List.drop_left' (by simp [header_length]), List.take_left]

/-- **The frames the protocol admits.** -/
structure Valid (f : Frame) : Prop where
  version : f.version = 1
  kind_pos : 1 ≤ f.kind.raw.toNat
  kind_le : f.kind.raw.toNat ≤ 10
  payload_le : f.payload.toList.length ≤ 64 * 1024 * 1024

/-- The tests of `decode` on the fields are the protocol's conditions. -/
theorem valid_iff (f : Frame) :
    Valid f ↔ f.version = version ∧
      ¬ (f.kind.raw = 0 ∨ f.kind.raw > Enumeration.toRaw ProtocolMessageKind.errorMsg) ∧
      ¬ f.payload.size > maxPayload := by
  have hkind : (f.kind.raw = 0 ∨ f.kind.raw > Enumeration.toRaw ProtocolMessageKind.errorMsg) ↔
      ¬ (1 ≤ f.kind.raw.toNat ∧ f.kind.raw.toNat ≤ 10) := by
    have hmax : (Enumeration.toRaw ProtocolMessageKind.errorMsg).toNat = 10 := rfl
    rw [gt_iff_lt, UInt16.lt_iff_toNat_lt, hmax, ← UInt16.toNat_inj, UInt16.toNat_zero]
    omega
  have hsize : f.payload.size > maxPayload ↔ 64 * 1024 * 1024 < f.payload.toList.length := by
    have hmax : maxPayload.toNat = 64 * 1024 * 1024 := rfl
    rw [gt_iff_lt, UInt64.lt_iff_toNat_lt, hmax, Vec.toNat_size]
  rw [hkind, hsize, not_not, not_lt]
  exact ⟨fun h => ⟨h.version, ⟨h.kind_pos, h.kind_le⟩, h.payload_le⟩,
    fun h => ⟨h.1, h.2.1.1, h.2.1.2, h.2.2⟩⟩

/-- Below the payload bound the frame's length does not wrap. -/
theorem total_toNat {n : UInt64} (h : ¬ n > maxPayload) : (20 + n).toNat = 20 + n.toNat := by
  have hmax : maxPayload.toNat = 64 * 1024 * 1024 := rfl
  rw [gt_iff_lt, UInt64.lt_iff_toNat_lt, hmax] at h
  have h20 : (20 : UInt64).toNat = 20 := rfl
  rw [UInt64.toNat_add, h20]
  exact Nat.mod_eq_of_lt (by omega)

/-! ## The language of the codec -/

/-- **Reading an encoding back.** -/
theorem decode_encode {f : Frame} (h : Valid f) (t : List UInt8) :
    decode (encode f ++ t) = .frame f (20 + f.payload.toList.length) := by
  have hf := fields_encode f t
  have hlen : (encode f ++ t).length = 20 + f.payload.toList.length + t.length := by
    rw [List.length_append, encode_length]
  obtain ⟨hversion, hkind, hsize⟩ := (valid_iff f).1 h
  have htotal : (20 + f.payload.size).toNat = 20 + f.payload.toList.length := by
    rw [total_toNat hsize, Vec.toNat_size]
  simp only [decode, hf.magic, hf.version, hf.kind, hf.size, hf.header, hf.checksum, htotal,
    Vec.toNat_size, hf.payload]
  rw [if_neg (by omega), if_neg (by simp), if_neg (by simp [hversion]), if_neg hkind,
    if_neg hsize, if_neg (by omega), if_neg (by omega), if_neg (by simp [checksum])]

/-- An encoding of any other frame is rejected. -/
theorem decode_encode_of_not_valid {f : Frame} (h : ¬ Valid f) (t : List UInt8) :
    ∃ reason, decode (encode f ++ t) = .reject reason := by
  have hf := fields_encode f t
  have hlen : (encode f ++ t).length = 20 + f.payload.toList.length + t.length := by
    rw [List.length_append, encode_length]
  rw [valid_iff] at h
  simp only [decode, hf.magic, hf.version, hf.kind, hf.size]
  rw [if_neg (by omega), if_neg (by simp)]
  by_cases hversion : f.version = version
  · rw [if_neg (by simp [hversion])]
    by_cases hkind : f.kind.raw = 0 ∨
        f.kind.raw > Enumeration.toRaw ProtocolMessageKind.errorMsg
    · exact ⟨_, if_pos hkind⟩
    · rw [if_neg hkind]
      have hsize : f.payload.size > maxPayload := by
        by_contra hle
        exact h ⟨hversion, hkind, hle⟩
      rw [if_pos hsize]
      exact ⟨_, rfl⟩
  · exact ⟨_, if_pos hversion⟩

/-- Sixteen bytes that spell a frame's header fields are its header. -/
theorem header_of_fields {b : List UInt8} {g : Frame} (hlen : 16 ≤ b.length)
    (hmagic : getU32 b = magic) (hversion : getU16 (b.drop 4) = g.version)
    (hkind : getU16 (b.drop 6) = g.kind.raw) (hsize : getU64 (b.drop 8) = g.payload.size) :
    header g = b.take 16 := by
  have hsplit : b.take 16 =
      b.take 4 ++ ((b.drop 4).take 2 ++ ((b.drop 6).take 2 ++ (b.drop 8).take 8)) := by
    have h₁ : b.take 16 = b.take 4 ++ (b.drop 4).take 12 :=
      List.take_add (i := 4) (j := 12)
    have h₂ : (b.drop 4).take 12 = (b.drop 4).take 2 ++ ((b.drop 4).drop 2).take 10 :=
      List.take_add (i := 2) (j := 10)
    have h₃ : (b.drop 6).take 10 = (b.drop 6).take 2 ++ ((b.drop 6).drop 2).take 8 :=
      List.take_add (i := 2) (j := 8)
    rw [List.drop_drop] at h₂ h₃
    rw [h₁, h₂, h₃]
  rw [hsplit, header_eq, ← hmagic, ← hversion, ← hkind, ← hsize, digits_getU32 (by omega),
    digits_getU16 (by rw [List.length_drop]; omega),
    digits_getU16 (by rw [List.length_drop]; omega),
    digits_getU64 (by rw [List.length_drop]; omega)]

/-- **A frame decoded, inverted**: what its fields were read from. -/
theorem decode_eq_frame {b : List UInt8} {g : Frame} {c : ℕ} (h : decode b = .frame g c) :
    Valid g ∧ c = 20 + g.payload.toList.length ∧ c ≤ b.length ∧ getU32 b = magic ∧
      getU16 (b.drop 4) = g.version ∧ getU16 (b.drop 6) = g.kind.raw ∧
      getU64 (b.drop 8) = g.payload.size ∧ g.payload.toList =
        (b.drop 20).take g.payload.toList.length ∧
      ((({} : Crc32).update (b.take 16)).update g.payload.toList).value =
        getU32 (b.drop 16) := by
  unfold decode at h
  dsimp only at h
  split_ifs at h with hshort hmagic hversion hkind hsize hshort' htotal hcrc
  rw [total_toNat hsize] at htotal h
  have hpayload : ((b.drop 20).take (getU64 (b.drop 8)).toNat).length =
      (getU64 (b.drop 8)).toNat := List.length_take_of_le (by rw [List.length_drop]; omega)
  injection h with hg hc
  have hlen : g.payload.toList.length = (getU64 (b.drop 8)).toNat := by rw [← hg, hpayload]
  have hsize' : getU64 (b.drop 8) = g.payload.size := by
    apply UInt64.toNat_inj.1
    rw [Vec.toNat_size, hlen]
  refine ⟨?_, by omega, by omega, not_not.1 hmagic, by rw [← hg], by rw [← hg], hsize', ?_, ?_⟩
  · rw [valid_iff, ← hsize', ← hg]
    exact ⟨not_not.1 hversion, hkind, hsize⟩
  · rw [hlen, ← hg]
  · rw [← hg]
    exact not_not.1 hcrc

/-- **What is decoded was an encoding**: the bytes a frame was read from
are the frame's, and the frame is one the protocol admits. -/
theorem encode_of_decode {b : List UInt8} {g : Frame} {c : ℕ} (h : decode b = .frame g c) :
    Valid g ∧ c = 20 + g.payload.toList.length ∧ c ≤ b.length ∧ encode g = b.take c := by
  obtain ⟨hvalid, hc, hle, hmagic, hversion, hkind, hsize, hpayload, hcrc⟩ := decode_eq_frame h
  have hheader := header_of_fields (by omega) hmagic hversion hkind hsize
  have hchecksum : checksum g = getU32 (b.drop 16) := by rw [checksum, hheader, hcrc]
  refine ⟨hvalid, hc, hle, ?_⟩
  have hsplit : b.take (16 + (4 + g.payload.toList.length)) =
      b.take 16 ++ ((b.drop 16).take 4 ++ (b.drop 20).take g.payload.toList.length) := by
    rw [List.take_add, List.take_add, List.drop_drop]
  rw [hc, show 20 + g.payload.toList.length = 16 + (4 + g.payload.toList.length) by omega, hsplit,
    encode_eq, hheader, hchecksum, digits_getU32 (by rw [List.length_drop]; omega), ← hpayload]

/-- **Exactly the encodings of admitted frames are decoded**, whatever
follows them. -/
theorem decode_eq_frame_iff {b : List UInt8} {g : Frame} {c : ℕ} :
    decode b = .frame g c ↔
      Valid g ∧ c = 20 + g.payload.toList.length ∧ ∃ t, b = encode g ++ t := by
  constructor
  · intro h
    obtain ⟨hvalid, hc, -, hbytes⟩ := encode_of_decode h
    exact ⟨hvalid, hc, b.drop c, by rw [hbytes, List.take_append_drop]⟩
  · rintro ⟨hvalid, rfl, t, rfl⟩
    exact decode_encode hvalid t

/-- **The frame codec is an exact bijection on its language.** -/
theorem codec_exact :
    (∀ (f : Frame) (t : List UInt8),
      (Valid f → decode (encode f ++ t) = .frame f (20 + f.payload.toList.length)) ∧
        (¬ Valid f → ∃ reason, decode (encode f ++ t) = .reject reason)) ∧
      ∀ (b : List UInt8) (g : Frame) (c : ℕ), decode b = .frame g c → encode g = b.take c :=
  ⟨fun _ t => ⟨fun h => decode_encode h t, fun h => decode_encode_of_not_valid h t⟩,
    fun _ _ _ h => (encode_of_decode h).2.2.2⟩

/-- A barrier frame with three bytes behind it, and one of a later version. -/
theorem codec_exact_barrier :
    decode (encode { kind := .of .barrier } ++ [1, 2, 3]) = .frame { kind := .of .barrier } 20 ∧
      (∃ reason, decode (encode { version := 2 } ++ [1, 2, 3]) = .reject reason) ∧
      encode { kind := .of .barrier } =
        (encode { kind := .of .barrier } ++ [1, 2, 3]).take 20 := by
  have hbarrier : Valid { kind := .of .barrier } := ⟨rfl, by decide, by decide, by decide⟩
  have hframe := (codec_exact.1 { kind := .of .barrier } [1, 2, 3]).1 hbarrier
  exact ⟨hframe, (codec_exact.1 { version := 2 } [1, 2, 3]).2 fun h => absurd h.version (by decide),
    codec_exact.2 _ _ _ hframe⟩

end Protocol

end CollectiveFabric
