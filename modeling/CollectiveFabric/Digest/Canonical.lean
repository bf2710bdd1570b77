import CollectiveFabric.Common.BigEndian
import CollectiveFabric.Digest.Model.Canonical

/-!
# Canonical reads take back canonical writes

The writer's loop spells the big-endian numeral of its argument and the
reader's loop its value, so each typed read takes exactly the bytes of
the write of its type and returns what was written, whatever follows.
-/

namespace CollectiveFabric

open Common

/-! ## Integers -/

/-- **The loop of `push_be` spells the numeral** of its argument. -/
theorem beBytes_eq_digits (v : UInt64) {n : ℕ} (hn : n ≤ 8) :
    CanonicalWriter.beBytes v n = BigEndian.digits n v.toNat := by
  induction n with
  | zero => rfl
  | succ n ih =>
    rw [CanonicalWriter.beBytes, BigEndian.digits, ih (by omega)]
    congr 1
    apply UInt8.toNat_inj.1
    have hshift : (UInt64.ofNat (n * 8)).toNat % 64 = n * 8 := by
      rw [UInt64.toNat_ofNat']
      omega
    have hmask : (0xff : UInt64).toNat = 2 ^ 8 - 1 := rfl
    rw [UInt64.toNat_toUInt8, UInt64.toNat_and, UInt64.toNat_shiftRight, hshift, hmask,
      Nat.and_two_pow_sub_one_eq_mod, Nat.shiftRight_eq_div_pow, UInt8.toNat_ofNat',
      Nat.mul_comm n 8, pow_mul]
    norm_num

theorem beBytes_length (v : UInt64) {n : ℕ} (hn : n ≤ 8) :
    (CanonicalWriter.beBytes v n).length = n := by
  rw [beBytes_eq_digits v hn, BigEndian.digits_length]

/-- One turn of the loop of `read_be` shifts the next byte in. -/
theorem shiftIn_toNat {w : ℕ} (hw : 8 ≤ w) (v : BitVec w) (b : UInt8) :
    ((v <<< 8) ||| b.toBitVec.setWidth w).toNat = (v.toNat * 256 + b.toNat) % 2 ^ w := by
  have hb : b.toNat < 2 ^ 8 := b.toNat_lt
  have hpow : 2 ^ w = 2 ^ (w - 8) * 2 ^ 8 := by rw [← pow_add, Nat.sub_add_cancel hw]
  have hle : 2 ^ 8 ≤ 2 ^ w := Nat.pow_le_pow_right (by decide) hw
  have hset : (b.toBitVec.setWidth w).toNat = b.toNat := by
    rw [BitVec.toNat_setWidth, UInt8.toNat_toBitVec]
    exact Nat.mod_eq_of_lt (by omega)
  have hshl : (v <<< 8).toNat = (v.toNat % 2 ^ (w - 8)) <<< 8 := by
    rw [BitVec.toNat_shiftLeft, Nat.shiftLeft_eq, Nat.shiftLeft_eq, hpow, Nat.mul_mod_mul_right]
  have hsplit : v.toNat * 256 + b.toNat = b.toNat + 2 ^ 8 * v.toNat := by ring
  rw [BitVec.toNat_or, hset, hshl, ← Nat.shiftLeft_add_eq_or_of_lt hb, Nat.shiftLeft_eq, hsplit,
    hpow, Nat.mul_comm (2 ^ (w - 8)), Nat.mod_mul, Nat.add_mul_mod_self_left,
    Nat.mod_eq_of_lt hb, Nat.add_mul_div_left _ _ (by decide), Nat.div_eq_of_lt hb,
    Nat.zero_add]
  ring

/-- **The loop of `read_be` reads the value** its bytes spell, up to the
width of its type. -/
theorem foldBe_toNat {w : ℕ} (hw : 8 ≤ w) (bs : List UInt8) (v : BitVec w) :
    (CanonicalReader.foldBe w v bs).toNat =
      (v.toNat * 256 ^ bs.length + BigEndian.value bs) % 2 ^ w := by
  induction bs generalizing v with
  | nil => simp [CanonicalReader.foldBe, Nat.mod_eq_of_lt v.isLt]
  | cons b bs ih =>
    have hstep : CanonicalReader.foldBe w v (b :: bs) =
        CanonicalReader.foldBe w ((v <<< 8) ||| b.toBitVec.setWidth w) bs := rfl
    rw [hstep, ih, shiftIn_toNat hw, BigEndian.value_cons, List.length_cons, Nat.add_mod,
      Nat.mul_mod, Nat.mod_mod, ← Nat.mul_mod, ← Nat.add_mod]
    congr 1
    ring

/-- The `n` bytes a number is written in read back as the number, when it
fits both the bytes and the width it is read at. -/
theorem foldBe_beBytes_toNat {w n : ℕ} (hw : 8 ≤ w) (hn : n ≤ 8) {v : UInt64}
    (hv : v.toNat < 256 ^ n) (hv' : v.toNat < 2 ^ w) :
    (CanonicalReader.foldBe w 0 (CanonicalWriter.beBytes v n)).toNat = v.toNat := by
  rw [foldBe_toNat hw, beBytes_eq_digits v hn, BigEndian.value_digits_of_lt hv]
  simp only [BitVec.ofNat_eq_ofNat, BitVec.toNat_ofNat, Nat.zero_mod, Nat.zero_mul, Nat.zero_add]
  exact Nat.mod_eq_of_lt hv'

/-! ## What a write appends -/

namespace CanonicalWriter

theorem u64_buf (w : CanonicalWriter) (v : UInt64) :
    (w.u64 v).buf = w.buf ++ beBytes v 8 := rfl

theorem u32_buf (w : CanonicalWriter) (v : UInt32) :
    (w.u32 v).buf = w.buf ++ beBytes v.toUInt64 4 := rfl

theorem u8_buf (w : CanonicalWriter) (v : UInt8) : (w.u8 v).buf = w.buf ++ [v] := rfl

theorem boolean_buf (w : CanonicalWriter) (v : Bool) :
    (w.boolean v).buf = w.buf ++ [if v then 1 else 0] := rfl

theorem string_buf (w : CanonicalWriter) (s : Bytes) :
    (w.string s).buf = w.buf ++ (beBytes s.size 8 ++ s.toList) :=
  List.append_assoc ..

/-- A loop of writes appends the bytes of its items. -/
theorem foldl_buf {α : Type} {write : CanonicalWriter → α → CanonicalWriter}
    {bytes : α → List UInt8} (h : ∀ w a, (write w a).buf = w.buf ++ bytes a) (xs : List α)
    (w : CanonicalWriter) : (xs.foldl write w).buf = w.buf ++ xs.flatMap bytes := by
  induction xs generalizing w with
  | nil => simp
  | cons x xs ih => rw [List.foldl_cons, ih, h, List.flatMap_cons, List.append_assoc]

end CanonicalWriter

/-! ## Typed reads -/

namespace CanonicalReader

/-- The input a reader has left. -/
def rest (r : CanonicalReader) : List UInt8 := r.data.drop r.pos

theorem remaining_eq (r : CanonicalReader) : r.remaining = r.rest.length := by
  rw [remaining, rest, List.length_drop]

theorem rest_advance {r : CanonicalReader} {bs t : List UInt8} (h : r.rest = bs ++ t) {n : ℕ}
    (hn : n = bs.length) (hle : n ≤ r.remaining) : (r.advance n hle).rest = t := by
  have hdrop : r.data.drop (r.pos + n) = (r.data.drop r.pos).drop n := by rw [List.drop_drop]
  change r.data.drop (r.pos + n) = t
  rw [hdrop]
  change r.rest.drop n = t
  rw [h, hn, List.drop_left]

theorem le_remaining {r : CanonicalReader} {bs t : List UInt8} (h : r.rest = bs ++ t) :
    bs.length ≤ r.remaining := by
  rw [remaining_eq, h, List.length_append]
  omega

/-- A reader is at its end when nothing is left. -/
theorem atEnd_iff {r : CanonicalReader} : r.atEnd = true ↔ r.rest = [] := by
  have := r.pos_le
  rw [atEnd, rest, beq_iff_eq, List.drop_eq_nil_iff]
  omega

/-- **A typed read takes an encoding**: on its bytes followed by anything
it succeeds with the value and stops where they end. -/
def Takes {α : Type} (read : CanonicalReader → Option α × CanonicalReader) (bs : List UInt8)
    (a : α) : Prop :=
  ∀ r t, r.rest = bs ++ t → ∃ r', read r = (some a, r') ∧ r'.rest = t

theorem takes_u8 (v : UInt8) : Takes u8 [v] v := by
  intro r t h
  have hle : 1 ≤ r.remaining := le_remaining h
  have hget : r.data[r.pos]? = some v := by
    have h0 : r.rest[0]? = some v := by rw [h]; rfl
    rwa [rest, List.getElem?_drop, Nat.add_zero] at h0
  refine ⟨r.advance 1 hle, ?_, rest_advance h rfl hle⟩
  rw [u8, dif_neg (by omega), hget]

/-- **A big-endian read takes a big-endian write**, of a number that fits
the bytes it is written in and the width it is read at. -/
theorem readBe_beBytes {w n : ℕ} (hw : 8 ≤ w) (hn : n ≤ 8) {v : UInt64} (hv : v.toNat < 256 ^ n)
    {x : BitVec w} (hx : x.toNat = v.toNat) {r : CanonicalReader} {t : List UInt8}
    (h : r.rest = CanonicalWriter.beBytes v n ++ t) :
    ∃ r', readBe w r n = (some x, r') ∧ r'.rest = t := by
  have hbytes : (CanonicalWriter.beBytes v n).length = n := beBytes_length v hn
  have hle : n ≤ r.remaining := by
    have hle := le_remaining h
    rwa [hbytes] at hle
  have htake : (r.data.drop r.pos).take n = CanonicalWriter.beBytes v n := by
    change r.rest.take n = _
    rw [h, List.take_left' hbytes]
  have hvalue : foldBe w 0 (CanonicalWriter.beBytes v n) = x := by
    apply BitVec.eq_of_toNat_eq
    rw [foldBe_beBytes_toNat hw hn hv (hx ▸ x.isLt), hx]
  refine ⟨r.advance n hle, ?_, rest_advance h hbytes.symm hle⟩
  rw [readBe, dif_neg (by omega), htake, hvalue]

theorem takes_u16 (v : UInt16) : Takes u16 (CanonicalWriter.beBytes v.toUInt64 2) v := by
  intro r t h
  have hx : v.toBitVec.toNat = v.toUInt64.toNat := (UInt16.toNat_toUInt64 v).symm
  have hv : v.toUInt64.toNat < 256 ^ 2 := by
    rw [UInt16.toNat_toUInt64]
    exact v.toNat_lt
  obtain ⟨r', hread, hrest⟩ := readBe_beBytes (by decide) (by decide) hv hx h
  exact ⟨r', by rw [u16, hread]; rfl, hrest⟩

theorem takes_u32 (v : UInt32) : Takes u32 (CanonicalWriter.beBytes v.toUInt64 4) v := by
  intro r t h
  have hx : v.toBitVec.toNat = v.toUInt64.toNat := (UInt32.toNat_toUInt64 v).symm
  have hv : v.toUInt64.toNat < 256 ^ 4 := by
    rw [UInt32.toNat_toUInt64]
    exact v.toNat_lt
  obtain ⟨r', hread, hrest⟩ := readBe_beBytes (by decide) (by decide) hv hx h
  exact ⟨r', by rw [u32, hread]; rfl, hrest⟩

theorem takes_u64 (v : UInt64) : Takes u64 (CanonicalWriter.beBytes v 8) v := by
  intro r t h
  obtain ⟨r', hread, hrest⟩ :=
    readBe_beBytes (by decide) le_rfl v.toNat_lt (UInt64.toNat_toBitVec v) h
  exact ⟨r', by rw [u64, hread]; rfl, hrest⟩

/-- A signed number is written and read through its unsigned one. -/
theorem takes_i32 (v : Int32) : Takes i32 (CanonicalWriter.beBytes v.toUInt32.toUInt64 4) v := by
  intro r t h
  obtain ⟨r', hread, hrest⟩ := takes_u32 v.toUInt32 r t h
  exact ⟨r', by rw [i32, hread]; rfl, hrest⟩

theorem takes_i64 (v : Int64) : Takes i64 (CanonicalWriter.beBytes v.toUInt64 8) v := by
  intro r t h
  obtain ⟨r', hread, hrest⟩ := takes_u64 v.toUInt64 r t h
  exact ⟨r', by rw [i64, hread]; rfl, hrest⟩

theorem takes_boolean (b : Bool) : Takes boolean [if b then 1 else 0] b := by
  intro r t h
  obtain ⟨r', hread, hrest⟩ := takes_u8 _ r t h
  refine ⟨r', ?_, hrest⟩
  rw [boolean, hread]
  cases b <;> rfl

/-- A length-prefixed byte string takes its length and its bytes. -/
theorem takes_bytes (data : Bytes) :
    Takes bytes (CanonicalWriter.beBytes data.size 8 ++ data.toList) data := by
  intro r t h
  rw [List.append_assoc] at h
  obtain ⟨r', hread, hrest⟩ := takes_u64 _ r _ h
  have hlen : data.size.toNat = data.toList.length := Vec.toNat_size data
  have hle : data.size.toNat ≤ r'.remaining := hlen ▸ le_remaining hrest
  have htake : (r'.data.drop r'.pos).take data.size.toNat = data.toList := by
    change r'.rest.take _ = _
    rw [hrest, hlen, List.take_left]
  refine ⟨r'.advance data.size.toNat hle, ?_, rest_advance hrest hlen hle⟩
  rw [bytes, hread]
  simp only [dif_neg (not_lt.2 hle), htake]

theorem takes_string (s : Bytes) :
    Takes string (CanonicalWriter.beBytes s.size 8 ++ s.toList) s :=
  takes_bytes s

/-! ## What a successful read took -/

theorem rest_advance_eq (r : CanonicalReader) (n : ℕ) (h : n ≤ r.remaining) :
    (r.advance n h).rest = r.rest.drop n := by
  rw [rest, rest, List.drop_drop]
  rfl

/-- The eight bytes a 64-bit number was read from are its numeral. -/
theorem beBytes_foldBe {bs : List UInt8} (h : bs.length = 8) :
    CanonicalWriter.beBytes (UInt64.ofBitVec (foldBe 64 0 bs)) 8 = bs := by
  have hvalue : (UInt64.ofBitVec (foldBe 64 0 bs)).toNat = BigEndian.value bs := by
    change (foldBe 64 0 bs).toNat = _
    rw [foldBe_toNat (by decide)]
    have hlt := BigEndian.value_lt bs
    rw [h] at hlt
    simp only [BitVec.ofNat_eq_ofNat, BitVec.toNat_ofNat, Nat.zero_mod, Nat.zero_mul,
      Nat.zero_add]
    exact Nat.mod_eq_of_lt hlt
  rw [beBytes_eq_digits _ le_rfl, hvalue, ← h, BigEndian.digits_value]

/-- **A typed read that succeeds took bytes** that stand in `R` to its
value, and takes them wherever they stand. -/
def Gives {α : Type} (read : CanonicalReader → Option α × CanonicalReader)
    (R : List UInt8 → α → Prop) : Prop :=
  ∀ r a r', read r = (some a, r') → ∃ bs, R bs a ∧ r.rest = bs ++ r'.rest ∧ Takes read bs a

theorem gives_u8 : Gives u8 fun bs v => bs = [v] := by
  intro r v r' h
  rw [u8] at h
  split_ifs at h with hle
  · cases h
  · obtain ⟨hget, rfl⟩ := Prod.mk.injEq .. ▸ h
    refine ⟨[v], rfl, ?_, takes_u8 v⟩
    have hhead : r.rest[0]? = some v := by rwa [rest, List.getElem?_drop, Nat.add_zero]
    rw [rest_advance_eq]
    cases hrest : r.rest with
    | nil =>
      rw [hrest] at hhead
      cases hhead
    | cons b t =>
      rw [hrest] at hhead
      cases hhead
      rfl

theorem gives_u64 : Gives u64 fun bs v => bs = CanonicalWriter.beBytes v 8 := by
  intro r v r' h
  rw [u64, readBe] at h
  split_ifs at h with hle
  · cases h
  · obtain ⟨hv, rfl⟩ := Prod.mk.injEq .. ▸ h
    refine ⟨_, rfl, ?_, takes_u64 v⟩
    have hlen : (r.rest.take 8).length = 8 := by
      rw [List.length_take]
      rw [remaining_eq] at hle
      omega
    obtain rfl : UInt64.ofBitVec (foldBe 64 0 (r.rest.take 8)) = v := Option.some.inj hv
    rw [beBytes_foldBe hlen, rest_advance_eq, List.take_append_drop]

/-- The first read of an integer succeeds exactly if its bytes are there. -/
theorem u64_ne_none {bs : List UInt8} : (ofData bs).u64.1 ≠ none ↔ 8 ≤ bs.length := by
  have hremaining : (ofData bs).remaining = bs.length := rfl
  simp only [u64, readBe, hremaining]
  split_ifs with hshort
  · exact iff_of_false (fun h => h rfl) (by omega)
  · exact iff_of_true (Option.some_ne_none _) (by omega)

/-- A flag is any byte: zero reads as `false`, every other byte as
`true`. -/
theorem gives_boolean : Gives boolean fun bs b => ∃ v : UInt8, bs = [v] ∧ b = (v != 0) := by
  intro r b r' h
  rw [boolean] at h
  split at h
  · cases h
  · next v r₁ hread =>
    obtain ⟨hv, rfl⟩ := Prod.mk.injEq .. ▸ h
    obtain ⟨bs, rfl, hrest, htakes⟩ := gives_u8 r v r₁ hread
    refine ⟨[v], ⟨v, rfl, (Option.some.inj hv).symm⟩, hrest, fun q t hq => ?_⟩
    obtain ⟨q', hq', hrest'⟩ := htakes q t hq
    exact ⟨q', by rw [boolean, hq', ← Option.some.inj hv], hrest'⟩

theorem gives_bytes :
    Gives bytes fun bs data => bs = CanonicalWriter.beBytes data.size 8 ++ data.toList := by
  intro r data r' h
  rw [bytes] at h
  split at h
  · cases h
  · next len r₁ hread =>
    split_ifs at h with hle
    · cases h
    · obtain ⟨hdata, rfl⟩ := Prod.mk.injEq .. ▸ h
      refine ⟨_, rfl, ?_, takes_bytes data⟩
      obtain ⟨bs, rfl, hrest, -⟩ := gives_u64 r len r₁ hread
      obtain rfl := Option.some.inj hdata
      have hlen : (r₁.rest.take len.toNat).length = len.toNat := by
        rw [List.length_take]
        rw [remaining_eq] at hle
        omega
      have hsize : UInt64.ofNat (r₁.rest.take len.toNat).length = len := by
        rw [hlen, UInt64.ofNat_toNat]
      change r.rest = CanonicalWriter.beBytes (UInt64.ofNat (r₁.rest.take len.toNat).length) 8 ++
        r₁.rest.take len.toNat ++ _
      rw [hrest, hsize, rest_advance_eq, List.append_assoc, List.take_append_drop]

theorem gives_string :
    Gives string fun bs s => bs = CanonicalWriter.beBytes s.size 8 ++ s.toList :=
  gives_bytes

end CanonicalReader

end CollectiveFabric
