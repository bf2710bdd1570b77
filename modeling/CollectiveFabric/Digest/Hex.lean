import CollectiveFabric.Digest.Model.Hex
import Mathlib.Data.Fintype.Basic
import Mathlib.Data.List.Infix

/-!
# Reading printed digests

`from_hex` takes any string. What it reads of it is the longest run of
pairs of hexadecimal digits the string begins with, of at most thirty-two
pairs, and printing what it read gives this run in lower case. So a
digest that was printed is read back.
-/

namespace CollectiveFabric

namespace Sha256

variable {s p : List UInt8} {c v : UInt8} {n : ℕ}

/-- What holds of each of the 256 bytes holds of every byte. -/
theorem forall_byte {P : UInt8 → Prop} (h : ∀ i : Fin 256, P (UInt8.ofNat i)) (b : UInt8) : P b := by
  have hb := h ⟨b.toNat, b.toNat_lt⟩
  rwa [UInt8.ofNat_toNat] at hb

/-- A hexadecimal digit in lower case. -/
def lowerDigit (c : UInt8) : UInt8 := if 0x41 ≤ c ∧ c ≤ 0x46 then c + 0x20 else c

/-- **A digit is printed** as it was read, in lower case. -/
theorem hexDigits_hexVal (h : hexVal c = some v) :
    v.toNat < 16 ∧ hexDigits.getD v.toNat 0 = lowerDigit c := by
  have hall : ∀ c : UInt8, ∀ v ∈ hexVal c,
      v.toNat < 16 ∧ hexDigits.getD v.toNat 0 = lowerDigit c := forall_byte (by decide +kernel)
  exact hall c v h

/-- The halves of a byte put together. -/
theorem halves_of_lt {h l : UInt8} (hh : h.toNat < 16) (hl : l.toNat < 16) :
    ((((h <<< 4) ||| l) >>> 4) &&& 0xf) = h ∧ (((h <<< 4) ||| l) &&& 0xf) = l := by
  have hall : ∀ i j : Fin 16,
      ((((UInt8.ofNat i <<< 4) ||| UInt8.ofNat j) >>> 4) &&& 0xf) = UInt8.ofNat i ∧
        (((UInt8.ofNat i <<< 4) ||| UInt8.ofNat j) &&& 0xf) = UInt8.ofNat j := by decide +kernel
  have hij := hall ⟨h.toNat, hh⟩ ⟨l.toNat, hl⟩
  rwa [UInt8.ofNat_toNat, UInt8.ofNat_toNat] at hij

/-- **A byte is read** as it was printed. -/
theorem hexVal_hexDigits (b : UInt8) : ∃ h l,
    hexVal (hexDigits.getD ((b >>> 4) &&& 0xf).toNat 0) = some h ∧
      hexVal (hexDigits.getD (b &&& 0xf).toNat 0) = some l ∧ (h <<< 4) ||| l = b := by
  have hall : ∀ b : UInt8,
      hexVal (hexDigits.getD ((b >>> 4) &&& 0xf).toNat 0) = some ((b >>> 4) &&& 0xf) ∧
        hexVal (hexDigits.getD (b &&& 0xf).toNat 0) = some (b &&& 0xf) ∧
        (((b >>> 4) &&& 0xf) <<< 4) ||| (b &&& 0xf) = b := forall_byte (by decide +kernel)
  exact ⟨_, _, hall b⟩

/-- Of the strings `s` begins with, `p` is the longest of pairs of
hexadecimal digits, `n` pairs at most. -/
structure HexRun (n : ℕ) (s p : List UInt8) : Prop where
  begins : p <+: s
  pairs : ∃ k, k ≤ n ∧ p.length = 2 * k
  digits : ∀ c ∈ p, (hexVal c).isSome
  longest : ∀ q k, q <+: s → k ≤ n → q.length = 2 * k → (∀ c ∈ q, (hexVal c).isSome) →
    q.length ≤ p.length

/-- Nothing is read where no pair of digits stands. -/
theorem HexRun.nil (h : ∀ hi lo rest, s = hi :: lo :: rest → n ≠ 0 →
    ¬((hexVal hi).isSome ∧ (hexVal lo).isSome)) : HexRun n s [] where
  begins := List.nil_prefix
  pairs := ⟨0, Nat.zero_le n, rfl⟩
  digits := List.forall_mem_nil _
  longest := by
    intro q k hq hk hlength hdigits
    rcases q with _ | ⟨hi, _ | ⟨lo, q⟩⟩
    · exact le_rfl
    · rw [List.length_singleton] at hlength
      omega
    · obtain ⟨rest, rfl⟩ := hq
      refine absurd ⟨hdigits hi ?_, hdigits lo ?_⟩ (h hi lo (q ++ rest) rfl ?_)
      · exact List.mem_cons_self
      · exact List.mem_cons_of_mem _ List.mem_cons_self
      · rw [List.length_cons, List.length_cons] at hlength
        omega

/-- One more pair. -/
theorem HexRun.cons (h : HexRun n s p) {hi lo : UInt8} (hhi : (hexVal hi).isSome)
    (hlo : (hexVal lo).isSome) : HexRun (n + 1) (hi :: lo :: s) (hi :: lo :: p) where
  begins := by
    obtain ⟨rest, rfl⟩ := h.begins
    exact ⟨rest, rfl⟩
  pairs := by
    obtain ⟨k, hk, hlength⟩ := h.pairs
    refine ⟨k + 1, Nat.succ_le_succ hk, ?_⟩
    rw [List.length_cons, List.length_cons, hlength]
    omega
  digits := by
    intro c hc
    rcases List.mem_cons.1 hc with rfl | hc
    · exact hhi
    · rcases List.mem_cons.1 hc with rfl | hc
      · exact hlo
      · exact h.digits c hc
  longest := by
    intro q k hq hk hlength hdigits
    rcases q with _ | ⟨hi', _ | ⟨lo', q⟩⟩
    · exact Nat.zero_le _
    · exact Nat.succ_le_succ (Nat.zero_le _)
    · obtain ⟨rest, hrest⟩ := hq
      have htail : q <+: s := ⟨rest, (List.cons.inj (List.cons.inj hrest).2).2⟩
      rw [List.length_cons, List.length_cons] at hlength
      have hle := h.longest q (k - 1) htail (by omega) (by omega) fun c hc =>
        hdigits c (List.mem_cons_of_mem _ (List.mem_cons_of_mem _ hc))
      exact Nat.succ_le_succ (Nat.succ_le_succ hle)

/-- **What the loop reads**: the longest run, printed in lower case. -/
theorem readHex_reads (n : ℕ) (s : List UInt8) :
    ∃ p, HexRun n s p ∧ toHex (readHex n s) = p.map lowerDigit ∧
      p.length = 2 * (readHex n s).length := by
  induction n, s using readHex.induct with
  | case1 n hi lo rest h l hl hh ih =>
    obtain ⟨p, hrun, hprinted, hlength⟩ := ih
    have hread : readHex (n + 1) (hi :: lo :: rest) = ((h <<< 4) ||| l) :: readHex n rest := by
      simp only [readHex, hh, hl]
    obtain ⟨hlt, hhigh⟩ := hexDigits_hexVal hh
    obtain ⟨llt, hlow⟩ := hexDigits_hexVal hl
    obtain ⟨hfirst, hsecond⟩ := halves_of_lt hlt llt
    refine ⟨hi :: lo :: p, hrun.cons (by rw [hh]; rfl) (by rw [hl]; rfl), ?_, ?_⟩
    · rw [hread, toHex, List.flatMap_cons, ← toHex, hprinted, hfirst, hsecond, hhigh, hlow]
      rfl
    · rw [hread, List.length_cons, List.length_cons, List.length_cons, hlength]
      omega
  | case2 n hi lo rest hnot =>
    have hread : readHex (n + 1) (hi :: lo :: rest) = [] := by
      rw [readHex]
      split
      · next h l hh hl => exact (hnot h l hh hl).elim
      · rfl
    refine ⟨[], .nil fun hi' lo' rest' heq _ hboth => ?_, by rw [hread]; rfl, by rw [hread]; rfl⟩
    obtain ⟨rfl, rfl, rfl⟩ : hi = hi' ∧ lo = lo' ∧ rest = rest' := by simpa using heq
    obtain ⟨h, hh⟩ := Option.isSome_iff_exists.1 hboth.1
    obtain ⟨l, hl⟩ := Option.isSome_iff_exists.1 hboth.2
    exact hnot h l hh hl
  | case3 n s hnot =>
    have hread : readHex n s = [] := by
      rw [readHex]
      exact hnot
    refine ⟨[], .nil fun hi lo rest heq hn => ?_, by rw [hread]; rfl, by rw [hread]; rfl⟩
    obtain ⟨m, rfl⟩ := Nat.exists_eq_succ_of_ne_zero hn
    exact (hnot m hi lo rest rfl heq).elim

theorem length_readHex_le (n : ℕ) (s : List UInt8) : (readHex n s).length ≤ n := by
  obtain ⟨p, hrun, -, hlength⟩ := readHex_reads n s
  obtain ⟨k, hk, hpairs⟩ := hrun.pairs
  omega

theorem toHex_append (d d' : Digest) : toHex (d ++ d') = toHex d ++ toHex d' :=
  List.flatMap_append

/-- Zero bytes are printed as zeros. -/
theorem toHex_zeros (n : ℕ) : toHex (List.replicate n 0) = List.replicate (2 * n) 0x30 := by
  induction n with
  | zero => rfl
  | succ n ih =>
    have hzero : [hexDigits.getD (((0 : UInt8) >>> 4) &&& 0xf).toNat 0,
        hexDigits.getD ((0 : UInt8) &&& 0xf).toNat 0] = List.replicate 2 0x30 := by decide +kernel
    rw [List.replicate_succ, toHex, List.flatMap_cons, ← toHex, ih, hzero,
      List.replicate_append_replicate]
    congr 1
    omega

/-- **`from_hex` on any string** fills a digest from the longest run of
pairs of digits it begins with: printed, it is this run in lower case, and
zeros after it. -/
theorem fromHex_reads (s : List UInt8) : (fromHex s).length = 32 ∧ ∃ p, HexRun 32 (s.take 64) p ∧
    toHex (fromHex s) = p.map lowerDigit ++ List.replicate (64 - p.length) 0x30 := by
  obtain ⟨p, hrun, hprinted, hlength⟩ := readHex_reads 32 (s.take 64)
  have hle := length_readHex_le 32 (s.take 64)
  refine ⟨?_, p, hrun, ?_⟩
  · rw [fromHex, List.length_append, List.length_replicate]
    omega
  · rw [fromHex, toHex_append, toHex_zeros, hprinted]
    congr 2
    omega

theorem length_toHex (d : Digest) : (toHex d).length = 2 * d.length := by
  induction d with
  | nil => rfl
  | cons b d ih =>
    rw [toHex, List.flatMap_cons, ← toHex, List.length_append, ih]
    show 2 + 2 * d.length = 2 * (d.length + 1)
    omega

/-- A printed digest is read to its end. -/
theorem readHex_toHex (d : Digest) : readHex d.length (toHex d) = d := by
  induction d with
  | nil => rfl
  | cons b d ih =>
    obtain ⟨h, l, hh, hl, hbyte⟩ := hexVal_hexDigits b
    rw [toHex, List.flatMap_cons, ← toHex]
    show readHex (d.length + 1) (_ :: _ :: toHex d) = b :: d
    simp only [readHex, hh, hl, ih, hbyte]

/-- **A printed digest is read back.** -/
theorem fromHex_toHex {d : Digest} (h : d.length = 32) : fromHex (toHex d) = d := by
  have hall : (toHex d).take 64 = toHex d := List.take_of_length_le (by rw [length_toHex, h])
  have hread := readHex_toHex d
  rw [h] at hread
  rw [fromHex, hall, hread, h]
  exact List.append_nil d

end Sha256

end CollectiveFabric
