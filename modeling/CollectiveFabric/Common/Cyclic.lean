import Mathlib.Data.List.Basic
import Mathlib.Logic.Function.Iterate

/-!
# Cyclic redundancy registers

A register of `w` bits that shifts right and adds a polynomial whenever the
bit it drops is set: the reflected form of a cyclic redundancy check. Its
rounds are linear in exclusive or and, where the polynomial has its highest
bit set, injective. Two facts follow. A table of the rounds of every symbol
feeds a whole symbol at a time; and feeding symbols that fill the register
at most once is adding them, packed into one word, and going through all
rounds. So a symbol may as well be fed bit by bit, and two messages that
differ only in such a stretch leave the register in different states
whatever follows.
-/

namespace Common

namespace Cyclic

variable {w k : ℕ} (poly : BitVec w)

/-- One round. -/
def round (c : BitVec w) : BitVec w :=
  if c.getLsbD 0 then poly ^^^ (c >>> 1) else c >>> 1

/-- Several rounds. -/
def rounds (n : ℕ) (c : BitVec w) : BitVec w := (round poly)^[n] c

/-- Feed a symbol of `k` bits. -/
def feed (c : BitVec w) (b : BitVec k) : BitVec w := rounds poly k (c ^^^ b.setWidth w)

/-! ## Linearity -/

theorem round_xor (a b : BitVec w) : round poly (a ^^^ b) = round poly a ^^^ round poly b := by
  have hcancel (x y p : BitVec w) : p ^^^ x ^^^ (p ^^^ y) = x ^^^ y := by
    rw [BitVec.xor_comm p x, BitVec.xor_assoc, ← BitVec.xor_assoc p p y, BitVec.xor_self,
      BitVec.zero_xor]
  unfold round
  rw [BitVec.getLsbD_xor, BitVec.ushiftRight_xor_distrib]
  cases a.getLsbD 0 <;> cases b.getLsbD 0 <;>
    simp only [Bool.xor_false, Bool.xor_true, Bool.not_true, Bool.not_false, Bool.false_eq_true,
      if_true, if_false]
  · ac_rfl
  · ac_rfl
  · exact (hcancel ..).symm

theorem rounds_xor (n : ℕ) (a b : BitVec w) :
    rounds poly n (a ^^^ b) = rounds poly n a ^^^ rounds poly n b := by
  induction n generalizing a b with
  | zero => rfl
  | succ n ih =>
    simp only [rounds, Function.iterate_succ_apply, round_xor] at ih ⊢
    exact ih _ _

theorem rounds_add (m n : ℕ) (c : BitVec w) :
    rounds poly (m + n) c = rounds poly m (rounds poly n c) :=
  Function.iterate_add_apply ..

/-- Where the lowest bits are clear, rounds only shift. -/
theorem rounds_of_low {n : ℕ} {c : BitVec w} (h : ∀ i < n, c.getLsbD i = false) :
    rounds poly n c = c >>> n := by
  induction n with
  | zero => rfl
  | succ n ih =>
    have hshift := ih fun i hi => h i (by omega)
    have hlow : (c >>> n).getLsbD 0 = false := by
      rw [BitVec.getLsbD_ushiftRight]
      exact h n (by omega)
    rw [rounds] at hshift
    rw [rounds, Function.iterate_succ_apply', hshift, round, hlow, if_neg (by decide),
      BitVec.shiftRight_add]

/-- The lowest `k` bits, and the others. -/
theorem eq_low_xor_high (c : BitVec w) :
    c = (c.setWidth k).setWidth w ^^^ ((c >>> k) <<< k) := by
  refine BitVec.eq_of_getLsbD_eq fun i hi => ?_
  rw [BitVec.getLsbD_xor, BitVec.getLsbD_setWidth, BitVec.getLsbD_setWidth,
    BitVec.getLsbD_shiftLeft, BitVec.getLsbD_ushiftRight]
  by_cases hik : i < k
  · simp [hi, hik]
  · have hsum : k + (i - k) = i := by omega
    simp [hi, hik, hsum]

/-- Shifting up and down again loses the highest bits alone. -/
theorem shiftLeft_shiftRight {c : BitVec w} (h : ∀ i, w ≤ i + k → c.getLsbD i = false) :
    (c <<< k) >>> k = c := by
  refine BitVec.eq_of_getLsbD_eq fun i _ => ?_
  rw [BitVec.getLsbD_ushiftRight, BitVec.getLsbD_shiftLeft, Nat.add_sub_cancel_left]
  by_cases hik : k + i < w
  · simp [hik]
  · rw [h i (by omega), Bool.and_false]

theorem rounds_shiftLeft {c : BitVec w} (h : ∀ i, w ≤ i + k → c.getLsbD i = false) :
    rounds poly k (c <<< k) = c := by
  rw [rounds_of_low, shiftLeft_shiftRight h]
  intro i hi
  rw [BitVec.getLsbD_shiftLeft]
  simp [hi]

/-- **A symbol at a time**: the rounds of the lowest bits, which a table of
all symbols gives, and the others moved down. -/
theorem feed_eq (c : BitVec w) (b : BitVec k) :
    feed poly c b =
      rounds poly k (((c ^^^ b.setWidth w).setWidth k).setWidth w) ^^^ (c >>> k) := by
  have hsymbol : (b.setWidth w) >>> k = 0#w := by
    refine BitVec.eq_of_getLsbD_eq fun i _ => ?_
    rw [BitVec.getLsbD_ushiftRight, BitVec.getLsbD_setWidth, BitVec.getLsbD_of_ge b _ (by omega),
      Bool.and_false, BitVec.getLsbD_zero]
  have hhigh : (c ^^^ b.setWidth w) >>> k = c >>> k := by
    rw [BitVec.ushiftRight_xor_distrib, hsymbol, BitVec.xor_zero]
  have htop (i : ℕ) (hi : w ≤ i + k) : (c >>> k).getLsbD i = false := by
    rw [BitVec.getLsbD_ushiftRight, BitVec.getLsbD_of_ge c _ (by omega)]
  have hsplit := eq_low_xor_high (k := k) (c ^^^ b.setWidth w)
  rw [hhigh] at hsplit
  rw [feed]
  conv => lhs; rw [hsplit]
  rw [rounds_xor, rounds_shiftLeft poly htop]

/-! ## Injectivity -/

variable {poly}

/-- A round that ends at zero began there: a dropped bit leaves the
polynomial's highest bit behind. -/
theorem eq_zero_of_round (hpoly : poly.msb = true) {c : BitVec w} (h : round poly c = 0#w) :
    c = 0#w := by
  have hw : 0 < w := by
    by_contra hzero
    obtain rfl : w = 0 := by omega
    rw [BitVec.msb_eq_getLsbD_last, BitVec.getLsbD_of_ge poly _ (by omega)] at hpoly
    cases hpoly
  have hlow : c.getLsbD 0 = false := by
    by_contra hset
    rw [Bool.not_eq_false] at hset
    rw [round, hset, if_pos rfl] at h
    have hbit := congrArg (fun x : BitVec w => x.getLsbD (w - 1)) h
    simp only [BitVec.getLsbD_xor, BitVec.getLsbD_ushiftRight, BitVec.getLsbD_zero] at hbit
    rw [← BitVec.msb_eq_getLsbD_last, hpoly, BitVec.getLsbD_of_ge c _ (by omega)] at hbit
    cases hbit
  rw [round, hlow, if_neg (by decide)] at h
  refine BitVec.eq_of_getLsbD_eq fun i _ => ?_
  cases i with
  | zero => rw [hlow, BitVec.getLsbD_zero]
  | succ i =>
    have hbit := congrArg (fun x : BitVec w => x.getLsbD i) h
    simp only [BitVec.getLsbD_ushiftRight, BitVec.getLsbD_zero] at hbit
    rw [Nat.add_comm i 1, hbit, BitVec.getLsbD_zero]

/-- **Rounds are injective.** -/
theorem rounds_inj (hpoly : poly.msb = true) {n : ℕ} {a b : BitVec w} :
    rounds poly n a = rounds poly n b ↔ a = b := by
  have hzero (n : ℕ) (c : BitVec w) (h : rounds poly n c = 0#w) : c = 0#w := by
    induction n with
    | zero => exact h
    | succ n ih =>
      rw [rounds, Function.iterate_succ_apply'] at h
      exact ih (eq_zero_of_round hpoly h)
  refine ⟨fun h => ?_, fun h => by rw [h]⟩
  have hdiff := hzero n (a ^^^ b) (by rw [rounds_xor, h, BitVec.xor_self])
  exact BitVec.xor_eq_zero_iff.1 hdiff

theorem feed_inj (hpoly : poly.msb = true) {a c : BitVec w} {b : BitVec k} :
    feed poly a b = feed poly c b ↔ a = c := by
  rw [feed, feed, rounds_inj hpoly]
  exact BitVec.xor_left_inj _

/-- **A difference survives** whatever is fed to both registers. -/
theorem foldl_feed_inj (hpoly : poly.msb = true) (bs : List (BitVec k)) {a c : BitVec w} :
    bs.foldl (feed poly) a = bs.foldl (feed poly) c ↔ a = c := by
  induction bs generalizing a c with
  | nil => rfl
  | cons b bs ih => rw [List.foldl_cons, List.foldl_cons, ih, feed_inj hpoly]

/-! ## Words of symbols -/

/-- Symbols packed into a word, the first one lowest. -/
def pack (w : ℕ) {k : ℕ} : List (BitVec k) → BitVec w
  | [] => 0#w
  | b :: bs => b.setWidth w ^^^ (pack w bs <<< k)

theorem getLsbD_pack_cons (b : BitVec k) (bs : List (BitVec k)) {i : ℕ} (hi : i < w) :
    (pack w (b :: bs)).getLsbD i =
      if i < k then b.getLsbD i else (pack w bs).getLsbD (i - k) := by
  rw [pack, BitVec.getLsbD_xor, BitVec.getLsbD_setWidth, BitVec.getLsbD_shiftLeft]
  split_ifs with hik
  · simp [hi, hik]
  · simp [hi, hik, BitVec.getLsbD_of_ge b i (by omega)]

/-- A packed word has no bits beyond its symbols. -/
theorem getLsbD_pack_of_ge (bs : List (BitVec k)) {i : ℕ} (hi : bs.length * k ≤ i) :
    (pack w bs).getLsbD i = false := by
  induction bs generalizing i with
  | nil => exact BitVec.getLsbD_zero
  | cons b bs ih =>
    rw [List.length_cons, Nat.succ_mul] at hi
    by_cases hiw : i < w
    · rw [getLsbD_pack_cons b bs hiw, if_neg (by omega)]
      exact ih (by omega)
    · exact BitVec.getLsbD_of_ge _ i (by omega)

/-- **Packing loses nothing** of symbols the word has room for. -/
theorem pack_inj {bs bs' : List (BitVec k)} (hlength : bs.length = bs'.length)
    (hfits : bs.length * k ≤ w) (h : pack w bs = pack w bs') : bs = bs' := by
  induction bs generalizing bs' with
  | nil => exact (List.eq_nil_of_length_eq_zero hlength.symm).symm
  | cons b bs ih =>
    obtain ⟨b', bs', rfl⟩ := List.exists_cons_of_length_eq_add_one hlength.symm
    rw [List.length_cons, Nat.succ_mul] at hfits
    have hlength : bs.length = bs'.length := by simpa using hlength
    have hbits (i : ℕ) (hi : i < w) :
        (if i < k then b.getLsbD i else (pack w bs).getLsbD (i - k)) =
          if i < k then b'.getLsbD i else (pack w bs').getLsbD (i - k) := by
      rw [← getLsbD_pack_cons b bs hi, ← getLsbD_pack_cons b' bs' hi, h]
    have hhead : b = b' := by
      refine BitVec.eq_of_getLsbD_eq fun i hi => ?_
      have hbit := hbits i (by omega)
      rwa [if_pos hi, if_pos hi] at hbit
    have htail : pack w bs = pack w bs' := by
      refine BitVec.eq_of_getLsbD_eq fun i hi => ?_
      by_cases hik : i + k < w
      · have hbit := hbits (i + k) hik
        rwa [if_neg (by omega), if_neg (by omega), Nat.add_sub_cancel] at hbit
      · -- beyond the symbols both words are clear
        have hclear : bs'.length * k ≤ i := by
          rw [← hlength]
          omega
        rw [getLsbD_pack_of_ge bs (by omega), getLsbD_pack_of_ge bs' hclear]
    rw [hhead, ih hlength (by omega) htail]

/-- **Feeding symbols the register has room for** is adding their word and
going through its rounds. -/
theorem foldl_feed (poly : BitVec w) (bs : List (BitVec k)) (hfits : bs.length * k ≤ w)
    (c : BitVec w) :
    bs.foldl (feed poly) c = rounds poly (bs.length * k) (c ^^^ pack w bs) := by
  induction bs generalizing c with
  | nil =>
    rw [List.length_nil, Nat.zero_mul, pack, BitVec.xor_zero]
    rfl
  | cons b bs ih =>
    rw [List.length_cons, Nat.succ_mul] at hfits
    have hword : rounds poly k (pack w bs <<< k) = pack w bs :=
      rounds_shiftLeft poly fun i hi => getLsbD_pack_of_ge bs (by omega)
    rw [List.foldl_cons, ih (by omega), List.length_cons, Nat.succ_mul, rounds_add, feed, pack,
      ← BitVec.xor_assoc, rounds_xor poly k _ (pack w bs <<< k), hword]

/-! ## A bit at a time -/

variable (poly)

/-- Shift one bit of the message in. -/
def shiftIn (c : BitVec w) (b : Bool) : BitVec w :=
  if c.getLsbD 0 != b then poly ^^^ (c >>> 1) else c >>> 1

/-- The bits of a symbol, the lowest first. -/
def bits (b : BitVec k) : List Bool := (List.range k).map b.getLsbD

/-- A bit is fed as a symbol of its own. -/
theorem feed_ofBool (hw : 0 < w) (c : BitVec w) (b : Bool) :
    feed poly c (BitVec.ofBool b) = shiftIn poly c b := by
  have hshift : (c ^^^ (BitVec.ofBool b).setWidth w) >>> 1 = c >>> 1 := by
    refine BitVec.eq_of_getLsbD_eq fun i _ => ?_
    rw [BitVec.getLsbD_ushiftRight, BitVec.getLsbD_ushiftRight, BitVec.getLsbD_xor,
      BitVec.getLsbD_setWidth, BitVec.getLsbD_of_ge (BitVec.ofBool b) _ (by omega),
      Bool.and_false, Bool.xor_false]
  have hlow : (c ^^^ (BitVec.ofBool b).setWidth w).getLsbD 0 = (c.getLsbD 0 != b) := by
    rw [BitVec.getLsbD_xor, BitVec.getLsbD_setWidth]
    simp [hw]
  show round poly (c ^^^ (BitVec.ofBool b).setWidth w) = _
  rw [round, shiftIn, hshift, hlow]

/-- Bits packed into a word stand in their places. -/
theorem getLsbD_pack_ofBool (bs : List Bool) {i : ℕ} (hi : i < w) :
    (pack w (bs.map BitVec.ofBool)).getLsbD i = bs.getD i false := by
  induction bs generalizing i with
  | nil => simp [pack]
  | cons b bs ih =>
    rw [List.map_cons, getLsbD_pack_cons _ _ hi]
    cases i with
    | zero => simp
    | succ i =>
      rw [if_neg (by omega), Nat.add_sub_cancel, ih (by omega)]
      rfl

theorem pack_bits (b : BitVec k) : pack w ((bits b).map BitVec.ofBool) = b.setWidth w := by
  refine BitVec.eq_of_getLsbD_eq fun i hi => ?_
  rw [getLsbD_pack_ofBool _ hi, BitVec.getLsbD_setWidth, bits, List.getD_eq_getElem?_getD,
    List.getElem?_map]
  by_cases hik : i < k
  · simp [hi, List.getElem?_range hik]
  · rw [List.getElem?_eq_none (by rw [List.length_range]; omega),
      BitVec.getLsbD_of_ge b i (by omega)]
    simp

/-- **Feeding a symbol is shifting in its bits**, the lowest first, where
the register has room for it. -/
theorem foldl_shiftIn_bits (hw : 0 < w) (hfits : k ≤ w) (c : BitVec w) (b : BitVec k) :
    (bits b).foldl (shiftIn poly) c = feed poly c b := by
  have hlength : ((bits b).map BitVec.ofBool).length * 1 = k := by simp [bits]
  have hfeed : (bits b).foldl (shiftIn poly) c =
      ((bits b).map BitVec.ofBool).foldl (feed poly) c := by
    rw [List.foldl_map]
    exact List.foldl_ext _ _ _ fun c b _ => (feed_ofBool poly hw c b).symm
  rw [hfeed, foldl_feed poly _ (by omega), hlength, pack_bits, feed]

/-- A message of symbols is the message of their bits. -/
theorem foldl_shiftIn (hw : 0 < w) (hfits : k ≤ w) (bs : List (BitVec k)) (c : BitVec w) :
    (bs.flatMap bits).foldl (shiftIn poly) c = bs.foldl (feed poly) c := by
  induction bs generalizing c with
  | nil => rfl
  | cons b bs ih =>
    rw [List.flatMap_cons, List.foldl_append, foldl_shiftIn_bits poly hw hfits, ih,
      List.foldl_cons]

variable {poly}

/-! ## Bursts -/

/-- Two messages of one length differ, and only within `m` consecutive
symbols. -/
structure Burst {α : Type} (m : ℕ) (xs ys : List α) : Prop where
  length_eq : xs.length = ys.length
  ne : xs ≠ ys
  within : ∃ start, ∀ i, xs[i]? ≠ ys[i]? → start ≤ i ∧ i < start + m

theorem Burst.map {α β : Type} {f : α → β} (hf : Function.Injective f) {m : ℕ} {xs ys : List α}
    (h : Burst m xs ys) : Burst m (xs.map f) (ys.map f) := by
  obtain ⟨hlength, hne, start, hwithin⟩ := h
  refine ⟨by rw [List.length_map, List.length_map, hlength],
    fun heq => hne (List.map_injective_iff.2 hf heq), start, fun i hi => hwithin i fun heq => hi ?_⟩
  rw [List.getElem?_map, List.getElem?_map, heq]

/-- Messages no longer than the window. -/
theorem Burst.of_length_le {α : Type} {m : ℕ} {xs ys : List α} (hlength : xs.length = ys.length)
    (hle : xs.length ≤ m) (hne : xs ≠ ys) : Burst m xs ys := by
  refine ⟨hlength, hne, 0, fun i hi => ⟨Nat.zero_le i, ?_⟩⟩
  by_contra hge
  rw [List.getElem?_eq_none (by omega), List.getElem?_eq_none (by omega)] at hi
  exact hi rfl

/-- What leads both messages may be anything. -/
theorem Burst.append_left {α : Type} {m : ℕ} {xs ys : List α} (zs : List α) (h : Burst m xs ys) :
    Burst m (zs ++ xs) (zs ++ ys) := by
  obtain ⟨hlength, hne, start, hwithin⟩ := h
  refine ⟨by rw [List.length_append, List.length_append, hlength],
    fun heq => hne (List.append_cancel_left heq), zs.length + start, fun i hi => ?_⟩
  by_cases hlt : i < zs.length
  · rw [List.getElem?_append_left hlt, List.getElem?_append_left hlt] at hi
    exact absurd rfl hi
  · rw [List.getElem?_append_right (by omega), List.getElem?_append_right (by omega)] at hi
    have := hwithin _ hi
    omega

theorem Burst.append_right {α : Type} {m : ℕ} {xs ys : List α} (zs : List α) (h : Burst m xs ys) :
    Burst m (xs ++ zs) (ys ++ zs) := by
  obtain ⟨hlength, hne, start, hwithin⟩ := h
  refine ⟨by rw [List.length_append, List.length_append, hlength],
    fun heq => hne (List.append_cancel_right heq), start, fun i hi => hwithin i fun heq => hi ?_⟩
  by_cases hlt : i < xs.length
  · rw [List.getElem?_append_left hlt, List.getElem?_append_left (hlength ▸ hlt), heq]
  · rw [List.getElem?_append_right (by omega), List.getElem?_append_right (by omega), hlength]

/-- **The shape of a burst.** -/
theorem Burst.exists_append {α : Type} {m : ℕ} {xs ys : List α} (h : Burst m xs ys) :
    ∃ pre mid mid' post, xs = pre ++ (mid ++ post) ∧ ys = pre ++ (mid' ++ post) ∧
      mid.length = mid'.length ∧ mid.length ≤ m ∧ mid ≠ mid' := by
  obtain ⟨hlength, hne, start, hwithin⟩ := h
  have hsame (i : ℕ) (hi : i < start ∨ start + m ≤ i) : xs[i]? = ys[i]? := by
    by_contra hdiff
    obtain ⟨hge, hlt⟩ := hwithin i hdiff
    omega
  have hpre : xs.take start = ys.take start := by
    refine List.ext_getElem? fun i => ?_
    rw [List.getElem?_take, List.getElem?_take]
    split_ifs with hi
    · exact hsame i (.inl hi)
    · rfl
  have hpost : xs.drop (start + m) = ys.drop (start + m) := by
    refine List.ext_getElem? fun i => ?_
    rw [List.getElem?_drop, List.getElem?_drop]
    exact hsame _ (.inr (Nat.le_add_right ..))
  have hsplit (zs : List α) :
      zs = zs.take start ++ ((zs.drop start).take m ++ zs.drop (start + m)) := by
    rw [← List.drop_drop, List.take_append_drop, List.take_append_drop]
  refine ⟨xs.take start, (xs.drop start).take m, (ys.drop start).take m, xs.drop (start + m),
    hsplit xs, by rw [hpre, hpost]; exact hsplit ys, ?_, List.length_take_le .., ?_⟩
  · rw [List.length_take, List.length_take, List.length_drop, List.length_drop, hlength]
  · intro hmid
    refine hne ?_
    rw [hsplit xs, hpre, hmid, hpost]
    exact (hsplit ys).symm

/-- **Bursts are detected.** Messages that differ only in a stretch the
register has room for leave it in different states. -/
theorem foldl_feed_ne (hpoly : poly.msb = true) {m : ℕ} (hfits : m * k ≤ w)
    {bs bs' : List (BitVec k)} (h : Burst m bs bs') (c : BitVec w) :
    bs.foldl (feed poly) c ≠ bs'.foldl (feed poly) c := by
  obtain ⟨pre, mid, mid', post, rfl, rfl, hlength, hle, hne⟩ := h.exists_append
  have hroom : mid.length * k ≤ w := Nat.le_trans (Nat.mul_le_mul_right k hle) hfits
  rw [List.foldl_append, List.foldl_append, List.foldl_append, List.foldl_append, ne_eq,
    foldl_feed_inj hpoly, foldl_feed poly mid hroom, foldl_feed poly mid' (hlength ▸ hroom),
    ← hlength, rounds_inj hpoly]
  intro heq
  exact hne (pack_inj hlength hroom ((BitVec.xor_right_inj _).1 heq))

end Cyclic

end Common
