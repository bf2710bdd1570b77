import CollectiveFabric.Store.Frame
import Mathlib.Logic.Function.Iterate

/-!
# What an accepted payload looks like

Read from the decoder's side: the bytes a reader took when it returned a
record, against the bytes the encoder writes for that record. They differ
in one kind of place. A flag is written as 0 or 1, but any byte other
than 0 is read as `true`, so a payload is the encoding of what it decodes
to exactly when each of its flags is 0 or 1. Where the flags stand in a
payload follows from its counts and lengths alone: `flagBytes` finds
them without decoding anything.

The same view shows that no payload is a strict prefix of another: a
reader takes the same bytes wherever they stand.
-/

namespace CollectiveFabric

namespace Store

open Common Reader CanonicalReader

/-! ## Finding the flags -/

/-- A walk over a payload: what is left of it and the flags passed. -/
structure Scan where
  left : List UInt8
  flags : List UInt8

namespace Scan

def skip (s : Scan) (n : ℕ) : Scan := { s with left := s.left.drop n }

def word (s : Scan) : Scan := s.skip 8

def byte (s : Scan) : Scan := s.skip 1

def flag (s : Scan) : Scan := ⟨s.left.drop 1, s.flags ++ s.left.take 1⟩

/-- The number the next eight bytes spell. -/
def number (s : Scan) : ℕ := BigEndian.value (s.left.take 8)

def text (s : Scan) : Scan := s.word.skip s.number

def participant (s : Scan) : Scan := s.word.word.word.word.word.word.word.flag

def group (s : Scan) : Scan :=
  let s := s.word.word.word.word.word.word.byte.text
  participant^[s.number] s.word

def measurement (s : Scan) : Scan :=
  s.word.word.word.word.byte.word.word.word.word.byte.byte.word.word.flag

def health (s : Scan) : Scan :=
  if s.left.head? = some 0 then s.flag else s.flag.byte.word.word.text

def backend (s : Scan) : Scan := s.word.word.text

/-- The walk up to the count of the backends. -/
def toBackends (s : Scan) : Scan :=
  let s := s.word.word.word
  let s := group^[s.number] s.word
  let s := measurement^[s.number] s.word
  s.health

def state (s : Scan) : Scan :=
  let s := s.word.word.word
  let s := group^[s.number] s.word
  let s := measurement^[s.number] s.word
  let s := s.health
  let s := backend^[s.number] s.word
  s.word.word

end Scan

/-- The flags of a payload. -/
def flagBytes (payload : List UInt8) : List UInt8 := (Scan.state ⟨payload, []⟩).flags

/-- The ids of a payload's backends. -/
def backendIds (payload : List UInt8) : List ℕ :=
  let s := Scan.toBackends ⟨payload, []⟩
  (List.range s.number).map fun i => (Scan.backend^[i] s.word).number

/-- Each flag of a payload is 0 or 1. -/
def PlainFlags (payload : List UInt8) : Prop := ∀ f ∈ flagBytes payload, f = 0 ∨ f = 1

instance (payload : List UInt8) : Decidable (PlainFlags payload) :=
  inferInstanceAs (Decidable (∀ f ∈ flagBytes payload, f = 0 ∨ f = 1))

namespace Scan

variable {bs cs fs gs t : List UInt8} {w : Scan → Scan}

theorem length_word (v : UInt64) : (Store.word v).length = 8 := beBytes_length v le_rfl

theorem word_mk (v : UInt64) : word ⟨Store.word v ++ t, fs⟩ = ⟨t, fs⟩ := by
  rw [word, skip, List.drop_left' (length_word v)]

theorem byte_mk (v : UInt8) : byte ⟨[v] ++ t, fs⟩ = ⟨t, fs⟩ := rfl

theorem flag_mk (v : UInt8) : flag ⟨[v] ++ t, fs⟩ = ⟨t, fs ++ [v]⟩ := rfl

theorem number_mk (v : UInt64) : number ⟨Store.word v ++ t, fs⟩ = v.toNat := by
  rw [number, List.take_left' (length_word v), Store.word, beBytes_eq_digits v le_rfl,
    BigEndian.value_digits_of_lt v.toNat_lt]

theorem text_mk (s : Bytes) : text ⟨Store.text s ++ t, fs⟩ = ⟨t, fs⟩ := by
  have hword : Store.text s ++ t = Store.word s.size ++ (s.toList ++ t) := List.append_assoc ..
  rw [text, hword, word_mk, number_mk, skip, Vec.toNat_size, List.drop_left]

/-- **A walk passes the bytes `bs`** and finds the flags `fs` in them. -/
def Passes (w : Scan → Scan) (bs fs : List UInt8) : Prop :=
  ∀ t gs, w ⟨bs ++ t, gs⟩ = ⟨t, gs ++ fs⟩

/-- One more turn of a walk. -/
theorem Passes.iterate {k : ℕ} (h : Passes w^[k] bs fs) (h' : Passes w cs gs) :
    Passes w^[k + 1] (bs ++ cs) (fs ++ gs) := by
  intro t hs
  rw [Function.iterate_succ_apply', List.append_assoc, h, h', List.append_assoc]

end Scan

/-! ## Encodings up to their flags -/

/-- **The bytes `bs` spell the encoding `enc` but for their flags `fs`**:
they are as long, and are it exactly when the flags are 0 or 1. -/
structure Spells (enc fs bs : List UInt8) : Prop where
  length : enc.length = bs.length
  plain : enc = bs ↔ ∀ f ∈ fs, f = 0 ∨ f = 1

namespace Spells

variable {enc enc' fs fs' bs bs' : List UInt8}

theorem refl (bs : List UInt8) : Spells bs [] bs := ⟨rfl, by simp⟩

theorem append (h : Spells enc fs bs) (h' : Spells enc' fs' bs') :
    Spells (enc ++ enc') (fs ++ fs') (bs ++ bs') := by
  refine ⟨by rw [List.length_append, List.length_append, h.length, h'.length], ?_⟩
  have hsplit : enc ++ enc' = bs ++ bs' ↔ enc = bs ∧ enc' = bs' :=
    ⟨fun heq => List.append_inj heq h.length, fun ⟨h₁, h₂⟩ => by rw [h₁, h₂]⟩
  rw [hsplit, h.plain, h'.plain, List.forall_mem_append]

/-- What is written the same way leads. -/
theorem lead (cs : List UInt8) (h : Spells enc fs bs) : Spells (cs ++ enc) fs (cs ++ bs) :=
  (refl cs).append h

/-- A flag spells the truth value it is read as. -/
theorem flag (v : UInt8) : Spells (flag (v != 0)) [v] [v] := by
  refine ⟨rfl, ?_⟩
  unfold Store.flag
  by_cases h : v = 0
  · rw [h]
    exact iff_of_true rfl fun f hf => .inl (List.mem_singleton.1 hf)
  · have hne : (v != 0) = true := bne_iff_ne.2 h
    simp [hne, h, eq_comm]

end Spells

/-- **The bytes a record was read from**: the walk over such a record
passes them, and they spell its encoding but for their flags. -/
def Taken (w : Scan → Scan) (enc bs : List UInt8) : Prop :=
  ∃ fs, Scan.Passes w bs fs ∧ Spells enc fs bs

/-- Backends have no flags, so their bytes are their encodings. -/
theorem Scan.eq_of_passes_backend {n : ℕ} {enc bs fs : List UInt8}
    (hpass : Scan.Passes Scan.backend^[n] bs fs) (hspell : Spells enc fs bs) : bs = enc := by
  have hflags (k : ℕ) (s : Scan) : (Scan.backend^[k] s).flags = s.flags := by
    induction k generalizing s with
    | zero => rfl
    | succ k ih =>
      rw [Function.iterate_succ_apply, ih]
      rfl
  have hnone : fs = [] := by
    have hend := hflags n ⟨bs ++ [], []⟩
    rw [hpass] at hend
    exact hend
  exact (hspell.plain.2 (by rw [hnone]; exact List.forall_mem_nil _)).symm

/-! ## What the decoder's steps took -/

/-- A decoder that takes bytes in relation `R` to its value, and throws
`DECODE` errors. -/
abbrev Took {α : Type} (p : Decoder α) (R : List UInt8 → α → Prop) : Prop :=
  Consumes CanonicalReader.rest (fun e : Error => e.code = .decode) p R

variable {α τ : Type} {S : List UInt8 → τ → Prop}

/-- A read followed by the rest of a decoder. -/
theorem took_need_bind {read : CanonicalReader → Option α × CanonicalReader}
    {R : List UInt8 → α → Prop} {f : α → Decoder τ} {message : String} (h : Gives read R)
    (hf : ∀ bs a, R bs a → Took (f a) fun cs c => S (bs ++ cs) c) :
    Took (need read message >>= f) S := by
  refine Consumes.bind (R := R) ⟨fun r a r' hr => ?_, fun r e hr => ?_⟩ hf
  · unfold need at hr
    split at hr
    · next a' r₁ hread =>
      obtain ⟨rfl, rfl⟩ : a' = a ∧ r₁ = r' := by
        injection hr with hr
        injection hr with h₁ h₂
        exact ⟨h₁, h₂⟩
      obtain ⟨bs, hR, hrest, htakes⟩ := h r a' r₁ hread
      refine ⟨bs, hR, hrest, fun q t hq => ?_⟩
      obtain ⟨q', hq', hrest'⟩ := htakes q t hq
      exact ⟨q', by rw [need, hq'], hrest'⟩
    · cases hr
  · unfold need at hr
    split at hr
    · cases hr
    · cases hr
      rfl

/-- A 64-bit read followed by the rest of a decoder. -/
theorem took_word_bind {f : UInt64 → Decoder τ} {message : String}
    (hf : ∀ v, Took (f v) fun cs c => S (word v ++ cs) c) :
    Took (need CanonicalReader.u64 message >>= f) S :=
  took_need_bind gives_u64 fun _ v hbs => hbs ▸ hf v

theorem took_byte_bind {f : UInt8 → Decoder τ} {message : String}
    (hf : ∀ v, Took (f v) fun cs c => S ([v] ++ cs) c) :
    Took (need CanonicalReader.u8 message >>= f) S :=
  took_need_bind gives_u8 fun _ v hbs => hbs ▸ hf v

theorem took_flag_bind {f : Bool → Decoder τ} {message : String}
    (hf : ∀ v : UInt8, Took (f (v != 0)) fun cs c => S ([v] ++ cs) c) :
    Took (need CanonicalReader.boolean message >>= f) S := by
  refine took_need_bind gives_boolean ?_
  rintro _ _ ⟨v, rfl, rfl⟩
  exact hf v

theorem took_text_bind {f : Bytes → Decoder τ} {message : String}
    (hf : ∀ s, Took (f s) fun cs c => S (text s ++ cs) c) :
    Took (need CanonicalReader.string message >>= f) S :=
  took_need_bind gives_string fun _ s hbs => hbs ▸ hf s

/-- A check followed by the rest of a decoder. -/
theorem took_refuse_bind {bad : Prop} [Decidable bad] {f : Unit → Decoder τ} {message : String}
    (hf : ¬ bad → Took (f ()) S) : Took (refuse bad message >>= f) S :=
  Consumes.check (E := fun e : Error => e.code = .decode) (e := Error.mk .decode message) rfl hf

/-- **A loop over records** took the bytes of a list of them, each admitted
in its turn. -/
theorem took_iterate {body : τ → Decoder τ} {st : List α → τ} {ok : List α → α → Prop}
    {enc : α → List UInt8} {w : Scan → Scan}
    (h : ∀ pre, Took (body (st pre)) fun bs l =>
      ∃ x, l = st (pre ++ [x]) ∧ ok pre x ∧ Taken w (enc x) bs)
    (n : ℕ) :
    Took (Reader.iterate body n (st [])) fun bs l => ∃ xs : List α, xs.length = n ∧ l = st xs ∧
      Admitted ok [] xs ∧ Taken w^[n] (xs.flatMap enc) bs := by
  -- after `k` turns the loop carries the records read and took their bytes
  let I : ℕ → List UInt8 → τ → Prop := fun k bs l => ∃ xs : List α, xs.length = k ∧ l = st xs ∧
    Admitted ok [] xs ∧ Taken w^[k] (xs.flatMap enc) bs
  have hturn : ∀ k bs l, I k bs l → Took (body l) fun cs l' => I (k + 1) (bs ++ cs) l' := by
    rintro k bs _ ⟨xs, rfl, rfl, hxs, fs, hpass, hspell⟩
    refine ⟨fun r l r' hr => ?_, (h xs).throws⟩
    obtain ⟨cs, ⟨x, hl, hx, gs, hpass', hspell'⟩, hread⟩ := (h xs).returns r l r' hr
    refine ⟨cs, ⟨xs ++ [x], by simp, hl, (admitted_append_singleton ..).2 ⟨hxs, hx⟩, fs ++ gs,
      hpass.iterate hpass', ?_⟩, hread⟩
    rw [List.flatMap_append, List.flatMap_singleton]
    exact hspell.append hspell'
  have hstart : I 0 [] (st []) := ⟨[], rfl, rfl, trivial, [], fun t gs => by simp, .refl []⟩
  have hloop := Consumes.iterate hturn n 0 [] (st []) hstart
  simpa only [Nat.zero_add, List.nil_append] using hloop

/-! ## Records -/

theorem took_participant (pre : List PersistedParticipant) :
    Took (readParticipant (participantLoop pre)) fun bs l => ∃ p, l = participantLoop (pre ++ [p]) ∧
      (p.participantId ∉ pre.map (·.participantId) ∧ p.rank ∉ pre.map (·.rank)) ∧
        Taken Scan.participant (participantBytes p) bs := by
  refine took_word_bind fun id => took_word_bind fun worker => took_word_bind fun boot =>
    took_word_bind fun node => took_word_bind fun device => took_word_bind fun rank =>
    took_word_bind fun backendGeneration => took_flag_bind fun known =>
    took_refuse_bind fun hid => took_refuse_bind fun hrank => Consumes.pure
    ⟨⟨⟨id⟩, ⟨worker⟩, ⟨boot⟩, ⟨node⟩, ⟨device⟩, ⟨rank⟩, ⟨backendGeneration⟩, known != 0⟩,
      ?_, ⟨hid, hrank⟩, [known], ?_, ?_⟩
  · simp only [participantLoop, List.map_append, List.map_cons, List.map_nil]
  · intro t gs
    simp only [Scan.participant, List.append_assoc, List.nil_append, Scan.word_mk, Scan.flag_mk]
  · exact .lead _ <| .lead _ <| .lead _ <| .lead _ <| .lead _ <| .lead _ <| .lead _ <|
      .flag known

/-- A list as long as a 64-bit number counts is a vector of that size. -/
theorem toList_ofList {β : Type} {l : List β} {n : UInt64} (h : l.length = n.toNat) :
    (Vec.ofList l).toList = l ∧ (Vec.ofList l).size = n := by
  have hlist : (Vec.ofList l).toList = l := by
    have := n.toNat_lt
    exact List.take_of_length_le (by omega)
  refine ⟨hlist, ?_⟩
  rw [Vec.size, hlist, h, UInt64.ofNat_toNat]

theorem took_group (pre : List PersistedGroup) :
    Took (readGroup (groupLoop pre)) fun bs l => ∃ g, l = groupLoop (pre ++ [g]) ∧
      (groupKey g ∉ pre.map groupKey ∧ GroupFits g) ∧ Taken Scan.group (groupBytes g) bs := by
  refine took_word_bind fun groupId => took_word_bind fun generation =>
    took_word_bind fun membership => took_word_bind fun topology => took_word_bind fun health =>
    took_word_bind fun backend => took_byte_bind fun lc => took_refuse_bind fun hlc =>
    took_text_bind fun provenance => took_word_bind fun pc => took_refuse_bind fun hpc =>
    (took_iterate took_participant pc.toNat).bind ?_
  rintro bs _ ⟨ps, hlen, rfl, hadmitted, fs, hpass, hspell⟩
  obtain ⟨hlist, hsize⟩ := toList_ofList hlen
  obtain ⟨hids, hranks⟩ := (admitted_participants ps).1 hadmitted
  refine took_refuse_bind fun hkey => Consumes.pure
    ⟨⟨⟨groupId⟩, ⟨generation⟩, ⟨membership⟩, ⟨topology⟩, ⟨health⟩, ⟨backend⟩, ⟨lc⟩, provenance,
      .ofList ps⟩, ?_, ⟨hkey, not_not.1 hlc, ?_, ?_, ?_⟩, fs, ?_, ?_⟩
  · simp only [groupLoop, groupKey, participantLoop, List.map_append, List.map_cons, List.map_nil]
  · rwa [hsize]
  · rwa [hlist]
  · rwa [hlist]
  · intro t gs
    simp only [Scan.group, List.append_assoc, List.nil_append, Scan.word_mk, Scan.byte_mk,
      Scan.text_mk, Scan.number_mk, hpass t gs]
  · rw [groupBytes, hlist, hsize, List.append_nil]
    exact .lead _ <| .lead _ <| .lead _ <| .lead _ <| .lead _ <| .lead _ <| .lead _ <| .lead _ <|
      .lead _ hspell

theorem took_measurement (pre : List PersistedMeasurement) :
    Took (readMeasurement (measurementLoop pre)) fun bs l => ∃ m, l = measurementLoop (pre ++ [m]) ∧
      (m.id ∉ pre.map (·.id) ∧ MeasurementFits m) ∧
        Taken Scan.measurement (measurementBytes m) bs := by
  refine took_word_bind fun id => took_word_bind fun collective =>
    took_word_bind fun collectiveGeneration => took_word_bind fun groupGeneration =>
    took_byte_bind fun al => took_refuse_bind fun hal => took_word_bind fun backend =>
    took_word_bind fun rankCount => took_word_bind fun payloadBytes =>
    took_word_bind fun wallTimeUs => took_byte_bind fun pr => took_byte_bind fun fr =>
    took_refuse_bind fun hprfr => took_word_bind fun timestampNs =>
    took_word_bind fun measurementGeneration => took_flag_bind fun success =>
    took_refuse_bind fun hid => Consumes.pure
    ⟨⟨⟨id⟩, ⟨collective⟩, ⟨collectiveGeneration⟩, ⟨groupGeneration⟩, ⟨al⟩, ⟨backend⟩, rankCount,
      payloadBytes, wallTimeUs, ⟨pr⟩, ⟨fr⟩, timestampNs, ⟨measurementGeneration⟩, success != 0⟩,
      ?_, ⟨hid, not_not.1 hal, not_not.1 (not_or.1 hprfr).1, not_not.1 (not_or.1 hprfr).2⟩,
      [success], ?_, ?_⟩
  · simp only [measurementLoop, List.map_append, List.map_cons, List.map_nil]
  · intro t gs
    simp only [Scan.measurement, List.append_assoc, List.nil_append, Scan.word_mk, Scan.byte_mk,
      Scan.flag_mk]
  · exact .lead _ <| .lead _ <| .lead _ <| .lead _ <| .lead _ <| .lead _ <| .lead _ <| .lead _ <|
      .lead _ <| .lead _ <| .lead _ <| .lead _ <| .lead _ <| .flag success

theorem took_health :
    Took readHealth fun bs health => (∀ h ∈ health, validHealth h.state.raw = true) ∧
      Taken Scan.health (healthBytes health) bs := by
  refine took_flag_bind fun f => ?_
  by_cases hf : f = 0
  · subst hf
    refine Consumes.pure ⟨fun h hh => absurd hh (Option.not_mem_none h), [0], fun t gs => ?_,
      Spells.flag 0⟩
    rfl
  · have hset : (f != 0) = true := by simp [hf]
    rw [hset, if_pos rfl]
    refine took_byte_bind fun st => took_refuse_bind fun hst => took_word_bind fun generation =>
      took_word_bind fun observedNs => took_text_bind fun narrative => Consumes.pure
      ⟨?_, [f], fun t gs => ?_, ?_⟩
    · intro h hh
      cases hh
      exact not_not.1 hst
    · rw [Scan.health, if_neg (by simpa using hf)]
      simp only [List.append_assoc, List.nil_append, Scan.flag_mk, Scan.byte_mk, Scan.word_mk,
        Scan.text_mk]
    · have hspell := (Spells.flag f).append
        (Spells.refl ([st] ++ (word generation ++ (word observedNs ++ text narrative))))
      rw [hset] at hspell
      simpa only [healthBytes, Option.isSome_some, List.append_nil, List.append_assoc] using hspell

theorem took_backend (pre : List PersistedBackend) :
    Took (readBackend pre) fun bs l =>
      ∃ b, l = pre ++ [b] ∧ True ∧ Taken Scan.backend (backendBytes b) bs := by
  refine took_word_bind fun id => took_word_bind fun generation => took_text_bind fun name =>
    Consumes.pure ⟨⟨⟨id⟩, ⟨generation⟩, name⟩, rfl, trivial, [], fun t gs => ?_, ?_⟩
  · simp only [Scan.backend, List.append_assoc, List.append_nil, Scan.word_mk, Scan.text_mk]
  · exact .lead _ <| .lead _ <| by simpa only [List.append_nil] using Spells.refl (text name)

/-- **What a payload was read from**: the bytes of a state that fits, up to
their flags, with the records of the backends where the walk finds them. -/
theorem took_state : Took readState fun bs s => Fits s ∧ Taken Scan.state (encode s) bs ∧
    ∀ t, ∃ gs u, Scan.toBackends ⟨bs ++ t, []⟩ =
      ⟨word s.backends.size ++ (s.backends.toList.flatMap backendBytes ++ u), gs⟩ := by
  refine took_word_bind fun version => took_refuse_bind fun hversion =>
    took_word_bind fun epoch => took_word_bind fun liveBoot => took_word_bind fun gcount =>
    took_refuse_bind fun hgcount => (took_iterate took_group gcount.toNat).bind ?_
  rintro gbs _ ⟨groups, hgroups, rfl, hgadmitted, gfs, hgpass, hgspell⟩
  refine took_word_bind fun mcount => took_refuse_bind fun hmcount =>
    (took_iterate took_measurement mcount.toNat).bind ?_
  rintro mbs _ ⟨measurements, hmeasurements, rfl, hmadmitted, mfs, hmpass, hmspell⟩
  refine took_health.bind ?_
  rintro hbs health ⟨hhealth, hfs, hhpass, hhspell⟩
  refine took_word_bind fun bcount => took_refuse_bind fun hbcount =>
    (took_iterate took_backend bcount.toNat).bind ?_
  rintro bbs _ ⟨backends, hbackends, rfl, -, bfs, hbpass, hbspell⟩
  obtain ⟨hglist, hgsize⟩ := toList_ofList hgroups
  obtain ⟨hmlist, hmsize⟩ := toList_ofList hmeasurements
  obtain ⟨hblist, hbsize⟩ := toList_ofList hbackends
  obtain ⟨hgkeys, hgfits⟩ := (admitted_keyed groups).1 hgadmitted
  obtain ⟨hmids, hmfits⟩ := (admitted_keyed measurements).1 hmadmitted
  have hplain := Scan.eq_of_passes_backend hbpass hbspell
  refine took_word_bind fun policyCount => took_word_bind fun savedNs => Consumes.pure
    ⟨?_, ⟨gfs ++ (mfs ++ (hfs ++ bfs)), fun t gs => ?_, ?_⟩,
      fun t => ⟨gfs ++ (mfs ++ hfs), word policyCount ++ (word savedNs ++ t), ?_⟩⟩
  · refine ⟨hversion, ?_, ?_, ?_, ?_, ?_, ?_, hhealth, ?_⟩ <;>
      simp only [groupLoop, measurementLoop, hglist, hgsize, hmlist, hmsize, hbsize]
    · exact hgcount
    · exact hgkeys
    · exact hgfits
    · exact hmcount
    · exact hmids
    · exact hmfits
    · exact hbcount
  · simp only [Scan.state, List.append_assoc, List.nil_append, Scan.word_mk, Scan.number_mk,
      hgpass _ _, hmpass _ _, hhpass _ _, hbpass _ _]
  · rw [encode_eq]
    simp only [groupLoop, measurementLoop, hglist, hgsize, hmlist, hmsize, hblist, hbsize,
      List.append_nil]
    have hend := hbspell.append (Spells.refl (word policyCount ++ word savedNs))
    rw [List.append_nil] at hend
    exact .lead _ <| .lead _ <| .lead _ <| .lead _ <| hgspell.append <| .lead _ <|
      hmspell.append <| hhspell.append <| .lead _ hend
  · simp only [Scan.toBackends, List.append_assoc, List.nil_append, Scan.word_mk, Scan.number_mk,
      hgpass _ _, hmpass _ _, hhpass _ _, hblist, hbsize, hplain]

/-! ## Accepted payloads -/

/-- What `decode` accepts, `readState` reads to its end. -/
theorem readState_of_decode {b : List UInt8} {s : PersistentState} (h : decode b = .ok s) :
    ∃ r, readState (.ofData b) = .ok (s, r) ∧ r.rest = [] := by
  unfold decode at h
  split at h
  · cases h
  · next s' r hread =>
    split_ifs at h with hend
    cases h
    exact ⟨r, hread, atEnd_iff.1 hend⟩

/-- **`decode` throws nothing but `DECODE` errors.** -/
theorem decode_error {b : List UInt8} {e : Error} (h : decode b = .error e) :
    e.code = .decode := by
  unfold decode at h
  split at h
  · next e' hread =>
    cases h
    exact took_state.throws _ e hread
  · split_ifs at h
    cases h
    rfl

/-- **An accepted payload is the encoding of its state exactly when its
flags are 0 or 1.** -/
theorem encode_decode_iff {b : List UInt8} {s : PersistentState} (h : decode b = .ok s) :
    encode s = b ↔ PlainFlags b := by
  obtain ⟨r, hread, hend⟩ := readState_of_decode h
  obtain ⟨bs, ⟨-, ⟨fs, hpass, hspell⟩, -⟩, hview, -⟩ := took_state.returns _ s r hread
  have hbs : b = bs := by rwa [hend, List.append_nil] at hview
  have hflags : flagBytes b = fs := by
    have hwalk := hpass [] []
    rw [List.append_nil, List.nil_append, ← hbs] at hwalk
    rw [flagBytes, hwalk]
  rw [PlainFlags, hflags, hbs]
  exact hspell.plain

/-- **More bytes after an accepted payload are trailing garbage.** -/
theorem decode_append {b : List UInt8} {s : PersistentState} (h : decode b = .ok s)
    {t : List UInt8} (ht : t ≠ []) :
    decode (b ++ t) = .error ⟨.decode, "store: trailing garbage in payload"⟩ := by
  obtain ⟨r, hread, hend⟩ := readState_of_decode h
  obtain ⟨bs, -, hview, hagain⟩ := took_state.returns _ s r hread
  have hbs : b = bs := by rwa [hend, List.append_nil] at hview
  obtain ⟨r', hread', hrest⟩ := hagain (.ofData (b ++ t)) t (by rw [hbs]; rfl)
  have hatEnd : ¬ r'.atEnd = true := fun hr => ht (hrest ▸ atEnd_iff.1 hr)
  rw [decode, hread']
  simp only [if_pos hatEnd]

/-- A strict prefix of an accepted payload is not accepted: what follows
it would be trailing garbage. -/
theorem decode_of_append {b t : List UInt8} {s : PersistentState} (h : decode (b ++ t) = .ok s)
    (ht : t ≠ []) : ∃ e, e.code = .decode ∧ decode b = .error e := by
  cases hb : decode b with
  | ok s' =>
    rw [decode_append hb ht] at h
    cases h
  | error e => exact ⟨e, decode_error hb, rfl⟩

/-! ## Main results -/

/-- **Persisted bytes are canonical exactly up to their flags.** An
accepted payload is the encoding of the state it decodes to if and only
if each of its flags is 0 or 1; and where they are, the digest `load`
returns for a file of that payload is the semantic digest of the state
it returns. -/
theorem canonical_iff (b : List UInt8) (s : PersistentState) (h : decode b = .ok s) :
    (encode s = b ↔ PlainFlags b) ∧
      ∀ (buf : List UInt8) (s' : PersistentState) (res : SaveResult), payload buf = b →
        load buf = .ok (s', res) → PlainFlags b → res.digest = semanticDigest s' := by
  refine ⟨encode_decode_iff h, ?_⟩
  rintro buf s' res rfl hload hplain
  obtain ⟨hdecode, rfl⟩ := decode_of_load hload
  -- the digest is taken over the payload, which is the state's own encoding here
  rw [semanticDigest, (encode_decode_iff hdecode).2 hplain]

/-- A saved group of one participant, and the file the empty state is
saved in. -/
theorem canonical_iff_one_group :
    PlainFlags (encode { groups := ⟨[{ participants := ⟨[{}], by decide⟩ }], by decide⟩ }) ∧
      (saveResult {}).digest = semanticDigest {} := by
  have hgroup : Fits { groups := ⟨[{ participants := ⟨[{}], by decide⟩ }], by decide⟩ } :=
    (fits_iff _).2 (by constructor <;> decide)
  have hload : load (file {}) = .ok ({}, saveResult {}) := load_file fits_empty (by decide +kernel)
  exact ⟨(canonical_iff _ _ (decode_encode_of_fits hgroup)).1.1 rfl,
    (canonical_iff _ _ (decode_of_load hload).1).2 _ _ _ rfl hload (by decide +kernel)⟩

/-- A payload with a health record announced by the flag 2. -/
def loosePayload : List UInt8 := (encode { health := some {} }).set 40 2

/-- **A flag other than 0 and 1 is accepted** and read as 1: the file is
loaded, but its payload is not the encoding of the state, nor its digest
the state's. -/
theorem not_canonical_loose : ∃ buf s res, load buf = .ok (s, res) ∧
    decode (payload buf) = .ok s ∧ encode s ≠ payload buf ∧ res.digest ≠ semanticDigest s := by
  have hloose : (match load (frame loosePayload) with
      | .ok (s, res) =>
        decide (encode s ≠ payload (frame loosePayload) ∧ res.digest ≠ semanticDigest s)
      | .error _ => false) = true := by
    decide +kernel
  split at hloose
  · next s res hload =>
    obtain ⟨hencode, hdigest⟩ := of_decide_eq_true hloose
    exact ⟨_, s, res, hload, (decode_of_load hload).1, hencode, hdigest⟩
  · cases hloose

/-- **Truncation and trailing bytes are always caught.** Once an encoding
decodes, every strict prefix and every strict extension of it is refused
with a `DECODE` error. -/
theorem truncation_caught (s s' : PersistentState) (h : decode (encode s) = .ok s')
    (b : List UInt8) (hne : b ≠ encode s) (hb : b <+: encode s ∨ encode s <+: b) :
    ∃ e, e.code = .decode ∧ decode b = .error e := by
  rcases hb with ⟨t, ht⟩ | ⟨t, ht⟩
  · rw [← ht] at h
    refine decode_of_append h ?_
    rintro rfl
    exact hne (by rw [← ht, List.append_nil])
  · rw [← ht]
    refine ⟨_, rfl, decode_append h ?_⟩
    rintro rfl
    exact hne (by rw [← ht, List.append_nil])

/-- An encoding cut inside a participant, and one with a byte more. -/
theorem truncation_caught_filled :
    (∃ e, e.code = .decode ∧ decode ((encode filled).take 100) = .error e) ∧
      ∃ e, e.code = .decode ∧ decode (encode filled ++ [0]) = .error e := by
  have hdecode : decode (encode filled) = .ok filled := decode_encode_of_fits fits_filled
  exact ⟨truncation_caught filled filled hdecode _ (by decide +kernel)
      (.inl (List.take_prefix 100 _)),
    truncation_caught filled filled hdecode _ (by decide +kernel) (.inr (List.prefix_append _ _))⟩

end Store

end CollectiveFabric
