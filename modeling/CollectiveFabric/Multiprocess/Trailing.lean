import CollectiveFabric.Multiprocess.Payloads

/-!
# Bytes behind a payload

A claim and a descriptor are records of fixed width whose fields are any
integers, so every payload that is long enough begins with one, and the
readers accept it. None of them asks whether it is at the end of the
payload, so what they accept is the encoders' image only among payloads
no longer than a record.
-/

namespace CollectiveFabric

open Common Common.Reader CanonicalReader

namespace Fields

variable {α : Type}

/-- One read of the chain refuses nothing that is long enough. -/
theorem fills_u8 : Fills rest (field CanonicalReader.u8) 1 := by
  intro r hr
  have hle : ¬ r.remaining < 1 := not_lt.2 (r.remaining_eq ▸ hr)
  obtain ⟨b, hb⟩ : ∃ b, r.data[r.pos]? = some b := by
    refine ⟨_, List.getElem?_eq_getElem ?_⟩
    rw [rest, List.length_drop] at hr
    omega
  refine ⟨b, r.advance 1 (not_lt.1 hle), ?_, rest_advance_eq r 1 _⟩
  rw [field, CanonicalReader.u8, dif_neg hle, hb]

theorem fills_u64 : Fills rest (field CanonicalReader.u64) 8 := by
  intro r hr
  have hle : ¬ r.remaining < 8 := not_lt.2 (r.remaining_eq ▸ hr)
  let v := UInt64.ofBitVec (foldBe 64 0 ((r.data.drop r.pos).take 8))
  refine ⟨v, r.advance 8 (not_lt.1 hle), ?_, rest_advance_eq r 8 _⟩
  rw [field, CanonicalReader.u64, readBe, dif_neg hle]
  rfl

theorem fills_auth : Fills rest auth 48 :=
  fills_u64.bind fun _ => fills_u64.bind fun _ => fills_u64.bind fun _ =>
    fills_u64.bind fun _ => fills_u64.bind fun _ => fills_u64.bind fun _ => .pure _

theorem fills_desc : Fills rest desc 75 :=
  fills_u8.bind fun _ => fills_u8.bind fun _ => fills_u8.bind fun _ => fills_u64.bind fun _ =>
    fills_u64.bind fun _ => fills_u64.bind fun _ => fills_u64.bind fun _ => fills_u64.bind fun _ =>
    fills_u64.bind fun _ => fills_u64.bind fun _ => fills_u64.bind fun _ => fills_u64.bind fun _ =>
    .pure _

theorem exists_decode {p : Fields α} {n : ℕ} (hp : Fills rest p n) {payload : Bytes}
    (h : n ≤ payload.toList.length) : ∃ a, p.decode payload = some a := by
  obtain ⟨a, r, hr, -⟩ := hp (.ofData payload.toList) h
  exact ⟨a, by rw [decode, hr]⟩

end Fields

/-! ## Descriptors -/

/-- The bytes of a descriptor. -/
def Desc.bytes (d : Desc) : List UInt8 :=
  [d.kind, d.datatype, d.reduction] ++
    [d.elementCount, d.root, d.rankCount, d.groupId, d.groupGen, d.collectiveGen, d.epoch,
      d.attemptGen, d.dispatchGen].flatMap fun v => CanonicalWriter.beBytes v 8

theorem Desc.bytes_length (d : Desc) : d.bytes.length = 75 := by
  simp [Desc.bytes, beBytes_length]

theorem toList_encDesc (d : Desc) : (encDesc d).toList = d.bytes := by
  have hle : d.bytes.length ≤ 2 ^ 64 - 1 := by
    rw [d.bytes_length]
    decide
  refine Eq.trans ?_ (List.take_of_length_le hle)
  simp [encDesc, Desc.bytes, CanonicalWriter.u8, CanonicalWriter.u64, CanonicalWriter.pushBe,
    Vec.ofList]

namespace Fields

theorem decides_desc (d : Desc) : Decides rest (fun _ : Unit => True) desc d.bytes True d := by
  have hbytes : d.bytes = [d.kind] ++ ([d.datatype] ++ ([d.reduction] ++
      (CanonicalWriter.beBytes d.elementCount 8 ++ (CanonicalWriter.beBytes d.root 8 ++
      (CanonicalWriter.beBytes d.rankCount 8 ++ (CanonicalWriter.beBytes d.groupId 8 ++
      (CanonicalWriter.beBytes d.groupGen 8 ++ (CanonicalWriter.beBytes d.collectiveGen 8 ++
      (CanonicalWriter.beBytes d.epoch 8 ++ (CanonicalWriter.beBytes d.attemptGen 8 ++
      (CanonicalWriter.beBytes d.dispatchGen 8 ++ []))))))))))) := by simp [Desc.bytes]
  rw [hbytes]
  exact Decides.of_iff (Decides.bind (decides_field (takes_u8 d.kind)) fun _ =>
    Decides.bind (decides_field (takes_u8 d.datatype)) fun _ =>
    Decides.bind (decides_field (takes_u8 d.reduction)) fun _ =>
    Decides.bind (decides_field (takes_u64 d.elementCount)) fun _ =>
    Decides.bind (decides_field (takes_u64 d.root)) fun _ =>
    Decides.bind (decides_field (takes_u64 d.rankCount)) fun _ =>
    Decides.bind (decides_field (takes_u64 d.groupId)) fun _ =>
    Decides.bind (decides_field (takes_u64 d.groupGen)) fun _ =>
    Decides.bind (decides_field (takes_u64 d.collectiveGen)) fun _ =>
    Decides.bind (decides_field (takes_u64 d.epoch)) fun _ =>
    Decides.bind (decides_field (takes_u64 d.attemptGen)) fun _ =>
    Decides.bind (decides_field (takes_u64 d.dispatchGen)) fun _ => Decides.pure d) (by simp)

theorem consumes_desc : Consumes rest (fun _ : Unit => True) desc fun bs d => bs = d.bytes := by
  refine (consumes_field gives_u8).bind fun _ kind h₁ =>
    (consumes_field gives_u8).bind fun _ datatype h₂ =>
    (consumes_field gives_u8).bind fun _ reduction h₃ =>
    (consumes_field gives_u64).bind fun _ elementCount h₄ =>
    (consumes_field gives_u64).bind fun _ root h₅ =>
    (consumes_field gives_u64).bind fun _ rankCount h₆ =>
    (consumes_field gives_u64).bind fun _ groupId h₇ =>
    (consumes_field gives_u64).bind fun _ groupGen h₈ =>
    (consumes_field gives_u64).bind fun _ collectiveGen h₉ =>
    (consumes_field gives_u64).bind fun _ epoch h₁₀ =>
    (consumes_field gives_u64).bind fun _ attemptGen h₁₁ =>
    (consumes_field gives_u64).bind fun _ dispatchGen h₁₂ => Consumes.pure ?_
  rw [h₁, h₂, h₃, h₄, h₅, h₆, h₇, h₈, h₉, h₁₀, h₁₁, h₁₂]
  simp [Desc.bytes]

end Fields

/-- **`dec_desc` accepts what begins with `enc_desc`** of the descriptor it
reads. -/
theorem decDesc_eq_some {p : Bytes} {d : Desc} :
    decDesc p = some d ↔ (encDesc d).toList <+: p.toList := by
  rw [toList_encDesc]
  exact Fields.decode_eq_some Fields.decides_desc Fields.consumes_desc

/-! ## Exactness -/

section

variable {α : Type} {dec : Bytes → Option α} {enc : α → Bytes} {n : ℕ}

/-- **A record of fixed width, read off the front**, is told from other
payloads exactly where nothing can stand behind it. -/
theorem exact_iff_length_le (hlength : ∀ a, (enc a).toList.length = n)
    (hdec : ∀ p a, dec p = some a ↔ (enc a).toList <+: p.toList)
    (hfills : ∀ p : Bytes, n ≤ p.toList.length → ∃ a, dec p = some a) (p : Bytes) :
    (∀ a, dec p = some a ↔ p = enc a) ↔ p.toList.length ≤ n := by
  constructor
  · intro hexact
    by_contra hlong
    obtain ⟨a, ha⟩ := hfills p (by omega)
    rw [(hexact a).1 ha, hlength] at hlong
    exact hlong le_rfl
  · intro hle a
    rw [hdec]
    constructor
    · intro hprefix
      have hsame := hprefix.eq_of_length_le (by rwa [hlength])
      exact Vec.ext hsame.symm
    · rintro rfl
      exact List.prefix_rfl

end

/-- **The payload readers accept the encoders' image exactly among payloads
without room behind a record.** -/
theorem decoders_exact_iff (p : Bytes) :
    ((∀ d, decDesc p = some d ↔ p = encDesc d) ↔ p.toList.length ≤ 75) ∧
      ((∀ a, decAuth p = some a ↔ p = encAuth a) ↔ p.toList.length ≤ 48) := by
  constructor
  · refine exact_iff_length_le (fun d => ?_) (fun p d => decDesc_eq_some)
      (fun p => Fields.exists_decode Fields.fills_desc) p
    rw [toList_encDesc, d.bytes_length]
  · refine exact_iff_length_le (fun a => ?_) (fun p a => decAuth_eq_some)
      (fun p => Fields.exists_decode Fields.fills_auth) p
    rw [toList_encAuth, a.bytes_length]

/-- **A byte behind a record is not noticed**: both readers accept a payload
that no encoder writes. -/
theorem decoders_accept_trailing :
    (∃ p d, decDesc p = some d ∧ ∀ d', p ≠ encDesc d') ∧
      ∃ p a, decAuth p = some a ∧ ∀ a', p ≠ encAuth a' := by
  refine ⟨⟨⟨(encDesc {}).toList ++ [0xff], by rw [toList_encDesc]; decide⟩, {},
      decDesc_eq_some.2 (List.prefix_append ..), fun d' h => ?_⟩,
    ⟨⟨(encAuth {}).toList ++ [0xff], by rw [toList_encAuth]; decide⟩, {},
      decAuth_eq_some.2 (List.prefix_append ..), fun a' h => ?_⟩⟩
  · have hlength := congrArg (fun p : Bytes => p.toList.length) h
    simp [toList_encDesc, Desc.bytes_length] at hlength
  · have hlength := congrArg (fun p : Bytes => p.toList.length) h
    simp [toList_encAuth, AuthClaim.bytes_length] at hlength

end CollectiveFabric
