import CollectiveFabric.Digest.Canonical
import CollectiveFabric.Multiprocess.Model.Messages

/-!
# What the payload readers accept

A chain of reads joined with `&&` accepts exactly the payloads that begin
with an encoding of what it reads. Nothing is said of the bytes behind it.
-/

namespace CollectiveFabric

open Common Common.Reader CanonicalReader

namespace Fields

variable {α : Type}

/-- One read of the chain, on the bytes it takes. -/
theorem decides_field {read : CanonicalReader → Option α × CanonicalReader} {bs : List UInt8}
    {a : α} (h : Takes read bs a) : Decides rest (fun _ : Unit => True) (field read) bs True a := by
  refine ⟨fun _ r t hr => ?_, fun hfalse => (hfalse trivial).elim⟩
  obtain ⟨r', hread, hrest⟩ := h r t hr
  exact ⟨r', by rw [field, hread], hrest⟩

/-- What one read of the chain took. -/
theorem consumes_field {read : CanonicalReader → Option α × CanonicalReader}
    {R : List UInt8 → α → Prop} (h : Gives read R) :
    Consumes rest (fun _ : Unit => True) (field read) R := by
  refine ⟨fun r a r' hr => ?_, fun _ _ _ => trivial⟩
  unfold field at hr
  split at hr
  · next a' r₁ hread =>
    cases hr
    obtain ⟨bs, hR, hrest, htakes⟩ := h r a r' hread
    refine ⟨bs, hR, hrest, fun q t hq => ?_⟩
    obtain ⟨q', hq', hrest'⟩ := htakes q t hq
    exact ⟨q', by rw [field, hq'], hrest'⟩
  · cases hr

/-- **A chain accepts what begins with an encoding** of what it reads. -/
theorem decode_eq_some {p : Fields α} {enc : α → List UInt8}
    (hdecides : ∀ a, Decides rest (fun _ : Unit => True) p (enc a) True a)
    (hconsumes : Consumes rest (fun _ : Unit => True) p fun bs a => bs = enc a)
    {payload : Bytes} {a : α} : p.decode payload = some a ↔ enc a <+: payload.toList := by
  have hstart : (CanonicalReader.ofData payload.toList).rest = payload.toList := rfl
  constructor
  · intro h
    unfold decode at h
    split at h
    · next a' r hr =>
      obtain rfl := Option.some.inj h
      obtain ⟨bs, rfl, hview, -⟩ := hconsumes.returns _ _ _ hr
      rw [hstart] at hview
      exact ⟨r.rest, hview.symm⟩
    · cases h
  · rintro ⟨t, ht⟩
    obtain ⟨r, hr, -⟩ := (hdecides a).reads trivial _ t (hstart.trans ht.symm)
    rw [decode, hr]

end Fields

/-! ## Claims -/

/-- The bytes of a claim. -/
def AuthClaim.bytes (a : AuthClaim) : List UInt8 :=
  [a.epoch, a.boot, a.groupGen, a.collectiveGen, a.attemptGen, a.dispatchGen].flatMap fun v =>
    CanonicalWriter.beBytes v 8

theorem AuthClaim.bytes_length (a : AuthClaim) : a.bytes.length = 48 := by
  simp [AuthClaim.bytes, beBytes_length]

theorem toList_encAuth (a : AuthClaim) : (encAuth a).toList = a.bytes := by
  have hwrite : (a.write {}).buf = a.bytes := by
    simp [AuthClaim.write, AuthClaim.bytes, CanonicalWriter.u64, CanonicalWriter.pushBe]
  rw [encAuth, hwrite]
  refine List.take_of_length_le ?_
  rw [a.bytes_length]
  decide

namespace Fields

theorem decides_auth (a : AuthClaim) :
    Decides rest (fun _ : Unit => True) auth a.bytes True a := by
  have hbytes : a.bytes = CanonicalWriter.beBytes a.epoch 8 ++ (CanonicalWriter.beBytes a.boot 8 ++
      (CanonicalWriter.beBytes a.groupGen 8 ++ (CanonicalWriter.beBytes a.collectiveGen 8 ++
      (CanonicalWriter.beBytes a.attemptGen 8 ++
      (CanonicalWriter.beBytes a.dispatchGen 8 ++ []))))) := by simp [AuthClaim.bytes]
  rw [hbytes]
  exact Decides.of_iff (Decides.bind (decides_field (takes_u64 a.epoch)) fun _ =>
    Decides.bind (decides_field (takes_u64 a.boot)) fun _ =>
    Decides.bind (decides_field (takes_u64 a.groupGen)) fun _ =>
    Decides.bind (decides_field (takes_u64 a.collectiveGen)) fun _ =>
    Decides.bind (decides_field (takes_u64 a.attemptGen)) fun _ =>
    Decides.bind (decides_field (takes_u64 a.dispatchGen)) fun _ => Decides.pure a) (by simp)

theorem consumes_auth : Consumes rest (fun _ : Unit => True) auth fun bs a => bs = a.bytes := by
  refine (consumes_field gives_u64).bind fun _ epoch h₁ =>
    (consumes_field gives_u64).bind fun _ boot h₂ =>
    (consumes_field gives_u64).bind fun _ groupGen h₃ =>
    (consumes_field gives_u64).bind fun _ collectiveGen h₄ =>
    (consumes_field gives_u64).bind fun _ attemptGen h₅ =>
    (consumes_field gives_u64).bind fun _ dispatchGen h₆ => Consumes.pure ?_
  rw [h₁, h₂, h₃, h₄, h₅, h₆]
  simp [AuthClaim.bytes]

end Fields

/-- **`dec_auth` accepts what begins with `enc_auth`** of the claim it
reads. -/
theorem decAuth_eq_some {p : Bytes} {a : AuthClaim} :
    decAuth p = some a ↔ (encAuth a).toList <+: p.toList := by
  rw [toList_encAuth]
  exact Fields.decode_eq_some Fields.decides_auth Fields.consumes_auth

/-- The reads of a contribution begin with those of its claim. -/
theorem decAuth_of_blob {p : Bytes} {x : AuthClaim × Bytes} (h : Fields.blob.decode p = some x) :
    decAuth p = some x.1 := by
  have hblob : Fields.blob (.ofData p.toList) = (Fields.auth (.ofData p.toList) >>= fun s =>
      Fields.field CanonicalReader.bytes s.2 >>= fun s' => .ok ((s.1, s'.1), s'.2)) := rfl
  -- the first read that fails is one of the claim's in both
  rw [Fields.decode, hblob] at h
  rw [decAuth, Fields.decode]
  cases hauth : Fields.auth (.ofData p.toList) with
  | error e =>
    rw [hauth] at h
    cases h
  | ok s =>
    simp only [hauth, bind, Except.bind] at h
    cases hbytes : Fields.field CanonicalReader.bytes s.2 with
    | error e =>
      rw [hbytes] at h
      cases h
    | ok s' =>
      rw [hbytes] at h
      cases h
      rfl

end CollectiveFabric
