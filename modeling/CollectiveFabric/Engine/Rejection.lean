import CollectiveFabric.Engine.Validation

/-!
# Datatypes the engine rejects

A datatype without a size is rejected before anything else, bytes once a
reduction has checked its inputs. No other error of the engine speaks of
the datatype.
-/

namespace CollectiveFabric

open Common

namespace ReferenceEngine

/-- What the engine says of a datatype it rejects. -/
def rejections : List String :=
  ["reference engine: unknown datatype size",
    "reference engine: BYTE datatype not valid for reduction"]

/-- The call is rejected for its datatype. -/
def Rejected {α : Type} (x : Outcome α) : Prop :=
  ∃ message ∈ rejections, x = .throws ⟨.validation, message⟩

section

variable {α β : Type} {x : Outcome α}

theorem not_rejected_returns (a : α) : ¬Rejected (.returns a) := by
  rintro ⟨message, -, h⟩
  cases h

theorem not_rejected_throws {message : String} (hmessage : message ∉ rejections) :
    ¬Rejected (.throws ⟨.validation, message⟩ : Outcome α) := by
  rintro ⟨message', hmem, h⟩
  cases h
  exact hmessage hmem

theorem not_rejected_of_code {e : Error} (he : e.code ≠ .validation) :
    ¬Rejected (.throws e : Outcome α) := by
  rintro ⟨message, -, h⟩
  cases h
  exact he rfl

theorem rejected_bind {f : α → Outcome β} (h : Rejected (x >>= f)) :
    Rejected x ∨ ∃ a, x = .returns a ∧ Rejected (f a) := by
  obtain ⟨message, hmem, h⟩ := h
  rcases Outcome.bind_throws h with h | ⟨a, hx, h⟩
  · exact .inl ⟨message, hmem, h⟩
  · exact .inr ⟨a, hx, message, hmem, h⟩

theorem rejected_foldlM {f : β → α → Outcome β} {xs : List α} {acc : β}
    (h : Rejected (xs.foldlM f acc)) : ∃ acc, ∃ x ∈ xs, Rejected (f acc x) := by
  obtain ⟨message, hmem, h⟩ := h
  obtain ⟨acc, x, hx, h⟩ := Outcome.foldlM_throws h
  exact ⟨acc, x, hx, message, hmem, h⟩

end

variable {inputs : List (List UInt8)} {dt : Scoped Datatype} {op : Scoped ReductionOp}
variable {kind : Scoped CollectiveKind} {k root n : UInt64}

/-! ## Who rejects -/

/-- Only bytes are rejected by a reduction. -/
theorem byte_of_reduceInto {perBytes m : ℕ} (h : Rejected (reduceInto inputs dt op perBytes m)) :
    dt = .of .byte := by
  obtain ⟨message, -, h⟩ := h
  cases hdt : dt.named with
  | none =>
    rw [reduceInto, hdt] at h
    cases h
  | some d =>
    obtain rfl := datatype_of_named hdt
    cases d with
    | byte => rfl
    | int32 | uint32 | int64 | float32 | float64 => exact absurd h (doReduce_ne_throws _ _)

theorem byte_of_place {α : Type} {perBytes m : ℕ} {place : List UInt8 → α}
    (h : Rejected (reduceInto inputs dt op perBytes m >>= fun result =>
      Outcome.returns (place result))) : dt = .of .byte := by
  rcases rejected_bind h with h | ⟨result, -, h⟩
  · exact byte_of_reduceInto h
  · exact absurd h (not_rejected_returns _)

theorem not_rejected_checksize (inputs : List (List UInt8)) (perBytes m : ℕ) :
    ¬Rejected (checksize inputs perBytes m) := by
  unfold checksize
  split_ifs
  · exact not_rejected_throws (by decide)
  · exact not_rejected_throws (by decide)
  · exact not_rejected_returns _

theorem not_rejected_broadcast (inputs : List (List UInt8)) (perBytes r m : ℕ) :
    ¬Rejected (broadcast inputs perBytes r m) := by
  unfold broadcast
  split
  · exact not_rejected_throws (by decide)
  · split_ifs
    · exact not_rejected_throws (by decide)
    · exact not_rejected_returns _

theorem not_rejected_allGather (inputs : List (List UInt8)) (perBytes m : ℕ) :
    ¬Rejected (allGather inputs perBytes m) := by
  intro h
  obtain ⟨outputs, r, -, h⟩ := rejected_foldlM h
  rcases rejected_bind h with ⟨message, -, h⟩ | ⟨input, -, h⟩
  · exact Outcome.ofOption_ne_throws _ _ h
  split_ifs at h
  · exact absurd h (not_rejected_throws (by decide))
  · rcases rejected_bind h with ⟨message, -, h⟩ | ⟨output, -, h⟩
    · exact gather_ne_throws _ h
    · exact absurd h (not_rejected_returns _)

theorem byte_of_reduceScatter {perBytes m : ℕ}
    (h : Rejected (reduceScatter inputs dt op perBytes m)) : dt = .of .byte := by
  unfold reduceScatter at h
  split at h
  · exact absurd h (not_rejected_of_code (by decide))
  · rcases rejected_bind h with h | ⟨-, -, h⟩
    · rcases checkScatter_cases inputs _ m with ⟨-, -, hcheck⟩ | ⟨-, hcheck⟩ | ⟨-, -, hcheck⟩
      · exact absurd (hcheck ▸ h) (not_rejected_returns _)
      · exact absurd (hcheck ▸ h) (not_rejected_throws (by decide))
      · obtain ⟨message, -, h⟩ := h
        rw [hcheck] at h
        cases h
    · obtain ⟨outputs, b, -, h⟩ := rejected_foldlM h
      exact byte_of_place h

/-- **What is rejected** has a datatype without a size, or reduces bytes, of
sizes that fit 64 bits. -/
theorem cases_of_rejected (hn : 1 ≤ n.toNat)
    (h : Rejected (execute kind op dt k root n inputs)) :
    datatypeSizeBytes dt = 0 ∨
      dt = .of .byte ∧ k.toNat * datatypeSizeBytes dt * n.toNat < 2 ^ 64 ∧
        (kind = .of .reduce ∨ kind = .of .allReduce ∨ kind = .of .reduceScatter) := by
  by_cases hdt : datatypeSizeBytes dt = 0
  · exact .inl hdt
  refine .inr ?_
  by_cases hfits : k.toNat * datatypeSizeBytes dt * n.toNat < 2 ^ 64
  swap
  · obtain ⟨e, he, hcode⟩ := @execute_of_not_fits inputs dt op kind k root n hdt hfits
    rw [he] at h
    exact absurd h (not_rejected_of_code (by rw [hcode]; decide))
  cases hkind : kind.named with
  | none =>
    obtain ⟨per, total, hper, htotal, -, -⟩ := @sizes_of_fits k n dt hn hfits
    simp only [execute, if_neg hdt, hper, htotal, hkind] at h
    exact absurd h (not_rejected_returns _)
  | some kind' =>
    obtain rfl := kind_of_named hkind
    rw [execute_of_sizes kind' hdt hn hfits] at h
    cases kind' with
    | barrier => exact absurd h (not_rejected_returns _)
    | broadcast => exact (not_rejected_broadcast _ _ _ _ h).elim
    | allGather => exact (not_rejected_allGather _ _ _ h).elim
    | reduceScatter => exact ⟨byte_of_reduceScatter h, hfits, .inr (.inr rfl)⟩
    | reduce =>
      rcases rejected_bind h with h | ⟨-, -, h⟩
      · exact (not_rejected_checksize _ _ _ h).elim
      · split_ifs at h
        · exact ⟨byte_of_place h, hfits, .inl rfl⟩
        · obtain ⟨message, -, h⟩ := h
          cases h
    | allReduce =>
      rcases rejected_bind h with h | ⟨-, -, h⟩
      · exact (not_rejected_checksize _ _ _ h).elim
      · split_ifs at h
        · exact ⟨byte_of_place h, hfits, .inr (.inl rfl)⟩
        · obtain ⟨message, -, h⟩ := h
          cases h

/-- **A reduction of bytes is rejected**, though its contributions are all
there in full. -/
theorem rejected_of_byte {kind : CollectiveKind} (hreduces : kind.Reduces) (hn : 1 ≤ n.toNat)
    (hroot : kind = .reduce → root.toNat < n.toNat) (hfits : k.toNat * n.toNat < 2 ^ 64)
    (hall : kind.Contributed 1 k.toNat n.toNat inputs) :
    Rejected (execute (.of kind) op (.of .byte) k root n inputs) := by
  have hwidth : k.toNat * datatypeSizeBytes (.of .byte) = k.toNat := Nat.mul_one _
  have hfits' : k.toNat * datatypeSizeBytes (.of .byte) * n.toNat < 2 ^ 64 := by rwa [hwidth]
  obtain ⟨hcount, hlength⟩ := hall
  have hcheck (hcontribution : kind.contribution k.toNat n.toNat = k.toNat) :
      checksize inputs k.toNat n.toNat = .returns () := by
    rw [hcontribution, Nat.mul_one] at hlength
    rcases checksize_cases inputs k.toNat n.toNat with ⟨-, -, hcheck⟩ | ⟨hnot, -⟩
    · exact hcheck
    · exact absurd ⟨hcount, hlength⟩ hnot
  refine ⟨"reference engine: BYTE datatype not valid for reduction", by decide, ?_⟩
  rw [execute_of_sizes kind (by decide) hn hfits', hwidth]
  cases kind with
  | barrier => exact absurd hreduces id
  | broadcast => exact absurd hreduces id
  | allGather => exact absurd hreduces id
  | reduce =>
    have hlt := hroot rfl
    simp only [reduce, hcheck rfl, Outcome.returns_bind, if_pos hlt]
    rfl
  | allReduce =>
    have hpos : 0 < n.toNat := hn
    simp only [allReduce, hcheck rfl, Outcome.returns_bind, if_pos hpos]
    rfl
  | reduceScatter =>
    obtain ⟨total, htotal, hvalue⟩ := total_of_fits hn hfits'
    rw [hwidth] at htotal hvalue
    have hscatter : checkScatter inputs (k.toNat * n.toNat) n.toNat = .returns () := by
      have hsize : k.toNat * n.toNat = n.toNat * k.toNat * 1 := by ring
      rw [hsize]
      rcases checkScatter_cases inputs (n.toNat * k.toNat * 1) n.toNat with
        ⟨-, -, hcheck⟩ | ⟨⟨input, hinput, hne⟩, -⟩ | ⟨hmissing, -, -⟩
      · exact hcheck
      · exact absurd (hlength input hinput) hne
      · exact absurd hcount (not_le.2 hmissing)
    obtain ⟨m, hm⟩ := Nat.exists_eq_succ_of_ne_zero (Nat.one_le_iff_ne_zero.1 hn)
    simp only [reduceScatter, htotal, hvalue, hscatter, Outcome.returns_bind]
    rw [hm, List.range_succ_eq_map, List.foldlM_cons]
    rfl

end ReferenceEngine

end CollectiveFabric
