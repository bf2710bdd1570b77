import CollectiveFabric.Engine.Outcomes

/-!
# Where a reduction is undefined

On inputs that hold the elements it reads, a reduction of integers returns
only if no intermediate result overflows, and one of any other datatype is
never undefined.
-/

namespace CollectiveFabric

open Common

namespace Numeric

variable {t : Numeric} {op : Scoped ReductionOp} {k : ℕ}

/-- A balanced remainder is in the signed range. -/
theorem bmod_range (z : ℤ) (w : ℕ) :
    -2 ^ w ≤ z.bmod (2 ^ (w + 1)) ∧ z.bmod (2 ^ (w + 1)) < 2 ^ w := by
  have hpos : 0 < 2 ^ (w + 1) := Nat.two_pow_pos (w + 1)
  have hhalf : ((2 ^ (w + 1) : ℕ) : ℤ) / 2 = 2 ^ w := by
    rw [Nat.pow_succ]
    push_cast
    omega
  have hhalf' : (((2 ^ (w + 1) : ℕ) : ℤ) + 1) / 2 = 2 ^ w := by
    rw [Nat.pow_succ]
    push_cast
    omega
  exact ⟨hhalf ▸ Int.le_bmod hpos, hhalf' ▸ Int.bmod_lt hpos⟩

/-- An element fits its own type. -/
theorem fits_load (t : Numeric) (bs : List UInt8) : t.Fits (t.load bs) := by
  have hrange := bmod_range (ReferenceEngine.loadLe bs)
  cases t with
  | uint32 => exact trivial
  | int32 =>
    unfold Fits load
    exact hrange 31
  | int64 =>
    unfold Fits load
    exact hrange 63

theorem fits_zero (t : Numeric) : t.Fits 0 := by
  cases t <;> decide

/-- A single row has nothing to overflow. -/
theorem noOverflow_singleton (t : Numeric) (op : Scoped ReductionOp) (k : ℕ)
    (first : List UInt8) : t.NoOverflow op k [first] := by
  intro i _ ranks hranks
  have hprefix : ranks <+: [] ++ [first] := (List.mem_inits ..).1 hranks
  rcases List.prefix_concat_iff.1 hprefix with rfl | hnil
  · exact t.fits_load _
  · rw [List.prefix_nil.1 hnil]
    exact t.fits_zero

/-- **One row more** overflows nowhere if its results fit. -/
theorem NoOverflow.concat {first input : List UInt8} {ranks : List (List UInt8)}
    (h : t.NoOverflow op k (first :: ranks))
    (hfits : ∀ i < k, t.Fits (t.combine op (t.foldAt op (first :: ranks) i) (t.element input i))) :
    t.NoOverflow op k (first :: (ranks ++ [input])) := by
  intro i hi ranks' hranks'
  have hprefix := (List.mem_inits ..).1 hranks'
  rw [← List.cons_append, List.prefix_concat_iff] at hprefix
  rcases hprefix with rfl | hprefix
  · rw [List.cons_append, foldAt_append_singleton]
    exact hfits i hi
  · exact h i hi ranks' ((List.mem_inits ..).2 hprefix)

/-- **A row that overflows in no block** overflows nowhere. -/
theorem noOverflow_of_blocks {n : ℕ} {inputs : List (List UInt8)}
    (h : ∀ b < n, t.NoOverflow op k (inputs.map (t.block k b))) :
    t.NoOverflow op (n * k) inputs := by
  intro j hj ranks hranks
  have hk : 0 < k := by
    rcases Nat.eq_zero_or_pos k with rfl | hk
    · exact absurd hj (by simp)
    · exact hk
  have hb : j / k < n := Nat.div_lt_of_lt_mul (by rwa [Nat.mul_comm])
  have hi : j % k < k := Nat.mod_lt j hk
  have hmem : ranks.map (t.block k (j / k)) ∈ (inputs.map (t.block k (j / k))).inits := by
    rw [List.map_inits]
    exact List.mem_map_of_mem hranks
  have hfits := h (j / k) hb (j % k) hi _ hmem
  rwa [foldAt_block t op hi, Nat.mul_comm, Nat.div_add_mod] at hfits

end Numeric

namespace ReferenceEngine

variable {T : Type} {el : Element T} {t : Numeric} {int : T → ℤ} {op : Scoped ReductionOp}
variable {k : ℕ} {inputs : List (List UInt8)}

/-! ## What a reduction throws -/

/-- A reduction of elements throws nothing. -/
theorem doReduce_ne_throws (el : Element T) {n m : ℕ} (err : Error) :
    doReduce el inputs op n m ≠ .throws err := by
  have hread (m : ℕ) (buffer : List UInt8) : readElements el m buffer ≠ .throws err := by
    unfold readElements
    split_ifs <;> exact fun h => by cases h
  intro h
  rcases Outcome.bind_throws h with h | ⟨first, -, h⟩
  · exact Outcome.ofOption_ne_throws _ _ h
  rcases Outcome.bind_throws h with h | ⟨start, -, h⟩
  · exact hread _ _ h
  rcases Outcome.bind_throws h with h | ⟨row, -, h⟩
  · obtain ⟨dst, r, -, h⟩ := Outcome.foldlM_throws h
    rcases Outcome.bind_throws h with h | ⟨input, -, h⟩
    · exact Outcome.ofOption_ne_throws _ _ h
    rcases Outcome.bind_throws h with h | ⟨src, -, h⟩
    · exact hread _ _ h
    · exact Outcome.ofOption_ne_throws _ _ h
  · cases h

/-- Past its size checks a reduction throws only for bytes. -/
theorem reduceInto_throws {dt : Scoped Datatype} {perBytes n : ℕ} {err : Error}
    (h : reduceInto inputs dt op perBytes n = .throws err) :
    err = ⟨.validation, "reference engine: BYTE datatype not valid for reduction"⟩ := by
  unfold reduceInto at h
  split at h
  case h_6 =>
    cases h
    rfl
  case h_7 => cases h
  all_goals exact absurd h (doReduce_ne_throws _ err)

/-! ## Integers -/

/-- An element type gives no result that does not fit. -/
def Element.Strict (el : Element T) (t : Numeric) (int : T → ℤ) : Prop :=
  ∀ op a b v, el.reduce op a b = some v → t.Fits (t.combine op (int a) (int b))

theorem fits_of_signedReduce [LT T] [DecidableLT T] {toInt : T → ℤ} {ofInt : ℤ → T} {w : ℕ}
    (hrange : ∀ x, -2 ^ w ≤ toInt x ∧ toInt x < 2 ^ w) {op : Scoped ReductionOp} {a b v : T}
    (h : signedReduce toInt ofInt w op a b = some v) :
    -2 ^ w ≤ Numeric.eval op (toInt a) (toInt b) ∧
      Numeric.eval op (toInt a) (toInt b) < 2 ^ w := by
  have ha := hrange a
  have hb := hrange b
  unfold signedReduce at h
  unfold Numeric.eval
  cases hop : op.named with
  | none => exact hb
  | some op =>
    rw [hop] at h
    cases op with
    | sum =>
      simp only at h
      split_ifs at h with hfits
      exact hfits
    | product =>
      simp only at h
      split_ifs at h with hfits
      exact hfits
    | min => simp only; omega
    | max => simp only; omega
    | none => exact hb

theorem elementU32_strict (int : UInt32 → ℤ) : elementU32.Strict .uint32 int :=
  fun _ _ _ _ _ => trivial

theorem elementI32_strict : elementI32.Strict .int32 Int32.toInt :=
  fun _ _ _ _ h => fits_of_signedReduce (fun x => ⟨x.le_toInt, x.toInt_lt⟩) h

theorem elementI64_strict : elementI64.Strict .int64 Int64.toInt :=
  fun _ _ _ _ h => fits_of_signedReduce (fun x => ⟨x.le_toInt, x.toInt_lt⟩) h

theorem some_of_mapM {α β : Type} {f : α → Option β} {xs : List α} {ys : List β}
    (h : xs.mapM f = some ys) : ∀ x ∈ xs, ∃ y, f x = some y := by
  induction xs generalizing ys with
  | nil =>
    intro x hx
    cases hx
  | cons x xs ih =>
    rw [List.mapM_cons] at h
    obtain ⟨y, hy, h⟩ := Option.bind_eq_some_iff.1 h
    obtain ⟨rest, hrest, -⟩ := Option.bind_eq_some_iff.1 h
    intro z hz
    rcases List.mem_cons.1 hz with rfl | hz
    · exact ⟨y, hy⟩
    · exact ih hrest z hz

/-- **A turn that returns** has results that fit. -/
theorem fits_of_reduceStep (hel : el.Represents t int) (hstrict : el.Strict t int)
    {dst dst' : List T} {x : ℕ → ℤ} {buffer : List UInt8}
    (hdst : dst.map int = (List.range k).map x) (hlength : buffer.length = k * t.size)
    (h : reduceStep el op k dst buffer = .returns dst') :
    ∀ i < k, t.Fits (t.combine op (x i) (t.element buffer i)) := by
  obtain ⟨src, hread, hsrc⟩ := readElements_eq hel hlength
  unfold reduceStep at h
  rw [hread, Outcome.returns_bind] at h
  have hall := some_of_mapM (Outcome.ofOption_returns h)
  intro i hi
  have hmem : t.combine op (x i) (t.element buffer i) ∈
      (List.range k).map fun i => t.combine op (x i) (t.element buffer i) :=
    List.mem_map.2 ⟨i, List.mem_range.2 hi, rfl⟩
  rw [← map_combine_zip t op hdst hsrc] at hmem
  obtain ⟨p, hp, heq⟩ := List.mem_map.1 hmem
  obtain ⟨v, hv⟩ := hall p hp
  rw [← heq]
  exact hstrict op p.1 p.2 v hv

/-- **A loop over the ranks that returns** has overflowed at no rank. -/
theorem noOverflow_of_foldlM (hel : el.Represents t int) (hstrict : el.Strict t int)
    {first : List UInt8} (ranks rest : List (List UInt8)) {dst last : List T}
    (hdst : dst.map int = (List.range k).map (t.foldAt op (first :: ranks)))
    (hlength : ∀ input ∈ rest, input.length = k * t.size)
    (hno : t.NoOverflow op k (first :: ranks))
    (h : rest.foldlM (reduceStep el op k) dst = .returns last) :
    t.NoOverflow op k (first :: (ranks ++ rest)) := by
  induction rest generalizing ranks dst with
  | nil => rwa [List.append_nil]
  | cons input rest ih =>
    have hinput := hlength input (List.mem_cons_self ..)
    rw [List.foldlM_cons] at h
    obtain ⟨dst', hstep, hrest⟩ := Outcome.bind_returns h
    have hfits := fits_of_reduceStep hel hstrict hdst hinput hstep
    obtain ⟨dst'', hstep', hdst'⟩ := reduceStep_eq hel hdst hinput hfits
    obtain rfl : dst' = dst'' := by
      rw [hstep] at hstep'
      cases hstep'
      rfl
    have hnext : dst'.map int = (List.range k).map (t.foldAt op (first :: (ranks ++ [input]))) := by
      rw [hdst']
      exact List.map_congr_left fun i _ => (Numeric.foldAt_append_singleton ..).symm
    rw [List.append_cons]
    exact ih (ranks ++ [input]) hnext (fun x hx => hlength x (List.mem_cons_of_mem input hx))
      (hno.concat hfits) hrest

theorem noOverflow_of_doReduce (hel : el.Represents t int) (hstrict : el.Strict t int)
    (hne : inputs ≠ []) (hlength : ∀ input ∈ inputs, input.length = k * t.size)
    {out : List UInt8} (h : doReduce el inputs op (k * t.size) inputs.length = .returns out) :
    t.NoOverflow op k inputs := by
  obtain ⟨first, rest, rfl⟩ := List.exists_cons_of_ne_nil hne
  have hsize : 0 < t.size := by cases t <;> decide
  obtain ⟨start, hread, hstart⟩ := readElements_eq hel (hlength first (List.mem_cons_self ..))
  rw [← hel.size, doReduce_cons el (hel.size ▸ hsize), hread, Outcome.returns_bind] at h
  obtain ⟨row, hloop, -⟩ := Outcome.bind_returns h
  exact noOverflow_of_foldlM hel hstrict [] rest hstart
    (fun x hx => hlength x (List.mem_cons_of_mem first hx)) (t.noOverflow_singleton op k first)
    hloop

/-- **A reduction of integers** is defined if and only if nothing
overflows. -/
theorem doReduce_ne_undefined_iff (hel : el.Represents t int) (hstrict : el.Strict t int)
    (hne : inputs ≠ []) (hlength : ∀ input ∈ inputs, input.length = k * t.size) :
    doReduce el inputs op (k * t.size) inputs.length ≠ .undefined ↔ t.NoOverflow op k inputs := by
  constructor
  · intro h
    obtain ⟨out, hout⟩ := Outcome.exists_returns (fun e => doReduce_ne_throws el e) h
    exact noOverflow_of_doReduce hel hstrict hne hlength hout
  · intro hno
    rw [doReduce_eq hel hne hlength hno]
    exact fun h => by cases h

theorem reduceInto_numeric (hne : inputs ≠ [])
    (hlength : ∀ input ∈ inputs, input.length = k * t.size) :
    reduceInto inputs (.of t.datatype) op (k * t.size) inputs.length ≠ .undefined ↔
      t.NoOverflow op k inputs := by
  cases t with
  | uint32 =>
    exact doReduce_ne_undefined_iff elementU32_represents (elementU32_strict _) hne hlength
  | int32 => exact doReduce_ne_undefined_iff elementI32_represents elementI32_strict hne hlength
  | int64 => exact doReduce_ne_undefined_iff elementI64_represents elementI64_strict hne hlength

/-! ## Other datatypes -/

theorem exists_mapM {α β : Type} {f : α → Option β} (hf : ∀ x, ∃ y, f x = some y) (xs : List α) :
    ∃ ys, xs.mapM f = some ys := by
  induction xs with
  | nil => exact ⟨[], rfl⟩
  | cons x xs ih =>
    obtain ⟨y, hy⟩ := hf x
    obtain ⟨ys, hys⟩ := ih
    exact ⟨y :: ys, by rw [List.mapM_cons, hy, hys]; rfl⟩

/-- An operation that is defined on all values never makes a reduction
undefined. -/
theorem doReduce_ne_undefined (hsize : 0 < el.size)
    (htotal : ∀ op a b, ∃ v, el.reduce op a b = some v) (hne : inputs ≠ [])
    (hlength : ∀ input ∈ inputs, input.length = k * el.size) :
    doReduce el inputs op (k * el.size) inputs.length ≠ .undefined := by
  obtain ⟨first, rest, rfl⟩ := List.exists_cons_of_ne_nil hne
  have hread (buffer : List UInt8) (hbuffer : buffer ∈ first :: rest) :
      ∃ row, readElements el k buffer = .returns row :=
    ⟨_, if_neg (by rw [hlength buffer hbuffer]; exact lt_irrefl _)⟩
  obtain ⟨start, hstart⟩ := hread first (List.mem_cons_self ..)
  rw [doReduce_cons el hsize, hstart, Outcome.returns_bind]
  intro h
  rcases Outcome.bind_undefined h with hloop | ⟨row, -, h⟩
  · obtain ⟨dst, input, hinput, hround⟩ := Outcome.foldlM_undefined hloop
    obtain ⟨src, hsrc⟩ := hread input (List.mem_cons_of_mem first hinput)
    obtain ⟨row, hrow⟩ := exists_mapM (fun p : T × T => htotal op p.1 p.2) (dst.zip src)
    unfold reduceStep at hround
    rw [hsrc, Outcome.returns_bind] at hround
    exact absurd (Outcome.ofOption_undefined hround) (by simp [hrow])
  · cases h

theorem opF32_total (op : Scoped ReductionOp) (a b : UInt32) : ∃ v, opF32 op a b = some v := by
  unfold opF32
  simp only
  split <;> exact ⟨_, rfl⟩

theorem opF64_total (op : Scoped ReductionOp) (a b : UInt64) : ∃ v, opF64 op a b = some v := by
  unfold opF64
  simp only
  split <;> exact ⟨_, rfl⟩

/-- A value that names a kind is the kind's. -/
theorem kind_of_named {kind : Scoped CollectiveKind} {k : CollectiveKind}
    (h : kind.named = some k) : kind = .of k :=
  congrArg Scoped.mk (eq_toRaw_of_getElem? (by rintro ⟨⟩ <;> rfl) (by decide) h)

/-- A value that names a datatype is the datatype's. -/
theorem datatype_of_named {dt : Scoped Datatype} {d : Datatype} (h : dt.named = some d) :
    dt = .of d :=
  congrArg Scoped.mk (eq_toRaw_of_getElem? (by rintro ⟨⟩ <;> rfl) (by decide) h)

/-- **A reduction of the sizes it reads** is undefined only where the
signed arithmetic of its datatype overflows. -/
theorem reduceInto_ne_undefined_iff {dt : Scoped Datatype} (hne : inputs ≠ [])
    (hlength : ∀ input ∈ inputs, input.length = k * datatypeSizeBytes dt) :
    reduceInto inputs dt op (k * datatypeSizeBytes dt) inputs.length ≠ .undefined ↔
      ∀ t : Numeric, dt = .of t.datatype → t.NoOverflow op k inputs := by
  by_cases hnumeric : ∃ t : Numeric, dt = .of t.datatype
  · obtain ⟨t, rfl⟩ := hnumeric
    rw [datatypeSizeBytes_eq] at hlength ⊢
    rw [reduceInto_numeric hne hlength]
    have hinj (t' : Numeric) (h : (.of t.datatype : Scoped Datatype) = .of t'.datatype) :
        t = t' := by
      revert h
      cases t <;> cases t' <;> decide
    refine ⟨fun hno t' ht' => hinj t' ht' ▸ hno, fun h => h t rfl⟩
  · refine iff_of_true ?_ fun t ht => absurd ⟨t, ht⟩ hnumeric
    cases hdt : dt.named with
    | none =>
      rw [reduceInto, hdt]
      exact fun h => by cases h
    | some d =>
      obtain rfl := datatype_of_named hdt
      cases d with
      | int32 => exact absurd ⟨.int32, rfl⟩ hnumeric
      | uint32 => exact absurd ⟨.uint32, rfl⟩ hnumeric
      | int64 => exact absurd ⟨.int64, rfl⟩ hnumeric
      | float32 =>
        exact doReduce_ne_undefined (by decide : 0 < elementF32.size) opF32_total hne hlength
      | float64 =>
        exact doReduce_ne_undefined (by decide : 0 < elementF64.size) opF64_total hne hlength
      | byte => exact fun h => by cases h

end ReferenceEngine

end CollectiveFabric
