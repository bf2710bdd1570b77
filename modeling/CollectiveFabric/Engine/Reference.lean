import CollectiveFabric.Engine.Semantics

/-!
# The reference engine computes the collectives

For the integer datatypes, sizes that pass the engine's own checks and
folds without signed overflow, every kind returns, and what it returns is
the kind's result: the element types compute on integers, a reduction is
the left fold of every element, and each collective copies, folds or
concatenates the right bytes.
-/

namespace CollectiveFabric

open Common

namespace Outcome

instance : LawfulMonad Outcome := LawfulMonad.mk' Outcome
  (fun x => by cases x <;> rfl) (fun _ _ => rfl) (fun x _ _ => by cases x <;> rfl)

variable {α β : Type}

@[simp] theorem ofOption_some (a : α) : ofOption (some a) = returns a := rfl

@[simp] theorem returns_bind (a : α) (f : α → Outcome β) : (returns a >>= f) = f a := rfl

end Outcome

namespace ReferenceEngine

variable {T : Type}

/-! ## Element types -/

/-- An element type computes on the integers of a numeric datatype. -/
structure Element.Represents (el : Element T) (t : Numeric) (int : T → ℤ) : Prop where
  size : el.size = t.size
  load : ∀ bs : List UInt8, bs.length = t.size → int (el.load bs) = t.load bs
  store : ∀ v, el.store v = t.store (int v)
  reduce : ∀ op a b, t.Fits (t.combine op (int a) (int b)) →
    ∃ v, el.reduce op a b = some v ∧ int v = t.combine op (int a) (int b)

theorem loadLe_lt {bs : List UInt8} {n : ℕ} (h : bs.length = n) : loadLe bs < 2 ^ (8 * n) := by
  have hlt := BigEndian.value_lt bs.reverse
  rw [List.length_reverse, h] at hlt
  calc loadLe bs < 256 ^ n := hlt
    _ = 2 ^ (8 * n) := by rw [pow_mul]; rfl

theorem elementU32_represents : elementU32.Represents .uint32 fun v => (v.toNat : ℤ) where
  size := rfl
  load bs h := by
    have hlt : loadLe bs < UInt32.size := by simpa [Numeric.size] using loadLe_lt h
    exact congrArg Nat.cast (UInt32.toNat_ofNat_of_lt' hlt)
  store v := by
    have hlt := v.toNat_lt
    simp only [elementU32, Numeric.store, Numeric.size]
    congr 1
    omega
  reduce op a b _ := by
    have ha := a.toNat_lt
    have hb := b.toNat_lt
    have hother : some b = some b ∧ (b.toNat : ℤ) = (b.toNat : ℤ) % 2 ^ 32 := ⟨rfl, by omega⟩
    simp only [elementU32, opU32, Numeric.combine, Numeric.eval]
    cases op.named with
    | none => exact ⟨b, hother⟩
    | some op =>
      cases op with
      | sum => exact ⟨a + b, rfl, by simp⟩
      | product => exact ⟨a * b, rfl, by simp⟩
      | min =>
        refine ⟨_, rfl, ?_⟩
        simp only [UInt32.lt_iff_toNat_lt]
        split <;> omega
      | max =>
        refine ⟨_, rfl, ?_⟩
        simp only [gt_iff_lt, UInt32.lt_iff_toNat_lt]
        split <;> omega
      | none => exact ⟨b, hother⟩

/-- The operation of a signed type of `w + 1` bits. -/
def signedReduce [LT T] [DecidableLT T] (toInt : T → ℤ) (ofInt : ℤ → T) (w : ℕ)
    (op : Scoped ReductionOp) (a b : T) : Option T :=
  match op.named with
  | some .sum =>
    let v := toInt a + toInt b
    if -2 ^ w ≤ v ∧ v < 2 ^ w then some (ofInt v) else none
  | some .product =>
    let v := toInt a * toInt b
    if -2 ^ w ≤ v ∧ v < 2 ^ w then some (ofInt v) else none
  | some .min => some (if a < b then a else b)
  | some .max => some (if a > b then a else b)
  | _ => some b

/-- **A signed operation is exact** where its result is in range. -/
theorem signedReduce_eq [LT T] [DecidableLT T] {toInt : T → ℤ} {ofInt : ℤ → T} {w : ℕ}
    (hof : ∀ z : ℤ, -2 ^ w ≤ z → z < 2 ^ w → toInt (ofInt z) = z)
    (hlt : ∀ x y, x < y ↔ toInt x < toInt y) {op : Scoped ReductionOp} {a b : T}
    (hfits : -2 ^ w ≤ Numeric.eval op (toInt a) (toInt b) ∧
      Numeric.eval op (toInt a) (toInt b) < 2 ^ w) :
    ∃ v, signedReduce toInt ofInt w op a b = some v ∧
      toInt v = Numeric.eval op (toInt a) (toInt b) := by
  unfold signedReduce Numeric.eval at *
  cases hop : op.named with
  | none => exact ⟨b, rfl, rfl⟩
  | some op =>
    rw [hop] at hfits
    cases op with
    | sum => exact ⟨_, if_pos hfits, hof _ hfits.1 hfits.2⟩
    | product => exact ⟨_, if_pos hfits, hof _ hfits.1 hfits.2⟩
    | min =>
      refine ⟨_, rfl, ?_⟩
      simp only [hlt]
      split <;> omega
    | max =>
      refine ⟨_, rfl, ?_⟩
      simp only [gt_iff_lt, hlt]
      split <;> omega
    | none => exact ⟨b, rfl, rfl⟩

/-- The bits of a signed number are the number modulo its range. -/
theorem toNat_eq_toInt_emod {w : ℕ} (x : BitVec w) : x.toNat = (x.toInt % 2 ^ w).toNat := by
  have hpow : (2 : ℤ) ^ w = (2 ^ w : ℕ) := (Nat.cast_pow 2 w).symm
  rw [BitVec.toInt_eq_toNat_bmod, hpow, Int.bmod_emod, ← Int.natCast_mod,
    Nat.mod_eq_of_lt x.isLt, Int.toNat_natCast]

theorem elementI32_represents : elementI32.Represents .int32 Int32.toInt where
  size := rfl
  load _ _ := BitVec.toInt_ofNat ..
  store v := congrArg (storeLe 4) (toNat_eq_toInt_emod v.toBitVec)
  reduce _ _ _ hfits := signedReduce_eq (fun _ h h' => Int32.toInt_ofInt_of_le h h')
    (fun _ _ => Int32.lt_iff_toInt_lt) hfits

theorem elementI64_represents : elementI64.Represents .int64 Int64.toInt where
  size := rfl
  load _ _ := BitVec.toInt_ofNat ..
  store v := congrArg (storeLe 8) (toNat_eq_toInt_emod v.toBitVec)
  reduce _ _ _ hfits := signedReduce_eq (fun _ h h' => Int64.toInt_ofInt_of_le h h')
    (fun _ _ => Int64.lt_iff_toInt_lt) hfits

/-! ## Reductions -/

section

variable {el : Element T} {t : Numeric} {int : T → ℤ} {op : Scoped ReductionOp} {k : ℕ}
variable {inputs : List (List UInt8)}

theorem length_slice {buffer : List UInt8} {i c size : ℕ} (hi : i < c)
    (hlength : buffer.length = c * size) :
    ((buffer.drop (i * size)).take size).length = size := by
  have hle : (i + 1) * size ≤ c * size := Nat.mul_le_mul_right size hi
  rw [Nat.succ_mul] at hle
  rw [List.length_take, List.length_drop]
  omega

/-- **Reading `k` elements** gives the integers of the row. -/
theorem readElements_eq (hel : el.Represents t int) {buffer : List UInt8}
    (hlength : buffer.length = k * t.size) :
    ∃ row, readElements el k buffer = .returns row ∧
      row.map int = (List.range k).map (t.element buffer) := by
  refine ⟨_, if_neg (by rw [hel.size]; omega), ?_⟩
  rw [List.map_map]
  refine List.map_congr_left fun i hi => ?_
  have hslice := length_slice (List.mem_range.1 hi) hlength
  simp only [Function.comp_apply, hel.size, hel.load _ hslice, Numeric.element]

/-- Reducing pair by pair is exact where every result fits. -/
theorem mapM_reduce (hel : el.Represents t int) {pairs : List (T × T)}
    (hfits : ∀ p ∈ pairs, t.Fits (t.combine op (int p.1) (int p.2))) :
    ∃ row, pairs.mapM (fun p => el.reduce op p.1 p.2) = some row ∧
      row.map int = pairs.map fun p => t.combine op (int p.1) (int p.2) := by
  induction pairs with
  | nil => exact ⟨[], rfl, rfl⟩
  | cons p pairs ih =>
    obtain ⟨v, hv, hint⟩ := hel.reduce op p.1 p.2 (hfits p (List.mem_cons_self ..))
    obtain ⟨row, hrow, hmap⟩ := ih fun q hq => hfits q (List.mem_cons_of_mem p hq)
    refine ⟨v :: row, ?_, ?_⟩
    · simp [List.mapM_cons, hv, hrow]
    · rw [List.map_cons, List.map_cons, hint, hmap]

/-- The results of one rank's turn, pair by pair and by index. -/
theorem map_combine_zip (t : Numeric) (op : Scoped ReductionOp) {dst src : List T} {x y : ℕ → ℤ}
    (hdst : dst.map int = (List.range k).map x) (hsrc : src.map int = (List.range k).map y) :
    (dst.zip src).map (fun p => t.combine op (int p.1) (int p.2)) =
      (List.range k).map fun i => t.combine op (x i) (y i) := by
  have hpairs : (dst.zip src).map (Prod.map int int) = (List.range k).map fun i => (x i, y i) := by
    rw [← List.zip_map, hdst, hsrc, List.zip_map']
  have h := congrArg (List.map fun p : ℤ × ℤ => t.combine op p.1 p.2) hpairs
  rwa [List.map_map, List.map_map] at h

/-- **One rank's turn** folds its row in, where every result fits. -/
theorem reduceStep_eq (hel : el.Represents t int) {dst : List T} {x : ℕ → ℤ}
    {buffer : List UInt8} (hdst : dst.map int = (List.range k).map x)
    (hlength : buffer.length = k * t.size)
    (hfits : ∀ i < k, t.Fits (t.combine op (x i) (t.element buffer i))) :
    ∃ dst', reduceStep el op k dst buffer = .returns dst' ∧
      dst'.map int = (List.range k).map fun i => t.combine op (x i) (t.element buffer i) := by
  obtain ⟨src, hread, hsrc⟩ := readElements_eq hel hlength
  have hcombined := map_combine_zip t op hdst hsrc
  have hall : ∀ p ∈ dst.zip src, t.Fits (t.combine op (int p.1) (int p.2)) := by
    intro p hp
    have hmem := List.mem_map_of_mem (f := fun p => t.combine op (int p.1) (int p.2)) hp
    rw [hcombined] at hmem
    obtain ⟨i, hi, heq⟩ := List.mem_map.1 hmem
    rw [← heq]
    exact hfits i (List.mem_range.1 hi)
  obtain ⟨dst', hmap, hint⟩ := mapM_reduce hel hall
  refine ⟨dst', ?_, hint.trans hcombined⟩
  unfold reduceStep
  rw [hread]
  exact congrArg Outcome.ofOption hmap

/-- **The loop over the ranks** keeps in `dst` the fold of the ranks taken
so far. -/
theorem foldlM_reduceStep (hel : el.Represents t int) {first : List UInt8}
    (rest : List (List UInt8)) {ranks : List (List UInt8)} {dst : List T}
    (hdst : dst.map int = (List.range k).map (t.foldAt op (first :: ranks)))
    (hlength : ∀ input ∈ rest, input.length = k * t.size)
    (hno : t.NoOverflow op k (first :: (ranks ++ rest))) :
    ∃ dst', rest.foldlM (reduceStep el op k) dst = .returns dst' ∧
      dst'.map int = (List.range k).map (t.foldAt op (first :: (ranks ++ rest))) := by
  induction rest generalizing ranks dst with
  | nil => exact ⟨dst, rfl, by rw [List.append_nil]; exact hdst⟩
  | cons input rest ih =>
    have hsplit : ranks ++ input :: rest = ranks ++ [input] ++ rest := List.append_cons ..
    rw [hsplit] at hno ⊢
    have hfits : ∀ i < k, t.Fits
        (t.combine op (t.foldAt op (first :: ranks) i) (t.element input i)) := by
      intro i hi
      rw [← Numeric.foldAt_append_singleton]
      refine hno i hi _ ((List.mem_inits ..).2 ?_)
      exact List.cons_prefix_cons.2 ⟨rfl, List.prefix_append _ _⟩
    obtain ⟨dst', hstep, hdst'⟩ :=
      reduceStep_eq hel hdst (hlength input (List.mem_cons_self ..)) hfits
    have hnext : dst'.map int = (List.range k).map (t.foldAt op (first :: (ranks ++ [input]))) := by
      rw [hdst']
      exact List.map_congr_left fun i _ => (Numeric.foldAt_append_singleton ..).symm
    obtain ⟨last, hloop, hlast⟩ :=
      ih hnext (fun x hx => hlength x (List.mem_cons_of_mem input hx)) hno
    refine ⟨last, ?_, hlast⟩
    rw [List.foldlM_cons, hstep]
    exact hloop

/-- **`do_reduce` walks the ranks**, where the elements fill the output. -/
theorem doReduce_cons (el : Element T) (hsize : 0 < el.size) (first : List UInt8)
    (rest : List (List UInt8)) :
    doReduce el (first :: rest) op (k * el.size) (first :: rest).length =
      readElements el k first >>= fun start =>
        rest.foldlM (reduceStep el op k) start >>= fun row =>
          Outcome.returns (row.flatMap el.store) := by
  have hk : k * el.size / el.size = k := Nat.mul_div_cancel k hsize
  have hranks (start : List T) : (List.range' 1 rest.length).foldlM (fun dst r => do
        let input ← Outcome.ofOption ((first :: rest)[r]?)
        reduceStep el op k dst input) start = rest.foldlM (reduceStep el op k) start := by
    have hdrop : (first :: rest).drop 1 = rest := rfl
    exact Loops.foldlM_range' hdrop _ (fun i x hx => by rw [hx]; rfl) _ start
  -- no byte is left over
  simp only [doReduce, hk, List.length_cons, Nat.add_sub_cancel, Nat.sub_self,
    List.replicate_zero, List.append_nil, List.getElem?_cons_zero, Outcome.ofOption_some,
    Outcome.returns_bind, hranks]
  rfl

/-- **`do_reduce` is the fold** of the ranks' rows. -/
theorem doReduce_eq (hel : el.Represents t int) (hne : inputs ≠ [])
    (hlength : ∀ input ∈ inputs, input.length = k * t.size) (hno : t.NoOverflow op k inputs) :
    doReduce el inputs op (k * t.size) inputs.length = .returns (t.fold op k inputs) := by
  obtain ⟨first, rest, rfl⟩ := List.exists_cons_of_ne_nil hne
  have hsize : 0 < t.size := by cases t <;> decide
  obtain ⟨start, hread, hstart⟩ := readElements_eq hel (hlength first (List.mem_cons_self ..))
  obtain ⟨row, hloop, hrow⟩ := @foldlM_reduceStep _ el t int op k hel first rest [] start hstart
    (fun x hx => hlength x (List.mem_cons_of_mem first hx)) hno
  have hbytes : row.flatMap el.store = t.fold op k (first :: rest) := by
    have hstore : row.flatMap el.store = (row.map int).flatMap t.store := by
      rw [List.flatMap_map]
      exact List.flatMap_congr fun v _ => hel.store v
    rw [hstore, hrow, List.flatMap_map]
    rfl
  rw [← hel.size, doReduce_cons el (hel.size ▸ hsize), hread, Outcome.returns_bind, hloop,
    Outcome.returns_bind, hbytes]

/-- **`reduce_into` is the fold**, for each integer datatype. -/
theorem reduceInto_eq (hne : inputs ≠ [])
    (hlength : ∀ input ∈ inputs, input.length = k * t.size) (hno : t.NoOverflow op k inputs) :
    reduceInto inputs (.of t.datatype) op (k * t.size) inputs.length =
      .returns (t.fold op k inputs) := by
  cases t with
  | uint32 => exact doReduce_eq elementU32_represents hne hlength hno
  | int32 => exact doReduce_eq elementI32_represents hne hlength hno
  | int64 => exact doReduce_eq elementI64_represents hne hlength hno

/-! ## The collectives -/

theorem checksize_eq {perBytes : ℕ} (hlength : ∀ input ∈ inputs, input.length = perBytes) :
    checksize inputs perBytes inputs.length = .returns () := by
  have hany : (inputs.take inputs.length).any (fun input => input.length ≠ perBytes) = false := by
    rw [List.take_length]
    simpa using hlength
  rw [checksize, if_neg (lt_irrefl _), if_neg (by rw [hany]; decide)]

theorem reduce_eq {root : ℕ} (hroot : root < inputs.length)
    (hlength : ∀ input ∈ inputs, input.length = k * t.size) (hno : t.NoOverflow op k inputs) :
    reduce inputs (.of t.datatype) op (k * t.size) root inputs.length =
      .returns (CollectiveKind.reduce.result t op k root inputs.length inputs) := by
  have hne : inputs ≠ [] := by
    rintro rfl
    exact absurd hroot (Nat.not_lt_zero root)
  have houtputs : (List.replicate inputs.length []).set root (t.fold op k inputs) =
      CollectiveKind.reduce.result t op k root inputs.length inputs := by
    refine List.ext_getElem (by simp [CollectiveKind.result]) fun r _ hr => ?_
    simp only [CollectiveKind.result, List.getElem_set, List.getElem_replicate, List.getElem_map,
      List.getElem_range, eq_comm]
  simp only [reduce, checksize_eq hlength, Outcome.returns_bind, if_pos hroot,
    reduceInto_eq hne hlength hno, houtputs]
  rfl

theorem allReduce_eq {root : ℕ} (hne : inputs ≠ [])
    (hlength : ∀ input ∈ inputs, input.length = k * t.size) (hno : t.NoOverflow op k inputs) :
    allReduce inputs (.of t.datatype) op (k * t.size) inputs.length =
      .returns (CollectiveKind.allReduce.result t op k root inputs.length inputs) := by
  have houtputs : List.replicate inputs.length (t.fold op k inputs) =
      CollectiveKind.allReduce.result t op k root inputs.length inputs := by
    simp [CollectiveKind.result]
  simp only [allReduce, checksize_eq hlength, Outcome.returns_bind,
    if_pos (List.length_pos_of_ne_nil hne), reduceInto_eq hne hlength hno, houtputs]
  rfl

theorem broadcast_eq {root n : ℕ} {input : List UInt8} (hinput : inputs[root]? = some input)
    (hlength : input.length = k * t.size) :
    broadcast inputs (k * t.size) root n =
      .returns (CollectiveKind.broadcast.result t op k root n inputs) := by
  simp [broadcast, hinput, hlength, CollectiveKind.result, List.getD]

/-- The copies of one rank are the inputs one after another. -/
theorem gather_eq {perBytes : ℕ} (hlength : ∀ input ∈ inputs, input.length = perBytes) :
    gather inputs perBytes inputs.length = .returns inputs.flatten := by
  have hloop : gather inputs perBytes inputs.length = inputs.foldlM (fun acc input =>
      if input.length < perBytes then Outcome.undefined
      else Outcome.returns (acc ++ input.take perBytes)) [] :=
    Loops.foldlM_range _ (fun i x hx => by rw [hx]; rfl) _ []
  rw [hloop, Loops.foldlM_eq_pure (g := fun acc input => acc ++ input)]
  · rw [List.foldl_append_eq_append]
    simp
    rfl
  · intro acc input hinput
    rw [if_neg (hlength input hinput).not_lt, ← hlength input hinput, List.take_length]
    rfl

theorem allGather_eq {root : ℕ} (hlength : ∀ input ∈ inputs, input.length = k * t.size) :
    allGather inputs (k * t.size) inputs.length =
      .returns (CollectiveKind.allGather.result t op k root inputs.length inputs) := by
  have hloop : allGather inputs (k * t.size) inputs.length = inputs.foldlM (fun outputs input =>
      if input.length ≠ k * t.size then
        Outcome.throws ⟨.validation, "all_gather: rank input size mismatch"⟩
      else
        gather inputs (k * t.size) inputs.length >>= fun output =>
          Outcome.returns (outputs ++ [output])) [] :=
    Loops.foldlM_range _ (fun i x hx => by rw [hx]; rfl) _ []
  rw [hloop, Loops.foldlM_append (g := fun _ => inputs.flatten)]
  · simp [CollectiveKind.result]
    rfl
  · intro outputs input hinput
    rw [if_neg (by simpa using hlength input hinput), gather_eq hlength]
    rfl

theorem checkScatter_eq {total : ℕ} (hlength : ∀ input ∈ inputs, input.length = total) :
    checkScatter inputs total inputs.length = .returns () := by
  have hloop : checkScatter inputs total inputs.length = inputs.foldlM (fun _ input =>
      if input.length ≠ total then
        Outcome.throws ⟨.validation, "reduce_scatter: rank input size mismatch"⟩
      else Outcome.returns ()) () :=
    Loops.foldlM_range _ (fun i x hx => by rw [hx]; rfl) _ ()
  rw [hloop, Loops.foldlM_eq_pure (g := fun _ _ => ())]
  · rfl
  · intro acc input hinput
    exact if_neg (by simpa using hlength input hinput)

/-- **Each block is reduced for its rank.** -/
theorem reduceScatter_eq {root : ℕ} (hne : inputs ≠ []) (hcount : inputs.length < 2 ^ 64)
    (hfits : k * t.size * inputs.length < 2 ^ 64)
    (hlength : ∀ input ∈ inputs, input.length = inputs.length * k * t.size)
    (hno : t.NoOverflow op (inputs.length * k) inputs) :
    reduceScatter inputs (.of t.datatype) op (k * t.size) inputs.length =
      .returns (CollectiveKind.reduceScatter.result t op k root inputs.length inputs) := by
  have hper : k * t.size < 2 ^ 64 :=
    lt_of_le_of_lt (Nat.le_mul_of_pos_right _ (List.length_pos_of_ne_nil hne)) hfits
  have htoNat : (UInt64.ofNat (k * t.size)).toNat * (UInt64.ofNat inputs.length).toNat =
      k * t.size * inputs.length := by
    rw [UInt64.toNat_ofNat_of_lt' hper, UInt64.toNat_ofNat_of_lt' hcount]
  obtain ⟨total, htotal, hvalue⟩ := checkedMul_of_lt (htoNat ▸ hfits)
  have hcheck : ∀ input ∈ inputs, input.length = total.toNat := by
    intro input hinput
    rw [hlength input hinput, hvalue, htoNat]
    ring
  have hblock : ∀ b ∈ List.range inputs.length,
      reduceInto ((inputs.take inputs.length).map fun input =>
          (input.drop (b * (k * t.size))).take (k * t.size))
        (.of t.datatype) op (k * t.size) inputs.length =
      .returns (t.fold op k (inputs.map (t.block k b))) := by
    intro b hb
    rw [List.take_length]
    have hsizes : ∀ block ∈ inputs.map (t.block k b), block.length = k * t.size := by
      intro block hmem
      obtain ⟨input, hinput, rfl⟩ := List.mem_map.1 hmem
      refine length_slice (List.mem_range.1 hb) ?_
      rw [hlength input hinput, Nat.mul_assoc]
    have h := reduceInto_eq (by simpa using hne) hsizes (hno.block (List.mem_range.1 hb))
    rwa [List.length_map] at h
  simp only [reduceScatter, htotal, checkScatter_eq hcheck, Outcome.returns_bind]
  exact Loops.foldlM_append fun outputs b hb => by rw [hblock b hb]; rfl

end

/-! ## Execution -/

section

variable {t : Numeric} {op : Scoped ReductionOp} {k root n : UInt64} {inputs : List (List UInt8)}

theorem datatypeSizeBytes_eq (t : Numeric) : datatypeSizeBytes (.of t.datatype) = t.size := by
  cases t <;> rfl

theorem toNat_datatypeSizeBytes (dt : Scoped Datatype) :
    (UInt64.ofNat (datatypeSizeBytes dt)).toNat = datatypeSizeBytes dt := by
  unfold datatypeSizeBytes
  split <;> rfl

/-- The sizes `execute` computes. -/
theorem sizes_of_fits {dt : Scoped Datatype} (hn : 1 ≤ n.toNat)
    (hfits : k.toNat * datatypeSizeBytes dt * n.toNat < 2 ^ 64) :
    ∃ per total, checkedMul k (UInt64.ofNat (datatypeSizeBytes dt)) = some per ∧
      checkedMul per n = some total ∧ per.toNat = k.toNat * datatypeSizeBytes dt ∧
        total.toNat = k.toNat * datatypeSizeBytes dt * n.toNat := by
  have hwidth := toNat_datatypeSizeBytes dt
  have hper : k.toNat * (UInt64.ofNat (datatypeSizeBytes dt)).toNat < 2 ^ 64 := by
    rw [hwidth]
    exact lt_of_le_of_lt (Nat.le_mul_of_pos_right _ hn) hfits
  obtain ⟨per, hmul, hvalue⟩ := checkedMul_of_lt hper
  rw [hwidth] at hvalue
  obtain ⟨total, htotal, hvalue'⟩ := checkedMul_of_lt (a := per) (b := n) (by rwa [hvalue])
  exact ⟨per, total, hmul, htotal, hvalue, by rw [hvalue', hvalue]⟩

/-- The size `reduce_scatter` computes again. -/
theorem total_of_fits {dt : Scoped Datatype} (hn : 1 ≤ n.toNat)
    (hfits : k.toNat * datatypeSizeBytes dt * n.toNat < 2 ^ 64) :
    ∃ total, checkedMul (UInt64.ofNat (k.toNat * datatypeSizeBytes dt)) (UInt64.ofNat n.toNat) =
      some total ∧ total.toNat = k.toNat * datatypeSizeBytes dt * n.toNat := by
  obtain ⟨per, total, -, htotal, hvalue, htotalvalue⟩ := sizes_of_fits hn hfits
  refine ⟨total, ?_, htotalvalue⟩
  rw [← hvalue, UInt64.ofNat_toNat, UInt64.ofNat_toNat, htotal]

/-- **The checks of `execute` pass** where the datatype has a size and the
sizes fit 64 bits. -/
theorem execute_of_sizes {dt : Scoped Datatype} (kind : CollectiveKind)
    (hdt : datatypeSizeBytes dt ≠ 0) (hn : 1 ≤ n.toNat)
    (hfits : k.toNat * datatypeSizeBytes dt * n.toNat < 2 ^ 64) :
    execute (.of kind) op dt k root n inputs =
      match kind with
      | .barrier => barrier n.toNat
      | .broadcast => broadcast inputs (k.toNat * datatypeSizeBytes dt) root.toNat n.toNat
      | .reduce => reduce inputs dt op (k.toNat * datatypeSizeBytes dt) root.toNat n.toNat
      | .allReduce => allReduce inputs dt op (k.toNat * datatypeSizeBytes dt) n.toNat
      | .allGather => allGather inputs (k.toNat * datatypeSizeBytes dt) n.toNat
      | .reduceScatter =>
        reduceScatter inputs dt op (k.toNat * datatypeSizeBytes dt) n.toNat := by
  obtain ⟨per, total, hper, htotal, hvalue, -⟩ := sizes_of_fits hn hfits
  simp only [execute, if_neg hdt, hper, htotal, Scoped.named_of, hvalue]
  cases kind <;> rfl

theorem execute_of_fits (kind : CollectiveKind) (hn : 1 ≤ n.toNat)
    (hfits : k.toNat * t.size * n.toNat < 2 ^ 64) :
    execute (.of kind) op (.of t.datatype) k root n inputs =
      match kind with
      | .barrier => barrier n.toNat
      | .broadcast => broadcast inputs (k.toNat * t.size) root.toNat n.toNat
      | .reduce => reduce inputs (.of t.datatype) op (k.toNat * t.size) root.toNat n.toNat
      | .allReduce => allReduce inputs (.of t.datatype) op (k.toNat * t.size) n.toNat
      | .allGather => allGather inputs (k.toNat * t.size) n.toNat
      | .reduceScatter => reduceScatter inputs (.of t.datatype) op (k.toNat * t.size) n.toNat := by
  have hpos : t.size ≠ 0 := by cases t <;> decide
  rw [← datatypeSizeBytes_eq] at hfits hpos ⊢
  exact execute_of_sizes kind hpos hn hfits

/-- A call the engine answers: its sizes fit 64 bits, its root is a rank,
its inputs have the sizes of their kind, and no signed result overflows. -/
structure Answered (t : Numeric) (kind : CollectiveKind) (op : Scoped ReductionOp)
    (k root n : UInt64) (inputs : List (List UInt8)) : Prop where
  fits_size : k.toNat * t.size * n.toNat < 2 ^ 64
  root_lt : root.toNat < n.toNat
  sized : kind.Sized t k.toNat root.toNat n.toNat inputs
  noOverflow : kind.Reduces → t.NoOverflow op (kind.contribution k.toNat n.toNat) inputs

theorem Answered.returns {kind : CollectiveKind} (h : Answered t kind op k root n inputs) :
    execute (.of kind) op (.of t.datatype) k root n inputs =
      .returns (kind.result t op k.toNat root.toNat n.toNat inputs) := by
  obtain ⟨hfits, hroot, hsized, hno⟩ := h
  have hn : 1 ≤ n.toNat := Nat.one_le_of_lt hroot
  rw [execute_of_fits kind hn hfits]
  have hne (hlength : inputs.length = n.toNat) : inputs ≠ [] := by
    rintro rfl
    exact absurd hn (by rw [← hlength]; decide)
  cases kind with
  | barrier =>
    simp [barrier, CollectiveKind.result]
  | broadcast =>
    obtain ⟨input, hinput, hlength⟩ := hsized
    exact broadcast_eq hinput hlength
  | reduce =>
    obtain ⟨hcount, hlength⟩ := hsized
    rw [← hcount] at hroot ⊢
    exact reduce_eq hroot hlength (hno trivial)
  | allReduce =>
    obtain ⟨hcount, hlength⟩ := hsized
    rw [← hcount]
    exact allReduce_eq (hne hcount) hlength (hno trivial)
  | allGather =>
    obtain ⟨hcount, hlength⟩ := hsized
    rw [← hcount]
    exact allGather_eq hlength
  | reduceScatter =>
    obtain ⟨hcount, hlength⟩ := hsized
    have hno := hno trivial
    have hcount' : inputs.length < 2 ^ 64 := hcount ▸ n.toNat_lt
    rw [← hcount] at hfits hlength hno ⊢
    exact reduceScatter_eq (hne hcount) hcount' hfits hlength hno

end

/-! ## Main results -/

/-- **Each kind computes its result.** -/
theorem execute_returns (t : Numeric) (kind : CollectiveKind) (op : Scoped ReductionOp)
    (k root n : UInt64) (inputs : List (List UInt8))
    (hfits : k.toNat * t.size * n.toNat < 2 ^ 64) (hroot : root.toNat < n.toNat)
    (hsized : kind.Sized t k.toNat root.toNat n.toNat inputs)
    (hno : kind.Reduces → t.NoOverflow op (kind.contribution k.toNat n.toNat) inputs) :
    execute (.of kind) op (.of t.datatype) k root n inputs =
      .returns (kind.result t op k.toNat root.toNat n.toNat inputs) :=
  Answered.returns ⟨hfits, hroot, hsized, hno⟩

/-- Two ranks, two elements each: `1 2 3 -4` and `10 20 30 40` sum to
`11 22` at rank 0 and `33 36` at rank 1. -/
theorem execute_returns_scatter :
    execute (.of .reduceScatter) (.of .sum) (.of .int32) 2 0 2
      [[1, 0, 0, 0, 2, 0, 0, 0, 3, 0, 0, 0, 252, 255, 255, 255],
        [10, 0, 0, 0, 20, 0, 0, 0, 30, 0, 0, 0, 40, 0, 0, 0]] =
      .returns [[11, 0, 0, 0, 22, 0, 0, 0], [33, 0, 0, 0, 36, 0, 0, 0]] :=
  (execute_returns .int32 .reduceScatter (.of .sum) 2 0 2 _ (by decide) (by decide)
    ⟨rfl, by decide⟩ fun _ => by decide +kernel).trans
      (congrArg Outcome.returns (by decide +kernel))

end ReferenceEngine

end CollectiveFabric
