import CollectiveFabric.Engine.Overflow

/-!
# What the engine validates of its inputs

The engine indexes the ranks' inputs. A reduction checks that every rank's
input is there in full before it reads one; an all-gather copies all inputs
once it has checked the first, and a reduce-scatter takes the number of
inputs on trust. Elsewhere a call ends as it should, but for signed
overflow.
-/

namespace CollectiveFabric

open Common

namespace CollectiveKind

/-- The kinds every rank contributes to. -/
def Contributes : CollectiveKind → Prop
  | reduce | allReduce | allGather | reduceScatter => True
  | barrier | broadcast => False

/-- Every rank's contribution is there in full, of elements of `size`
bytes. -/
def Contributed (kind : CollectiveKind) (size k n : ℕ) (inputs : List (List UInt8)) : Prop :=
  n ≤ inputs.length ∧ ∀ input ∈ inputs.take n, input.length = kind.contribution k n * size

end CollectiveKind

namespace ReferenceEngine

variable {inputs : List (List UInt8)} {dt : Scoped Datatype} {op : Scoped ReductionOp}

/-! ## The first inputs are all that counts -/

section

variable {n : ℕ}

theorem checksize_take (inputs : List (List UInt8)) (perBytes n : ℕ) :
    checksize (inputs.take n) perBytes n = checksize inputs perBytes n := by
  have hlength : (inputs.take n).length < n ↔ inputs.length < n := by
    rw [List.length_take]
    omega
  simp only [checksize, hlength, List.take_take, min_self]

theorem doReduce_take {T : Type} (el : Element T) (inputs : List (List UInt8)) (perBytes : ℕ)
    (hn : 1 ≤ n) :
    doReduce el (inputs.take n) op perBytes n = doReduce el inputs op perBytes n := by
  have hloop (start : List T) : (List.range' 1 (n - 1)).foldlM (fun dst r => do
        let input ← Outcome.ofOption (inputs.take n)[r]?
        reduceStep el op (perBytes / el.size) dst input) start =
      (List.range' 1 (n - 1)).foldlM (fun dst r => do
        let input ← Outcome.ofOption inputs[r]?
        reduceStep el op (perBytes / el.size) dst input) start := by
    refine Outcome.foldlM_congr fun dst r hr => ?_
    have hlt := (List.mem_range'_1.1 hr).2
    rw [List.getElem?_take_of_lt (by omega)]
  simp only [doReduce, List.getElem?_take_of_lt hn, hloop]

theorem reduceInto_take (inputs : List (List UInt8)) (perBytes : ℕ) (hn : 1 ≤ n) :
    reduceInto (inputs.take n) dt op perBytes n = reduceInto inputs dt op perBytes n := by
  simp only [reduceInto, doReduce_take _ inputs perBytes hn]

theorem gather_take (inputs : List (List UInt8)) (perBytes n : ℕ) :
    gather (inputs.take n) perBytes n = gather inputs perBytes n := by
  refine Outcome.foldlM_congr fun acc i hi => ?_
  rw [List.getElem?_take_of_lt (List.mem_range.1 hi)]

theorem allGather_take (inputs : List (List UInt8)) (perBytes n : ℕ) :
    allGather (inputs.take n) perBytes n = allGather inputs perBytes n := by
  refine Outcome.foldlM_congr fun outputs r hr => ?_
  rw [List.getElem?_take_of_lt (List.mem_range.1 hr), gather_take]

theorem checkScatter_take (inputs : List (List UInt8)) (total n : ℕ) :
    checkScatter (inputs.take n) total n = checkScatter inputs total n := by
  refine Outcome.foldlM_congr fun _ r hr => ?_
  rw [List.getElem?_take_of_lt (List.mem_range.1 hr)]

theorem reduceScatter_take (inputs : List (List UInt8)) (perBytes n : ℕ) :
    reduceScatter (inputs.take n) dt op perBytes n = reduceScatter inputs dt op perBytes n := by
  simp only [reduceScatter, checkScatter_take, List.take_take, min_self]

end

/-- **The engine reads one input of each rank** and no other, if a
broadcast's root is a rank. -/
theorem execute_take (kind : Scoped CollectiveKind) (op : Scoped ReductionOp)
    (dt : Scoped Datatype) (k root n : UInt64) (inputs : List (List UInt8)) (hn : 1 ≤ n.toNat)
    (hroot : kind = .of .broadcast → root.toNat < n.toNat) :
    execute kind op dt k root n (inputs.take n.toNat) = execute kind op dt k root n inputs := by
  unfold execute
  cases hkind : kind.named with
  | none => rfl
  | some kind' =>
    cases kind' with
    | barrier => rfl
    | broadcast =>
      have hlt := hroot (kind_of_named hkind)
      simp only [broadcast, List.getElem?_take_of_lt hlt]
    | reduce => simp only [reduce, checksize_take, reduceInto_take inputs _ hn]
    | allReduce => simp only [allReduce, checksize_take, reduceInto_take inputs _ hn]
    | allGather => simp only [allGather_take]
    | reduceScatter => simp only [reduceScatter_take]

/-! ## Checks -/

section

variable {n perBytes total : ℕ}

/-- What `checksize` makes of its inputs. -/
theorem checksize_cases (inputs : List (List UInt8)) (perBytes n : ℕ) :
    (n ≤ inputs.length ∧ (∀ input ∈ inputs.take n, input.length = perBytes) ∧
      checksize inputs perBytes n = .returns ()) ∨
    (¬(n ≤ inputs.length ∧ ∀ input ∈ inputs.take n, input.length = perBytes) ∧
      ∃ message, checksize inputs perBytes n = .throws ⟨.validation, message⟩) := by
  unfold checksize
  split_ifs with hmissing hmismatch
  · exact .inr ⟨fun h => absurd h.1 (not_le.2 hmissing), _, rfl⟩
  · obtain ⟨input, hinput, hne⟩ := List.any_eq_true.1 hmismatch
    exact .inr ⟨fun h => absurd (h.2 input hinput) (by simpa using hne), _, rfl⟩
  · refine .inl ⟨not_lt.1 hmissing, fun input hinput => ?_, rfl⟩
    by_contra hne
    exact hmismatch (List.any_eq_true.2 ⟨input, hinput, by simpa using hne⟩)

theorem checkScatter_cons (input : List UInt8) (inputs : List (List UInt8)) (total n : ℕ) :
    checkScatter (input :: inputs) total (n + 1) =
      if input.length ≠ total then
        .throws ⟨.validation, "reduce_scatter: rank input size mismatch"⟩
      else checkScatter inputs total n := by
  simp only [checkScatter, List.range_succ_eq_map, List.foldlM_cons, List.getElem?_cons_zero,
    Outcome.ofOption_some, Outcome.returns_bind, List.foldlM_map, List.getElem?_cons_succ]
  split_ifs <;> rfl

/-- **What the check of a reduce-scatter makes of its inputs**: those that
are there may all have the size, and still be too few. -/
theorem checkScatter_cases (inputs : List (List UInt8)) (total n : ℕ) :
    (n ≤ inputs.length ∧ (∀ input ∈ inputs.take n, input.length = total) ∧
      checkScatter inputs total n = .returns ()) ∨
    ((∃ input ∈ inputs.take n, input.length ≠ total) ∧
      checkScatter inputs total n =
        .throws ⟨.validation, "reduce_scatter: rank input size mismatch"⟩) ∨
    (inputs.length < n ∧ (∀ input ∈ inputs, input.length = total) ∧
      checkScatter inputs total n = .undefined) := by
  induction inputs generalizing n with
  | nil =>
    rcases Nat.eq_zero_or_pos n with rfl | hn
    · exact .inl ⟨Nat.le_refl 0, by simp, rfl⟩
    · obtain ⟨m, rfl⟩ := Nat.exists_eq_succ_of_ne_zero hn.ne'
      refine .inr (.inr ⟨hn, by simp, ?_⟩)
      rw [checkScatter, List.range_succ_eq_map]
      rfl
  | cons input inputs ih =>
    rcases Nat.eq_zero_or_pos n with rfl | hn
    · exact .inl ⟨Nat.zero_le _, by simp, rfl⟩
    · obtain ⟨m, rfl⟩ := Nat.exists_eq_succ_of_ne_zero hn.ne'
      rw [checkScatter_cons, List.take_succ_cons, List.length_cons]
      by_cases hsize : input.length = total
      · rw [if_neg (by simpa using hsize)]
        simp only [List.mem_cons, forall_eq_or_imp, hsize, true_and, Nat.succ_le_succ_iff,
          Nat.succ_lt_succ_iff, exists_eq_or_imp, ne_eq, not_true_eq_false, false_or]
        exact ih m
      · exact .inr (.inl ⟨⟨input, List.mem_cons_self .., hsize⟩, if_pos hsize⟩)

/-- What only places the result of a call is undefined where it is. -/
theorem place_undefined {α β : Type} {x : Outcome α} (place : α → β) :
    (x >>= fun result => Outcome.returns (place result)) = .undefined ↔ x = .undefined := by
  constructor
  · intro h
    rcases Outcome.bind_undefined h with h | ⟨result, -, h⟩
    · exact h
    · cases h
  · rintro rfl
    rfl

end

/-! ## Where each collective is defined -/

/-- The reduction of contributions that are there overflows nowhere. -/
def NoSignedOverflow (kind : CollectiveKind) (op : Scoped ReductionOp) (dt : Scoped Datatype)
    (k n : ℕ) (inputs : List (List UInt8)) : Prop :=
  kind.Reduces → ∀ t : Numeric, dt = .of t.datatype → kind.Contributed t.size k n inputs →
    t.NoOverflow op (kind.contribution k n) (inputs.take n)

/-- If the first input has its size, all the ranks' inputs are there and
long enough. -/
def GatherChecked (perBytes n : ℕ) (inputs : List (List UInt8)) : Prop :=
  ∃ first, inputs[0]? = some first ∧
    (first.length = perBytes →
      ∀ i < n, ∃ input, inputs[i]? = some input ∧ perBytes ≤ input.length)

/-- If inputs are missing, one that is there has not the size. -/
def ScatterChecked (total n : ℕ) (inputs : List (List UInt8)) : Prop :=
  inputs.length < n → ∃ input ∈ inputs, input.length ≠ total

section

variable {n k : ℕ}

/-- A reduction past its check is defined as its arithmetic is. -/
theorem reduceInto_defined_iff (hn : 1 ≤ n) (hcount : n ≤ inputs.length)
    (hlength : ∀ input ∈ inputs.take n, input.length = k * datatypeSizeBytes dt) :
    reduceInto inputs dt op (k * datatypeSizeBytes dt) n ≠ .undefined ↔
      ∀ t : Numeric, dt = .of t.datatype → t.NoOverflow op k (inputs.take n) := by
  have hn' : (inputs.take n).length = n := List.length_take_of_le hcount
  have hne : inputs.take n ≠ [] := by
    intro hnil
    rw [hnil, List.length_nil] at hn'
    omega
  have h := @reduceInto_ne_undefined_iff op k (inputs.take n) dt hne hlength
  rwa [hn', reduceInto_take inputs _ hn] at h

/-- The two reductions into one place check and then reduce. -/
theorem reduction_defined_iff {kind : CollectiveKind} (hkind : kind = .reduce ∨ kind = .allReduce)
    {place : List UInt8 → List (List UInt8)} (hn : 1 ≤ n) :
    (checksize inputs (k * datatypeSizeBytes dt) n >>= fun _ =>
        reduceInto inputs dt op (k * datatypeSizeBytes dt) n >>= fun result =>
          Outcome.returns (place result)) ≠ .undefined ↔
      NoSignedOverflow kind op dt k n inputs := by
  have hcontribution : kind.contribution k n = k := by rcases hkind with rfl | rfl <;> rfl
  have hreduces : kind.Reduces := by rcases hkind with rfl | rfl <;> exact trivial
  simp only [NoSignedOverflow, hcontribution, CollectiveKind.Contributed]
  rcases checksize_cases inputs (k * datatypeSizeBytes dt) n with
    ⟨hcount, hlength, hcheck⟩ | ⟨hnot, message, hcheck⟩
  · rw [hcheck, Outcome.returns_bind, ne_eq, place_undefined, ← ne_eq,
      reduceInto_defined_iff hn hcount hlength]
    constructor
    · intro h _ t ht _
      exact h t ht
    · rintro h t rfl
      rw [datatypeSizeBytes_eq] at hlength
      exact h hreduces t rfl ⟨hcount, hlength⟩
  · rw [hcheck]
    refine iff_of_true (fun h => by cases h) ?_
    rintro - t rfl hall
    rw [datatypeSizeBytes_eq] at hnot
    exact absurd hall hnot

/-- A rank's copies throw nothing. -/
theorem gather_ne_throws {perBytes : ℕ} (e : Error) : gather inputs perBytes n ≠ .throws e := by
  intro h
  obtain ⟨acc, i, -, hround⟩ := Outcome.foldlM_throws h
  rcases Outcome.bind_throws hround with hround | ⟨input, -, hround⟩
  · exact Outcome.ofOption_ne_throws _ _ hround
  · split_ifs at hround

/-- They are defined if every input is there and long enough. -/
theorem gather_defined_iff {perBytes : ℕ} :
    gather inputs perBytes n ≠ .undefined ↔
      ∀ i < n, ∃ input, inputs[i]? = some input ∧ perBytes ≤ input.length := by
  constructor
  · intro h
    obtain ⟨out, hout⟩ := Outcome.exists_returns gather_ne_throws h
    intro i hi
    obtain ⟨acc, acc', hround⟩ := Outcome.foldlM_returns hout i (List.mem_range.2 hi)
    obtain ⟨input, hinput, hround⟩ := Outcome.bind_returns hround
    split_ifs at hround with hshort
    exact ⟨input, Outcome.ofOption_returns hinput, not_lt.1 hshort⟩
  · intro hall h
    obtain ⟨acc, i, hi, hround⟩ := Outcome.foldlM_undefined h
    obtain ⟨input, hinput, hlong⟩ := hall i (List.mem_range.1 hi)
    rw [hinput, Outcome.ofOption_some, Outcome.returns_bind, if_neg (not_lt.2 hlong)] at hround
    cases hround

/-- An all-gather throws at the first rank if the size is wrong there. -/
theorem allGather_of_length_ne {first : List UInt8} {perBytes : ℕ} (hn : 1 ≤ n)
    (hget : inputs[0]? = some first) (hfirst : first.length ≠ perBytes) :
    allGather inputs perBytes n =
      .throws ⟨.validation, "all_gather: rank input size mismatch"⟩ := by
  obtain ⟨m, rfl⟩ := Nat.exists_eq_succ_of_ne_zero (Nat.one_le_iff_ne_zero.1 hn)
  simp only [allGather, List.range_succ_eq_map, List.foldlM_cons, hget, Outcome.ofOption_some,
    Outcome.returns_bind, if_pos hfirst]
  rfl

/-- **An all-gather** is defined exactly if its first input is a check of
all of them. -/
theorem allGather_defined_iff {perBytes : ℕ} (hn : 1 ≤ n) :
    allGather inputs perBytes n ≠ .undefined ↔ GatherChecked perBytes n inputs := by
  obtain ⟨m, rfl⟩ := Nat.exists_eq_succ_of_ne_zero (Nat.one_le_iff_ne_zero.1 hn)
  constructor
  · intro h
    cases hget : inputs[0]? with
    | none =>
      refine absurd ?_ h
      simp only [allGather, List.range_succ_eq_map, List.foldlM_cons, hget]
      rfl
    | some first =>
      refine ⟨first, hget, fun hfirst => gather_defined_iff.1 fun hgather => h ?_⟩
      -- rank 0 copies from every rank
      simp only [allGather, List.foldlM_cons, hget, Outcome.ofOption_some, Outcome.returns_bind,
        List.range_succ_eq_map, if_neg (not_not.2 hfirst)]
      rw [hgather]
      rfl
  · rintro ⟨first, hget, hall⟩ h
    by_cases hfirst : first.length = perBytes
    · obtain ⟨outputs, r, hr, hround⟩ := Outcome.foldlM_undefined h
      obtain ⟨input, hinput, -⟩ := hall hfirst r (List.mem_range.1 hr)
      rw [hinput, Outcome.ofOption_some, Outcome.returns_bind] at hround
      split_ifs at hround
      rcases Outcome.bind_undefined hround with hgather | ⟨output, -, hround⟩
      · exact gather_defined_iff.2 (hall hfirst) hgather
      · cases hround
    · rw [allGather_of_length_ne hn hget hfirst] at h
      cases h

/-- A reduction of integers throws nothing. -/
theorem reduceInto_numeric_ne_throws (t : Numeric) (perBytes : ℕ) (err : Error) :
    reduceInto inputs (.of t.datatype) op perBytes n ≠ .throws err := by
  cases t <;> exact doReduce_ne_throws _ err

/-- Block `b` of the ranks' inputs. -/
def blocksAt (perBytes n b : ℕ) (inputs : List (List UInt8)) : List (List UInt8) :=
  (inputs.take n).map fun input => (input.drop (b * perBytes)).take perBytes

/-- One block, of rows that are there in full, is reduced without overflow. -/
theorem blocksAt_defined_iff (hn : 1 ≤ n) (hcount : n ≤ inputs.length)
    (hlength : ∀ input ∈ inputs.take n, input.length = n * k * datatypeSizeBytes dt) {b : ℕ}
    (hb : b < n) :
    reduceInto (blocksAt (k * datatypeSizeBytes dt) n b inputs) dt op
        (k * datatypeSizeBytes dt) n ≠ .undefined ↔
      ∀ t : Numeric, dt = .of t.datatype →
        t.NoOverflow op k ((inputs.take n).map (t.block k b)) := by
  have hblocks : (blocksAt (k * datatypeSizeBytes dt) n b inputs).length = n := by
    rw [blocksAt, List.length_map, List.length_take_of_le hcount]
  have htake : (blocksAt (k * datatypeSizeBytes dt) n b inputs).take n =
      blocksAt (k * datatypeSizeBytes dt) n b inputs := List.take_of_length_le hblocks.le
  rw [reduceInto_defined_iff hn hblocks.ge, htake]
  · refine forall_congr' fun t => forall_congr' fun ht => ?_
    rw [ht, datatypeSizeBytes_eq]
    rfl
  · rw [htake]
    intro block hmem
    obtain ⟨input, hinput, rfl⟩ := List.mem_map.1 hmem
    refine length_slice hb ?_
    rw [hlength input hinput, Nat.mul_assoc]

/-- **The blocks of a reduce-scatter** are reduced without overflow exactly
if the whole rows are. -/
theorem blocks_defined_iff (hn : 1 ≤ n) (hcount : n ≤ inputs.length)
    (hlength : ∀ input ∈ inputs.take n, input.length = n * k * datatypeSizeBytes dt) :
    (List.range n).foldlM (fun outputs b =>
        reduceInto (blocksAt (k * datatypeSizeBytes dt) n b inputs) dt op
          (k * datatypeSizeBytes dt) n >>= fun output => Outcome.returns (outputs ++ [output])) [] ≠
        .undefined ↔
      ∀ t : Numeric, dt = .of t.datatype → t.NoOverflow op (n * k) (inputs.take n) := by
  constructor
  · rintro h t rfl
    have hall := Outcome.collect_defined (fun b => reduceInto_numeric_ne_throws t _) h
    refine Numeric.noOverflow_of_blocks fun b hb => ?_
    exact (blocksAt_defined_iff hn hcount hlength hb).1 (hall b (List.mem_range.2 hb)) t rfl
  · intro hno h
    obtain ⟨b, hb, hblock⟩ := Outcome.collect_undefined h
    have hb' := List.mem_range.1 hb
    exact (blocksAt_defined_iff hn hcount hlength hb').2 (fun t ht => (hno t ht).block hb') hblock

/-- **A reduce-scatter** is defined exactly if inputs that are missing are
noticed by one that is there, and its arithmetic is. -/
theorem reduceScatter_defined_iff {total : UInt64} (hn : 1 ≤ n)
    (htotal : checkedMul (UInt64.ofNat (k * datatypeSizeBytes dt)) (UInt64.ofNat n) = some total)
    (hvalue : total.toNat = k * datatypeSizeBytes dt * n) :
    reduceScatter inputs dt op (k * datatypeSizeBytes dt) n ≠ .undefined ↔
      ScatterChecked (k * datatypeSizeBytes dt * n) n inputs ∧
        NoSignedOverflow .reduceScatter op dt k n inputs := by
  have hcontribution : k * datatypeSizeBytes dt * n = n * k * datatypeSizeBytes dt := by ring
  simp only [NoSignedOverflow, CollectiveKind.Contributed, CollectiveKind.contribution,
    CollectiveKind.Reduces, true_imp_iff, reduceScatter, htotal, hvalue, ScatterChecked]
  rcases checkScatter_cases inputs (k * datatypeSizeBytes dt * n) n with
    ⟨hcount, hlength, hcheck⟩ | ⟨⟨input, hinput, hne⟩, hcheck⟩ | ⟨hcount, hlength, hcheck⟩
  · rw [hcontribution] at hlength
    rw [hcheck, Outcome.returns_bind]
    refine (blocks_defined_iff hn hcount hlength).trans ⟨?_, ?_⟩
    · exact fun h => ⟨fun hlt => absurd hcount (not_le.2 hlt), fun t ht _ => h t ht⟩
    · rintro ⟨-, h⟩ t rfl
      rw [datatypeSizeBytes_eq] at hlength
      exact h t rfl ⟨hcount, hlength⟩
  · rw [hcheck]
    have hmem := List.mem_of_mem_take hinput
    refine iff_of_true (fun h => by cases h) ⟨fun _ => ⟨input, hmem, hne⟩, ?_⟩
    rintro t rfl ⟨-, hall⟩
    rw [datatypeSizeBytes_eq] at hcontribution hne
    exact absurd ((hall input hinput).trans hcontribution.symm) hne
  · rw [hcheck]
    refine iff_of_false (fun h => h rfl) ?_
    rintro ⟨hmissing, -⟩
    obtain ⟨input, hinput, hne⟩ := hmissing hcount
    exact hne (hlength input hinput)

end

/-! ## Where a call is defined -/

section

variable {kind : Scoped CollectiveKind} {k root n : UInt64}

/-- What the engine needs of its inputs to be defined, of sizes that fit 64
bits. -/
def ChecksInputs (kind : Scoped CollectiveKind) (op : Scoped ReductionOp) (dt : Scoped Datatype)
    (k n : UInt64) (inputs : List (List UInt8)) : Prop :=
  datatypeSizeBytes dt ≠ 0 → k.toNat * datatypeSizeBytes dt * n.toNat < 2 ^ 64 →
    (kind = .of .allGather →
      GatherChecked (k.toNat * datatypeSizeBytes dt) n.toNat inputs) ∧
    (kind = .of .reduceScatter →
      ScatterChecked (k.toNat * datatypeSizeBytes dt * n.toNat) n.toNat inputs) ∧
    ∀ kind', kind = .of kind' → NoSignedOverflow kind' op dt k.toNat n.toNat inputs

theorem kind_inj {a b : CollectiveKind} :
    (Scoped.of a : Scoped CollectiveKind) = .of b ↔ a = b := by
  constructor
  · intro h
    have hnamed := congrArg Scoped.named h
    rw [Scoped.named_of, Scoped.named_of] at hnamed
    exact Option.some.inj hnamed
  · rintro rfl
    rfl

/-- Sizes that do not fit are thrown for before anything else. -/
theorem execute_of_not_fits (hdt : datatypeSizeBytes dt ≠ 0)
    (hfits : ¬k.toNat * datatypeSizeBytes dt * n.toNat < 2 ^ 64) :
    ∃ e, execute kind op dt k root n inputs = .throws e ∧ e.code = .arithmeticOverflow := by
  have hwidth := toNat_datatypeSizeBytes dt
  rw [execute, if_neg hdt]
  cases hper : checkedMul k (UInt64.ofNat (datatypeSizeBytes dt)) with
  | none => exact ⟨_, rfl, rfl⟩
  | some per =>
    have hvalue : per.toNat = k.toNat * datatypeSizeBytes dt := by
      rw [checkedMul_eq, hwidth] at hper
      split_ifs at hper with hlt
      cases hper
      rw [UInt64.toNat_mul, hwidth, Nat.mod_eq_of_lt hlt]
    have htotal : checkedMul per n = none := by
      rw [checkedMul_eq, hvalue, if_neg hfits]
    simp only [htotal]
    exact ⟨_, rfl, rfl⟩

/-- A call of a kind the engine knows, of sizes that fit, is defined as its
kind is. -/
theorem defined_of_fits {kind : CollectiveKind} (hn : 1 ≤ n.toNat)
    (hroot : kind = .reduce → root.toNat < n.toNat) (hdt : datatypeSizeBytes dt ≠ 0)
    (hfits : k.toNat * datatypeSizeBytes dt * n.toNat < 2 ^ 64) :
    execute (.of kind) op dt k root n inputs ≠ .undefined ↔
      (kind = .allGather → GatherChecked (k.toNat * datatypeSizeBytes dt) n.toNat inputs) ∧
      (kind = .reduceScatter →
        ScatterChecked (k.toNat * datatypeSizeBytes dt * n.toNat) n.toNat inputs) ∧
      NoSignedOverflow kind op dt k.toNat n.toNat inputs := by
  -- a premise about another kind, and a kind that reduces nothing
  have hother {a b : CollectiveKind} {p : Prop} (hne : a ≠ b) (h : a = b) : p := absurd h hne
  have hnone (kind' : CollectiveKind) (hreduces : ¬kind'.Reduces) :
      NoSignedOverflow kind' op dt k.toNat n.toNat inputs := fun h => absurd h hreduces
  rw [execute_of_sizes kind hdt hn hfits]
  cases kind with
  | barrier =>
    exact iff_of_true (fun h => by cases h)
      ⟨hother (by decide), hother (by decide), hnone _ id⟩
  | broadcast =>
    refine iff_of_true ?_ ⟨hother (by decide), hother (by decide), hnone _ id⟩
    simp only [broadcast]
    split
    · exact fun h => by cases h
    · split_ifs <;> exact fun h => by cases h
  | reduce =>
    have hlt := hroot rfl
    simp only [reduce, if_pos hlt]
    refine (reduction_defined_iff (.inl rfl) hn).trans ⟨fun h => ?_, fun h => h.2.2⟩
    exact ⟨hother (by decide), hother (by decide), h⟩
  | allReduce =>
    simp only [allReduce, if_pos (Nat.lt_of_lt_of_le Nat.zero_lt_one hn)]
    refine (reduction_defined_iff (.inr rfl) hn).trans ⟨fun h => ?_, fun h => h.2.2⟩
    exact ⟨hother (by decide), hother (by decide), h⟩
  | allGather =>
    refine (allGather_defined_iff hn).trans ⟨fun h => ?_, fun h => h.1 rfl⟩
    exact ⟨fun _ => h, hother (by decide), hnone _ id⟩
  | reduceScatter =>
    obtain ⟨total, htotal, hvalue⟩ := total_of_fits hn hfits
    refine (reduceScatter_defined_iff hn htotal hvalue).trans ⟨?_, ?_⟩
    · exact fun h => ⟨hother (by decide), fun _ => h.1, h.2⟩
    · exact fun h => ⟨h.2.1 rfl, h.2.2⟩

/-- **A call is defined** exactly if the engine's checks make it so and no
signed result overflows. -/
theorem execute_defined_iff (hn : 1 ≤ n.toNat)
    (hroot : kind = .of .reduce → root.toNat < n.toNat) :
    execute kind op dt k root n inputs ≠ .undefined ↔ ChecksInputs kind op dt k n inputs := by
  by_cases hdt : datatypeSizeBytes dt = 0
  · refine iff_of_true ?_ fun h => absurd hdt h
    rw [execute, if_pos hdt]
    exact fun h => by cases h
  by_cases hfits : k.toNat * datatypeSizeBytes dt * n.toNat < 2 ^ 64
  swap
  · obtain ⟨e, he, -⟩ := @execute_of_not_fits inputs dt op kind k root n hdt hfits
    refine iff_of_true ?_ fun _ h => absurd h hfits
    rw [he]
    exact fun h => by cases h
  cases hkind : kind.named with
  | none =>
    -- a value that names no kind leaves the outputs empty
    have hne (kind' : CollectiveKind) : kind ≠ .of kind' := by
      rintro rfl
      rw [Scoped.named_of] at hkind
      cases hkind
    obtain ⟨per, total, hper, htotal, -, -⟩ := @sizes_of_fits k n dt hn hfits
    refine iff_of_true ?_ fun _ _ =>
      ⟨fun h => absurd h (hne _), fun h => absurd h (hne _), fun _ h => absurd h (hne _)⟩
    simp only [execute, if_neg hdt, hper, htotal, hkind]
    exact fun h => by cases h
  | some kind' =>
    obtain rfl := kind_of_named hkind
    simp only [kind_inj] at hroot
    rw [defined_of_fits hn hroot hdt hfits]
    simp only [ChecksInputs, kind_inj, forall_eq', hfits, hdt, ne_eq, not_false_eq_true,
      true_imp_iff]

/-- Some rank's contribution is missing or short. -/
def LacksContribution (size n : ℕ) (inputs : List (List UInt8)) : Prop :=
  ∃ r < n, ∀ input, inputs[r]? = some input → input.length < size

/-- Inputs that are all there in full lack nothing. -/
theorem not_lacks {size n : ℕ} (hcount : n ≤ inputs.length)
    (hlength : ∀ input ∈ inputs.take n, size ≤ input.length) :
    ¬LacksContribution size n inputs := by
  rintro ⟨r, hr, hshort⟩
  have hlt : r < inputs.length := lt_of_lt_of_le hr hcount
  have hmem : inputs[r] ∈ inputs.take n :=
    List.mem_of_getElem? ((List.getElem?_take_of_lt hr).trans (List.getElem?_eq_getElem hlt))
  exact absurd (hlength _ hmem) (not_le.2 (hshort _ (List.getElem?_eq_getElem hlt)))

/-- **What is defined rejects what is missing.** -/
theorem rejects_of_defined {kind : CollectiveKind} (hkind : kind.Contributes) (hn : 1 ≤ n.toNat)
    (hfits : k.toNat * datatypeSizeBytes dt * n.toNat < 2 ^ 64) (hdt : datatypeSizeBytes dt ≠ 0)
    (hdefined : execute (.of kind) op dt k root n inputs ≠ .undefined)
    (hlacks : LacksContribution (kind.contribution k.toNat n.toNat * datatypeSizeBytes dt) n.toNat
      inputs) :
    ∃ message, execute (.of kind) op dt k root n inputs = .throws ⟨.validation, message⟩ := by
  have hchecksize (hcontribution : kind.contribution k.toNat n.toNat = k.toNat) :
      ∃ message, checksize inputs (k.toNat * datatypeSizeBytes dt) n.toNat =
        .throws ⟨.validation, message⟩ := by
    rw [hcontribution] at hlacks
    rcases checksize_cases inputs (k.toNat * datatypeSizeBytes dt) n.toNat with
      ⟨hcount, hlength, -⟩ | ⟨-, hthrows⟩
    · exact absurd hlacks (not_lacks hcount fun input hinput => (hlength input hinput).ge)
    · exact hthrows
  rw [execute_of_sizes kind hdt hn hfits] at hdefined ⊢
  cases kind with
  | barrier => exact absurd hkind id
  | broadcast => exact absurd hkind id
  | reduce =>
    obtain ⟨message, hthrows⟩ := hchecksize rfl
    exact ⟨message, by simp only [reduce, hthrows]; rfl⟩
  | allReduce =>
    obtain ⟨message, hthrows⟩ := hchecksize rfl
    exact ⟨message, by simp only [allReduce, hthrows]; rfl⟩
  | allGather =>
    obtain ⟨first, hget, hall⟩ := (allGather_defined_iff hn).1 hdefined
    by_cases hfirst : first.length = k.toNat * datatypeSizeBytes dt
    · obtain ⟨r, hr, hshort⟩ := hlacks
      obtain ⟨input, hinput, hlong⟩ := hall hfirst r hr
      exact absurd hlong (not_le.2 (hshort input hinput))
    · exact ⟨_, allGather_of_length_ne hn hget hfirst⟩
  | reduceScatter =>
    obtain ⟨total, htotal, hvalue⟩ := total_of_fits hn hfits
    have hcontribution : k.toNat * datatypeSizeBytes dt * n.toNat =
        n.toNat * k.toNat * datatypeSizeBytes dt := by ring
    simp only [reduceScatter, htotal, hvalue, hcontribution] at hdefined ⊢
    rcases checkScatter_cases inputs (n.toNat * k.toNat * datatypeSizeBytes dt) n.toNat with
      ⟨hcount, hlength, -⟩ | ⟨-, hcheck⟩ | ⟨-, -, hcheck⟩
    · exact absurd hlacks (not_lacks hcount fun input hinput => (hlength input hinput).ge)
    · exact ⟨_, by rw [hcheck]; rfl⟩
    · exact absurd (by rw [hcheck]; rfl) hdefined

end

/-! ## Main result -/

/-- The engine validates what it is given: it throws or returns, whatever
the inputs, and throws `VALIDATION` where a contribution is missing or
short. -/
structure Validates (kind : Scoped CollectiveKind) (op : Scoped ReductionOp)
    (dt : Scoped Datatype) (k root n : UInt64) (inputs : List (List UInt8)) : Prop where
  defined : execute kind op dt k root n inputs ≠ .undefined
  rejects : ∀ kind' : CollectiveKind, kind = .of kind' → kind'.Contributes →
    LacksContribution (kind'.contribution k.toNat n.toNat * datatypeSizeBytes dt) n.toNat inputs →
    ∃ message, execute kind op dt k root n inputs = .throws ⟨.validation, message⟩

/-- The sizes fit 64 bits, or no contribution is missing or short. -/
def FitsOrLacksNone (kind : Scoped CollectiveKind) (dt : Scoped Datatype) (k n : UInt64)
    (inputs : List (List UInt8)) : Prop :=
  datatypeSizeBytes dt ≠ 0 → ¬k.toNat * datatypeSizeBytes dt * n.toNat < 2 ^ 64 →
    ∀ kind' : CollectiveKind, kind = .of kind' → kind'.Contributes →
      ¬LacksContribution (kind'.contribution k.toNat n.toNat * datatypeSizeBytes dt) n.toNat inputs

/-- **The engine validates every contribution** exactly where an
all-gather's first input or a reduce-scatter's inputs give a missing one
away, no signed result overflows, and sizes it throws `ARITHMETIC_OVERFLOW`
for come with contributions that are all there. -/
theorem validates_iff (kind : Scoped CollectiveKind) (op : Scoped ReductionOp)
    (dt : Scoped Datatype) (k root n : UInt64) (inputs : List (List UInt8))
    (hroot : root.toNat < n.toNat) :
    Validates kind op dt k root n inputs ↔
      ChecksInputs kind op dt k n inputs ∧ FitsOrLacksNone kind dt k n inputs := by
  have hn : 1 ≤ n.toNat := Nat.one_le_of_lt hroot
  have hdefined := @execute_defined_iff inputs dt op kind k root n hn fun _ => hroot
  constructor
  · intro h
    refine ⟨hdefined.1 h.defined, fun hdt hfits kind' hkind hcontributes hlacks => ?_⟩
    -- the sizes are thrown for first
    obtain ⟨message, hvalidation⟩ := h.rejects kind' hkind hcontributes hlacks
    obtain ⟨e, hoverflow, hcode⟩ := @execute_of_not_fits inputs dt op kind k root n hdt hfits
    rw [hvalidation] at hoverflow
    cases hoverflow
    cases hcode
  · rintro ⟨hchecks, hfull⟩
    refine ⟨hdefined.2 hchecks, ?_⟩
    rintro kind' rfl hkind hlacks
    by_cases hdt : datatypeSizeBytes dt = 0
    · exact ⟨_, if_pos hdt⟩
    by_cases hfits : k.toNat * datatypeSizeBytes dt * n.toNat < 2 ^ 64
    · exact rejects_of_defined hkind hn hfits hdt (hdefined.2 hchecks) hlacks
    · exact absurd hlacks (hfull hdt hfits kind' rfl hkind)

/-- **An all-gather of two ranks reads a second input that is not there, or
past its end**, and a reduce-scatter one that is not there. A missing input
to a reduction of `2 ^ 63` elements is an overflow. -/
theorem not_validates :
    ¬Validates (.of .allGather) (.of .none) (.of .byte) 1 0 2 [[5]] ∧
      ¬Validates (.of .allGather) (.of .none) (.of .byte) 1 0 2 [[5], []] ∧
        ¬Validates (.of .reduceScatter) (.of .sum) (.of .byte) 1 0 2 [[5, 6]] ∧
          ¬Validates (.of .reduce) (.of .sum) (.of .uint32) 0x8000000000000000 0 1 [] := by
  refine ⟨fun h => h.defined rfl, fun h => h.defined rfl, fun h => h.defined rfl, fun h => ?_⟩
  obtain ⟨message, hthrows⟩ := h.rejects .reduce rfl trivial
    ⟨0, Nat.one_pos, fun input hinput => by cases hinput⟩
  obtain ⟨e, hoverflow, hcode⟩ := @execute_of_not_fits [] (.of .uint32) (.of .sum) (.of .reduce)
    0x8000000000000000 0 1 (by decide) (by decide)
  rw [hthrows] at hoverflow
  cases hoverflow
  cases hcode

/-- One that is there but short is thrown for if the first one is. -/
theorem validates_allGather :
    Validates (.of .allGather) (.of .none) (.of .byte) 1 0 2 [[], [5]] := by
  refine (validates_iff _ _ _ 1 0 2 [[], [5]] (by decide)).2 ⟨fun _ _ => ⟨fun _ => ?_, ?_, ?_⟩, ?_⟩
  · exact ⟨[], rfl, fun h => absurd h (by decide)⟩
  · intro h
    exact absurd h (by decide)
  · intro kind' hkind hreduces
    obtain rfl := kind_inj.1 hkind
    exact absurd hreduces id
  · intro _ hfits
    exact absurd (by decide) hfits

end ReferenceEngine

end CollectiveFabric
