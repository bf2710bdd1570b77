import CollectiveFabric.Engine.Validation
import CollectiveFabric.Group.Building
import CollectiveFabric.Runtime.Invariant

/-!
# Two rules for input sizes

The runtime checks the sizes of the inputs before it starts an execution,
and the engine checks them again for the kind. The two rules agree except
for an all-gather, where the runtime asks every rank for the bytes of all
ranks and the engine for those of one, and for a broadcast from a root that
is no rank.
-/

namespace CollectiveFabric

open Common

namespace ReferenceEngine

variable {inputs : List (List UInt8)} {err : Error}

/-! ## The engine's checks -/

/-- The loop that checks the ranks' inputs one after another. -/
def checkEach (err : Error) (inputs : List (List UInt8)) (bytes rankCount : ℕ) : Outcome Unit :=
  (List.range rankCount).foldlM (fun _ r => do
    let input ← Outcome.ofOption inputs[r]?
    if input.length ≠ bytes then Outcome.throws err else return ()) ()

/-- What the function of a kind checks of its inputs. -/
def sizeCheck (kind : Scoped CollectiveKind) (inputs : List (List UInt8))
    (perBytes rootIndex rankCount : UInt64) : Outcome Unit :=
  match kind.named with
  | some .broadcast =>
    match inputs[rootIndex.toNat]? with
    | none => .throws ⟨.validation, "broadcast: root input size mismatch"⟩
    | some input =>
      if input.length ≠ perBytes.toNat then
        .throws ⟨.validation, "broadcast: root input size mismatch"⟩
      else .returns ()
  | some .reduce | some .allReduce => checksize inputs perBytes.toNat rankCount.toNat
  | some .allGather =>
    checkEach ⟨.validation, "all_gather: rank input size mismatch"⟩ inputs perBytes.toNat
      rankCount.toNat
  | some .reduceScatter =>
    match checkedMul perBytes rankCount with
    | none => .throws ⟨.arithmeticOverflow, "reduce_scatter: overflow"⟩
    | some total =>
      checkEach ⟨.validation, "reduce_scatter: rank input size mismatch"⟩ inputs total.toNat
        rankCount.toNat
  | some .barrier | none => .returns ()

/-- The size of input a kind asks for, if it reads any. -/
def inputBytes (kind : Scoped CollectiveKind) (perBytes rankCount : UInt64) : Option UInt64 :=
  match kind.named with
  | some .broadcast | some .reduce | some .allReduce | some .allGather => some perBytes
  | some .reduceScatter => checkedMul perBytes rankCount
  | some .barrier | none => none

theorem checkEach_eq (err : Error) (inputs : List (List UInt8)) (bytes : ℕ) :
    checkEach err inputs bytes inputs.length =
      if ∀ input ∈ inputs, input.length = bytes then .returns () else .throws err := by
  have hloop : checkEach err inputs bytes inputs.length = inputs.foldlM (fun _ input =>
      if input.length ≠ bytes then Outcome.throws err else Outcome.returns ()) () :=
    Loops.foldlM_range _ (fun i x hx => by rw [hx]; rfl) _ ()
  rw [hloop]
  clear hloop
  induction inputs with
  | nil => rfl
  | cons input inputs ih =>
    rw [List.foldlM_cons]
    by_cases hsize : input.length = bytes
    · rw [if_neg (by simpa using hsize), Outcome.returns_bind, ih]
      simp [hsize]
    · rw [if_pos hsize, if_neg (by simp [hsize])]
      rfl

/-- What only places the result of a reduction throws what it does. -/
theorem throws_of_reduceInto {α : Type} {dt : Scoped Datatype} {op : Scoped ReductionOp}
    {perBytes n : ℕ} {place : List UInt8 → α}
    (h : (reduceInto inputs dt op perBytes n >>= fun result => Outcome.returns (place result)) =
      .throws err) :
    err = ⟨.validation, "reference engine: BYTE datatype not valid for reduction"⟩ := by
  rcases Outcome.bind_throws h with h | ⟨result, -, h⟩
  · exact reduceInto_throws h
  · cases h

/-- An all-gather of inputs of the right size throws nothing. -/
theorem allGather_ne_throws {perBytes : ℕ} (hall : ∀ input ∈ inputs, input.length = perBytes) :
    allGather inputs perBytes inputs.length ≠ .throws err := by
  intro h
  obtain ⟨outputs, r, -, h⟩ := Outcome.foldlM_throws h
  cases hinput : inputs[r]? with
  | none =>
    rw [hinput] at h
    change Outcome.undefined = Outcome.throws err at h
    cases h
  | some input =>
    have hlength := hall input (List.mem_of_getElem? hinput)
    rw [hinput, Outcome.ofOption_some, Outcome.returns_bind, if_neg (by simpa using hlength),
      gather_eq hall] at h
    cases h

/-- A reduce-scatter whose inputs pass the check throws only for bytes. -/
theorem reduceScatter_throws {dt : Scoped Datatype} {op : Scoped ReductionOp} {perBytes n : ℕ}
    {total : UInt64} (htotal : checkedMul (UInt64.ofNat perBytes) (UInt64.ofNat n) = some total)
    (hcheck : checkScatter inputs total.toNat n = .returns ())
    (h : reduceScatter inputs dt op perBytes n = .throws err) :
    err = ⟨.validation, "reference engine: BYTE datatype not valid for reduction"⟩ := by
  simp only [reduceScatter, htotal, hcheck, Outcome.returns_bind] at h
  obtain ⟨outputs, b, -, h⟩ := Outcome.foldlM_throws h
  exact throws_of_reduceInto h

/-! ## They are the engine's checks -/

section

variable {kind : Scoped CollectiveKind} {op : Scoped ReductionOp} {dt : Scoped Datatype}
variable {k root n per total : UInt64}

/-- **What fails the checks of its kind is thrown by the engine**, of
inputs that all have one size. -/
theorem execute_of_refused (hdt : datatypeSizeBytes dt ≠ 0)
    (hper : checkedMul k (UInt64.ofNat (datatypeSizeBytes dt)) = some per)
    (htotal : checkedMul per n = some total) (hn : 1 ≤ n.toNat)
    (hcount : inputs.length = n.toNat) {size : ℕ} (hsize : ∀ input ∈ inputs, input.length = size)
    (h : sizeCheck kind inputs per root n = .throws err) :
    execute kind op dt k root n inputs = .throws err := by
  have hne : inputs ≠ [] := by
    rintro rfl
    exact absurd hn (by rw [← hcount]; decide)
  obtain ⟨first, rest, rfl⟩ := List.exists_cons_of_ne_nil hne
  unfold sizeCheck at h
  simp only [execute, if_neg hdt, hper, htotal]
  cases hkind : kind.named with
  | none =>
    rw [hkind] at h
    cases h
  | some kind =>
    rw [hkind] at h
    cases kind with
    | barrier => cases h
    | broadcast =>
      simp only [broadcast] at h ⊢
      cases hinput : (first :: rest)[root.toNat]? with
      | none => simpa [hinput] using h
      | some input =>
        simp only [hinput] at h ⊢
        split_ifs at h ⊢
        simpa using h
    | reduce =>
      simp only at h
      simp only [reduce, h]
      rfl
    | allReduce =>
      simp only at h
      simp only [allReduce, h]
      rfl
    | allGather =>
      simp only [← hcount, checkEach_eq] at h
      split_ifs at h with hall
      -- the first rank's input already has the wrong size
      have hfirst : first.length ≠ per.toNat := by
        intro heq
        refine hall fun input hinput => ?_
        rw [hsize input hinput, ← heq, hsize first (List.mem_cons_self ..)]
      cases h
      exact allGather_of_length_ne hn rfl hfirst
    | reduceScatter =>
      simp only [htotal] at h
      have hcheck : checkScatter (first :: rest) total.toNat n.toNat = .throws err := h
      simp only [reduceScatter, UInt64.ofNat_toNat, htotal, hcheck]
      rfl

/-- **What passes the checks of its kind** makes the engine throw only for
a reduction of bytes. -/
theorem execute_of_passed (hdt : datatypeSizeBytes dt ≠ 0)
    (hper : checkedMul k (UInt64.ofNat (datatypeSizeBytes dt)) = some per)
    (htotal : checkedMul per n = some total) (hcount : inputs.length = n.toNat)
    (hpass : sizeCheck kind inputs per root n = .returns ())
    (h : execute kind op dt k root n inputs = .throws err) :
    err = ⟨.validation, "reference engine: BYTE datatype not valid for reduction"⟩ := by
  unfold sizeCheck at hpass
  simp only [execute, if_neg hdt, hper, htotal] at h
  cases hkind : kind.named with
  | none =>
    rw [hkind] at h
    cases h
  | some kind =>
    rw [hkind] at h hpass
    cases kind with
    | barrier => cases h
    | broadcast =>
      simp only [broadcast] at h hpass
      split at hpass
      · cases hpass
      · next input hinput =>
        rw [hinput] at h
        simp only at h
        split_ifs at hpass with hlength
        rw [if_neg hlength] at h
        cases h
    | reduce =>
      simp only [reduce, hpass, Outcome.returns_bind] at h
      split_ifs at h
      exact throws_of_reduceInto h
    | allReduce =>
      simp only [allReduce, hpass, Outcome.returns_bind] at h
      split_ifs at h
      exact throws_of_reduceInto h
    | allGather =>
      simp only [← hcount, checkEach_eq] at hpass
      split_ifs at hpass with hall
      rw [← hcount] at h
      exact absurd h (allGather_ne_throws hall)
    | reduceScatter =>
      simp only [htotal] at hpass
      refine reduceScatter_throws ?_ hpass h
      rwa [UInt64.ofNat_toNat, UInt64.ofNat_toNat]

end

end ReferenceEngine

namespace Runtime

variable {rt : Runtime} {d : CollectiveDescriptor} {grp : CollectiveGroup} {e : ExecutionId}

/-! ## Agreement -/

/-- The root's index, as `execute_collective` passes it. -/
def rootIndex (d : CollectiveDescriptor) : UInt64 := if d.root.isNull then 0 else d.root.raw

/-- **The two layers agree** on one input for each rank: what has the size
the runtime asks for passes the engine's checks, and what has the size the
engine asks for passes the runtime's. -/
def SizesAgree (d : CollectiveDescriptor) (grp : CollectiveGroup) : Prop :=
  ∀ inputs : List (List UInt8), inputs.length = grp.rankCount.toNat →
    (∀ size, perRankBytes d grp.rankCount = .ok size →
      (∀ input ∈ inputs, input.length = size.toNat) →
      ∃ per, d.elementByteCount = .ok per ∧
        ReferenceEngine.sizeCheck d.kind inputs per (rootIndex d) grp.rankCount = .returns ()) ∧
    ∀ per size, d.elementByteCount = .ok per →
      ReferenceEngine.inputBytes d.kind per grp.rankCount = some size →
      (∀ input ∈ inputs, input.length = size.toNat) →
      checkInputs d (some grp) grp.rankCount inputs = .ok ()

/-- What `create_collective` accepted. -/
theorem validate_of_created (h : (rt.createCollective d).1 = .ok e) : d.validate = .ok () := by
  unfold createCollective at h
  split_ifs at h
  cases hvalid : d.validate with
  | ok u => rfl
  | error err =>
    rw [hvalid] at h
    cases h

/-- **Inputs of one size pass the runtime's checks** exactly if it is the
size the runtime asks for. -/
theorem checkInputs_iff {inputs : List (List UInt8)} {size : ℕ} (hn : 1 ≤ grp.rankCount.toNat)
    (hcount : inputs.length = grp.rankCount.toNat)
    (hsize : ∀ input ∈ inputs, input.length = size) :
    checkInputs d (some grp) grp.rankCount inputs = .ok () ↔
      ∃ expected, perRankBytes d grp.rankCount = .ok expected ∧ size = expected.toNat := by
  have hsome : ¬(some grp).isNone = true := by simp
  rw [checkInputs, if_neg hsome, if_neg (by omega), ← hcount, List.take_length]
  cases perRankBytes d grp.rankCount with
  | error err =>
    refine iff_of_false (fun h => by cases h) ?_
    rintro ⟨expected, h, -⟩
    cases h
  | ok expected =>
    have hne : inputs ≠ [] := by
      rintro rfl
      exact absurd hn (by rw [← hcount]; decide)
    obtain ⟨first, rest, rfl⟩ := List.exists_cons_of_ne_nil hne
    by_cases heq : size = expected.toNat
    · have hall : (first :: rest).any (fun input => input.length ≠ expected.toNat) = false := by
        rw [List.any_eq_false]
        intro input hinput
        simpa using (hsize input hinput).trans heq
      exact iff_of_true (if_neg (by rw [hall]; decide)) ⟨expected, rfl, heq⟩
    · have hany : (first :: rest).any (fun input => input.length ≠ expected.toNat) = true := by
        rw [List.any_eq_true]
        refine ⟨first, List.mem_cons_self .., ?_⟩
        simpa [hsize first (List.mem_cons_self ..)] using heq
      refine iff_of_false ?_ ?_
      · simp only [if_pos hany]
        exact fun h => by cases h
      · rintro ⟨_, h, hsize⟩
        cases h
        exact heq hsize

/-- Elements of some bytes each take some bytes. -/
theorem elementByteCount_ne_zero {per : UInt64} (hbytes : d.elementByteCount = .ok per)
    (hcount : d.elementCount ≠ 0) (hsize : datatypeSizeBytes d.datatype ≠ 0) : per ≠ 0 := by
  rintro rfl
  unfold CollectiveDescriptor.elementByteCount at hbytes
  rw [checkedMul_eq] at hbytes
  split_ifs at hbytes with hfits
  have hproduct : d.elementCount * UInt64.ofNat (datatypeSizeBytes d.datatype) = 0 := by
    simpa using hbytes
  -- the product does not wrap, so it is a product of numbers
  have hnat := congrArg UInt64.toNat hproduct
  have hwidth := ReferenceEngine.toNat_datatypeSizeBytes d.datatype
  rw [UInt64.toNat_mul, Nat.mod_eq_of_lt hfits, hwidth] at hnat
  rcases Nat.mul_eq_zero.1 hnat with hzero | hzero
  · exact hcount (UInt64.toNat_inj.1 hzero)
  · exact hsize hzero

/-- What one rank's elements take, in an accepted descriptor of a kind with
a payload: not nothing. -/
theorem elementByteCount_of_created (h : (rt.createCollective d).1 = .ok e)
    (hkind : d.kind = .of .broadcast ∨ d.kind = .of .reduce ∨ d.kind = .of .allReduce ∨
      d.kind = .of .allGather ∨ d.kind = .of .reduceScatter) :
    ∃ per, d.elementByteCount = .ok per ∧ per ≠ 0 := by
  have hvalid := validate_of_created h
  have hbarrier : d.kind ≠ .of .barrier := by
    rcases hkind with h | h | h | h | h <;> rw [h] <;> decide
  unfold CollectiveDescriptor.validate at hvalid
  split at hvalid
  · cases hvalid
  simp only [if_neg hbarrier] at hvalid
  cases hbytes : d.elementByteCount with
  | error err =>
    rw [hbytes] at hvalid
    split_ifs at hvalid
  | ok per =>
    rw [hbytes] at hvalid
    simp only [hkind, true_and] at hvalid
    split_ifs at hvalid with htype hsize hroot hcount
    exact ⟨per, rfl, elementByteCount_ne_zero hbytes hcount hsize⟩

/-- **What the runtime asks for**, of a payload of `per` bytes. -/
theorem perRankBytes_eq {per n : UInt64} (h : d.elementByteCount = .ok per) :
    perRankBytes d n =
      if d.kind = .of .allGather ∨ d.kind = .of .reduceScatter then
        match checkedMul per n with
        | none => .error ⟨.arithmeticOverflow, "per-rank * rank_count overflows uint64"⟩
        | some total => .ok total
      else .ok per := by
  unfold perRankBytes
  rw [h]
  unfold CollectiveDescriptor.elementByteCount at h
  unfold CollectiveDescriptor.aggregateByteCount
  split at h
  · cases h
  · cases h
    rfl

/-- A kind the engine asks a size for is not a barrier. -/
theorem reads_of_inputBytes {kind : Scoped CollectiveKind} {per n size : UInt64}
    (h : ReferenceEngine.inputBytes kind per n = some size) :
    kind.named ≠ none ∧ kind.named ≠ some .barrier := by
  constructor
  · intro hk
    rw [ReferenceEngine.inputBytes, hk] at h
    cases h
  · intro hk
    rw [ReferenceEngine.inputBytes, hk] at h
    cases h

/-- **The sizes coincide**, where an all-gather has one rank: the engine
asks for what the runtime asks for, of the kinds it reads inputs of. -/
theorem inputBytes_iff {per n : UInt64} (hper : d.elementByteCount = .ok per)
    (hgather : d.kind = .of .allGather → n = 1) {size : UInt64}
    (hreads : d.kind.named ≠ none ∧ d.kind.named ≠ some .barrier) :
    ReferenceEngine.inputBytes d.kind per n = some size ↔ perRankBytes d n = .ok size := by
  rw [perRankBytes_eq hper]
  obtain ⟨k, hk⟩ := Option.ne_none_iff_exists'.1 hreads.1
  rw [hk] at hreads
  rw [ReferenceEngine.kind_of_named hk] at hgather ⊢
  have hplain : (some per = some size) ↔ (Except.ok per : Except Error UInt64) = .ok size := by
    simp
  cases k with
  | barrier => exact absurd rfl hreads.2
  | broadcast => exact hplain
  | reduce => exact hplain
  | allReduce => exact hplain
  | allGather =>
    obtain rfl := hgather rfl
    have hmul : checkedMul per 1 = some per := by
      rw [checkedMul_eq, if_pos (by simpa using per.toNat_lt)]
      simp
    rw [if_pos (.inl rfl), hmul]
    exact hplain
  | reduceScatter =>
    rw [if_pos (.inr rfl)]
    change checkedMul per n = some size ↔ _
    cases checkedMul per n with
    | none => exact iff_of_false (fun h => by cases h) fun h => by cases h
    | some total => simp

/-- **The engine passes inputs of the size it asks for**, if a broadcast's
root is a rank. -/
theorem sizeCheck_of_inputBytes {kind : Scoped CollectiveKind} {per root n : UInt64}
    {inputs : List (List UInt8)} (hcount : inputs.length = n.toNat)
    (hsize : ∀ size, ReferenceEngine.inputBytes kind per n = some size →
      ∀ input ∈ inputs, input.length = size.toNat)
    (hreads : kind = .of .reduceScatter → ∃ total, checkedMul per n = some total)
    (hroot : kind = .of .broadcast → root < n) :
    ReferenceEngine.sizeCheck kind inputs per root n = .returns () := by
  unfold ReferenceEngine.sizeCheck
  cases hk : kind.named with
  | none => rfl
  | some k =>
    obtain rfl := ReferenceEngine.kind_of_named hk
    cases k with
    | barrier => rfl
    | broadcast =>
      have hlt : root.toNat < inputs.length := by
        rw [hcount]
        exact UInt64.lt_iff_toNat_lt.1 (hroot rfl)
      have hlength := hsize per rfl _ (List.getElem_mem hlt)
      rw [List.getElem?_eq_getElem hlt]
      exact if_neg (by simpa using hlength)
    | reduce | allReduce =>
      rw [← hcount]
      exact ReferenceEngine.checksize_eq (hsize per rfl)
    | allGather =>
      simp only [← hcount, ReferenceEngine.checkEach_eq]
      exact if_pos (hsize per rfl)
    | reduceScatter =>
      obtain ⟨total, htotal⟩ := hreads rfl
      simp only [htotal, ← hcount, ReferenceEngine.checkEach_eq]
      exact if_pos (hsize total htotal)

/-! ## Where they disagree -/

theorem length_of_mem_buffers {count size : ℕ} :
    ∀ input ∈ List.replicate count (List.replicate size (0 : UInt8)), input.length = size := by
  intro input hinput
  rw [List.eq_of_mem_replicate hinput, List.length_replicate]

/-- **An all-gather's payload** is asked for once by the engine and once for
each rank before it: the two agree on one rank alone. -/
theorem rankCount_of_sizesAgree (h : (rt.createCollective d).1 = .ok e)
    (hn : 1 ≤ grp.rankCount.toNat) (hagree : SizesAgree d grp) (hkind : d.kind = .of .allGather) :
    grp.rankCount = 1 := by
  obtain ⟨per, hper, hpos⟩ := elementByteCount_of_created h (.inr (.inr (.inr (.inl hkind))))
  have hbytes : ReferenceEngine.inputBytes d.kind per grp.rankCount = some per := by
    rw [hkind]
    rfl
  have hpass :=
    (hagree _ List.length_replicate).2 per per hper hbytes length_of_mem_buffers
  obtain ⟨expected, hexpected, heq⟩ :=
    (checkInputs_iff hn List.length_replicate length_of_mem_buffers).1 hpass
  rw [perRankBytes_eq hper, if_pos (.inl hkind), checkedMul_eq] at hexpected
  have hperpos : 0 < per.toNat := Nat.pos_of_ne_zero fun h => hpos (UInt64.toNat_inj.1 h)
  split_ifs at hexpected with hfits
  cases hexpected
  rw [UInt64.toNat_mul, Nat.mod_eq_of_lt hfits] at heq
  exact UInt64.toNat_inj.1 (Nat.eq_of_mul_eq_mul_left hperpos (by simpa using heq.symm))

/-- **A broadcast from a root that is no rank** passes the runtime's check
and no check of the engine. -/
theorem rootIndex_lt_of_sizesAgree (h : (rt.createCollective d).1 = .ok e)
    (hagree : SizesAgree d grp) (hkind : d.kind = .of .broadcast) :
    rootIndex d < grp.rankCount := by
  obtain ⟨per, hper, -⟩ := elementByteCount_of_created h (.inl hkind)
  have hexpected : perRankBytes d grp.rankCount = .ok per := by
    rw [perRankBytes_eq hper, hkind]
    rfl
  obtain ⟨_, -, hcheck⟩ :=
    (hagree _ List.length_replicate).1 per hexpected length_of_mem_buffers
  rw [hkind] at hcheck
  by_contra hroot
  have hnone : (List.replicate grp.rankCount.toNat
      (List.replicate per.toNat (0 : UInt8)))[(rootIndex d).toNat]? = none := by
    rw [List.getElem?_eq_none_iff, List.length_replicate]
    exact Nat.le_of_not_lt fun hlt => hroot (UInt64.lt_iff_toNat_lt.2 hlt)
  simp only [ReferenceEngine.sizeCheck, Scoped.named_of, hnone] at hcheck
  cases hcheck

/-- **Elsewhere they agree.** -/
theorem sizesAgree_of (hn : 1 ≤ grp.rankCount.toNat)
    (hgather : d.kind = .of .allGather → grp.rankCount = 1)
    (hroot : d.kind = .of .broadcast → rootIndex d < grp.rankCount) : SizesAgree d grp := by
  intro inputs hcount
  constructor
  · intro expected hexpected hsize
    have hpass := (checkInputs_iff hn hcount hsize).2 ⟨expected, hexpected, rfl⟩
    obtain ⟨per, hper⟩ := elementByteCount_of_checkInputs hpass
    refine ⟨per, hper, sizeCheck_of_inputBytes hcount ?_ ?_ hroot⟩
    · intro size hbytes
      have hsame := (inputBytes_iff hper hgather (reads_of_inputBytes hbytes)).1 hbytes
      cases hsame.symm.trans hexpected
      exact hsize
    · intro hkind
      have hreads : d.kind.named ≠ none ∧ d.kind.named ≠ some .barrier := by
        rw [hkind, Scoped.named_of]
        exact ⟨by simp, by simp⟩
      have hbytes := (inputBytes_iff hper hgather hreads).2 hexpected
      rw [hkind] at hbytes
      exact ⟨expected, hbytes⟩
  · intro per size hper hbytes hsize
    have hexpected := (inputBytes_iff hper hgather (reads_of_inputBytes hbytes)).1 hbytes
    exact (checkInputs_iff hn hcount hsize).2 ⟨size, hexpected, rfl⟩

/-! ## Main results -/

/-- **The runtime and the engine agree on input sizes** exactly if an
all-gather has one rank and a broadcast's root is a rank. -/
theorem sizesAgree_iff (h : (rt.createCollective d).1 = .ok e) (hn : 1 ≤ grp.rankCount.toNat) :
    SizesAgree d grp ↔
      (d.kind = .of .allGather → grp.rankCount = 1) ∧
        (d.kind = .of .broadcast → rootIndex d < grp.rankCount) := by
  constructor
  · intro hagree
    exact ⟨rankCount_of_sizesAgree h hn hagree, rootIndex_lt_of_sizesAgree h hagree⟩
  · rintro ⟨hgather, hroot⟩
    exact sizesAgree_of hn hgather hroot

/-- They agree for a reduce-scatter on two ranks. -/
theorem sizesAgree_iff_reduceScatter :
    SizesAgree (System.soloDescriptor .reduceScatter .sum)
      (GroupBuilder.pairRanked.group GroupBuilder.pairRanked_validate) := by
  have hcreated : ((registerGroup {} (GroupBuilder.pairRanked.group
      GroupBuilder.pairRanked_validate)).2.createCollective
        (System.soloDescriptor .reduceScatter .sum)).1 = .ok ⟨1⟩ := by decide +kernel
  refine (sizesAgree_iff hcreated (by decide)).2 ⟨fun h => ?_, fun h => ?_⟩
  · exact absurd h (by decide)
  · exact absurd h (by decide)

/-- **They do not for an all-gather on two ranks**: one byte of each is what
the engine gathers and what the runtime refuses. -/
theorem not_sizesAgree_allGather :
    ∃ (grp : CollectiveGroup) (e : ExecutionId),
      GroupBuilder.pair.build.1 = .ok grp ∧ grp.rankCount = 2 ∧
        ((registerGroup {} grp).2.createCollective (System.soloDescriptor .allGather .none)).1 =
          .ok e ∧
        ¬SizesAgree (System.soloDescriptor .allGather .none) grp := by
  refine ⟨_, ⟨1⟩, GroupBuilder.pair_build, rfl, by decide +kernel, fun hagree => ?_⟩
  have hpass := (hagree [[5], [6]] rfl).2 1 1 rfl rfl (by decide)
  obtain ⟨expected, hexpected, hsize⟩ :=
    @checkInputs_iff _ _ [[5], [6]] 1 (by decide) rfl (by decide) |>.1 hpass
  obtain rfl : (2 : UInt64) = expected := Except.ok.inj hexpected
  exact absurd hsize (by decide)

end Runtime

end CollectiveFabric
