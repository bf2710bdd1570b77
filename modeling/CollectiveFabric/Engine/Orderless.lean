import CollectiveFabric.Engine.Validation

/-!
# Reductions without an order

Sums and products modulo `2 ^ 32`, and minima and maxima of any integer
datatype, are commutative and associative, and none of them overflows. An
all-reduce with one of them is then the same for any order of the ranks'
inputs, and so are its checks of the inputs' sizes.
-/

namespace CollectiveFabric

open Common

namespace Numeric

variable {t : Numeric} {op : ReductionOp} {k i : ℕ} {inputs inputs' : List (List UInt8)}

/-- The reductions whose order does not matter. -/
def Orderless : Numeric → ReductionOp → Prop
  | uint32, op => op ≠ .none
  | int32, op | int64, op => op = .min ∨ op = .max

/-! ## The operation -/

/-- An integer as the arithmetic of the datatype reduces it. -/
def wrap (t : Numeric) (z : ℤ) : ℤ :=
  match t with
  | uint32 => z % 2 ^ 32
  | int32 | int64 => z

theorem wrap_wrap (t : Numeric) (z : ℤ) : t.wrap (t.wrap z) = t.wrap z := by
  cases t with
  | uint32 => exact Int.emod_emod_of_dvd z dvd_rfl
  | int32 => rfl
  | int64 => rfl

theorem combine_eq_wrap (t : Numeric) (op : Scoped ReductionOp) (a b : ℤ) :
    t.combine op a b = t.wrap (eval op a b) := by
  cases t <;> rfl

/-- The combination of the reduced integers. -/
def meet (t : Numeric) (op : ReductionOp) (a b : ℤ) : ℤ :=
  t.combine (.of op) (t.wrap a) (t.wrap b)

@[simp] theorem eval_sum (a b : ℤ) : eval (.of .sum) a b = a + b := rfl

@[simp] theorem eval_product (a b : ℤ) : eval (.of .product) a b = a * b := rfl

@[simp] theorem eval_min (a b : ℤ) : eval (.of .min) a b = min a b := rfl

@[simp] theorem eval_max (a b : ℤ) : eval (.of .max) a b = max a b := rfl

theorem eval_comm (hop : op ≠ .none) (a b : ℤ) : eval (.of op) a b = eval (.of op) b a := by
  cases op with
  | sum => exact Int.add_comm a b
  | product => exact Int.mul_comm a b
  | min => exact min_comm a b
  | max => exact max_comm a b
  | none => exact absurd rfl hop

theorem Orderless.ne_none (h : t.Orderless op) : op ≠ .none := by
  cases t with
  | uint32 => exact h
  | int32 => rcases h with rfl | rfl <;> decide
  | int64 => rcases h with rfl | rfl <;> decide

theorem meet_comm (h : t.Orderless op) (a b : ℤ) : t.meet op a b = t.meet op b a := by
  rw [meet, meet, combine_eq_wrap, combine_eq_wrap, eval_comm h.ne_none]

/-- Products modulo `m` of reduced factors. -/
theorem emod_mul_assoc (a b c m : ℤ) :
    (a % m * (b % m)) % m % m * (c % m) % m = a % m * ((b % m * (c % m)) % m % m) % m := by
  rw [← Int.mul_emod a b, ← Int.mul_emod b c, Int.emod_emod_of_dvd _ dvd_rfl,
    Int.emod_emod_of_dvd _ dvd_rfl, ← Int.mul_emod, ← Int.mul_emod, Int.mul_assoc]

theorem meet_assoc (h : t.Orderless op) (a b c : ℤ) :
    t.meet op (t.meet op a b) c = t.meet op a (t.meet op b c) := by
  simp only [meet, combine_eq_wrap]
  cases t with
  | uint32 =>
    cases op with
    | sum =>
      simp only [wrap, eval_sum]
      omega
    | product => exact emod_mul_assoc a b c (2 ^ 32)
    | min =>
      simp only [wrap, eval_min]
      omega
    | max =>
      simp only [wrap, eval_max]
      omega
    | none => exact absurd rfl h
  | int32 =>
    rcases h with rfl | rfl
    · exact min_assoc a b c
    · exact max_assoc a b c
  | int64 =>
    rcases h with rfl | rfl
    · exact min_assoc a b c
    · exact max_assoc a b c

/-! ## The elements -/

/-- What is loaded is reduced. -/
theorem wrap_load {bs : List UInt8} (h : bs.length = t.size) : t.wrap (t.load bs) = t.load bs := by
  cases t with
  | uint32 =>
    have hlt : ReferenceEngine.loadLe bs < 2 ^ 32 := ReferenceEngine.loadLe_lt h
    have hcast : (ReferenceEngine.loadLe bs : ℤ) < 2 ^ 32 := by exact_mod_cast hlt
    exact Int.emod_eq_of_lt (Int.natCast_nonneg _) hcast
  | int32 => rfl
  | int64 => rfl

theorem wrap_element (hi : i < k) {buffer : List UInt8} (hlength : buffer.length = k * t.size) :
    t.wrap (t.element buffer i) = t.element buffer i :=
  wrap_load (ReferenceEngine.length_slice hi hlength)

/-- **Combining does not overflow.** -/
theorem Orderless.fits (h : t.Orderless op) {a b : ℤ} (ha : t.Fits a) (hb : t.Fits b) :
    t.Fits (t.combine (.of op) a b) := by
  cases t with
  | uint32 => trivial
  | int32 =>
    simp only [Fits, combine] at ha hb ⊢
    rcases h with rfl | rfl
    · rw [eval_min]
      omega
    · rw [eval_max]
      omega
  | int64 =>
    simp only [Fits, combine] at ha hb ⊢
    rcases h with rfl | rfl
    · rw [eval_min]
      omega
    · rw [eval_max]
      omega

theorem Orderless.fits_foldAt (h : t.Orderless op) (ranks : List (List UInt8)) (i : ℕ) :
    t.Fits (t.foldAt (.of op) ranks i) := by
  cases ranks with
  | nil => exact t.fits_zero
  | cons first rest =>
    induction rest using List.reverseRecOn with
    | nil => exact t.fits_load _
    | append_singleton rest input ih =>
      rw [foldAt_append_singleton]
      exact h.fits ih (t.fits_load _)

/-- So no fold of the rows does. -/
theorem Orderless.noOverflow (h : t.Orderless op) : t.NoOverflow (.of op) k inputs :=
  fun i _ ranks _ => h.fits_foldAt ranks i

/-! ## The folds -/

/-- The fold of reduced elements. -/
theorem foldAt_eq (hi : i < k) {first : List UInt8} {rest : List (List UInt8)}
    (hlength : ∀ input ∈ first :: rest, input.length = k * t.size) :
    t.foldAt (.of op) (first :: rest) i =
      (rest.map (t.element · i)).foldl (t.meet op) (t.element first i) := by
  have hwrap (input : List UInt8) (hinput : input ∈ first :: rest) :
      t.wrap (t.element input i) = t.element input i :=
    wrap_element hi (hlength input hinput)
  rw [foldAt, List.foldl_map]
  have hloop (inputs : List (List UInt8)) (hinputs : ∀ input ∈ inputs, input ∈ first :: rest)
      (acc : ℤ) (hacc : t.wrap acc = acc) :
      inputs.foldl (fun acc input => t.combine (.of op) acc (t.element input i)) acc =
        inputs.foldl (fun acc input => t.meet op acc (t.element input i)) acc := by
    induction inputs generalizing acc with
    | nil => rfl
    | cons input inputs ih =>
      have hstep : t.meet op acc (t.element input i) =
          t.combine (.of op) acc (t.element input i) := by
        rw [meet, hacc, hwrap input (hinputs input (List.mem_cons_self ..))]
      rw [List.foldl_cons, List.foldl_cons, hstep]
      refine ih (fun x hx => hinputs x (List.mem_cons_of_mem _ hx)) _ ?_
      rw [combine_eq_wrap, wrap_wrap]
  exact hloop rest (fun x hx => List.mem_cons_of_mem _ hx) _ (hwrap first (List.mem_cons_self ..))

/-- **Folding the rows in another order** gives the same row. -/
theorem Orderless.fold_perm (h : t.Orderless op) (hperm : inputs.Perm inputs')
    (hlength : ∀ input ∈ inputs, input.length = k * t.size) :
    t.fold (.of op) k inputs = t.fold (.of op) k inputs' := by
  refine List.flatMap_congr fun i hi => ?_
  have hi := List.mem_range.1 hi
  cases inputs with
  | nil => rw [hperm.nil_eq]
  | cons first rest =>
    cases inputs' with
    | nil => exact absurd hperm.symm.nil_eq (by simp)
    | cons first' rest' =>
      have helements := hperm.map (t.element · i)
      rw [foldAt_eq hi hlength, foldAt_eq hi fun input hinput =>
        hlength input (hperm.mem_iff.2 hinput)]
      exact congrArg t.store
        (Loops.foldl_cons_perm (meet_comm h) (meet_assoc h) helements)

end Numeric

namespace ReferenceEngine

variable {t : Numeric} {op : ReductionOp} {k : ℕ} {inputs inputs' : List (List UInt8)}

/-! ## The all-reduce -/

/-- The check of the sizes does not depend on the order. -/
theorem checksize_perm (hperm : inputs.Perm inputs') (perBytes : ℕ) :
    checksize inputs perBytes inputs.length = checksize inputs' perBytes inputs.length := by
  unfold checksize
  rw [List.take_length, hperm.length_eq, List.take_length, hperm.any_eq]

theorem allReduce_perm (h : t.Orderless op) (hne : inputs ≠ []) (hperm : inputs.Perm inputs') :
    allReduce inputs (.of t.datatype) (.of op) (k * t.size) inputs.length =
      allReduce inputs' (.of t.datatype) (.of op) (k * t.size) inputs.length := by
  unfold allReduce
  rcases checksize_cases inputs (k * t.size) inputs.length with
    ⟨-, hlength, hcheck⟩ | ⟨-, message, hcheck⟩
  · rw [List.take_length] at hlength
    have hlength' : ∀ input ∈ inputs', input.length = k * t.size := fun input hinput =>
      hlength input (hperm.mem_iff.2 hinput)
    have hne' : inputs' ≠ [] := by
      rintro rfl
      exact hne hperm.eq_nil
    rw [← checksize_perm hperm, hcheck, reduceInto_eq hne hlength h.noOverflow,
      hperm.length_eq, reduceInto_eq hne' hlength' h.noOverflow,
      h.fold_perm hperm hlength]
  · rw [← checksize_perm hperm, hcheck]
    rfl

/-- What `execute` reads of the inputs of an all-reduce is what
`all_reduce` makes of them. -/
theorem execute_allReduce_congr {count root n : UInt64}
    (h : allReduce inputs (.of t.datatype) (.of op) (count.toNat * t.size) n.toNat =
      allReduce inputs' (.of t.datatype) (.of op) (count.toNat * t.size) n.toNat) :
    execute (.of .allReduce) (.of op) (.of t.datatype) count root n inputs =
      execute (.of .allReduce) (.of op) (.of t.datatype) count root n inputs' := by
  have hwidth : (UInt64.ofNat t.size).toNat = t.size := by cases t <;> rfl
  unfold execute
  cases hper : checkedMul count (UInt64.ofNat (datatypeSizeBytes (.of t.datatype))) with
  | none => rfl
  | some per =>
    have hvalue : per.toNat = count.toNat * t.size := by
      rw [datatypeSizeBytes_eq, checkedMul_eq, hwidth] at hper
      split_ifs at hper with hlt
      cases hper
      rw [UInt64.toNat_mul, hwidth, Nat.mod_eq_of_lt hlt]
    simp only [Scoped.named_of, hvalue, h]

/-- **Integer reductions do not depend on the rank order.** An all-reduce
of unsigned sums, products, minima or maxima, or of signed minima or
maxima, ends alike for any order of the ranks' inputs; and where sizes fit
it returns one result to every rank. -/
theorem execute_perm (t : Numeric) (op : ReductionOp) (count root n : UInt64)
    (inputs inputs' : List (List UInt8)) (h : t.Orderless op) (hn : 1 ≤ n.toNat)
    (hcount : inputs.length = n.toNat) (hperm : inputs.Perm inputs') :
    execute (.of .allReduce) (.of op) (.of t.datatype) count root n inputs' =
        execute (.of .allReduce) (.of op) (.of t.datatype) count root n inputs ∧
      (count.toNat * t.size * n.toNat < 2 ^ 64 →
        (∀ input ∈ inputs, input.length = count.toNat * t.size) →
          ∃ out, execute (.of .allReduce) (.of op) (.of t.datatype) count root n inputs' =
            .returns (List.replicate n.toNat out)) := by
  have hne : inputs ≠ [] := by
    rintro rfl
    rw [← hcount] at hn
    exact absurd hn (by decide)
  have hsame : execute (.of .allReduce) (.of op) (.of t.datatype) count root n inputs' =
      execute (.of .allReduce) (.of op) (.of t.datatype) count root n inputs := by
    refine (execute_allReduce_congr ?_).symm
    rw [← hcount]
    exact allReduce_perm h hne hperm
  refine ⟨hsame, fun hfits hlength => ⟨t.fold (.of op) count.toNat inputs, ?_⟩⟩
  have hreturns : allReduce inputs (.of t.datatype) (.of op) (count.toNat * t.size) inputs.length =
      .returns (CollectiveKind.allReduce.result t (.of op) count.toNat 0 inputs.length inputs) :=
    allReduce_eq hne hlength h.noOverflow
  rw [hsame, execute_of_fits .allReduce hn hfits, ← hcount]
  simp only [hreturns, CollectiveKind.result, List.map_const', List.length_range]

/-- Products of two ranks that overflow 32 bits, in both orders. -/
theorem execute_perm_product :
    execute (.of .allReduce) (.of .product) (.of .uint32) 1 0 2
        [[255, 255, 255, 255], [3, 0, 0, 0]] =
      execute (.of .allReduce) (.of .product) (.of .uint32) 1 0 2
        [[3, 0, 0, 0], [255, 255, 255, 255]] :=
  (execute_perm .uint32 .product 1 0 2 _ _ (by intro h; cases h) (by decide) rfl
    (List.Perm.swap ..)).1

end ReferenceEngine

end CollectiveFabric
