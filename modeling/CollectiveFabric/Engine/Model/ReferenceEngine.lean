import CollectiveFabric.Common.BigEndian
import CollectiveFabric.Foundation.Model.Values

/-!
# The reference engine

The in-process collectives over the ranks' input buffers. Buffers hold
elements in the little-endian order of the hosts the fabric runs on. What
the language leaves undefined, an index past a vector's end, a read past a
buffer's end and the overflow of a signed sum or product, is the outcome
`undefined`; what the engine throws is `throws`.
-/

namespace CollectiveFabric

open Common

/-- How a call that may be undefined ends. -/
inductive Outcome (α : Type) where
  | returns (a : α)
  | throws (e : Error)
  | undefined

namespace Outcome

variable {α β : Type}

/-- Go on with what a call returned. -/
def bind (x : Outcome α) (f : α → Outcome β) : Outcome β :=
  match x with
  | returns a => f a
  | throws e => throws e
  | undefined => undefined

instance : Monad Outcome where
  pure := returns
  bind := bind

/-- A value that is there, or undefined behaviour. -/
def ofOption : Option α → Outcome α
  | some a => returns a
  | none => undefined

end Outcome

namespace ReferenceEngine

/-! ## Elements -/

/-- An element type of a reduction: its size, how it is stored and the
operation on it. -/
structure Element (T : Type) where
  size : ℕ
  load : List UInt8 → T
  store : T → List UInt8
  reduce : Scoped ReductionOp → T → T → Option T

/-- The number `n` little-endian bytes spell. -/
def loadLe (bs : List UInt8) : ℕ := BigEndian.value bs.reverse

/-- The little-endian bytes of a number. -/
def storeLe (n v : ℕ) : List UInt8 := (BigEndian.digits n v).reverse

/-- `op32` on signed integers; a sum or product out of range is undefined. -/
def opI32 (op : Scoped ReductionOp) (a b : Int32) : Option Int32 :=
  match op.named with
  | some .sum =>
    let v := a.toInt + b.toInt
    if -2 ^ 31 ≤ v ∧ v < 2 ^ 31 then some (Int32.ofInt v) else none
  | some .product =>
    let v := a.toInt * b.toInt
    if -2 ^ 31 ≤ v ∧ v < 2 ^ 31 then some (Int32.ofInt v) else none
  | some .min => some (if a < b then a else b)
  | some .max => some (if a > b then a else b)
  | _ => some b

/-- `op32` on unsigned integers. -/
def opU32 (op : Scoped ReductionOp) (a b : UInt32) : Option UInt32 :=
  match op.named with
  | some .sum => some (a + b)
  | some .product => some (a * b)
  | some .min => some (if a < b then a else b)
  | some .max => some (if a > b then a else b)
  | _ => some b

/-- `op64` on signed integers; a sum or product out of range is undefined. -/
def opI64 (op : Scoped ReductionOp) (a b : Int64) : Option Int64 :=
  match op.named with
  | some .sum =>
    let v := a.toInt + b.toInt
    if -2 ^ 63 ≤ v ∧ v < 2 ^ 63 then some (Int64.ofInt v) else none
  | some .product =>
    let v := a.toInt * b.toInt
    if -2 ^ 63 ≤ v ∧ v < 2 ^ 63 then some (Int64.ofInt v) else none
  | some .min => some (if a < b then a else b)
  | some .max => some (if a > b then a else b)
  | _ => some b

/-- `opf` at single precision, on bit patterns. -/
def opF32 (op : Scoped ReductionOp) (a b : UInt32) : Option UInt32 :=
  let x := Float32.ofBits a
  let y := Float32.ofBits b
  match op.named with
  | some .sum => some (x + y).toBits
  | some .product => some (x * y).toBits
  | some .min => some (if x < y then a else b)
  | some .max => some (if x > y then a else b)
  | _ => some b

/-- `opf` at double precision, on bit patterns. -/
def opF64 (op : Scoped ReductionOp) (a b : UInt64) : Option UInt64 :=
  let x := Float.ofBits a
  let y := Float.ofBits b
  match op.named with
  | some .sum => some (x + y).toBits
  | some .product => some (x * y).toBits
  | some .min => some (if x < y then a else b)
  | some .max => some (if x > y then a else b)
  | _ => some b

def elementU32 : Element UInt32 :=
  ⟨4, fun bs => UInt32.ofNat (loadLe bs), fun v => storeLe 4 v.toNat, opU32⟩

def elementI32 : Element Int32 :=
  ⟨4, fun bs => (UInt32.ofNat (loadLe bs)).toInt32, fun v => storeLe 4 v.toUInt32.toNat, opI32⟩

def elementI64 : Element Int64 :=
  ⟨8, fun bs => (UInt64.ofNat (loadLe bs)).toInt64, fun v => storeLe 8 v.toUInt64.toNat, opI64⟩

def elementF32 : Element UInt32 :=
  ⟨4, fun bs => UInt32.ofNat (loadLe bs), fun v => storeLe 4 v.toNat, opF32⟩

def elementF64 : Element UInt64 :=
  ⟨8, fun bs => UInt64.ofNat (loadLe bs), fun v => storeLe 8 v.toNat, opF64⟩

/-! ## Reductions -/

/-- The first `n` elements of a buffer; reading past its end is undefined. -/
def readElements {T : Type} (el : Element T) (n : ℕ) (buffer : List UInt8) : Outcome (List T) :=
  if buffer.length < n * el.size then .undefined
  else .returns ((List.range n).map fun i => el.load ((buffer.drop (i * el.size)).take el.size))

/-- One rank's turn of the loop of `do_reduce`. -/
def reduceStep {T : Type} (el : Element T) (op : Scoped ReductionOp) (n : ℕ) (dst : List T)
    (buffer : List UInt8) : Outcome (List T) := do
  let src ← readElements el n buffer
  Outcome.ofOption ((dst.zip src).mapM fun (a, b) => el.reduce op a b)

/-- `do_reduce`: the left fold in rank order. Bytes of the output beyond
the last whole element stay zero. -/
def doReduce {T : Type} (el : Element T) (inputs : List (List UInt8)) (op : Scoped ReductionOp)
    (perBytes rankCount : ℕ) : Outcome (List UInt8) := do
  let n := perBytes / el.size
  let first ← Outcome.ofOption inputs[0]?
  let start ← readElements el n first
  let result ← (List.range' 1 (rankCount - 1)).foldlM (fun dst r => do
    let input ← Outcome.ofOption inputs[r]?
    reduceStep el op n dst input) start
  return result.flatMap el.store ++ List.replicate (perBytes - n * el.size) 0

/-- `reduce_into`: nothing is written for a value that names no datatype. -/
def reduceInto (inputs : List (List UInt8)) (dt : Scoped Datatype) (op : Scoped ReductionOp)
    (perBytes rankCount : ℕ) : Outcome (List UInt8) :=
  match dt.named with
  | some .int32 => doReduce elementI32 inputs op perBytes rankCount
  | some .uint32 => doReduce elementU32 inputs op perBytes rankCount
  | some .int64 => doReduce elementI64 inputs op perBytes rankCount
  | some .float32 => doReduce elementF32 inputs op perBytes rankCount
  | some .float64 => doReduce elementF64 inputs op perBytes rankCount
  | some .byte =>
    .throws ⟨.validation, "reference engine: BYTE datatype not valid for reduction"⟩
  | none => .returns (List.replicate perBytes 0)

/-- `checksize`. -/
def checksize (inputs : List (List UInt8)) (perBytes rankCount : ℕ) : Outcome Unit :=
  if inputs.length < rankCount then
    .throws ⟨.validation, "reference engine: missing rank contribution"⟩
  else if (inputs.take rankCount).any (fun input => input.length ≠ perBytes) then
    .throws ⟨.validation, "reference engine: rank contribution size mismatch"⟩
  else .returns ()

/-! ## The collectives -/

/-- `barrier`. -/
def barrier (rankCount : ℕ) : Outcome (List (List UInt8)) :=
  .returns (List.replicate rankCount [])

/-- `broadcast`. -/
def broadcast (inputs : List (List UInt8)) (perBytes : ℕ) (rootIndex rankCount : ℕ) :
    Outcome (List (List UInt8)) :=
  match inputs[rootIndex]? with
  | none => .throws ⟨.validation, "broadcast: root input size mismatch"⟩
  | some input =>
    if input.length ≠ perBytes then
      .throws ⟨.validation, "broadcast: root input size mismatch"⟩
    else .returns (List.replicate rankCount input)

/-- `reduce`: the root's output must be one of the ranks'. -/
def reduce (inputs : List (List UInt8)) (dt : Scoped Datatype) (op : Scoped ReductionOp)
    (perBytes rootIndex rankCount : ℕ) : Outcome (List (List UInt8)) := do
  checksize inputs perBytes rankCount
  if rootIndex < rankCount then
    let result ← reduceInto inputs dt op perBytes rankCount
    return (List.replicate rankCount []).set rootIndex result
  else .undefined

/-- `all_reduce`: the reduction is made in rank 0's output. -/
def allReduce (inputs : List (List UInt8)) (dt : Scoped Datatype) (op : Scoped ReductionOp)
    (perBytes rankCount : ℕ) : Outcome (List (List UInt8)) := do
  checksize inputs perBytes rankCount
  if 0 < rankCount then
    let result ← reduceInto inputs dt op perBytes rankCount
    return List.replicate rankCount result
  else .undefined

/-- The copies rank `r` makes in `all_gather`. An input that was not
checked yet and is shorter than a copy is read past its end. -/
def gather (inputs : List (List UInt8)) (perBytes rankCount : ℕ) : Outcome (List UInt8) :=
  (List.range rankCount).foldlM (fun acc i => do
    let input ← Outcome.ofOption inputs[i]?
    if input.length < perBytes then .undefined else return acc ++ input.take perBytes) []

/-- `all_gather`: each rank's input is checked before its output is made. -/
def allGather (inputs : List (List UInt8)) (perBytes rankCount : ℕ) :
    Outcome (List (List UInt8)) :=
  (List.range rankCount).foldlM (fun outputs r => do
    let input ← Outcome.ofOption inputs[r]?
    if input.length ≠ perBytes then
      Outcome.throws ⟨.validation, "all_gather: rank input size mismatch"⟩
    else
      let output ← gather inputs perBytes rankCount
      return outputs ++ [output]) []

/-- The size check of `reduce_scatter`. -/
def checkScatter (inputs : List (List UInt8)) (totalBytes rankCount : ℕ) : Outcome Unit :=
  (List.range rankCount).foldlM (fun _ r => do
    let input ← Outcome.ofOption inputs[r]?
    if input.length ≠ totalBytes then
      Outcome.throws ⟨.validation, "reduce_scatter: rank input size mismatch"⟩
    else return ()) ()

/-- `reduce_scatter`: block `b` of every input is reduced for rank `b`. -/
def reduceScatter (inputs : List (List UInt8)) (dt : Scoped Datatype) (op : Scoped ReductionOp)
    (perBytes rankCount : ℕ) : Outcome (List (List UInt8)) :=
  match checkedMul (UInt64.ofNat perBytes) (UInt64.ofNat rankCount) with
  | none => .throws ⟨.arithmeticOverflow, "reduce_scatter: overflow"⟩
  | some total => do
    checkScatter inputs total.toNat rankCount
    (List.range rankCount).foldlM (fun outputs b => do
      let blocks := (inputs.take rankCount).map fun input =>
        (input.drop (b * perBytes)).take perBytes
      let output ← reduceInto blocks dt op perBytes rankCount
      return outputs ++ [output]) []

/-- `execute`. For a kind the switch does not name the outputs stay empty. -/
def execute (kind : Scoped CollectiveKind) (op : Scoped ReductionOp) (dt : Scoped Datatype)
    (elementCount rootIndex rankCount : UInt64) (inputs : List (List UInt8)) :
    Outcome (List (List UInt8)) :=
  if datatypeSizeBytes dt = 0 then
    .throws ⟨.validation, "reference engine: unknown datatype size"⟩
  else
    match checkedMul elementCount (UInt64.ofNat (datatypeSizeBytes dt)) with
    | none =>
      .throws ⟨.arithmeticOverflow, "reference engine: element_count*datatype_size overflow"⟩
    | some per =>
      match checkedMul per rankCount with
      | none =>
        .throws ⟨.arithmeticOverflow, "reference engine: rank_count*per_bytes overflow"⟩
      | some _ =>
        match kind.named with
        | some .barrier => barrier rankCount.toNat
        | some .broadcast => broadcast inputs per.toNat rootIndex.toNat rankCount.toNat
        | some .reduce => reduce inputs dt op per.toNat rootIndex.toNat rankCount.toNat
        | some .allReduce => allReduce inputs dt op per.toNat rankCount.toNat
        | some .allGather => allGather inputs per.toNat rankCount.toNat
        | some .reduceScatter => reduceScatter inputs dt op per.toNat rankCount.toNat
        | none => .returns (List.replicate rankCount.toNat [])

end ReferenceEngine

end CollectiveFabric
