import CollectiveFabric.Foundation.Model.Identity
import CollectiveFabric.Foundation.Model.Enums

/-!
# Errors, sizes and provenance

The error a public function throws, the checked products of
`checked.hpp`, vectors whose size fits the machine's `size_t`, and the
provenance record. Clock readings and the process-wide source counter
come from outside: `Ambient` is what a call reads of them.
-/

namespace CollectiveFabric

inductive ErrorCode
  | validation | decode | encode | arithmeticOverflow | staleAuthority | conflict | notFound
  | alreadyExists | invalidArgument | incompatible | io | unsupported | lifecycle | unknown
deriving DecidableEq

structure Error where
  code : ErrorCode
  message : String
deriving DecidableEq

/-! ## Checked arithmetic -/

/-- `checked_mul`: the product, or nothing when it overflows 64 bits. -/
def checkedMul (a b : UInt64) : Option UInt64 :=
  if a = 0 ∨ b = 0 then some 0
  else if a > 0xffffffffffffffff / b then none
  else some (a * b)

/-- **The checked product** is the product where that fits 64 bits. -/
theorem checkedMul_eq (a b : UInt64) :
    checkedMul a b = if a.toNat * b.toNat < 2 ^ 64 then some (a * b) else none := by
  unfold checkedMul
  by_cases hzero : a = 0 ∨ b = 0
  · rw [if_pos hzero]
    rcases hzero with rfl | rfl <;> simp
  · obtain ⟨ha, hb⟩ := not_or.1 hzero
    have hpos : 0 < b.toNat := Nat.pos_of_ne_zero fun h => hb (UInt64.toNat_inj.1 h)
    have hover : a > 0xffffffffffffffff / b ↔ ¬a.toNat * b.toNat < 2 ^ 64 := by
      rw [gt_iff_lt, UInt64.lt_iff_toNat_lt, UInt64.toNat_div, Nat.div_lt_iff_lt_mul hpos]
      change 2 ^ 64 - 1 < _ ↔ _
      omega
    rw [if_neg hzero]
    by_cases hlt : a.toNat * b.toNat < 2 ^ 64
    · rw [if_pos hlt, if_neg fun h => hover.1 h hlt]
    · rw [if_neg hlt, if_pos (hover.2 hlt)]

theorem checkedMul_of_lt {a b : UInt64} (h : a.toNat * b.toNat < 2 ^ 64) :
    ∃ c, checkedMul a b = some c ∧ c.toNat = a.toNat * b.toNat := by
  refine ⟨a * b, by rw [checkedMul_eq, if_pos h], ?_⟩
  rw [UInt64.toNat_mul, Nat.mod_eq_of_lt h]

/-! ## Vectors -/

/-- A `std::vector` or a `std::string` (of bytes): a list whose size is a
64-bit `size_t`. -/
@[ext] structure Vec (α : Type) where
  toList : List α
  size_lt : toList.length < 2 ^ 64
deriving DecidableEq

/-- A byte string. -/
abbrev Bytes := Vec UInt8

namespace Vec

variable {α : Type}

/-- `size()`. -/
def size (v : Vec α) : UInt64 := UInt64.ofNat v.toList.length

@[simp] theorem toNat_size (v : Vec α) : v.size.toNat = v.toList.length := by
  rw [size, UInt64.toNat_ofNat']
  exact Nat.mod_eq_of_lt v.size_lt

/-- The vector of a list; no vector is longer than `size_t` can count. -/
def ofList (l : List α) : Vec α :=
  ⟨l.take (2 ^ 64 - 1), by rw [List.length_take]; omega⟩

theorem ofList_toList (v : Vec α) : ofList v.toList = v := by
  have := v.size_lt
  ext1
  exact List.take_of_length_le (by omega)

instance : EmptyCollection (Vec α) := ⟨⟨[], Nat.two_pow_pos 64⟩⟩

end Vec

/-! ## Provenance -/

/-- A source identifier with the generation that produced the claim. -/
structure Source where
  id : SourceId := {}
  generation : SourceGeneration := {}
  provenance : Scoped ProvenanceKind := .of .unknown
  createdUtcNs : UInt64 := 0
  description : String := ""

/-- What a call reads of its surroundings: the wall clock, the steady
clock and the process-wide counter of sources. -/
structure Ambient where
  wallNs : UInt64
  steadyUs : UInt64
  sourceCounter : UInt64

/-- `make_source`. -/
def makeSource (env : Ambient) (description : String) (provenance : ProvenanceKind) :
    Source where
  id := ⟨env.sourceCounter + 1⟩
  generation := ⟨1⟩
  provenance := .of provenance
  createdUtcNs := env.wallNs
  description := description

end CollectiveFabric
