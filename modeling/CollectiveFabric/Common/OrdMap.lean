import Std.Data.TreeMap
import Mathlib.Algebra.Order.BigOperators.Group.List
import Mathlib.Algebra.Order.Ring.Nat

/-!
# Ordered maps and their totals

An ordered map, iterated in the order of its keys, and the total of a
weight over its values. Writing one key changes the total by the new
value's weight and the replaced value's.
-/

namespace Common

/-- An ordered map. -/
abbrev OrdMap (κ : Type) [Ord κ] (ν : Type) : Type := Std.TreeMap κ ν compare

namespace OrdMap

variable {κ ν : Type} [Ord κ] [Std.TransOrd κ] [Std.LawfulEqOrd κ] {m : OrdMap κ ν}

omit [Std.LawfulEqOrd κ] in
theorem getElem?_insert_same (m : OrdMap κ ν) (k : κ) (v : ν) : (m.insert k v)[k]? = some v :=
  Std.TreeMap.getElem?_insert_self

theorem getElem?_insert_of_ne (m : OrdMap κ ν) {k a : κ} (h : k ≠ a) (v : ν) :
    (m.insert k v)[a]? = m[a]? := by
  rw [Std.TreeMap.getElem?_insert, if_neg fun heq => h (Std.LawfulEqOrd.compare_eq_iff_eq.1 heq)]

/-- What a key written to reads. -/
theorem getElem?_insert_eq_some {k a : κ} {v x : ν} (h : (m.insert k v)[a]? = some x) :
    (a = k ∧ x = v) ∨ (a ≠ k ∧ m[a]? = some x) := by
  by_cases hka : k = a
  · subst hka
    rw [getElem?_insert_same] at h
    exact .inl ⟨rfl, (Option.some.inj h).symm⟩
  · rw [getElem?_insert_of_ne m hka] at h
    exact .inr ⟨Ne.symm hka, h⟩

theorem getElem?_erase_of_ne (m : OrdMap κ ν) {k a : κ} (h : k ≠ a) : (m.erase k)[a]? = m[a]? := by
  rw [Std.TreeMap.getElem?_erase, if_neg fun heq => h (Std.LawfulEqOrd.compare_eq_iff_eq.1 heq)]

/-- What is left when a key is erased. -/
theorem getElem?_erase_eq_some {k a : κ} {x : ν} (h : (m.erase k)[a]? = some x) :
    a ≠ k ∧ m[a]? = some x := by
  by_cases hka : k = a
  · subst hka
    rw [Std.TreeMap.getElem?_erase_self] at h
    cases h
  · rw [getElem?_erase_of_ne m hka] at h
    exact ⟨Ne.symm hka, h⟩

/-- The total weight of the values. -/
def total (w : ν → ℕ) (m : OrdMap κ ν) : ℕ := (m.toList.map fun kv => w kv.2).sum

omit [Std.TransOrd κ] [Std.LawfulEqOrd κ] in
@[simp] theorem total_empty (w : ν → ℕ) : total w (∅ : OrdMap κ ν) = 0 := rfl

/-- The total without one key. -/
private def totalBut [BEq κ] (w : ν → ℕ) (m : OrdMap κ ν) (k : κ) : ℕ :=
  ((m.toList.filter fun x => decide ¬(k == x.1) = true).map fun kv => w kv.2).sum

private theorem total_insert_eq [BEq κ] [LawfulBEq κ] (w : ν → ℕ) (m : OrdMap κ ν) (k : κ)
    (v : ν) : total w (m.insert k v) = w v + totalBut w m k := by
  have hperm := Std.TreeMap.toList_insert_perm (t := m) (k := k) (v := v)
  rw [total, (hperm.map _).sum_eq, List.map_cons, List.sum_cons, totalBut]

/-- **A new key adds its value's weight.** -/
theorem total_insert_of_none [BEq κ] [LawfulBEq κ] (w : ν → ℕ) {k : κ} (v : ν)
    (h : m[k]? = none) : total w (m.insert k v) = total w m + w v := by
  have hall : m.toList.filter (fun x => decide ¬(k == x.1) = true) = m.toList := by
    rw [List.filter_eq_self]
    intro x hx
    have hne : k ≠ x.1 := by
      intro heq
      have hsome := Std.TreeMap.mem_toList_iff_getElem?_eq_some.1 hx
      rw [← heq, h] at hsome
      cases hsome
    simpa using hne
  rw [total_insert_eq, totalBut, hall, total, Nat.add_comm]

/-- Writing back what a key holds changes no total. -/
private theorem total_insert_held [BEq κ] [LawfulBEq κ] (w : ν → ℕ) {k : κ} {v : ν}
    (h : m[k]? = some v) : total w (m.insert k v) = total w m := by
  have hequiv : (m.insert k v).Equiv m := by
    refine Std.TreeMap.Equiv.of_forall_constGet?_eq fun a => ?_
    by_cases hka : k = a
    · rw [← hka, getElem?_insert_same, h]
    · rw [getElem?_insert_of_ne m hka]
  rw [total, hequiv.toList_eq, total]

/-- **A key written again trades weights.** -/
theorem total_insert_of_some [BEq κ] [LawfulBEq κ] (w : ν → ℕ) {k : κ} {v₀ : ν} (v : ν)
    (h : m[k]? = some v₀) : total w (m.insert k v) + w v₀ = total w m + w v := by
  have hheld := total_insert_held w h
  rw [total_insert_eq] at hheld
  rw [total_insert_eq, ← hheld]
  omega

/-- A value weighs no more than the total. -/
theorem weight_le_total [BEq κ] [LawfulBEq κ] (w : ν → ℕ) {k : κ} {v : ν} (h : m[k]? = some v) :
    w v ≤ total w m := by
  have hheld := total_insert_held w h
  rw [total_insert_eq] at hheld
  omega

/-- **A key taken out takes its value's weight along.** -/
theorem total_erase_of_some [BEq κ] [LawfulBEq κ] (w : ν → ℕ) {k : κ} {v : ν}
    (h : m[k]? = some v) : total w (m.erase k) + w v = total w m := by
  have hgone : (m.erase k)[k]? = none := Std.TreeMap.getElem?_erase_self
  have hequiv : ((m.erase k).insert k v).Equiv m := by
    refine Std.TreeMap.Equiv.of_forall_constGet?_eq fun a => ?_
    by_cases hka : k = a
    · rw [← hka, getElem?_insert_same, h]
    · rw [getElem?_insert_of_ne _ hka, Std.TreeMap.getElem?_erase,
        if_neg fun heq => hka (Std.LawfulEqOrd.compare_eq_iff_eq.1 heq)]
  rw [← total_insert_of_none w v hgone, total, hequiv.toList_eq, total]

omit [Std.TransOrd κ] [Std.LawfulEqOrd κ] in
/-- Lighter values, a lower total. -/
theorem total_mono {w w' : ν → ℕ} (h : ∀ v, w v ≤ w' v) (m : OrdMap κ ν) :
    total w m ≤ total w' m :=
  List.sum_le_sum fun _ _ => h _

/-! ## One key changed -/

/-- `m'` is `m` with the value at `k` changed from `v` to `v'`. -/
structure Change (m m' : OrdMap κ ν) (k : κ) (v v' : ν) : Prop where
  before : m[k]? = some v
  after : m'[k]? = some v'
  others : ∀ a, a ≠ k → m'[a]? = m[a]?

namespace Change

variable {m' : OrdMap κ ν} {k : κ} {v v' : ν}

theorem insert (h : m[k]? = some v) (v' : ν) : Change m (m.insert k v') k v v' :=
  ⟨h, getElem?_insert_same m k v', fun _ ha => getElem?_insert_of_ne m (Ne.symm ha) v'⟩

omit [Std.TransOrd κ] [Std.LawfulEqOrd κ] in
theorem same (h : m[k]? = some v) : Change m m k v v := ⟨h, h, fun _ _ => rfl⟩

omit [Std.TransOrd κ] [Std.LawfulEqOrd κ] in
/-- What is read after the change. -/
theorem cases [DecidableEq κ] (h : Change m m' k v v') {a : κ} {x : ν} (hx : m'[a]? = some x) :
    (a = k ∧ x = v') ∨ (a ≠ k ∧ m[a]? = some x) := by
  by_cases ha : a = k
  · rw [ha, h.after] at hx
    exact .inl ⟨ha, (Option.some.inj hx).symm⟩
  · exact .inr ⟨ha, (h.others a ha).symm.trans hx⟩

/-- **A change trades the weights of the two values.** -/
theorem total [BEq κ] [LawfulBEq κ] (h : Change m m' k v v') (w : ν → ℕ) :
    OrdMap.total w m' + w v = OrdMap.total w m + w v' := by
  have hequiv : m'.Equiv (m.insert k v') := by
    refine Std.TreeMap.Equiv.of_forall_constGet?_eq fun a => ?_
    by_cases ha : a = k
    · rw [ha, h.after, getElem?_insert_same]
    · rw [h.others a ha, getElem?_insert_of_ne m (Ne.symm ha)]
  rw [← total_insert_of_some w v' h.before, OrdMap.total, hequiv.toList_eq, OrdMap.total]

end Change

end OrdMap

end Common
