import Mathlib.Data.List.Basic

/-!
# Encodings that say where they end

An encoding tells `f` when no byte string begins with the encodings of two
values that differ in `f`, or with two encodings of different lengths.
Fields written one after another, an optional field behind its flag and a
list behind its count are told where each part is.
-/

namespace Common

/-- A string that begins with an encoding fixes `f` of the value encoded,
and where the encoding ends. -/
def Tells {α β γ : Type} (enc : α → List β) (f : α → γ) : Prop :=
  ∀ ⦃a a' t t'⦄, enc a ++ t = enc a' ++ t' → f a = f a' ∧ t = t'

namespace Tells

variable {α β γ δ : Type} {enc enc' : α → List β} {f : α → γ} {g : α → δ}

/-- Two values of one encoding agree. -/
theorem eq (h : Tells enc f) {a a' : α} (heq : enc a = enc a') : f a = f a' :=
  (@h a a' [] [] (by rw [heq])).1

/-- A fixed length says where the encoding ends. -/
theorem of_length {n : ℕ} (hlength : ∀ a, (enc a).length = n)
    (hinj : ∀ a a', enc a = enc a' → f a = f a') : Tells enc f := by
  intro a a' t t' h
  obtain ⟨heq, ht⟩ := List.append_inj h ((hlength a).trans (hlength a').symm)
  exact ⟨hinj a a' heq, ht⟩

/-- The encoding of a field tells the field. -/
theorem on {κ : Type} {enc : κ → List β} {f : κ → γ} (h : Tells enc f) (field : α → κ) :
    Tells (fun a => enc (field a)) fun a => f (field a) := fun _ _ _ _ heq => h heq

/-- What tells `f` tells all that `f` fixes. -/
theorem mono (h : Tells enc f) (hfix : ∀ a a', f a = f a' → g a = g a') : Tells enc g :=
  fun _ _ _ _ heq => (h heq).imp_left (hfix _ _)

/-- **One encoding after another** tells what both tell. -/
theorem append (h : Tells enc f) (h' : Tells enc' g) :
    Tells (fun a => enc a ++ enc' a) fun a => (f a, g a) := by
  intro a a' t t' heq
  rw [List.append_assoc, List.append_assoc] at heq
  obtain ⟨hf, hrest⟩ := h heq
  obtain ⟨hg, ht⟩ := h' hrest
  exact ⟨Prod.ext hf hg, ht⟩

/-- **An optional value behind its flag.** -/
theorem optional {flag : Bool → List β} (hflag : Tells flag id) (h : Tells enc f) :
    Tells (fun o : Option α => flag o.isSome ++ o.elim [] enc) (Option.map f) := by
  intro o o' t t' heq
  rw [List.append_assoc, List.append_assoc] at heq
  obtain ⟨hsome, hrest⟩ := hflag heq
  cases o with
  | none =>
    cases o' with
    | none => exact ⟨rfl, hrest⟩
    | some a' => cases hsome
  | some a =>
    cases o' with
    | none => cases hsome
    | some a' => exact (h hrest).imp_left (congrArg some)

/-- As many items, one after another. -/
theorem flatMap (h : Tells enc f) {xs ys : List α} {t t' : List β}
    (hlength : xs.length = ys.length) (heq : xs.flatMap enc ++ t = ys.flatMap enc ++ t') :
    xs.map f = ys.map f ∧ t = t' := by
  induction xs generalizing ys with
  | nil =>
    obtain rfl := List.length_eq_zero_iff.1 hlength.symm
    exact ⟨rfl, heq⟩
  | cons x xs ih =>
    cases ys with
    | nil => cases hlength
    | cons y ys =>
      rw [List.flatMap_cons, List.flatMap_cons, List.append_assoc, List.append_assoc] at heq
      obtain ⟨hx, hrest⟩ := h heq
      obtain ⟨hxs, ht⟩ := ih (Nat.succ.inj hlength) hrest
      exact ⟨by rw [List.map_cons, List.map_cons, hx, hxs], ht⟩

/-- **A list behind its count**, below the bound the counts are told apart
to. -/
theorem counted {count : ℕ → List β} {bound : ℕ}
    (hcount : ∀ ⦃m n t t'⦄, m < bound → n < bound → count m ++ t = count n ++ t' → m = n ∧ t = t')
    (h : Tells enc f) {xs ys : List α} (hx : xs.length < bound) (hy : ys.length < bound)
    {t t' : List β}
    (heq : count xs.length ++ (xs.flatMap enc ++ t) =
      count ys.length ++ (ys.flatMap enc ++ t')) : xs.map f = ys.map f ∧ t = t' := by
  obtain ⟨hlength, hrest⟩ := hcount hx hy heq
  exact h.flatMap hlength hrest

end Tells

end Common
