import CollectiveFabric.Engine.Reference

/-!
# How a call ends

A call in several steps ends as the step it stops at, and a loop as the
round it stops at: if it returns, every round has returned.
-/

namespace CollectiveFabric

namespace Outcome

variable {α β : Type} {x : Outcome α} {e : Error}

/-- What neither throws nor is undefined returns. -/
theorem exists_returns (hthrows : ∀ e, x ≠ .throws e) (hdefined : x ≠ .undefined) :
    ∃ a, x = .returns a := by
  cases x with
  | returns a => exact ⟨a, rfl⟩
  | throws e => exact absurd rfl (hthrows e)
  | undefined => exact absurd rfl hdefined

theorem bind_returns {f : α → Outcome β} {b : β} (h : x >>= f = .returns b) :
    ∃ a, x = .returns a ∧ f a = .returns b := by
  cases x with
  | returns a => exact ⟨a, rfl, h⟩
  | throws e => cases h
  | undefined => cases h

theorem bind_throws {f : α → Outcome β} (h : x >>= f = .throws e) :
    x = .throws e ∨ ∃ a, x = .returns a ∧ f a = .throws e := by
  cases x with
  | returns a => exact .inr ⟨a, rfl, h⟩
  | throws e' =>
    cases h
    exact .inl rfl
  | undefined => cases h

theorem bind_undefined {f : α → Outcome β} (h : x >>= f = .undefined) :
    x = .undefined ∨ ∃ a, x = .returns a ∧ f a = .undefined := by
  cases x with
  | returns a => exact .inr ⟨a, rfl, h⟩
  | throws e => cases h
  | undefined => exact .inl rfl

theorem ofOption_ne_throws (x : Option α) (e : Error) : ofOption x ≠ .throws e := by
  cases x <;> exact fun h => by cases h

theorem ofOption_returns {x : Option α} {a : α} (h : ofOption x = .returns a) : x = some a := by
  cases x with
  | none => cases h
  | some a' =>
    cases h
    rfl

theorem ofOption_undefined {x : Option α} (h : ofOption x = .undefined) : x = none := by
  cases x with
  | none => rfl
  | some a => cases h

/-! ## Loops -/

variable {f g : β → α → Outcome β} {xs : List α} {acc : β}

/-- A loop that returns has returned from every round. -/
theorem foldlM_returns {b : β} (h : xs.foldlM f acc = .returns b) :
    ∀ x ∈ xs, ∃ acc acc', f acc x = .returns acc' := by
  induction xs generalizing acc with
  | nil =>
    intro x hx
    cases hx
  | cons x xs ih =>
    rw [List.foldlM_cons] at h
    obtain ⟨acc', hround, hrest⟩ := bind_returns h
    intro y hy
    rcases List.mem_cons.1 hy with rfl | hy
    · exact ⟨acc, acc', hround⟩
    · exact ih hrest y hy

/-- A loop throws where one of its rounds does. -/
theorem foldlM_throws (h : xs.foldlM f acc = .throws e) :
    ∃ acc, ∃ x ∈ xs, f acc x = .throws e := by
  induction xs generalizing acc with
  | nil => cases h
  | cons x xs ih =>
    rw [List.foldlM_cons] at h
    rcases bind_throws h with h | ⟨acc', -, h⟩
    · exact ⟨acc, x, List.mem_cons_self .., h⟩
    · obtain ⟨acc, y, hy, h⟩ := ih h
      exact ⟨acc, y, List.mem_cons_of_mem x hy, h⟩

/-- A loop is undefined where one of its rounds is. -/
theorem foldlM_undefined (h : xs.foldlM f acc = .undefined) :
    ∃ acc, ∃ x ∈ xs, f acc x = .undefined := by
  induction xs generalizing acc with
  | nil => cases h
  | cons x xs ih =>
    rw [List.foldlM_cons] at h
    rcases bind_undefined h with h | ⟨acc', -, h⟩
    · exact ⟨acc, x, List.mem_cons_self .., h⟩
    · obtain ⟨acc, y, hy, h⟩ := ih h
      exact ⟨acc, y, List.mem_cons_of_mem x hy, h⟩

/-- Loops whose rounds are the same are the same. -/
theorem foldlM_congr (h : ∀ acc, ∀ x ∈ xs, f acc x = g acc x) :
    xs.foldlM f acc = xs.foldlM g acc := by
  induction xs generalizing acc with
  | nil => rfl
  | cons x xs ih =>
    rw [List.foldlM_cons, List.foldlM_cons, h acc x (List.mem_cons_self ..)]
    exact bind_congr fun acc' => ih fun acc y hy => h acc y (List.mem_cons_of_mem x hy)

/-! ## Loops that collect -/

section

variable {γ : Type} {get : α → Outcome γ} {acc : List γ}

/-- A loop that collects results is undefined where one of them is. -/
theorem collect_undefined
    (h : xs.foldlM (fun acc x => get x >>= fun y => returns (acc ++ [y])) acc = .undefined) :
    ∃ x ∈ xs, get x = .undefined := by
  obtain ⟨acc, x, hx, h⟩ := foldlM_undefined h
  rcases bind_undefined h with h | ⟨y, -, h⟩
  · exact ⟨x, hx, h⟩
  · cases h

/-- And if nothing throws, only there. -/
theorem collect_defined (hthrows : ∀ x e, get x ≠ .throws e)
    (h : xs.foldlM (fun acc x => get x >>= fun y => returns (acc ++ [y])) acc ≠ .undefined) :
    ∀ x ∈ xs, get x ≠ .undefined := by
  have hloop (e : Error) :
      xs.foldlM (fun acc x => get x >>= fun y => returns (acc ++ [y])) acc ≠ .throws e := by
    intro hloop
    obtain ⟨acc, x, -, hround⟩ := foldlM_throws hloop
    rcases bind_throws hround with hround | ⟨y, -, hround⟩
    · exact hthrows x e hround
    · cases hround
  obtain ⟨out, hout⟩ := exists_returns hloop h
  intro x hx hundefined
  obtain ⟨acc, acc', hround⟩ := foldlM_returns hout x hx
  rw [hundefined] at hround
  cases hround

end

end Outcome

end CollectiveFabric
