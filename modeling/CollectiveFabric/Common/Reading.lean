import Mathlib.Data.List.Basic
import Mathlib.Tactic.Tauto

/-!
# Readers that throw

A reader consumes a prefix of the input its state holds and returns a
value, or throws. `Decides` states both halves of a decoder's contract
against one encoding at once: on the bytes `bs`, followed by anything,
the reader returns `a` and stops where `bs` ends when `good` holds, and
throws an error of kind `E` when it does not. The rules compose: a
sequence of readers decides the concatenation of the encodings, and what
it accepts is the conjunction of what its parts accept. What a decoder
checks is then read off its own text, in the order it checks it.
-/

namespace Common

/-- A reader over the state `σ`: it may throw an `ε`. -/
abbrev Reader (σ ε α : Type) := StateT σ (Except ε) α

namespace Reader

variable {σ β ε α γ τ : Type} {view : σ → List β} {E : ε → Prop}

/-- **What a reader does on one encoding**, whatever follows it. `view`
is the input the state has left. -/
structure Decides (view : σ → List β) (E : ε → Prop) (p : Reader σ ε α) (bs : List β)
    (good : Prop) (a : α) : Prop where
  reads : good → ∀ s t, view s = bs ++ t → ∃ s', p s = .ok (a, s') ∧ view s' = t
  refuses : ¬ good → ∀ s t, view s = bs ++ t → ∃ e, E e ∧ p s = .error e

namespace Decides

variable {p : Reader σ ε α} {f : α → Reader σ ε γ} {bs cs : List β} {good good' : Prop}
variable {a : α} {c : γ}

theorem of_iff (h : Decides view E p bs good a) (hiff : good ↔ good') :
    Decides view E p bs good' a :=
  ⟨fun hg => h.reads (hiff.2 hg), fun hg => h.refuses fun hx => hg (hiff.1 hx)⟩

theorem pure (a : α) : Decides view E (Pure.pure a : Reader σ ε α) [] True a :=
  ⟨fun _ s _ h => ⟨s, rfl, h⟩, fun h => absurd trivial h⟩

/-- **Sequencing.** The second reader is only asked about inputs the
first one accepts. -/
theorem bind (hp : Decides view E p bs good a)
    (hf : good → Decides view E (f a) cs good' c) :
    Decides view E (p >>= f) (bs ++ cs) (good ∧ good') c := by
  constructor
  · rintro ⟨hg, hg'⟩ s t hs
    obtain ⟨s₁, h₁, hv₁⟩ := hp.reads hg s (cs ++ t) (by rw [hs, List.append_assoc])
    obtain ⟨s₂, h₂, hv₂⟩ := (hf hg).reads hg' s₁ t hv₁
    refine ⟨s₂, ?_, hv₂⟩
    change (p s >>= fun r => f r.1 r.2) = _
    rw [h₁]
    exact h₂
  · intro hbad s t hs
    have hs' : view s = bs ++ (cs ++ t) := by rw [hs, List.append_assoc]
    by_cases hg : good
    · obtain ⟨s₁, h₁, hv₁⟩ := hp.reads hg s (cs ++ t) hs'
      obtain ⟨e, he, h₂⟩ := (hf hg).refuses (fun hg' => hbad ⟨hg, hg'⟩) s₁ t hv₁
      refine ⟨e, he, ?_⟩
      change (p s >>= fun r => f r.1 r.2) = _
      rw [h₁]
      exact h₂
    · obtain ⟨e, he, h₁⟩ := hp.refuses hg s (cs ++ t) hs'
      refine ⟨e, he, ?_⟩
      change (p s >>= fun r => f r.1 r.2) = _
      rw [h₁]
      rfl

/-- A check reads nothing: it lets the reader go on, or throws. -/
theorem check {e : ε} (he : E e) (bad : Prop) [Decidable bad] :
    Decides view E (if bad then throw e else Pure.pure () : Reader σ ε Unit) [] (¬ bad) () := by
  constructor
  · intro hb s t hs
    exact ⟨s, by rw [if_neg hb]; rfl, hs⟩
  · intro hb s t _
    exact ⟨e, he, by rw [if_pos (not_not.1 hb)]; rfl⟩

end Decides

/-! ## Counted loops -/

/-- Run the body `n` times, threading what the loop carries. -/
def iterate (body : τ → Reader σ ε τ) : ℕ → τ → Reader σ ε τ
  | 0, st => pure st
  | n + 1, st => body st >>= iterate body n

/-- Every item of the list is admitted after the items before it, the
first of them after `pre`. -/
def Admitted (ok : List α → α → Prop) : List α → List α → Prop
  | _, [] => True
  | pre, x :: xs => ok pre x ∧ Admitted ok (pre ++ [x]) xs

/-- **A counted loop decides the concatenated encodings of its items**,
when its body decides one item's after any list of earlier ones: it
accepts exactly the lists each item of which is admitted in its turn. -/
theorem Decides.iterate {body : τ → Reader σ ε τ} {enc : α → List β} {st : List α → τ}
    {ok : List α → α → Prop}
    (h : ∀ pre x, Decides view E (body (st pre)) (enc x) (ok pre x) (st (pre ++ [x]))) :
    ∀ (xs pre : List α), Decides view E (Reader.iterate body xs.length (st pre))
      (xs.flatMap enc) (Admitted ok pre xs) (st (pre ++ xs)) := by
  intro xs
  induction xs with
  | nil =>
    intro pre
    have hdone : Decides view E (Pure.pure (st pre)) [] True (st pre) := Decides.pure (st pre)
    simpa [Reader.iterate, Admitted] using hdone
  | cons x xs ih =>
    intro pre
    have hrest := ih (pre ++ [x])
    rw [List.append_assoc, List.singleton_append] at hrest
    simpa only [List.length_cons, Reader.iterate, List.flatMap_cons, Admitted] using
      Decides.bind (h pre x) fun _ => hrest

/-- One more item is admitted after all the others. -/
theorem admitted_append_singleton {ok : List α → α → Prop} (xs pre : List α) (x : α) :
    Admitted ok pre (xs ++ [x]) ↔ Admitted ok pre xs ∧ ok (pre ++ xs) x := by
  induction xs generalizing pre with
  | nil => simp [Admitted]
  | cons y xs ih => simp [Admitted, ih, and_assoc]

/-- Two tests admit a list together when each admits it. -/
theorem admitted_and {ok ok' : List α → α → Prop} (xs pre : List α) :
    Admitted (fun before x => ok before x ∧ ok' before x) pre xs ↔
      Admitted ok pre xs ∧ Admitted ok' pre xs := by
  induction xs generalizing pre with
  | nil => simp [Admitted]
  | cons x xs ih =>
    simp only [Admitted, ih]
    tauto

/-- A test of the item alone is passed by every item. -/
theorem admitted_forall {fit : α → Prop} (xs pre : List α) :
    Admitted (fun _ x => fit x) pre xs ↔ ∀ x ∈ xs, fit x := by
  induction xs generalizing pre with
  | nil => simp [Admitted]
  | cons x xs ih => simp [Admitted, ih]

/-- Refusing a key seen before admits exactly the lists without a
repeated key. -/
theorem admitted_nodup {κ : Type} {key : α → κ} (xs pre : List α) :
    Admitted (fun before x => key x ∉ before.map key) pre xs ↔
      (xs.map key).Nodup ∧ ∀ x ∈ xs, key x ∉ pre.map key := by
  induction xs generalizing pre with
  | nil => simp [Admitted]
  | cons x xs ih =>
    simp only [Admitted, ih, List.map_append, List.map_cons, List.map_nil, List.mem_append,
      List.mem_singleton, List.forall_mem_cons, List.nodup_cons, not_or]
    constructor
    · rintro ⟨hpre, hnd, hnew⟩
      refine ⟨⟨fun hmem => ?_, hnd⟩, hpre, fun y hy => (hnew y hy).1⟩
      obtain ⟨y, hy, hxy⟩ := List.mem_map.1 hmem
      exact (hnew y hy).2 hxy
    · rintro ⟨⟨hmem, hnd⟩, hpre, hnew⟩
      refine ⟨hpre, hnd, fun y hy => ⟨hnew y hy, fun hxy => hmem ?_⟩⟩
      exact hxy ▸ List.mem_map_of_mem hy

/-! ## What a reader has consumed

`Decides` starts from an encoding; `Consumes` starts from a reader that
has returned. -/

/-- **What a reader has done when it returns**: it took bytes off the
front of its input that stand in the relation `R` to its value, and takes
them the same way wherever they stand. What it throws is of kind `E`. -/
structure Consumes (view : σ → List β) (E : ε → Prop) (p : Reader σ ε α)
    (R : List β → α → Prop) : Prop where
  returns : ∀ s a s', p s = .ok (a, s') → ∃ bs, R bs a ∧ view s = bs ++ view s' ∧
    ∀ r t, view r = bs ++ t → ∃ r', p r = .ok (a, r') ∧ view r' = t
  throws : ∀ s e, p s = .error e → E e

namespace Consumes

variable {p : Reader σ ε α} {f : α → Reader σ ε γ} {R : List β → α → Prop}
variable {S : List β → γ → Prop}

theorem pure {c : γ} (h : S [] c) : Consumes view E (Pure.pure c : Reader σ ε γ) S := by
  constructor
  · rintro s a s' hs
    obtain ⟨rfl, rfl⟩ : c = a ∧ s = s' := by
      injection hs with hs
      injection hs with h₁ h₂
      exact ⟨h₁, h₂⟩
    exact ⟨[], h, rfl, fun r t hr => ⟨r, rfl, hr⟩⟩
  · intro s e hs
    cases hs

/-- **Sequencing.** The second reader is asked about what follows the
bytes of the first. -/
theorem bind (hp : Consumes view E p R)
    (hf : ∀ bs a, R bs a → Consumes view E (f a) fun cs c => S (bs ++ cs) c) :
    Consumes view E (p >>= f) S := by
  constructor
  · intro s c s' hs
    change (p s >>= fun r => f r.1 r.2) = _ at hs
    cases hp₁ : p s with
    | error e =>
      rw [hp₁] at hs
      cases hs
    | ok r =>
      obtain ⟨a, s₁⟩ := r
      rw [hp₁] at hs
      obtain ⟨bs, hR, hview, hread⟩ := hp.returns s a s₁ hp₁
      obtain ⟨cs, hS, hview', hread'⟩ := (hf bs a hR).returns s₁ c s' hs
      refine ⟨bs ++ cs, hS, by rw [hview, hview', List.append_assoc], fun r t hr => ?_⟩
      obtain ⟨r₁, h₁, hr₁⟩ := hread r (cs ++ t) (by rw [hr, List.append_assoc])
      obtain ⟨r₂, h₂, hr₂⟩ := hread' r₁ t hr₁
      refine ⟨r₂, ?_, hr₂⟩
      change (p r >>= fun r => f r.1 r.2) = _
      rw [h₁]
      exact h₂
  · intro s e hs
    change (p s >>= fun r => f r.1 r.2) = _ at hs
    cases hp₁ : p s with
    | error e' =>
      rw [hp₁] at hs
      cases hs
      exact hp.throws s e hp₁
    | ok r =>
      obtain ⟨a, s₁⟩ := r
      rw [hp₁] at hs
      obtain ⟨bs, hR, -⟩ := hp.returns s a s₁ hp₁
      exact (hf bs a hR).throws s₁ e hs

/-- A check before the rest of a reader. -/
theorem check {e : ε} (he : E e) {bad : Prop} [Decidable bad] {f : Unit → Reader σ ε γ}
    (hf : ¬ bad → Consumes view E (f ()) S) :
    Consumes view E ((if bad then throw e else Pure.pure () : Reader σ ε Unit) >>= f) S := by
  by_cases hbad : bad
  · rw [if_pos hbad]
    refine ⟨fun s a s' hs => ?_, fun s e' hs => ?_⟩
    · cases hs
    · cases hs
      exact he
  · rw [if_neg hbad]
    exact hf hbad

/-- **A counted loop keeps an invariant** of the items read, of the bytes
they took and of what the loop carries. -/
theorem iterate {body : τ → Reader σ ε τ} {I : ℕ → List β → τ → Prop}
    (h : ∀ k bs st, I k bs st →
      Consumes view E (body st) fun cs st' => I (k + 1) (bs ++ cs) st') :
    ∀ n k bs st, I k bs st →
      Consumes view E (Reader.iterate body n st) fun cs st' => I (k + n) (bs ++ cs) st' := by
  intro n
  induction n with
  | zero =>
    intro k bs st hI
    exact pure (by rwa [List.append_nil])
  | succ n ih =>
    intro k bs st hI
    refine (h k bs st hI).bind fun cs st' hI' => ?_
    have hrest := ih (k + 1) (bs ++ cs) st' hI'
    have hcount : k + 1 + n = k + (n + 1) := by omega
    simpa only [List.append_assoc, hcount] using hrest

end Consumes

/-! ## What is long enough -/

/-- **Any `n` items are read**: the reader refuses no input that is long
enough. -/
def Fills (view : σ → List β) (p : Reader σ ε α) (n : ℕ) : Prop :=
  ∀ s, n ≤ (view s).length → ∃ a s', p s = .ok (a, s') ∧ view s' = (view s).drop n

namespace Fills

variable {p : Reader σ ε α} {f : α → Reader σ ε γ} {n m : ℕ}

theorem pure (a : α) : Fills view (Pure.pure a : Reader σ ε α) 0 :=
  fun s _ => ⟨a, s, rfl, List.drop_zero.symm⟩

theorem bind (hp : Fills view p n) (hf : ∀ a, Fills view (f a) m) :
    Fills view (p >>= f) (n + m) := by
  intro s hs
  obtain ⟨a, s₁, h₁, hv₁⟩ := hp s (by omega)
  obtain ⟨c, s₂, h₂, hv₂⟩ := hf a s₁ (by rw [hv₁, List.length_drop]; omega)
  refine ⟨c, s₂, ?_, by rw [hv₂, hv₁, List.drop_drop]⟩
  change (p s >>= fun r => f r.1 r.2) = _
  rw [h₁]
  exact h₂

end Fills

end Reader

end Common
