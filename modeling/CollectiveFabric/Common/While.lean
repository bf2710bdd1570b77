import Mathlib.Data.List.Basic

/-!
# While loops

`Exits` is the meaning of a loop that tests its condition before each turn
of its body: the states it can be left in, and none where it never ends.
An invariant of the turns that makes the condition hold rules an exit out,
and what the loop cut off after a number of tests finds is its exit.
-/

namespace Common

namespace While

variable {σ : Type} (c : σ → Prop) (body : σ → σ)

/-- **The loop, entered in one state, is left in the other.** -/
inductive Exits : σ → σ → Prop
  /-- The condition fails. -/
  | done {s : σ} : ¬ c s → Exits s s
  /-- The condition holds, and one turn leads to the rest of the loop. -/
  | turn {s t : σ} : c s → Exits (body s) t → Exits s t

variable {c body} {s t t' : σ}

namespace Exits

/-- **A loop is left in one state only.** -/
theorem unique (h : Exits c body s t) (h' : Exits c body s t') : t = t' := by
  induction h with
  | done hc =>
    cases h' with
    | done _ => rfl
    | turn hc' _ => exact absurd hc' hc
  | turn hc _ ih =>
    cases h' with
    | done hc' => exact absurd hc hc'
    | turn _ hrest => exact ih hrest

/-- **No exit.** A property every turn keeps and that makes the condition
hold keeps the loop going. -/
theorem false_of_invariant {I : σ → Prop} (hstep : ∀ s, I s → c s ∧ I (body s)) (hs : I s)
    (h : Exits c body s t) : False := by
  induction h with
  | done hc => exact hc (hstep _ hs).1
  | turn _ _ ih => exact ih (hstep _ hs).2

end Exits

variable [DecidablePred c]

/-- The loop cut off: it gives up where `fuel` tests have all held. -/
def upTo (c : σ → Prop) [DecidablePred c] (body : σ → σ) : ℕ → σ → Option σ
  | 0, _ => none
  | fuel + 1, s => if c s then upTo c body fuel (body s) else some s

/-- **What the loop cut off finds** is where the loop is left. -/
theorem exits_of_upTo {fuel : ℕ} (h : upTo c body fuel s = some t) : Exits c body s t := by
  induction fuel generalizing s with
  | zero => cases h
  | succ fuel ih =>
    rw [upTo] at h
    split_ifs at h with hc
    · exact .turn hc (ih h)
    · obtain rfl := Option.some.inj h
      exact .done hc

end While

end Common
