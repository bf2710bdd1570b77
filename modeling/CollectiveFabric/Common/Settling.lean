import CollectiveFabric.Common.Run
import Mathlib.Order.WellFounded
import Mathlib.Tactic.SplitIfs

/-!
# Runs that come to rest

A measure that no step raises bounds the number of steps that lower it.
Where it is well-founded and every event that is due either lowers it or
changes nothing, there is no end of due events that each change something:
the system comes to a quiet state, in which none of them does.
-/

namespace Common

namespace Run

variable {σ ε : Type}

/-- The number of steps of the run at which `Q` holds. -/
def count (step : σ → ε → σ) (Q : σ → ε → Prop) [∀ s ev, Decidable (Q s ev)] : σ → List ε → ℕ
  | _, [] => 0
  | s, ev :: evs => (if Q s ev then 1 else 0) + count step Q (step s ev) evs

/-- `s'` comes of `s` by an event that is due and changes something. -/
def Progress (step : σ → ε → σ) (Due : σ → ε → Prop) (s' s : σ) : Prop :=
  ∃ ev, Due s ev ∧ s' = step s ev ∧ s' ≠ s

/-- Nothing that is due changes anything. -/
def Quiet (step : σ → ε → σ) (Due : σ → ε → Prop) (s : σ) : Prop :=
  ∀ ev, Due s ev → step s ev = s

variable {step : σ → ε → σ} {I : σ → Prop} {Q Due : σ → ε → Prop} {s : σ}

/-- **What each counted step lowers** bounds their number, if no step
raises it. -/
theorem count_le [∀ s ev, Decidable (Q s ev)] (f : σ → ℕ) (hI : ∀ s ev, I s → I (step s ev))
    (hle : ∀ s ev, I s → f (step s ev) ≤ f s)
    (hlt : ∀ s ev, I s → Q s ev → f (step s ev) < f s) (hs : I s) (evs : List ε) :
    count step Q s evs ≤ f s := by
  induction evs generalizing s with
  | nil => exact Nat.zero_le _
  | cons ev evs ih =>
    have hrest : count step Q (step s ev) evs ≤ f (step s ev) := ih (hI s ev hs)
    have hnext := hle s ev hs
    show (if Q s ev then 1 else 0) + count step Q (step s ev) evs ≤ f s
    split_ifs with hQ
    · have hlower := hlt s ev hs hQ
      omega
    · omega

/-- **The rule of measures.** Where each due event lowers a well-founded
measure or changes nothing, progress comes to an end. -/
theorem acc_progress {α : Type} [Preorder α] [WellFoundedLT α] (μ : σ → α)
    (hI : ∀ s ev, I s → Due s ev → I (step s ev))
    (hμ : ∀ s ev, I s → Due s ev → step s ev = s ∨ μ (step s ev) < μ s) (hs : I s) :
    Acc (Progress step Due) s := by
  refine (InvImage.wf μ wellFounded_lt).induction (C := fun s => I s → Acc (Progress step Due) s) s
    (fun s ih hs => ?_) hs
  refine Acc.intro s fun s' ⟨ev, hdue, heq, hne⟩ => ?_
  subst heq
  exact ih _ ((hμ s ev hs hdue).resolve_left hne) (hI s ev hs hdue)

/-- **A quiet state is reached**, by due events alone. -/
theorem exists_quiet (h : Acc (Progress step Due) s) :
    ∃ evs, Along step Due s evs ∧ Quiet step Due (run step s evs) := by
  induction h with
  | intro s _ ih =>
    by_cases hquiet : Quiet step Due s
    · exact ⟨[], trivial, hquiet⟩
    · obtain ⟨ev, hev⟩ := not_forall.1 hquiet
      obtain ⟨hdue, hne⟩ := Classical.not_imp.1 hev
      obtain ⟨evs, halong, hlast⟩ := ih (step s ev) ⟨ev, hdue, rfl, hne⟩
      exact ⟨ev :: evs, ⟨hdue, halong⟩, hlast⟩

end Run

end Common
