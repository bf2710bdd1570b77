import Mathlib.Algebra.BigOperators.Group.Finset.Basic
import Mathlib.Data.Finset.Powerset
import Mathlib.Data.Nat.Choose.Basic

/-!
# Items under a key

Where the items of a list have different keys, a search by key finds
exactly what has it. Where they share keys, the pairs whose two items have
the same key are counted key by key.
-/

namespace Common

namespace Keyed

variable {α κ : Type} [DecidableEq κ]

/-- **Where keys are different**, a search by key finds what has it. -/
theorem find?_eq_some_iff {f : α → κ} {k : κ} {xs : List α} (hnodup : (xs.map f).Nodup) {x : α} :
    xs.find? (fun y => f y = k) = some x ↔ x ∈ xs ∧ f x = k := by
  induction xs with
  | nil => simp
  | cons y xs ih =>
    rw [List.map_cons, List.nodup_cons] at hnodup
    obtain ⟨hy, hrest⟩ := hnodup
    by_cases hk : f y = k
    · rw [List.find?_cons_of_pos (by simpa using hk), Option.some.injEq]
      constructor
      · rintro rfl
        exact ⟨List.mem_cons_self, hk⟩
      · rintro ⟨hx, hxk⟩
        rcases List.mem_cons.1 hx with rfl | hx
        · rfl
        · exact absurd (List.mem_map.2 ⟨x, hx, hxk.trans hk.symm⟩) hy
    · rw [List.find?_cons_of_neg (by simpa using hk), ih hrest]
      refine and_congr_left fun hxk => ⟨List.mem_cons_of_mem y, fun hx => ?_⟩
      exact (List.mem_cons.1 hx).resolve_left fun heq => hk (heq ▸ hxk)

variable [DecidableEq α]

/-- The pairs of different items with the same key. -/
def pairs (s : Finset α) (f : α → κ) : Finset (Finset α) :=
  (s.powersetCard 2).filter fun p => ∀ a ∈ p, ∀ b ∈ p, f a = f b

omit [DecidableEq α] in
/-- The pairs under one key. -/
private theorem mem_powersetCard_filter {s p : Finset α} {f : α → κ} {k : κ} :
    p ∈ (s.filter (f · = k)).powersetCard 2 ↔
      p ∈ s.powersetCard 2 ∧ ∀ a ∈ p, f a = k := by
  simp only [Finset.mem_powersetCard, Finset.subset_iff, Finset.mem_filter]
  constructor
  · exact fun ⟨hsub, hcard⟩ => ⟨⟨fun a ha => (hsub ha).1, hcard⟩, fun a ha => (hsub ha).2⟩
  · exact fun ⟨⟨hsub, hcard⟩, hkey⟩ => ⟨fun a ha => ⟨hsub ha, hkey a ha⟩, hcard⟩

/-- **The pairs with the same key, counted key by key.** -/
theorem card_pairs {s : Finset α} {f : α → κ} {ks : Finset κ} (h : ∀ a ∈ s, f a ∈ ks) :
    (pairs s f).card = ∑ k ∈ ks, (s.filter (f · = k)).card.choose 2 := by
  have hsplit : pairs s f = ks.biUnion fun k => (s.filter (f · = k)).powersetCard 2 := by
    ext p
    simp only [pairs, Finset.mem_filter, Finset.mem_biUnion, mem_powersetCard_filter]
    constructor
    · rintro ⟨hp, hsame⟩
      obtain ⟨hsub, hcard⟩ := Finset.mem_powersetCard.1 hp
      obtain ⟨a, ha⟩ := Finset.card_pos.1 (hcard ▸ Nat.two_pos)
      exact ⟨f a, h a (hsub ha), hp, fun b hb => hsame b hb a ha⟩
    · rintro ⟨k, -, hp, hkey⟩
      exact ⟨hp, fun a ha b hb => (hkey a ha).trans (hkey b hb).symm⟩
  rw [hsplit, Finset.card_biUnion]
  · exact Finset.sum_congr rfl fun k _ => Finset.card_powersetCard 2 _
  · -- a pair has one key
    intro k _ k' _ hne
    refine Finset.disjoint_left.2 fun p hp hp' => ?_
    rw [mem_powersetCard_filter] at hp hp'
    obtain ⟨a, ha⟩ := Finset.card_pos.1 ((Finset.mem_powersetCard.1 hp.1).2 ▸ Nat.two_pos)
    exact hne ((hp.2 a ha).symm.trans (hp'.2 a ha))

end Keyed

end Common
