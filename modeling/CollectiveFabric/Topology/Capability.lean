import CollectiveFabric.Topology.Building

/-!
# The link between two devices

Any number of links may join two devices. `link_between` answers from the
first one stored, whatever is known of the others, so it prefers measured
data and is the same whatever the order of the links exactly where all
that join the two devices are equally known.
-/

namespace CollectiveFabric

open Common

/-- What a lookup answers from: a measured capability, a nominal one, a
link of which neither is known, or no link. -/
inductive Known
  | measured | nominal | empty | absent
deriving DecidableEq

/-- What is known of a link. -/
def TopologyLink.known (l : TopologyLink) : Known :=
  if l.measured.isKnown then .measured
  else if l.nominal.isKnown then .nominal
  else .empty

namespace Topology

/-- Which of its branches `link_between` takes. -/
def answers (t : Topology) (a b : DeviceId) : Known :=
  ((t.links.find? (·.joins a b)).map (·.known)).getD .absent

/-- A known measured capability is preferred to a known nominal one, this
to none. -/
def Preferred (t : Topology) (a b : DeviceId) : Prop :=
  if ∃ l ∈ t.joining a b, l.measured.isKnown = true then
    t.answers a b = .measured ∧
      ∃ l ∈ t.joining a b, l.measured.isKnown = true ∧ t.linkBetween a b = some l.measured
  else if ∃ l ∈ t.joining a b, l.nominal.isKnown = true then
    t.answers a b = .nominal ∧
      ∃ l ∈ t.joining a b, l.nominal.isKnown = true ∧ t.linkBetween a b = some l.nominal
  else if t.joining a b ≠ [] then t.answers a b = .empty ∧ t.linkBetween a b = some {}
  else t.answers a b = .absent ∧ t.linkBetween a b = none

/-- The answer is of one kind whatever the order of the arguments, and in
every topology built with the same links in another order. -/
def Orderless (t : Topology) (a b : DeviceId) : Prop :=
  t.answers b a = t.answers a b ∧
    ∀ t' : Topology, t'.Built → t'.links.Perm t.links → t'.answers a b = t.answers a b

/-- All links that join the two devices are equally known. -/
def Alike (t : Topology) (a b : DeviceId) : Prop :=
  ∀ l ∈ t.joining a b, ∀ l' ∈ t.joining a b, l.known = l'.known

instance (t : Topology) (a b : DeviceId) : Decidable (t.Alike a b) :=
  inferInstanceAs (Decidable (∀ _ ∈ _, ∀ _ ∈ _, _))

variable {t t' : Topology} {a b : DeviceId} {l : TopologyLink}

/-! ## What is known of a link -/

theorem known_eq_measured : l.known = .measured ↔ l.measured.isKnown = true := by
  unfold TopologyLink.known
  split_ifs <;> simp [*]

theorem known_eq_nominal :
    l.known = .nominal ↔ l.measured.isKnown = false ∧ l.nominal.isKnown = true := by
  unfold TopologyLink.known
  split_ifs <;> simp [*]

theorem known_eq_empty :
    l.known = .empty ↔ l.measured.isKnown = false ∧ l.nominal.isKnown = false := by
  unfold TopologyLink.known
  split_ifs <;> simp [*]

theorem known_ne_absent : l.known ≠ .absent := by
  unfold TopologyLink.known
  split_ifs <;> decide

/-! ## The first link that joins -/

/-- The first joining link gives the answer. -/
theorem answers_of_joining {ls : List TopologyLink} (h : t.joining a b = l :: ls) :
    t.answers a b = l.known ∧ t.linkBetween a b = some l.capability := by
  have hfind : t.links.find? (·.joins a b) = some l := by
    rw [← List.head?_filter]
    exact congrArg List.head? h
  simp only [answers, linkBetween, hfind, Option.map_some, Option.getD_some, and_self]

theorem answers_of_joining_nil (h : t.joining a b = []) :
    t.answers a b = .absent ∧ t.linkBetween a b = none := by
  have hfind : t.links.find? (·.joins a b) = none := by
    rw [← List.head?_filter]
    exact congrArg List.head? h
  simp only [answers, linkBetween, hfind, Option.map_none, Option.getD_none, and_self]

/-- The order of the arguments never matters. -/
theorem answers_comm (t : Topology) (a b : DeviceId) : t.answers b a = t.answers a b := by
  simp only [answers, joins_comm _ a b]

/-! ## Links equally known -/

/-- Where all are alike, the first one's branch is the preferred one. -/
theorem Alike.preferred (h : t.Alike a b) : t.Preferred a b := by
  cases hjoining : t.joining a b with
  | nil =>
    obtain ⟨hanswers, hlink⟩ := answers_of_joining_nil hjoining
    simp [Preferred, hjoining, hanswers, hlink]
  | cons l ls =>
    obtain ⟨hanswers, hlink⟩ := answers_of_joining hjoining
    have hmem : l ∈ t.joining a b := hjoining ▸ List.mem_cons_self
    have hall {k : Known} (hk : l.known = k) : ∀ l' ∈ t.joining a b, l'.known = k :=
      fun l' hl' => (h l' hl' l hmem).trans hk
    have hne : t.joining a b ≠ [] := by rw [hjoining]; exact List.cons_ne_nil _ _
    unfold Preferred
    cases hk : l.known with
    | measured =>
      have hmeasured := known_eq_measured.1 hk
      rw [if_pos ⟨l, hmem, hmeasured⟩]
      refine ⟨hanswers.trans hk, l, hmem, hmeasured, ?_⟩
      rw [hlink, TopologyLink.capability, if_pos hmeasured]
    | nominal =>
      obtain ⟨hmeasured, hnominal⟩ := known_eq_nominal.1 hk
      have hnone : ¬∃ l' ∈ t.joining a b, l'.measured.isKnown = true := by
        rintro ⟨l', hl', hl''⟩
        rw [(known_eq_nominal.1 (hall hk l' hl')).1] at hl''
        cases hl''
      rw [if_neg hnone, if_pos ⟨l, hmem, hnominal⟩]
      refine ⟨hanswers.trans hk, l, hmem, hnominal, ?_⟩
      rw [hlink, TopologyLink.capability, hmeasured, if_neg Bool.false_ne_true, if_pos hnominal]
    | empty =>
      obtain ⟨hmeasured, hnominal⟩ := known_eq_empty.1 hk
      have hnone : ¬∃ l' ∈ t.joining a b, l'.measured.isKnown = true := by
        rintro ⟨l', hl', hl''⟩
        rw [(known_eq_empty.1 (hall hk l' hl')).1] at hl''
        cases hl''
      have hnone' : ¬∃ l' ∈ t.joining a b, l'.nominal.isKnown = true := by
        rintro ⟨l', hl', hl''⟩
        rw [(known_eq_empty.1 (hall hk l' hl')).2] at hl''
        cases hl''
      rw [if_neg hnone, if_neg hnone', if_pos hne]
      refine ⟨hanswers.trans hk, ?_⟩
      rw [hlink, TopologyLink.capability, hmeasured, hnominal, if_neg Bool.false_ne_true,
        if_neg Bool.false_ne_true]
    | absent => exact absurd hk known_ne_absent

theorem Alike.orderless (h : t.Alike a b) : t.Orderless a b := by
  refine ⟨answers_comm t a b, fun t' _ hperm => ?_⟩
  have hjoins : (t'.joining a b).Perm (t.joining a b) := joining_perm hperm a b
  cases hjoining : t'.joining a b with
  | nil =>
    have hnil : t.joining a b = [] := (hjoining ▸ hjoins).symm.eq_nil
    rw [(answers_of_joining_nil hjoining).1, (answers_of_joining_nil hnil).1]
  | cons l' ls' =>
    cases hjoining' : t.joining a b with
    | nil =>
      rw [hjoining, hjoining'] at hjoins
      exact absurd hjoins.eq_nil (List.cons_ne_nil _ _)
    | cons l ls =>
      rw [(answers_of_joining hjoining).1, (answers_of_joining hjoining').1]
      refine h l' (hjoins.mem_iff.1 ?_) l ?_
      · rw [hjoining]
        exact List.mem_cons_self
      · rw [hjoining']
        exact List.mem_cons_self

/-- Built with a joining link first, a topology answers from it. -/
theorem Built.answers_first (h : t.Built) (hl : l ∈ t.joining a b) :
    ∃ t' : Topology, t'.Built ∧ t'.links.Perm t.links ∧ t'.answers a b = l.known := by
  obtain ⟨hmem, hjoins⟩ := List.mem_filter.1 hl
  obtain ⟨before, later, hlinks⟩ := List.append_of_mem hmem
  have hperm : (l :: (before ++ later)).Perm t.links := by
    rw [hlinks]
    exact List.perm_middle.symm
  refine ⟨t.relinked (l :: (before ++ later)), h.perm hperm, hperm, ?_⟩
  have hhead : (l :: (before ++ later)).filter (·.joins a b) =
      l :: (before ++ later).filter (·.joins a b) := List.filter_cons_of_pos hjoins
  exact (answers_of_joining (t := t.relinked (l :: (before ++ later))) hhead).1

/-- **The lookup prefers measured data and ignores the order of the links
exactly where all that join the devices are equally known.** -/
theorem preferred_orderless_iff (h : t.Built) (a b : DeviceId) :
    t.Preferred a b ∧ t.Orderless a b ↔ t.Alike a b := by
  refine ⟨fun ⟨_, _, horder⟩ l hl l' hl' => ?_, fun h => ⟨h.preferred, h.orderless⟩⟩
  obtain ⟨t₁, hbuilt₁, hperm₁, hfirst₁⟩ := h.answers_first hl
  obtain ⟨t₂, hbuilt₂, hperm₂, hfirst₂⟩ := h.answers_first hl'
  calc l.known = t₁.answers a b := hfirst₁.symm
    _ = t.answers a b := horder t₁ hbuilt₁ hperm₁
    _ = t₂.answers a b := (horder t₂ hbuilt₂ hperm₂).symm
    _ = l'.known := hfirst₂

/-- Two devices on one node, joined by two links: one on which `first` was
measured, then one measured at a billion bytes a second. -/
def parallel (first : LinkCapability) : List Call :=
  let l : TopologyLink :=
    { sourceNode := ⟨1⟩, destNode := ⟨1⟩, sourceDevice := ⟨2⟩, destDevice := ⟨3⟩ }
  [.addNode ∅, .addDevice ⟨1⟩ ∅ false 0, .addDevice ⟨1⟩ ∅ false 0,
    .addLink { l with measured := first },
    .addLink { l with measured := { bandwidthBytesPerSec := some 1000000000 } }]

/-- Two links with a known measured capability are alike. -/
theorem preferred_orderless_parallel :
    let t := Run.run after (fresh ⟨1⟩ 0) (parallel { latencyNs := some 700 })
    t.Preferred ⟨2⟩ ⟨3⟩ ∧ t.Orderless ⟨2⟩ ⟨3⟩ :=
  (preferred_orderless_iff ⟨⟨1⟩, 0, parallel { latencyNs := some 700 }, rfl⟩ ⟨2⟩ ⟨3⟩).2
    (by decide +kernel)

/-- A link of which nothing is known answers for the measured one added
after it. -/
theorem not_preferred_parallel :
    let t := Run.run after (fresh ⟨1⟩ 0) (parallel {})
    ¬t.Preferred ⟨2⟩ ⟨3⟩ ∧ t.linkBetween ⟨2⟩ ⟨3⟩ = some {} ∧
      ∃ l ∈ t.joining ⟨2⟩ ⟨3⟩, l.measured.isKnown = true := by
  intro t
  have hmeasured : ∃ l ∈ t.joining ⟨2⟩ ⟨3⟩, l.measured.isKnown = true := by decide +kernel
  refine ⟨fun h => ?_, by decide +kernel, hmeasured⟩
  rw [Preferred, if_pos hmeasured] at h
  exact absurd h.1 (by decide +kernel)

end Topology

end CollectiveFabric
