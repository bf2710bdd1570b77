import CollectiveFabric.Topology.Building

/-!
# The endpoints of a link

A link names each of its endpoints twice, by node and by device.
`add_link` looks for each of the four in its own list and never asks
whether a device is on the node named with it, so the two agree in every
link stored exactly as long as they agree in every link admitted.
-/

namespace CollectiveFabric

open Common

namespace Topology

/-- The link's devices are on the nodes it names. -/
def Places (t : Topology) (l : TopologyLink) : Prop :=
  t.nodeOf l.sourceDevice = some l.sourceNode ∧ t.nodeOf l.destDevice = some l.destNode

instance (t : Topology) (l : TopologyLink) : Decidable (t.Places l) :=
  inferInstanceAs (Decidable (_ ∧ _))

/-- Every link stored has its endpoints consistent. -/
def Consistent (t : Topology) : Prop := ∀ l ∈ t.links, t.Places l

instance (t : Topology) : Decidable t.Consistent := inferInstanceAs (Decidable (∀ _ ∈ _, _))

/-- A link that is admitted has its devices on the nodes it names. -/
def Agrees (t : Topology) : Call → Prop
  | .addLink l => t.Admits l → t.Places l
  | _ => True

variable {t t' : Topology} {l : TopologyLink}

/-- A device stays on its node. -/
theorem Step.nodeOf (h : Step t t') {d : DeviceId} {n : NodeId} (hd : t.nodeOf d = some n) :
    t'.nodeOf d = some n := by
  cases h with
  | rejected | provenance | node | link => exact hd
  | device =>
    obtain ⟨e, he, rfl⟩ := Option.map_eq_some_iff.1 hd
    simp only [Topology.nodeOf, withDevice, List.find?_append, he, Option.some_or, Option.map_some]

theorem Step.places (h : Step t t') (hl : t.Places l) : t'.Places l :=
  ⟨h.nodeOf hl.1, h.nodeOf hl.2⟩

/-- What is stored stays consistent until a link is added. -/
theorem Consistent.of_links (h : t.Consistent) (hstep : Step t t') (hlinks : t'.links = t.links) :
    t'.Consistent := fun l hl => hstep.places (h l (hlinks ▸ hl))

theorem consistent_withLink_iff (h : t.Consistent) : (t.withLink l).Consistent ↔ t.Places l := by
  constructor
  · exact fun hall => hall { l with snapshotGeneration := t.generation }
      (List.mem_append_right _ List.mem_cons_self)
  · intro hl l' hl'
    rcases List.mem_append.1 hl' with hl' | hl'
    · exact h l' hl'
    · obtain rfl := List.mem_singleton.1 hl'
      exact hl

/-- **A call keeps the endpoints consistent exactly if it agrees.** -/
theorem consistent_after_iff (h : t.Consistent) (c : Call) :
    (t.after c).Consistent ↔ t.Agrees c := by
  have hstep := step_after t c
  cases c with
  | setProvenance p => exact iff_of_true (h.of_links hstep rfl) trivial
  | addNode hostName => exact iff_of_true (h.of_links hstep rfl) trivial
  | addDevice node name isCuda cc =>
    refine iff_of_true (h.of_links hstep ?_) trivial
    by_cases hnode : t.hasNode node = true
    · rw [after_addDevice hnode]
      rfl
    · rw [after_addDevice_of_not hnode]
  | addLink l =>
    by_cases hl : t.Admits l
    · rw [after_addLink hl, consistent_withLink_iff h]
      exact ⟨fun h _ => h, fun h => h hl⟩
    · rw [after_addLink_of_not hl]
      exact iff_of_true h fun hl' => absurd hl' hl

/-- **The endpoints are consistent in every topology some calls pass
exactly if every link admitted agrees.** -/
theorem consistent_throughout_iff (generation : TopologyGeneration) (wallNs : UInt64)
    (calls : List Call) :
    Run.Throughout after Consistent (fresh generation wallNs) calls ↔
      Run.Along after Agrees (fresh generation wallNs) calls :=
  Run.throughout_iff_along (I := fun _ => True) (H := fun _ _ => True) (P := Consistent)
    (Q := Agrees) (fun _ _ _ _ => trivial) (fun _ c _ _ h => consistent_after_iff h c) trivial
    (fun _ hl => absurd hl List.not_mem_nil) (Run.along_of_forall (fun _ _ => trivial) calls)

/-- Nodes 1 and 2, device 3 on node 2, and a link of that device that
names node 1. -/
def misplaced : List Call :=
  [.addNode ∅, .addNode ∅, .addDevice ⟨2⟩ ∅ false 0,
    .addLink { sourceNode := ⟨1⟩, destNode := ⟨2⟩, sourceDevice := ⟨3⟩, destDevice := ⟨3⟩ }]

/-- The link is stored. -/
theorem not_consistent_misplaced :
    ¬Run.Throughout after Consistent (fresh ⟨1⟩ 0) misplaced ∧
      (Run.run after (fresh ⟨1⟩ 0) misplaced).links.length = 1 ∧
      (Run.run after (fresh ⟨1⟩ 0) misplaced).nodeOf ⟨3⟩ = some ⟨2⟩ := by
  refine ⟨fun h => ?_, by decide +kernel, by decide +kernel⟩
  exact absurd h.last (by decide +kernel)

end Topology

end CollectiveFabric
