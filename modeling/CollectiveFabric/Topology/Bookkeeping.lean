import CollectiveFabric.Common.Best
import CollectiveFabric.Common.Keyed
import CollectiveFabric.Topology.Building

/-!
# The books of a topology

What the lookups over nodes, devices and links answer, against what the
calls have stored: the ids, each node's own list of its devices, the count
of the device pairs on one node and the most local class between two
devices. The count is kept in `size_t`, so it is the number of pairs up to
a multiple of 2^64; and the class depends on the order of the links where
every class at hand is a value that names no enumerator, since all of
these have one rank.
-/

namespace CollectiveFabric

open Common

namespace Topology

/-- The pairs of different devices with `same_node`. -/
def sameNodePairs (t : Topology) : Finset (Finset DeviceId) :=
  ((t.devices.map (·.id)).toFinset.powersetCard 2).filter fun p =>
    ∀ a ∈ p, ∀ b ∈ p, t.sameNode a b = true

/-- What `locality_between` is to answer: the process where both devices
share a node, else a class of least rank over the links that join them,
if any do. -/
def Nearest (t : Topology) (a b : DeviceId) (answer : Option (Scoped LinkClass)) : Prop :=
  if t.sameNode a b then answer = some (.of .intraProcess)
  else
    (answer = none ↔ t.joining a b = []) ∧
      ∀ c, answer = some c → (∃ l ∈ t.joining a b, l.linkClass = c) ∧
        ∀ l ∈ t.joining a b, linkClassRank c ≤ linkClassRank l.linkClass

/-- The class is one whatever the order the links were added in. -/
def AnyOrder (t : Topology) (a b : DeviceId) : Prop :=
  ∀ t' : Topology, t'.Built → t'.devices = t.devices → t'.links.Perm t.links →
    t'.localityBetween a b = t.localityBetween a b

/-- What the books say at every count of pairs and for every class. -/
structure Bookkept (t : Topology) : Prop where
  rejected : ∀ c e, t.call c = .error e → t.after c = t
  distinct : t.ids.Nodup
  known : ∀ i ∈ t.ids, i ≠ 0
  lists : ∀ n ∈ t.nodes, n.devices = (t.devices.map (·.id)).filter (t.nodeOf · = some n.id)
  nearest : ∀ a b, t.Nearest a b (t.localityBetween a b)
  arguments : ∀ a b, t.localityBetween b a = t.localityBetween a b

/-- The books, with the pairs counted exactly and the class independent of
the order of the links between any two devices. -/
def Exact (t : Topology) : Prop :=
  t.Bookkept ∧ t.intraNodeDevicePairs.toNat = t.sameNodePairs.card ∧ ∀ a b, t.AnyOrder a b

/-- Fewer than 2^32 devices on each node, and fewer than 2^64 ids issued. -/
def InRange (t : Topology) : Prop :=
  (∀ n ∈ t.nodes, n.devices.length < 2 ^ 32) ∧ t.issued < 2 ^ 64

instance (t : Topology) : Decidable t.InRange := inferInstanceAs (Decidable ((∀ _ ∈ _, _) ∧ _))

/-- Some link that joins the devices has an enumerator for its class, or
none joins them. -/
def Named (t : Topology) (a b : DeviceId) : Prop :=
  t.joining a b ≠ [] → ∃ l ∈ t.joining a b, l.linkClass.named.isSome = true

variable {t t' : Topology} {a b : DeviceId}

/-! ## Nodes and devices -/

namespace Booked

theorem nodup_ids (h : t.Booked) : t.ids.Nodup := h.ids.nodup_iff.2 List.nodup_range'

theorem nodup_devices (h : t.Booked) : (t.devices.map (·.id)).Nodup := by
  refine List.Nodup.of_map (fun i : DeviceId => i.raw.toNat) ?_
  rw [List.map_map]
  exact (List.nodup_append.1 h.nodup_ids).2.1

theorem nodup_nodes (h : t.Booked) : (t.nodes.map (·.id)).Nodup := by
  refine List.Nodup.of_map (fun i : NodeId => i.raw.toNat) ?_
  rw [List.map_map]
  exact (List.nodup_append.1 h.nodup_ids).1

/-- **A device is on the node it was added to.** -/
theorem nodeOf (h : t.Booked) {d : DeviceEntry} (hd : d ∈ t.devices) :
    t.nodeOf d.id = some d.node := by
  have hfind : t.devices.find? (·.id = d.id) = some d :=
    (Keyed.find?_eq_some_iff h.nodup_devices).2 ⟨hd, rfl⟩
  rw [Topology.nodeOf, hfind]
  rfl

/-- Each node lists the devices on it, in the order they were added. -/
theorem lists_nodeOf (h : t.Booked) {n : NodeEntry} (hn : n ∈ t.nodes) :
    n.devices = (t.devices.map (·.id)).filter (t.nodeOf · = some n.id) := by
  rw [h.lists n hn, List.filter_map]
  congr 1
  refine List.filter_congr fun d hd => ?_
  simp [h.nodeOf hd]

/-! ## The pairs on one node -/

/-- The pairs are those whose devices are on one node. -/
theorem sameNodePairs_eq (h : t.Booked) :
    t.sameNodePairs = Keyed.pairs (t.devices.map (·.id)).toFinset t.nodeOf := by
  refine Finset.filter_congr fun p hp => ?_
  refine forall₂_congr fun a ha => forall₂_congr fun b _ => ?_
  have hmem := List.mem_toFinset.1 ((Finset.mem_powersetCard.1 hp).1 ha)
  obtain ⟨d, hd, rfl⟩ := List.mem_map.1 hmem
  unfold sameNode
  rw [h.nodeOf hd]
  cases t.nodeOf b <;> simp [eq_comm]

/-- **The number of pairs**, node by node. -/
theorem card_sameNodePairs (h : t.Booked) :
    t.sameNodePairs.card = (t.nodes.map fun n => n.devices.length.choose 2).sum := by
  have hkeys : ∀ a ∈ (t.devices.map (·.id)).toFinset,
      t.nodeOf a ∈ (t.nodes.map fun n => some n.id).toFinset := by
    intro a ha
    obtain ⟨d, hd, rfl⟩ := List.mem_map.1 (List.mem_toFinset.1 ha)
    obtain ⟨n, hn, heq⟩ := List.mem_map.1 (hasNode_iff.1 (h.homes d hd))
    rw [h.nodeOf hd, List.mem_toFinset]
    exact List.mem_map.2 ⟨n, hn, by rw [heq]⟩
  have hnodup : (t.nodes.map fun n => some n.id).Nodup := by
    have hmap := h.nodup_nodes.map (Option.some_injective NodeId)
    rwa [List.map_map] at hmap
  rw [h.sameNodePairs_eq, Keyed.card_pairs hkeys, List.sum_toFinset _ hnodup, List.map_map]
  refine congrArg List.sum (List.map_congr_left fun n hn => ?_)
  have hcard : ((t.devices.map (·.id)).toFinset.filter (t.nodeOf · = some n.id)).card =
      n.devices.length := by
    rw [h.lists_nodeOf hn, ← List.toFinset_card_of_nodup (h.nodup_devices.filter _),
      List.toFinset_filter]
    simp
  exact congrArg (Nat.choose · 2) hcard

end Booked

/-- What a node adds to the count, in the arithmetic of `size_t`. -/
theorem toNat_pairs {d : ℕ} (hd : d < 2 ^ 32) :
    (UInt64.ofNat d * (UInt64.ofNat d - 1) / 2).toNat = d.choose 2 := by
  rw [Nat.choose_two_right, UInt64.toNat_div, UInt64.toNat_mul]
  cases d with
  | zero => rfl
  | succ d =>
    have hofNat : (UInt64.ofNat (d + 1)).toNat = d + 1 := by
      rw [UInt64.toNat_ofNat']
      exact Nat.mod_eq_of_lt (by omega)
    have hpred : (UInt64.ofNat (d + 1) - 1).toNat = d := by
      have hone : 1 ≤ UInt64.ofNat (d + 1) := by
        rw [UInt64.le_iff_toNat_le, hofNat]
        exact Nat.le_add_left 1 d
      rw [UInt64.toNat_sub_of_le _ _ hone, hofNat]
      rfl
    have hlt : (d + 1) * d < 2 ^ 64 := by
      calc (d + 1) * d ≤ (d + 1) * 2 ^ 32 := Nat.mul_le_mul_left _ (by omega)
        _ < 2 ^ 32 * 2 ^ 32 := Nat.mul_lt_mul_of_pos_right hd (by decide)
        _ = 2 ^ 64 := by decide
    rw [hofNat, hpred, Nat.mod_eq_of_lt hlt, Nat.add_sub_cancel]
    rfl

/-- **The count**, up to a multiple of 2^64. -/
theorem toNat_intraNodeDevicePairs (h : ∀ n ∈ t.nodes, n.devices.length < 2 ^ 32) :
    t.intraNodeDevicePairs.toNat =
      (t.nodes.map fun n => n.devices.length.choose 2).sum % 2 ^ 64 := by
  have hfold (ns : List NodeEntry) (hns : ∀ n ∈ ns, n.devices.length < 2 ^ 32) (c : UInt64) :
      (ns.foldl (fun count n =>
        let d := UInt64.ofNat n.devices.length
        count + d * (d - 1) / 2) c).toNat =
        (c.toNat + (ns.map fun n => n.devices.length.choose 2).sum) % 2 ^ 64 := by
    induction ns generalizing c with
    | nil => exact (Nat.mod_eq_of_lt c.toNat_lt).symm
    | cons n ns ih =>
      rw [List.foldl_cons, ih fun m hm => hns m (List.mem_cons_of_mem n hm), UInt64.toNat_add,
        toNat_pairs (hns n List.mem_cons_self), Nat.mod_add_mod, List.map_cons, List.sum_cons,
        Nat.add_assoc]
  have hcount := hfold t.nodes h 0
  rwa [UInt64.toNat_zero, Nat.zero_add] at hcount

/-! ## The most local class -/

/-- The comparison of the loop of `locality_between`. -/
def closer (c best : Scoped LinkClass) : Bool := linkClassRank c < linkClassRank best

/-- The loop looks for the best class over the links that join. -/
theorem foldl_keepLocal (t : Topology) (a b : DeviceId) :
    t.links.foldl (keepLocal a b) none =
      best closer ((t.joining a b).map (·.linkClass)) := by
  have hturn : keepLocal a b = fun held l =>
      if l.joins a b then offer closer held l.linkClass else held := by
    funext held l
    unfold keepLocal offer closer
    cases held <;> simp
  rw [best, List.foldl_map, joining, List.foldl_filter, hturn]

theorem sameNode_comm (t : Topology) (a b : DeviceId) : t.sameNode b a = t.sameNode a b := by
  unfold sameNode
  cases t.nodeOf a <;> cases t.nodeOf b <;> simp [eq_comm]

theorem localityBetween_of_not (h : ¬t.sameNode a b = true) :
    t.localityBetween a b = best closer ((t.joining a b).map (·.linkClass)) := by
  rw [localityBetween, if_neg h, foldl_keepLocal]

/-- **The answer is of least rank** over the links that join. -/
theorem nearest_localityBetween (t : Topology) (a b : DeviceId) :
    t.Nearest a b (t.localityBetween a b) := by
  unfold Nearest
  by_cases hsame : t.sameNode a b = true
  · rw [if_pos hsame, localityBetween, if_pos hsame]
  · rw [if_neg hsame, localityBetween_of_not hsame]
    refine ⟨Best.eq_none_iff.trans List.map_eq_nil_iff, fun c hc => ?_⟩
    have hle := @Best.key_le _ _ _ _ _ _ linkClassRank (fun _ _ => decide_eq_true_iff) hc
    exact ⟨List.mem_map.1 (Best.mem hc), fun l hl => hle _ (List.mem_map_of_mem hl)⟩

theorem localityBetween_comm (t : Topology) (a b : DeviceId) :
    t.localityBetween b a = t.localityBetween a b := by
  unfold localityBetween
  rw [sameNode_comm t a b, foldl_keepLocal, foldl_keepLocal, joining_comm t a b]

/-- The classes that name an enumerator have the ranks below 8, each its
own. -/
theorem linkClassRank_lt_iff {c : Scoped LinkClass} :
    linkClassRank c < 8 ↔ c.named.isSome = true := by
  unfold linkClassRank
  split <;> simp_all

theorem linkClass_of_named {c : Scoped LinkClass} {e : LinkClass} (h : c.named = some e) :
    c = .of e :=
  congrArg Scoped.mk (eq_toRaw_of_getElem? (by rintro ⟨⟩ <;> rfl) (by decide) h)

theorem eq_of_linkClassRank_eq {c c' : Scoped LinkClass} (hc : c.named.isSome = true)
    (h : linkClassRank c = linkClassRank c') : c = c' := by
  have hc' : c'.named.isSome = true := linkClassRank_lt_iff.1 (h ▸ linkClassRank_lt_iff.2 hc)
  obtain ⟨e, he⟩ := Option.isSome_iff_exists.1 hc
  obtain ⟨e', he'⟩ := Option.isSome_iff_exists.1 hc'
  obtain rfl := linkClass_of_named he
  obtain rfl := linkClass_of_named he'
  have hee : e = e' := by
    revert h
    cases e <;> cases e' <;> decide
  rw [hee]

/-- **An enumerator among the classes fixes the answer** for any order of
the links. -/
theorem Named.anyOrder (h : t.Named a b) : t.AnyOrder a b := by
  intro t' _ hdevices hperm
  have hsame : t'.sameNode a b = t.sameNode a b := by
    unfold sameNode nodeOf
    rw [hdevices]
  by_cases hnode : t.sameNode a b = true
  · rw [localityBetween, localityBetween, if_pos hnode, if_pos (hsame.trans hnode)]
  have hjoins := joining_perm hperm a b
  have hnearest := nearest_localityBetween t a b
  have hnearest' := nearest_localityBetween t' a b
  rw [Nearest, if_neg hnode] at hnearest
  rw [Nearest, if_neg (hsame ▸ hnode)] at hnearest'
  cases hc : t.localityBetween a b with
  | none =>
    rw [hnearest.1.1 hc] at hjoins
    exact hnearest'.1.2 hjoins.eq_nil
  | some c =>
    cases hc' : t'.localityBetween a b with
    | none =>
      rw [hnearest'.1.1 hc'] at hjoins
      rw [hnearest.1.2 hjoins.symm.eq_nil] at hc
      cases hc
    | some c' =>
      obtain ⟨⟨l, hl, rfl⟩, hle⟩ := hnearest.2 c hc
      obtain ⟨⟨l', hl', rfl⟩, hle'⟩ := hnearest'.2 c' hc'
      -- both are of least rank, and that rank is an enumerator's
      have hrank : linkClassRank l.linkClass = linkClassRank l'.linkClass :=
        le_antisymm (hle l' (hjoins.mem_iff.1 hl')) (hle' l (hjoins.mem_iff.2 hl))
      obtain ⟨k, hk, hnamed⟩ := h (List.ne_nil_of_mem hl)
      have hlt := (hle k hk).trans_lt (linkClassRank_lt_iff.2 hnamed)
      rw [eq_of_linkClassRank_eq (linkClassRank_lt_iff.1 hlt) hrank]

/-! ## All together -/

theorem Booked.bookkept (h : t.Booked) : t.Bookkept where
  rejected c e he := by rw [after, he]
  distinct := h.nodup_ids
  known i hi := Nat.ne_of_gt (h.mem_ids_iff.1 hi).1
  lists _ := h.lists_nodeOf
  nearest := nearest_localityBetween t
  arguments := localityBetween_comm t

/-- **The books of every topology built**: the pairs are counted up to a
multiple of 2^64, and the class is one for any order of the links where
an enumerator is among the classes. -/
theorem bookkept_built (h : t.Built) (hrange : t.InRange) :
    t.Bookkept ∧ t.intraNodeDevicePairs.toNat = t.sameNodePairs.card % 2 ^ 64 ∧
      ∀ a b, t.Named a b → t.AnyOrder a b := by
  have hbooked := h.booked hrange.2
  refine ⟨hbooked.bookkept, ?_, fun a b => Named.anyOrder⟩
  rw [toNat_intraNodeDevicePairs hrange.1, hbooked.card_sameNodePairs]

/-- Two nodes with a device each, joined by two links whose classes name
no enumerator. -/
def unnamed : List Call :=
  let l : TopologyLink :=
    { sourceNode := ⟨1⟩, destNode := ⟨2⟩, sourceDevice := ⟨3⟩, destDevice := ⟨4⟩ }
  [.addNode ∅, .addNode ∅, .addDevice ⟨1⟩ ∅ false 0, .addDevice ⟨2⟩ ∅ false 0,
    .addLink { l with linkClass := ⟨200⟩ }, .addLink { l with linkClass := ⟨201⟩ }]

theorem bookkept_built_unnamed :
    let t := Run.run after (fresh ⟨1⟩ 0) unnamed
    t.Bookkept ∧ t.intraNodeDevicePairs.toNat = t.sameNodePairs.card % 2 ^ 64 ∧
      ∀ a b, t.Named a b → t.AnyOrder a b :=
  bookkept_built ⟨⟨1⟩, 0, unnamed, rfl⟩ (by decide +kernel)

/-- The first of the two links gives the class, in either order. -/
theorem not_anyOrder_unnamed : ¬(Run.run after (fresh ⟨1⟩ 0) unnamed).AnyOrder ⟨3⟩ ⟨4⟩ := by
  intro h
  have hbuilt : (Run.run after (fresh ⟨1⟩ 0) unnamed).Built := ⟨⟨1⟩, 0, unnamed, rfl⟩
  have hswapped := h _ (hbuilt.perm (List.reverse_perm _)) rfl (List.reverse_perm _)
  exact absurd hswapped (by decide +kernel)

/-! ## Three nodes full of devices -/

/-- Each node with the number of its devices. -/
def census (t : Topology) : List (NodeId × ℕ) := t.nodes.map fun n => (n.id, n.devices.length)

theorem census_withDevice {node : NodeId} {name : Bytes} {isCuda : Bool} {cc : UInt32} :
    (t.withDevice node name isCuda cc).census =
      t.census.map fun e => if e.1 = node then (e.1, e.2 + 1) else e := by
  simp only [census, withDevice, List.map_map]
  refine List.map_congr_left fun n _ => ?_
  simp only [Function.comp_apply]
  split_ifs <;> simp

/-- **`k` devices more on one node.** -/
theorem run_addDevices {node : NodeId} (h : t.hasNode node = true) (k : ℕ) :
    let t' := Run.run after t (List.replicate k (.addDevice node ∅ false 0))
    t'.census = (t.census.map fun e => if e.1 = node then (e.1, e.2 + k) else e) ∧
      t'.issued = t.issued + k ∧ ∀ n, t.hasNode n = true → t'.hasNode n = true := by
  induction k generalizing t with
  | zero => simp [Run.run]
  | succ k ih =>
    have hnode : (t.withDevice node ∅ false 0).hasNode node = true := (hasNode_withDevice node).2 h
    obtain ⟨hcensus, hissued, hnodes⟩ := ih hnode
    simp only [List.replicate_succ, Run.run, List.foldl_cons, after_addDevice h]
    refine ⟨?_, ?_, fun n hn => hnodes n ((hasNode_withDevice n).2 hn)⟩
    · refine hcensus.trans ?_
      rw [census_withDevice, List.map_map]
      refine List.map_congr_left fun e _ => ?_
      by_cases he : e.1 = node
      · simp [he, Nat.add_right_comm, Nat.add_assoc]
      · simp [he]
    · refine hissued.trans ?_
      rw [issued_withDevice]
      omega

/-- Three nodes, with `n` devices on each. -/
def crowd (n : ℕ) : List Call :=
  [.addNode ∅, .addNode ∅, .addNode ∅] ++ (List.replicate n (.addDevice ⟨1⟩ ∅ false 0) ++
    (List.replicate n (.addDevice ⟨2⟩ ∅ false 0) ++ List.replicate n (.addDevice ⟨3⟩ ∅ false 0)))

theorem census_crowd (n : ℕ) :
    (Run.run after (fresh ⟨1⟩ 0) (crowd n)).census = [(⟨1⟩, n), (⟨2⟩, n), (⟨3⟩, n)] ∧
      (Run.run after (fresh ⟨1⟩ 0) (crowd n)).issued = 3 + 3 * n := by
  have hnodes (i : NodeId) (hi : i ∈ [⟨1⟩, ⟨2⟩, ⟨3⟩]) :
      (Run.run after (fresh ⟨1⟩ 0) [.addNode ∅, .addNode ∅, .addNode ∅]).hasNode i = true := by
    revert i
    decide +kernel
  obtain ⟨hcensus₁, hissued₁, hnodes₁⟩ := run_addDevices (hnodes ⟨1⟩ (by decide)) n
  obtain ⟨hcensus₂, hissued₂, hnodes₂⟩ :=
    run_addDevices (hnodes₁ _ (hnodes ⟨2⟩ (by decide))) n
  obtain ⟨hcensus₃, hissued₃, -⟩ :=
    run_addDevices (hnodes₂ _ (hnodes₁ _ (hnodes ⟨3⟩ (by decide)))) n
  rw [hcensus₂, hcensus₁] at hcensus₃
  rw [hissued₂, hissued₁] at hissued₃
  rw [crowd, Run.run_append, Run.run_append, Run.run_append]
  constructor
  · exact hcensus₃.trans (by simp [census, Run.run, fresh, addNode])
  · refine hissued₃.trans ?_
    change 3 + n + n + n = _
    omega

theorem built_crowd (n : ℕ) : (Run.run after (fresh ⟨1⟩ 0) (crowd n)).Built :=
  ⟨⟨1⟩, 0, crowd n, rfl⟩

theorem lengths_crowd (n : ℕ) :
    (Run.run after (fresh ⟨1⟩ 0) (crowd n)).nodes.map (fun m => m.devices.length) = [n, n, n] := by
  have hmap := congrArg (List.map Prod.snd) (census_crowd n).1
  rwa [census, List.map_map] at hmap

theorem inRange_crowd {n : ℕ} (hn : n < 2 ^ 32) :
    (Run.run after (fresh ⟨1⟩ 0) (crowd n)).InRange := by
  constructor
  · intro m hm
    have hmem : m.devices.length ∈ [n, n, n] := lengths_crowd n ▸ List.mem_map_of_mem hm
    simp only [List.mem_cons, List.not_mem_nil, or_false, or_self] at hmem
    omega
  · rw [(census_crowd n).2]
    omega

/-- Three nodes can have more pairs than a `size_t` can count. -/
theorem pairs_crowd {n : ℕ} (hn : n < 2 ^ 32) (hpairs : 2 ^ 64 ≤ 3 * n.choose 2) :
    (Run.run after (fresh ⟨1⟩ 0) (crowd n)).intraNodeDevicePairs.toNat ≠
      (Run.run after (fresh ⟨1⟩ 0) (crowd n)).sameNodePairs.card := by
  intro heq
  have hcard := ((built_crowd n).booked (inRange_crowd hn).2).card_sameNodePairs
  have hchoose := congrArg (List.map (Nat.choose · 2)) (lengths_crowd n)
  rw [List.map_map] at hchoose
  have hsum := hcard.trans (congrArg List.sum hchoose)
  simp only [List.map_cons, List.map_nil, List.sum_cons, List.sum_nil] at hsum
  have hlt := (Run.run after (fresh ⟨1⟩ 0) (crowd n)).intraNodeDevicePairs.toNat_lt
  omega

/-- **Neither is exact**: the pairs of three nodes with 2^32 - 1 devices
each, and the class between two devices whose links' classes name no
enumerator. -/
theorem not_exact :
    ((Run.run after (fresh ⟨1⟩ 0) (crowd (2 ^ 32 - 1))).Built ∧
      (Run.run after (fresh ⟨1⟩ 0) (crowd (2 ^ 32 - 1))).InRange ∧
      ¬(Run.run after (fresh ⟨1⟩ 0) (crowd (2 ^ 32 - 1))).Exact) ∧
    (Run.run after (fresh ⟨1⟩ 0) unnamed).Built ∧
      (Run.run after (fresh ⟨1⟩ 0) unnamed).InRange ∧
      ¬(Run.run after (fresh ⟨1⟩ 0) unnamed).Exact := by
  have hpairs : 2 ^ 64 ≤ 3 * (2 ^ 32 - 1).choose 2 := by
    rw [Nat.choose_two_right]
    decide
  exact ⟨⟨built_crowd _, inRange_crowd (by decide),
      fun h => pairs_crowd (by decide) hpairs h.2.1⟩,
    ⟨⟨1⟩, 0, unnamed, rfl⟩, by decide +kernel, fun h => not_anyOrder_unnamed (h.2.2 _ _)⟩

end Topology

end CollectiveFabric
