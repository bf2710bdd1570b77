import CollectiveFabric.Common.Run
import CollectiveFabric.Topology.Model.Topology
import Mathlib.Data.List.Induction
import Mathlib.Data.List.Range

/-!
# Topologies as they are built

A topology is built by calls, each of which is taken or rejected; a
rejected one changes nothing. Whatever the calls, each link stored names
nodes and devices the topology has and carries its generation, and the
same links could have been stored in any other order. While fewer than
2^64 ids have been issued they are all different, and each node lists the
devices added to it.
-/

namespace CollectiveFabric

open Common

namespace Topology

/-- A call that builds. -/
inductive Call where
  | setProvenance (p : Scoped TopologyProvenance)
  | addNode (hostName : Bytes)
  | addDevice (node : NodeId) (name : Bytes) (isCuda : Bool) (cc : UInt32)
  | addLink (link : TopologyLink)

/-- What the call makes of the topology, or throws. -/
def call (t : Topology) : Call → Except Error Topology
  | .setProvenance p => .ok (t.setProvenance p)
  | .addNode hostName => .ok (t.addNode hostName).2
  | .addDevice node name isCuda cc => (t.addDevice node name isCuda cc).map (·.2)
  | .addLink link => t.addLink link

/-- The topology after the call: what throws does so before it writes. -/
def after (t : Topology) (c : Call) : Topology :=
  match t.call c with
  | .ok t' => t'
  | .error _ => t

/-- The topology some calls build. -/
def Built (t : Topology) : Prop :=
  ∃ generation wallNs calls, Run.run after (fresh generation wallNs) calls = t

/-- The link names nodes and devices the topology has. -/
def Admits (t : Topology) (l : TopologyLink) : Prop :=
  (t.hasNode l.sourceNode = true ∧ t.hasNode l.destNode = true) ∧
    t.hasDevice l.sourceDevice = true ∧ t.hasDevice l.destDevice = true

instance (t : Topology) (l : TopologyLink) : Decidable (t.Admits l) :=
  inferInstanceAs (Decidable (_ ∧ _))

/-- The topology with one more link, stamped with its generation. -/
def withLink (t : Topology) (l : TopologyLink) : Topology :=
  { t with links := t.links ++ [{ l with snapshotGeneration := t.generation }] }

/-- The topology with one more device on a node. -/
def withDevice (t : Topology) (node : NodeId) (name : Bytes) (isCuda : Bool) (cc : UInt32) :
    Topology :=
  { t with
    nextId := t.nextId + 1
    devices := t.devices ++ [⟨⟨t.nextId⟩, node, name, isCuda, cc, true⟩]
    nodes := t.nodes.map fun n =>
      if n.id = node then { n with devices := n.devices ++ [⟨t.nextId⟩] } else n }

/-- **What a call can do.** -/
inductive Step (t : Topology) : Topology → Prop
  | rejected : Step t t
  | provenance (p : Scoped TopologyProvenance) : Step t (t.setProvenance p)
  | node (hostName : Bytes) : Step t (t.addNode hostName).2
  | device (node : NodeId) (name : Bytes) (isCuda : Bool) (cc : UInt32)
      (h : t.hasNode node = true) : Step t (t.withDevice node name isCuda cc)
  | link (l : TopologyLink) (h : t.Admits l) : Step t (t.withLink l)

variable {t t' : Topology} {l : TopologyLink} {node : NodeId} {name : Bytes} {isCuda : Bool}
  {cc : UInt32}

/-! ## What one call does -/

@[simp] theorem after_setProvenance (t : Topology) (p : Scoped TopologyProvenance) :
    t.after (.setProvenance p) = t.setProvenance p := rfl

@[simp] theorem after_addNode (t : Topology) (hostName : Bytes) :
    t.after (.addNode hostName) = (t.addNode hostName).2 := rfl

theorem after_addDevice (h : t.hasNode node = true) :
    t.after (.addDevice node name isCuda cc) = t.withDevice node name isCuda cc := by
  simp only [after, call, addDevice, if_pos h]
  rfl

theorem after_addDevice_of_not (h : ¬t.hasNode node = true) :
    t.after (.addDevice node name isCuda cc) = t := by
  simp only [after, call, addDevice, if_neg h]
  rfl

theorem after_addLink (h : t.Admits l) : t.after (.addLink l) = t.withLink l := by
  obtain ⟨⟨hsource, hdest⟩, hsource', hdest'⟩ := h
  simp [after, call, addLink, hsource, hdest, hsource', hdest', withLink]

theorem after_addLink_of_not (h : ¬t.Admits l) : t.after (.addLink l) = t := by
  have hrejected : ∃ e, t.addLink l = .error e := by
    unfold addLink
    split_ifs with hnode hdevice
    · exact ⟨_, rfl⟩
    · exact ⟨_, rfl⟩
    · refine absurd ⟨?_, ?_⟩ h
      · simpa using hnode
      · simpa using hdevice
  obtain ⟨e, he⟩ := hrejected
  simp only [after, call, he]

theorem step_after (t : Topology) (c : Call) : Step t (t.after c) := by
  cases c with
  | setProvenance p => exact .provenance p
  | addNode hostName => exact .node hostName
  | addDevice node name isCuda cc =>
    by_cases h : t.hasNode node = true
    · exact after_addDevice h ▸ .device node name isCuda cc h
    · rw [after_addDevice_of_not h]
      exact .rejected
  | addLink l =>
    by_cases h : t.Admits l
    · exact after_addLink h ▸ .link l h
    · rw [after_addLink_of_not h]
      exact .rejected

/-- **The rule of invariants** of building. -/
theorem Built.rule {I : Topology → Prop} (hfresh : ∀ generation wallNs, I (fresh generation wallNs))
    (hstep : ∀ t t', I t → Step t t' → I t') (h : t.Built) : I t := by
  obtain ⟨generation, wallNs, calls, rfl⟩ := h
  exact (Run.throughout_of_step (H := fun _ _ => True)
    (fun t c hI _ => hstep t _ hI (step_after t c)) (hfresh generation wallNs)
    (Run.along_of_forall (fun _ _ => trivial) calls)).last

theorem built_fresh (generation : TopologyGeneration) (wallNs : UInt64) :
    (fresh generation wallNs).Built := ⟨generation, wallNs, [], rfl⟩

theorem Built.after (h : t.Built) (c : Call) : (t.after c).Built := by
  obtain ⟨generation, wallNs, calls, rfl⟩ := h
  exact ⟨generation, wallNs, calls ++ [c], Run.run_append calls [c]⟩

/-! ## The nodes and devices a topology has -/

/-- Adding a device leaves the nodes' ids. -/
theorem map_id_withDevice {α : Type} (f : NodeId → α) :
    (t.withDevice node name isCuda cc).nodes.map (fun n => f n.id) =
      t.nodes.map fun n => f n.id := by
  simp only [withDevice, List.map_map]
  refine List.map_congr_left fun n _ => ?_
  simp only [Function.comp_apply]
  split_ifs <;> rfl

theorem hasNode_iff {n : NodeId} : t.hasNode n = true ↔ n ∈ t.nodes.map (·.id) := by
  simp only [hasNode, List.any_eq_true, decide_eq_true_eq, List.mem_map]

theorem hasDevice_iff {d : DeviceId} : t.hasDevice d = true ↔ d ∈ t.devices.map (·.id) := by
  simp only [hasDevice, List.any_eq_true, decide_eq_true_eq, List.mem_map]

theorem hasNode_withDevice (n : NodeId) :
    (t.withDevice node name isCuda cc).hasNode n = true ↔ t.hasNode n = true := by
  rw [hasNode_iff, hasNode_iff, map_id_withDevice fun i => i]

/-- No call takes a node away. -/
theorem Step.hasNode (h : Step t t') {n : NodeId} (hn : t.hasNode n = true) :
    t'.hasNode n = true := by
  cases h with
  | rejected | provenance | link => exact hn
  | node =>
    rw [hasNode_iff] at hn ⊢
    simp only [addNode, List.map_append, List.mem_append]
    exact .inl hn
  | device => exact (hasNode_withDevice n).2 hn

/-- Nor a device. -/
theorem Step.hasDevice (h : Step t t') {d : DeviceId} (hd : t.hasDevice d = true) :
    t'.hasDevice d = true := by
  cases h with
  | rejected | provenance | node | link => exact hd
  | device =>
    rw [hasDevice_iff] at hd ⊢
    simp only [withDevice, List.map_append, List.mem_append]
    exact .inl hd

theorem Step.admits (h : Step t t') (hl : t.Admits l) : t'.Admits l :=
  ⟨⟨h.hasNode hl.1.1, h.hasNode hl.1.2⟩, h.hasDevice hl.2.1, h.hasDevice hl.2.2⟩

/-! ## The links stored -/

/-- Each link stored was admitted and stamped. -/
def Linked (t : Topology) : Prop :=
  ∀ l ∈ t.links, t.Admits l ∧ l.snapshotGeneration = t.generation

theorem Linked.step (ht : t.Linked) (h : Step t t') : t'.Linked := by
  intro l' hl
  have hadmits {l : TopologyLink} : t.Admits l → t'.Admits l := h.admits
  cases h with
  | rejected => exact ht l' hl
  | provenance | node | device => exact ⟨hadmits (ht l' hl).1, (ht l' hl).2⟩
  | link l hlink =>
    rcases List.mem_append.1 hl with hl | hl
    · exact ⟨hadmits (ht l' hl).1, (ht l' hl).2⟩
    · obtain rfl := List.mem_singleton.1 hl
      exact ⟨hadmits hlink, rfl⟩

/-- **Every link stored** names nodes and devices the topology has, and
its generation. -/
theorem Built.linked (h : t.Built) : t.Linked :=
  h.rule (fun _ _ _ hl => absurd hl List.not_mem_nil) fun _ _ => Linked.step

/-- The same topology with other links. -/
def relinked (t : Topology) (ls : List TopologyLink) : Topology := { t with links := ls }

/-- Built without any of its links. -/
theorem Built.unlinked (h : t.Built) : (t.relinked []).Built := by
  refine h.rule (I := fun t => (t.relinked []).Built) built_fresh fun t t' ht hstep => ?_
  cases hstep with
  | rejected | link => exact ht
  | provenance p => exact ht.after (.setProvenance p)
  | node hostName => exact ht.after (.addNode hostName)
  | device node name isCuda cc hnode =>
    have hnode' : (t.relinked []).hasNode node = true := hnode
    have := ht.after (.addDevice node name isCuda cc)
    rwa [after_addDevice hnode'] at this

/-- **Its links could be any it admits**, in any order. -/
theorem Built.relinked (h : t.Built) {ls : List TopologyLink}
    (hls : ∀ l ∈ ls, t.Admits l ∧ l.snapshotGeneration = t.generation) :
    (t.relinked ls).Built := by
  induction ls using List.reverseRecOn with
  | nil => exact h.unlinked
  | append_singleton ls l ih =>
    have hbuilt := ih fun l' hl' => hls l' (List.mem_append_left _ hl')
    obtain ⟨hadmits, hstamp⟩ := hls l (List.mem_append_right _ (List.mem_singleton_self l))
    have hadmits' : (t.relinked ls).Admits l := hadmits
    have hafter := hbuilt.after (.addLink l)
    rw [after_addLink hadmits'] at hafter
    have hstamped : { l with snapshotGeneration := t.generation } = l := by rw [← hstamp]
    rwa [withLink, show (t.relinked ls).generation = t.generation from rfl, hstamped] at hafter

/-- The links of a built topology may be stored in any order. -/
theorem Built.perm (h : t.Built) {ls : List TopologyLink} (hperm : ls.Perm t.links) :
    (t.relinked ls).Built :=
  h.relinked fun l hl => h.linked l (hperm.mem_iff.1 hl)

/-- The links that join two devices, in the order they were added. -/
def joining (t : Topology) (a b : DeviceId) : List TopologyLink :=
  t.links.filter (·.joins a b)

theorem joins_comm (l : TopologyLink) (a b : DeviceId) : l.joins b a = l.joins a b :=
  Bool.or_comm _ _

theorem joining_comm (t : Topology) (a b : DeviceId) : t.joining b a = t.joining a b := by
  simp only [joining, joins_comm _ a b]

theorem joining_perm (h : t'.links.Perm t.links) (a b : DeviceId) :
    (t'.joining a b).Perm (t.joining a b) := h.filter _

/-! ## The ids issued -/

/-- How many ids have been issued. -/
def issued (t : Topology) : ℕ := t.nodes.length + t.devices.length

/-- The ids the nodes and the devices hold. -/
def ids (t : Topology) : List ℕ :=
  t.nodes.map (fun n => n.id.raw.toNat) ++ t.devices.map fun d => d.id.raw.toNat

/-- The books of a topology that has not run out of ids: it holds the ids
from 1 on, each once, each device is on a node it has, and each node
lists the devices added to it. -/
structure Booked (t : Topology) : Prop where
  next : t.nextId = UInt64.ofNat (1 + t.issued)
  ids : t.ids.Perm (List.range' 1 t.issued)
  homes : ∀ d ∈ t.devices, t.hasNode d.node = true
  lists : ∀ n ∈ t.nodes, n.devices = (t.devices.filter (·.node = n.id)).map (·.id)

theorem booked_fresh (generation : TopologyGeneration) (wallNs : UInt64) :
    (fresh generation wallNs).Booked :=
  ⟨rfl, .refl [], fun _ h => absurd h List.not_mem_nil, fun _ h => absurd h List.not_mem_nil⟩

@[simp] theorem issued_addNode (hostName : Bytes) :
    (t.addNode hostName).2.issued = t.issued + 1 := by
  simp only [issued, addNode, List.length_append, List.length_singleton]
  omega

@[simp] theorem issued_withDevice :
    (t.withDevice node name isCuda cc).issued = t.issued + 1 := by
  simp only [issued, withDevice, List.length_map, List.length_append, List.length_singleton]
  omega

/-- No call takes an id back. -/
theorem Step.issued_le (h : Step t t') : t.issued ≤ t'.issued := by
  cases h with
  | rejected | provenance | link => exact le_rfl
  | node hostName => exact (issued_addNode hostName).symm ▸ Nat.le_succ _
  | device => exact issued_withDevice.symm ▸ Nat.le_succ _

namespace Booked

/-- The id issued next. -/
theorem toNat_next (h : t.Booked) (hlt : t.issued + 1 < 2 ^ 64) :
    t.nextId.toNat = 1 + t.issued := by
  rw [h.next, UInt64.toNat_ofNat']
  exact Nat.mod_eq_of_lt (by omega)

theorem next_succ (h : t.Booked) : t.nextId + 1 = UInt64.ofNat (1 + (t.issued + 1)) := by
  rw [h.next, ← Nat.add_assoc, UInt64.ofNat_add (1 + t.issued) 1]
  rfl

/-- The ids held are at least 1 and at most as many as were issued. -/
theorem mem_ids_iff (h : t.Booked) {i : ℕ} : i ∈ t.ids ↔ 1 ≤ i ∧ i < 1 + t.issued := by
  rw [h.ids.mem_iff, List.mem_range'_1]

/-- No node has the id issued next. -/
theorem not_hasNode_next (h : t.Booked) (hlt : t.issued + 1 < 2 ^ 64) :
    ¬t.hasNode ⟨t.nextId⟩ = true := by
  rw [hasNode_iff, List.mem_map]
  rintro ⟨n, hn, heq⟩
  have hmem : n.id.raw.toNat ∈ t.ids := List.mem_append_left _ (List.mem_map_of_mem hn)
  have := (h.mem_ids_iff.1 hmem).2
  rw [heq, h.toNat_next hlt] at this
  omega

/-- One more id: what was held, and the id issued. -/
theorem perm_succ (h : t.Booked) (hlt : t.issued + 1 < 2 ^ 64) :
    (t.ids ++ [t.nextId.toNat]).Perm (List.range' 1 (t.issued + 1)) := by
  rw [List.range'_1_concat, h.toNat_next hlt]
  exact h.ids.append_right _

theorem addNode (h : t.Booked) (hostName : Bytes) (hlt : t.issued + 1 < 2 ^ 64) :
    (t.addNode hostName).2.Booked where
  next := by
    rw [issued_addNode]
    exact h.next_succ
  ids := by
    rw [issued_addNode]
    refine List.Perm.trans ?_ (h.perm_succ hlt)
    simp only [Topology.ids, Topology.addNode, List.map_append, List.append_assoc]
    exact List.perm_append_comm.append_left _
  homes d hd := (Step.node hostName).hasNode (h.homes d hd)
  lists n hn := by
    rcases List.mem_append.1 hn with hn | hn
    · exact h.lists n hn
    · -- the node is new: no device is on it yet
      obtain rfl := List.mem_singleton.1 hn
      have hnone : t.devices.filter (fun d => decide (d.node = ⟨t.nextId⟩)) = [] := by
        refine List.filter_eq_nil_iff.2 fun d hd => ?_
        have hne : d.node ≠ ⟨t.nextId⟩ := fun heq =>
          h.not_hasNode_next hlt (heq ▸ h.homes d hd)
        simpa using hne
      change [] = (t.devices.filter fun d => decide (d.node = ⟨t.nextId⟩)).map _
      rw [hnone]
      rfl

theorem withDevice (h : t.Booked) (hnode : t.hasNode node = true) (hlt : t.issued + 1 < 2 ^ 64) :
    (t.withDevice node name isCuda cc).Booked where
  next := by
    rw [issued_withDevice]
    exact h.next_succ
  ids := by
    rw [issued_withDevice]
    refine List.Perm.trans ?_ (h.perm_succ hlt)
    simp only [Topology.ids]
    rw [map_id_withDevice fun i => i.raw.toNat]
    simp only [Topology.withDevice, List.map_append, ← List.append_assoc]
    exact .refl _
  homes d hd := by
    rw [hasNode_withDevice]
    rcases List.mem_append.1 hd with hd | hd
    · exact h.homes d hd
    · obtain rfl := List.mem_singleton.1 hd
      exact hnode
  lists n hn := by
    obtain ⟨n, hn', rfl⟩ := List.mem_map.1 hn
    simp only [Topology.withDevice, List.filter_append, List.map_append]
    have hlist := h.lists n hn'
    by_cases heq : n.id = node
    · rw [if_pos heq]
      simp [hlist, heq]
    · rw [if_neg heq, List.filter_cons_of_neg (by simpa using Ne.symm heq), List.filter_nil,
        List.map_nil, List.append_nil]
      exact hlist

/-- **A call keeps the books** while ids are left. -/
theorem step (h : t.Booked) (hstep : Step t t') (hlt : t'.issued < 2 ^ 64) : t'.Booked := by
  cases hstep with
  | rejected => exact h
  | provenance | link => exact ⟨h.next, h.ids, h.homes, h.lists⟩
  | node hostName => exact h.addNode hostName (issued_addNode hostName ▸ hlt)
  | device node name isCuda cc hnode => exact h.withDevice hnode (issued_withDevice ▸ hlt)

end Booked

/-- **The books of a built topology** that has issued fewer than 2^64 ids. -/
theorem Built.booked (h : t.Built) (hlt : t.issued < 2 ^ 64) : t.Booked := by
  obtain ⟨generation, wallNs, calls, rfl⟩ := h
  have halong := Run.along_of_le_run issued (fun t c => (step_after t c).issued_le)
    (Nat.le_sub_one_of_lt hlt)
  exact (Run.throughout_of_step (fun t c ht hle => ht.step (step_after t c) (by omega))
    (booked_fresh generation wallNs) halong).last

end Topology

end CollectiveFabric
