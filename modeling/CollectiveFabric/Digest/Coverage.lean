import CollectiveFabric.Collective.Model.Descriptor
import CollectiveFabric.Common.Delimited
import CollectiveFabric.Digest.Canonical
import CollectiveFabric.Group.Model.Group
import CollectiveFabric.Topology.Building

/-!
# What the semantic digests cover

The bytes handed to SHA-256 for a descriptor, a group or a topology say
where each field ends: integers have a fixed length, strings and lists
stand behind their counts, optional values behind a flag. Two values with
the same bytes are therefore one, but for the source a descriptor or a
group came from, which is not written. What a built topology keeps beside
the bytes (the device lists of its nodes, the generation stamped on its
links and the next id) follows from what is written.
-/

namespace CollectiveFabric

open Common CanonicalReader
open CanonicalWriter (beBytes u32_buf u64_buf u8_buf boolean_buf string_buf foldl_buf)

/-! ## Fields -/

/-- What a typed read takes tells the value read. -/
theorem CanonicalReader.tells_of_takes {α : Type} {enc : α → List UInt8}
    {read : CanonicalReader → Option α × CanonicalReader} (h : ∀ a, Takes read (enc a) a) :
    Tells enc fun a => a := by
  intro a a' t t' heq
  obtain ⟨r, hr, hrest⟩ := h a (.ofData (enc a ++ t)) t rfl
  obtain ⟨r', hr', hrest'⟩ := h a' (.ofData (enc a ++ t)) t' heq
  obtain ⟨ha, rfl⟩ := Prod.mk.inj (hr.symm.trans hr')
  exact ⟨Option.some.inj ha, hrest.symm.trans hrest'⟩

theorem tells_u64 : Tells (fun v : UInt64 => beBytes v 8) fun v => v := tells_of_takes takes_u64

theorem tells_u8 : Tells (fun v : UInt8 => [v]) fun v => v := tells_of_takes takes_u8

theorem tells_boolean : Tells (fun b : Bool => [if b then (1 : UInt8) else 0]) fun b => b :=
  tells_of_takes takes_boolean

theorem tells_string : Tells (fun s : Bytes => beBytes s.size 8 ++ s.toList) fun s => s :=
  tells_of_takes takes_string

theorem tells_u32 : Tells (fun v : UInt32 => beBytes v.toUInt64 4) fun v => v := by
  refine .of_length (fun v => beBytes_length _ (by decide)) fun v v' h => ?_
  have hlt (v : UInt32) : v.toUInt64.toNat < 256 ^ 4 := by
    rw [UInt32.toNat_toUInt64]
    exact v.toNat_lt
  rw [beBytes_eq_digits _ (by decide), beBytes_eq_digits _ (by decide)] at h
  have hvalue := congrArg BigEndian.value h
  rw [BigEndian.value_digits_of_lt (hlt v), BigEndian.value_digits_of_lt (hlt v'),
    UInt32.toNat_toUInt64, UInt32.toNat_toUInt64] at hvalue
  exact UInt32.toNat_inj.1 hvalue

theorem tells_id {Tag : Type} : Tells (fun i : StrongId Tag => beBytes i.raw 8) fun i => i :=
  (tells_u64.on StrongId.raw).mono fun _ _ => congrArg StrongId.mk

theorem tells_generation {Tag : Type} :
    Tells (fun g : Generation Tag => beBytes g.value 8) fun g => g :=
  (tells_u64.on Generation.value).mono fun _ _ => congrArg Generation.mk

theorem tells_scoped {E : Type} [Enumeration E UInt8] :
    Tells (fun s : Scoped E => [s.raw]) fun s => s :=
  (tells_u8.on Scoped.raw).mono fun _ _ => congrArg Scoped.mk

/-- The counts of vectors are told apart. -/
theorem tells_count ⦃m n : ℕ⦄ ⦃t t' : List UInt8⦄ (hm : m < 2 ^ 64) (hn : n < 2 ^ 64)
    (h : beBytes (UInt64.ofNat m) 8 ++ t = beBytes (UInt64.ofNat n) 8 ++ t') :
    m = n ∧ t = t' := by
  obtain ⟨heq, ht⟩ := tells_u64 h
  have htoNat := congrArg UInt64.toNat heq
  rw [UInt64.toNat_ofNat_of_lt' hm, UInt64.toNat_ofNat_of_lt' hn] at htoNat
  exact ⟨htoNat, ht⟩

/-! ## Descriptors -/

namespace CollectiveDescriptor

/-- What is written before the constraints. -/
def header (d : CollectiveDescriptor) : List UInt8 :=
  beBytes d.collectiveId.raw 8 ++ (beBytes d.groupId.raw 8 ++ (beBytes d.groupGeneration.value 8 ++
    (beBytes d.collectiveGeneration.value 8 ++ ([d.kind.raw] ++ ([d.reduction.raw] ++
      ([d.datatype.raw] ++ (beBytes d.elementCount 8 ++ (beBytes d.root.raw 8 ++
        ([if d.hasRoot then 1 else 0] ++ ([d.inPlace.raw] ++ (beBytes d.requestedBackend.raw 8 ++
          (beBytes d.policyGeneration.value 8 ++ ([d.inputPlacement.raw] ++
            ([d.outputPlacement.raw] ++ ([d.intent.raw] ++
              beBytes (UInt64.ofNat d.constraints.length) 8)))))))))))))))

theorem canonical_eq (d : CollectiveDescriptor) :
    d.canonical = d.header ++ d.constraints.flatMap fun t => [t.raw] := by
  have hloop := @foldl_buf _ (fun w (t : Scoped TransportClass) => w.u8 t.raw) (fun t => [t.raw])
    fun w t => u8_buf w t.raw
  simp only [canonical, hloop, u64_buf, u8_buf, boolean_buf, header, List.nil_append,
    List.append_assoc]

theorem tells_header : Tells header fun d =>
    (d.collectiveId, d.groupId, d.groupGeneration, d.collectiveGeneration, d.kind, d.reduction,
      d.datatype, d.elementCount, d.root, d.hasRoot, d.inPlace, d.requestedBackend,
      d.policyGeneration, d.inputPlacement, d.outputPlacement, d.intent,
      UInt64.ofNat d.constraints.length) :=
  (tells_id.on collectiveId).append <| (tells_id.on groupId).append <|
  (tells_generation.on groupGeneration).append <|
  (tells_generation.on collectiveGeneration).append <| (tells_scoped.on kind).append <|
  (tells_scoped.on reduction).append <| (tells_scoped.on datatype).append <|
  (tells_u64.on elementCount).append <| (tells_id.on root).append <|
  (tells_boolean.on hasRoot).append <| (tells_scoped.on inPlace).append <|
  (tells_id.on requestedBackend).append <| (tells_generation.on policyGeneration).append <|
  (tells_scoped.on inputPlacement).append <| (tells_scoped.on outputPlacement).append <|
  (tells_scoped.on intent).append <|
  tells_u64.on fun d : CollectiveDescriptor => UInt64.ofNat d.constraints.length

/-- **A descriptor's bytes** are its own but for its source. -/
theorem eq_of_canonical {d d' : CollectiveDescriptor} (h : d.canonical = d'.canonical) :
    { d with source := d'.source } = d' := by
  rw [canonical_eq, canonical_eq] at h
  obtain ⟨hheader, hconstraints⟩ := tells_header h
  have hraws : d.constraints.map Scoped.raw = d'.constraints.map Scoped.raw := by
    rwa [← List.map_eq_flatMap, ← List.map_eq_flatMap] at hconstraints
  have hinj : Function.Injective (Scoped.raw (E := TransportClass)) := fun a b hab => by
    cases a
    cases b
    exact congrArg Scoped.mk hab
  have hlist := List.map_injective_iff.2 hinj hraws
  cases d
  cases d'
  simp only [Prod.mk.injEq] at hheader hlist
  simp only [hheader, hlist]

end CollectiveDescriptor

/-! ## Groups -/

namespace CollectiveGroup

/-- What is written before the participants. -/
def header (g : CollectiveGroup) : List UInt8 :=
  beBytes g.id.raw 8 ++ (beBytes g.generation.value 8 ++ (beBytes g.membership.value 8 ++
    (beBytes g.topology.value 8 ++ (beBytes g.health.value 8 ++ (beBytes g.backend.value 8 ++
      [g.lifecycle.raw])))))

/-- The bytes of a participant. -/
def participantBytes (p : Participant) : List UInt8 :=
  beBytes p.id.raw 8 ++ (beBytes p.worker.raw 8 ++ (beBytes p.boot.raw 8 ++
    (beBytes p.node.raw 8 ++ (beBytes p.device.raw 8 ++ (beBytes p.rank.raw 8 ++
      (beBytes p.backendGeneration.value 8 ++ [if p.isKnown then 1 else 0]))))))

theorem canonical_eq (g : CollectiveGroup) :
    g.canonical = g.header ++ (beBytes (UInt64.ofNat g.participants.toList.length) 8 ++
      (g.participants.toList.flatMap participantBytes ++ [])) := by
  have hloop := @foldl_buf _ writeParticipant participantBytes fun w p => by
    simp only [writeParticipant, u64_buf, boolean_buf, participantBytes, List.append_assoc]
  simp only [canonical, hloop, u64_buf, u8_buf, header, Vec.size, List.nil_append,
    List.append_nil, List.append_assoc]

theorem tells_header : Tells header fun g =>
    (g.id, g.generation, g.membership, g.topology, g.health, g.backend, g.lifecycle) :=
  (tells_id.on id).append <| (tells_generation.on generation).append <|
  (tells_generation.on membership).append <| (tells_generation.on topology).append <|
  (tells_generation.on health).append <| (tells_generation.on backend).append <|
  tells_scoped.on lifecycle

theorem tells_participant : Tells participantBytes fun p => p := by
  have hfields := (tells_id.on Participant.id).append <| (tells_id.on Participant.worker).append <|
    (tells_id.on Participant.boot).append <| (tells_id.on Participant.node).append <|
    (tells_id.on Participant.device).append <| (tells_id.on Participant.rank).append <|
    (tells_generation.on Participant.backendGeneration).append <|
    tells_boolean.on Participant.isKnown
  refine hfields.mono fun p p' h => ?_
  cases p
  cases p'
  simp only [Prod.mk.injEq] at h
  simp only [h]

/-- **A group's bytes** are its own but for its source. -/
theorem eq_of_canonical {g g' : CollectiveGroup} (h : g.canonical = g'.canonical) :
    { g with provenance := g'.provenance } = g' := by
  rw [canonical_eq, canonical_eq] at h
  obtain ⟨hheader, hrest⟩ := tells_header h
  have hlist := (tells_participant.counted tells_count g.participants.size_lt
    g'.participants.size_lt hrest).1
  rw [List.map_id', List.map_id'] at hlist
  have hparticipants : g.participants = g'.participants := Vec.ext hlist
  cases g
  cases g'
  simp only [Prod.mk.injEq] at hheader hparticipants
  simp only [hheader, hparticipants]

end CollectiveGroup

/-! ## Topologies -/

namespace Topology

/-- No vector holds 2^63 entries: their places are counted in `ptrdiff_t`. -/
def Sized (t : Topology) : Prop :=
  t.nodes.length < 2 ^ 63 ∧ t.devices.length < 2 ^ 63 ∧ t.links.length < 2 ^ 63

instance (t : Topology) : Decidable t.Sized := inferInstanceAs (Decidable (_ ∧ _))

/-- What is written before the nodes. -/
def header (t : Topology) : List UInt8 :=
  beBytes t.generation.value 8 ++ ([t.provenance.raw] ++ beBytes t.createdUtcNs 8)

/-- The bytes of a node. -/
def nodeBytes (n : NodeEntry) : List UInt8 :=
  beBytes n.id.raw 8 ++ (beBytes n.hostName.size 8 ++ n.hostName.toList)

/-- The bytes of a device. -/
def deviceBytes (d : DeviceEntry) : List UInt8 :=
  beBytes d.id.raw 8 ++ (beBytes d.node.raw 8 ++ ((beBytes d.name.size 8 ++ d.name.toList) ++
    ([if d.isCuda then 1 else 0] ++ (beBytes d.computeCapability.toUInt64 4 ++
      [if d.isKnown then 1 else 0]))))

/-- The bytes of a value that may be absent. -/
def optionalBytes (v : Option UInt64) : List UInt8 :=
  [if v.isSome then 1 else 0] ++ v.elim [] fun v => beBytes v 8

/-- The bytes of a link. -/
def linkBytes (l : TopologyLink) : List UInt8 :=
  beBytes l.sourceNode.raw 8 ++ (beBytes l.destNode.raw 8 ++ (beBytes l.sourceDevice.raw 8 ++
    (beBytes l.destDevice.raw 8 ++ ([l.linkClass.raw] ++
      (optionalBytes l.nominal.bandwidthBytesPerSec ++ (optionalBytes l.nominal.latencyNs ++
        (optionalBytes l.measured.bandwidthBytesPerSec ++ (optionalBytes l.measured.latencyNs ++
          ([l.provenance.raw] ++ ([l.health.raw] ++ [if l.degraded then 1 else 0]))))))))))

theorem writeOptional_buf (w : CanonicalWriter) (v : Option UInt64) :
    (writeOptional w v).buf = w.buf ++ optionalBytes v := by
  cases v with
  | none => rfl
  | some v => exact List.append_assoc ..

theorem canonical_eq (t : Topology) :
    t.canonical = t.header ++
      (beBytes (UInt64.ofNat t.nodes.length) 8 ++ (t.nodes.flatMap nodeBytes ++
        (beBytes (UInt64.ofNat t.devices.length) 8 ++ (t.devices.flatMap deviceBytes ++
          (beBytes (UInt64.ofNat t.links.length) 8 ++ (t.links.flatMap linkBytes ++ [])))))) := by
  have hnodes := @foldl_buf _ writeNode nodeBytes fun w n => by
    simp only [writeNode, u64_buf, string_buf, nodeBytes, List.append_assoc]
  have hdevices := @foldl_buf _ writeDevice deviceBytes fun w d => by
    simp only [writeDevice, u64_buf, u32_buf, boolean_buf, string_buf, deviceBytes,
      List.append_assoc]
  have hlinks := @foldl_buf _ writeLink linkBytes fun w l => by
    simp only [writeLink, u64_buf, u8_buf, boolean_buf, writeOptional_buf, linkBytes,
      List.append_assoc]
  simp only [canonical, hnodes, hdevices, hlinks, u64_buf, u8_buf, header, List.nil_append,
    List.append_nil, List.append_assoc]

theorem tells_header : Tells header fun t => (t.generation, t.provenance, t.createdUtcNs) :=
  (tells_generation.on generation).append <| (tells_scoped.on provenance).append <|
  tells_u64.on createdUtcNs

theorem tells_node : Tells nodeBytes fun n => (n.id, n.hostName) :=
  (tells_id.on NodeEntry.id).append (tells_string.on NodeEntry.hostName)

theorem tells_device : Tells deviceBytes fun d => d := by
  have hfields := (tells_id.on DeviceEntry.id).append <| (tells_id.on DeviceEntry.node).append <|
    (tells_string.on DeviceEntry.name).append <| (tells_boolean.on DeviceEntry.isCuda).append <|
    (tells_u32.on DeviceEntry.computeCapability).append <| tells_boolean.on DeviceEntry.isKnown
  refine hfields.mono fun d d' h => ?_
  cases d
  cases d'
  simp only [Prod.mk.injEq] at h
  simp only [h]

theorem tells_optional : Tells optionalBytes fun v => v := by
  refine (tells_boolean.optional tells_u64).mono fun v v' h => ?_
  rwa [Option.map_id', Option.map_id'] at h

/-- A link's bytes tell all of it but the generation it is stamped with. -/
theorem tells_link : Tells linkBytes fun l => { l with snapshotGeneration := {} } := by
  have hfields := (tells_id.on TopologyLink.sourceNode).append <|
    (tells_id.on TopologyLink.destNode).append <| (tells_id.on TopologyLink.sourceDevice).append <|
    (tells_id.on TopologyLink.destDevice).append <|
    (tells_scoped.on TopologyLink.linkClass).append <|
    (tells_optional.on fun l : TopologyLink => l.nominal.bandwidthBytesPerSec).append <|
    (tells_optional.on fun l : TopologyLink => l.nominal.latencyNs).append <|
    (tells_optional.on fun l : TopologyLink => l.measured.bandwidthBytesPerSec).append <|
    (tells_optional.on fun l : TopologyLink => l.measured.latencyNs).append <|
    (tells_scoped.on TopologyLink.provenance).append <|
    (tells_scoped.on TopologyLink.health).append <| tells_boolean.on TopologyLink.degraded
  refine hfields.mono fun l l' h => ?_
  obtain ⟨_, _, _, _, _, ⟨_, _⟩, ⟨_, _⟩, _, _, _, _⟩ := l
  obtain ⟨_, _, _, _, _, ⟨_, _⟩, ⟨_, _⟩, _, _, _, _⟩ := l'
  simp only [Prod.mk.injEq] at h
  simp only [h]

/-! ## What is not written follows -/

/-- A node of a built topology, from what is written of it. -/
theorem Booked.node_eq {t : Topology} (h : t.Booked) {n : NodeEntry} (hn : n ∈ t.nodes) :
    n = ⟨n.id, n.hostName, (t.devices.filter (·.node = n.id)).map (·.id)⟩ := by
  rw [← h.lists n hn]

/-- Two topologies with the same books, from their bytes. -/
theorem Booked.nodes_eq {t t' : Topology} (h : t.Booked) (h' : t'.Booked)
    (hdevices : t.devices = t'.devices)
    (hnodes : t.nodes.map (fun n => (n.id, n.hostName)) =
      t'.nodes.map fun n => (n.id, n.hostName)) : t.nodes = t'.nodes := by
  let whole (x : NodeId × Bytes) : NodeEntry :=
    ⟨x.1, x.2, (t.devices.filter (·.node = x.1)).map (·.id)⟩
  have hwhole := congrArg (List.map whole) hnodes
  rw [List.map_map, List.map_map] at hwhole
  calc t.nodes = t.nodes.map (whole ∘ fun n => (n.id, n.hostName)) := by
        refine (List.map_id _).symm.trans (List.map_congr_left fun n hn => ?_)
        exact h.node_eq hn
    _ = t'.nodes.map (whole ∘ fun n => (n.id, n.hostName)) := hwhole
    _ = t'.nodes := by
        refine (List.map_congr_left fun n hn => ?_).trans (List.map_id _)
        rw [id_eq, h'.node_eq hn, ← hdevices]
        rfl

/-- The links of a built topology, from what is written of them. -/
theorem Linked.links_eq {t t' : Topology} (h : t.Linked) (h' : t'.Linked)
    (hgeneration : t.generation = t'.generation)
    (hlinks : t.links.map (fun l => { l with snapshotGeneration := {} }) =
      t'.links.map fun l => { l with snapshotGeneration := {} }) : t.links = t'.links := by
  let stamp (l : TopologyLink) : TopologyLink := { l with snapshotGeneration := t.generation }
  have hstamp := congrArg (List.map stamp) hlinks
  rw [List.map_map, List.map_map] at hstamp
  have hsame (ls : List TopologyLink)
      (hls : ∀ l ∈ ls, l.snapshotGeneration = t.generation) :
      ls.map (stamp ∘ fun l => { l with snapshotGeneration := {} }) = ls := by
    refine (List.map_congr_left fun l hl => ?_).trans (List.map_id _)
    simp only [stamp, Function.comp_apply, id_eq, ← hls l hl]
  rwa [hsame _ fun l hl => (h l hl).2,
    hsame _ fun l hl => ((h' l hl).2).trans hgeneration.symm] at hstamp

/-- **A built topology's bytes** are its own. -/
theorem eq_of_canonical {t t' : Topology} (hbuilt : t.Built) (hbuilt' : t'.Built)
    (hsized : t.Sized) (hsized' : t'.Sized) (h : t.canonical = t'.canonical) : t = t' := by
  obtain ⟨hnodes, hdevices, hlinks⟩ := hsized
  obtain ⟨hnodes', hdevices', hlinks'⟩ := hsized'
  have hissued : t.issued < 2 ^ 64 := by
    rw [issued]
    omega
  have hissued' : t'.issued < 2 ^ 64 := by
    rw [issued]
    omega
  have hbooked := hbuilt.booked hissued
  have hbooked' := hbuilt'.booked hissued'
  rw [canonical_eq, canonical_eq] at h
  obtain ⟨hheader, h⟩ := tells_header h
  obtain ⟨hn, h⟩ := tells_node.counted tells_count (by omega) (by omega) h
  obtain ⟨hd, h⟩ := tells_device.counted tells_count (by omega) (by omega) h
  obtain ⟨hl, -⟩ := tells_link.counted tells_count (by omega) (by omega) h
  rw [List.map_id', List.map_id'] at hd
  have hn := hbooked.nodes_eq hbooked' hd hn
  have hnext : t.nextId = t'.nextId := by
    rw [hbooked.next, hbooked'.next, issued, issued, hn, hd]
  simp only [Prod.mk.injEq] at hheader
  have hl := hbuilt.linked.links_eq hbuilt'.linked hheader.1 hl
  cases t
  cases t'
  simp only at hn hd hl hnext hheader
  simp only [hn, hd, hl, hnext, hheader]

end Topology

/-- **The bytes handed to SHA-256** cover every field but the source: for a
descriptor, for a group, and for a topology however it was built. -/
theorem canonical_covers :
    (∀ d d' : CollectiveDescriptor, d.canonical = d'.canonical →
      { d with source := d'.source } = d') ∧
    (∀ g g' : CollectiveGroup, g.canonical = g'.canonical →
      { g with provenance := g'.provenance } = g') ∧
    ∀ t t' : Topology, t.Built → t'.Built → t.Sized → t'.Sized → t.canonical = t'.canonical →
      t = t' :=
  ⟨fun _ _ => CollectiveDescriptor.eq_of_canonical, fun _ _ => CollectiveGroup.eq_of_canonical,
    fun _ _ => Topology.eq_of_canonical⟩

/-- Two descriptors that differ in their source, and two lists of calls,
one with a device that is rejected. -/
theorem canonical_covers_pair :
    { ({ kind := .of .allReduce } : CollectiveDescriptor) with source := { id := ⟨7⟩ } } =
      { kind := .of .allReduce, source := { id := ⟨7⟩ } } ∧
    Run.run Topology.after (.fresh ⟨1⟩ 0) [.addNode ∅, .addDevice ⟨1⟩ ∅ false 0] =
      Run.run Topology.after (.fresh ⟨1⟩ 0)
        [.addDevice ⟨1⟩ ∅ true 120, .addNode ∅, .addDevice ⟨1⟩ ∅ false 0] :=
  ⟨canonical_covers.1 { kind := .of .allReduce }
      { kind := .of .allReduce, source := { id := ⟨7⟩ } } rfl,
    canonical_covers.2.2 _ _ ⟨⟨1⟩, 0, _, rfl⟩ ⟨⟨1⟩, 0, _, rfl⟩ (by decide +kernel)
      (by decide +kernel) (by decide +kernel)⟩

end CollectiveFabric
