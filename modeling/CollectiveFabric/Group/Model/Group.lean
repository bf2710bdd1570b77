import CollectiveFabric.Digest.Model.Canonical
import CollectiveFabric.Digest.Model.Sha256

/-!
# Groups and their construction

A group is immutable and its ranks are dense: the participant in place
`i` has rank `i`. A group built with no participants yet is one, and the
builder returns no other. `GroupBuilder.build` assigns ranks in the order
of the participants' identities when some participant has none, sorts by
rank otherwise, and validates.
-/

namespace CollectiveFabric

structure Participant where
  id : ParticipantId := {}
  worker : WorkerId := {}
  boot : WorkerBootId := {}
  node : NodeId := {}
  device : DeviceId := {}
  rank : RankId := {}
  backendGeneration : BackendGeneration := {}
  isKnown : Bool := true
deriving DecidableEq

/-- The participant in place `i` has rank `i`. -/
def DenseRanks (participants : List Participant) : Prop :=
  ∀ (i : ℕ) (p : Participant), participants[i]? = some p → p.rank = ⟨UInt64.ofNat i⟩

structure CollectiveGroup where
  id : CollectiveGroupId
  generation : GroupGeneration
  membership : MembershipGeneration
  topology : TopologyGeneration
  health : HealthGeneration
  backend : BackendGeneration
  lifecycle : Scoped GroupLifecycle
  provenance : Source
  participants : Vec Participant
  dense : DenseRanks participants.toList

namespace CollectiveGroup

/-- `rank_count`. -/
def rankCount (g : CollectiveGroup) : UInt64 := g.participants.size

/-- `participant_at`. -/
def participantAt (g : CollectiveGroup) (r : RankId) : Option Participant :=
  g.participants.toList.find? (·.rank = r)

/-- `participant`. -/
def participant (g : CollectiveGroup) (id : ParticipantId) : Option Participant :=
  g.participants.toList.find? (·.id = id)

/-- `rank_of`. -/
def rankOf (g : CollectiveGroup) (id : ParticipantId) : Option RankId :=
  (g.participant id).map (·.rank)

/-- `is_live_authority`. -/
def isLiveAuthority (g : CollectiveGroup) (boot : WorkerBootId) : Bool :=
  g.participants.toList.any (·.boot = boot)

/-- One turn of the participant loop of `digest`. -/
def writeParticipant (w : CanonicalWriter) (p : Participant) : CanonicalWriter :=
  (((((((w.u64 p.id.raw).u64 p.worker.raw).u64 p.boot.raw).u64 p.node.raw).u64
    p.device.raw).u64 p.rank.raw).u64 p.backendGeneration.value).boolean p.isKnown

/-- What `digest` writes. -/
def canonical (g : CollectiveGroup) : List UInt8 :=
  let w : CanonicalWriter := {}
  let w := ((w.u64 g.id.raw).u64 g.generation.value).u64 g.membership.value
  let w := ((w.u64 g.topology.value).u64 g.health.value).u64 g.backend.value
  let w := (w.u8 g.lifecycle.raw).u64 g.participants.size
  (g.participants.toList.foldl writeParticipant w).buf

/-- `digest`. -/
def digest (g : CollectiveGroup) : Sha256.Digest := Sha256.digest g.canonical

end CollectiveGroup

/-! ## The builder -/

structure GroupBuilder where
  id : CollectiveGroupId
  generation : GroupGeneration
  membership : MembershipGeneration := ⟨1⟩
  topology : TopologyGeneration := ⟨1⟩
  health : HealthGeneration := ⟨0⟩
  backend : BackendGeneration := ⟨0⟩
  lifecycle : Scoped GroupLifecycle := .of .creating
  provenance : Source := {}
  participants : Vec Participant := ∅

namespace GroupBuilder

/-- `add_participant`. -/
def addParticipant (b : GroupBuilder) (id : ParticipantId) (worker : WorkerId)
    (boot : WorkerBootId) (node : NodeId) (device : DeviceId) (backendGen : BackendGeneration)
    (rank : RankId := {}) : GroupBuilder :=
  let p : Participant := ⟨id, worker, boot, node, device, rank, backendGen, true⟩
  { b with participants := .ofList (b.participants.toList ++ [p]) }

/-- The ranks of `build`: by participant identity when one is missing,
the given ones otherwise. -/
def assignRanks (participants : List Participant) : List Participant :=
  if participants.any (·.rank.isNull) then
    (participants.mergeSort fun a b => a.id ≤ b.id).mapIdx fun i p =>
      { p with rank := ⟨UInt64.ofNat i⟩ }
  else participants.mergeSort fun a b => a.rank ≤ b.rank

/-- What `validate` finds wrong with two participants. -/
def duplicateOf (p q : Participant) : Option String :=
  if p.id = q.id then some "duplicate ParticipantId"
  else if p.rank = q.rank then some "duplicate RankId"
  else if p.worker = q.worker ∧ p.boot = q.boot then some "duplicate boot identity"
  else none

/-- The first pair `validate` throws for. -/
def firstDuplicate : List Participant → Option String
  | [] => none
  | p :: ps => (ps.findSome? (duplicateOf p)).or (firstDuplicate ps)

/-- `validate`. -/
def validate (b : GroupBuilder) : Except Error Unit :=
  let ps := b.participants.toList
  if ps.isEmpty then .error ⟨.validation, "group has zero participants"⟩
  else if b.membership.isNull then
    .error ⟨.validation, "group requires a membership generation"⟩
  else if b.topology.isNull then .error ⟨.validation, "group requires a topology generation"⟩
  else
    match firstDuplicate ps with
    | some message => .error ⟨.validation, message⟩
    | none =>
      if ps.mapIdx (fun i _ => (⟨UInt64.ofNat i⟩ : RankId)) ≠ ps.map (·.rank) then
        .error ⟨.validation, "rank hole or non-dense rank representation"⟩
      else if ps.any fun p => p.worker.isNull || p.boot.isNull then
        .error ⟨.validation, "participant requires worker and boot identity"⟩
      else .ok ()

/-- **What `validate` accepts is dense.** -/
theorem dense_of_validate {b : GroupBuilder} (h : b.validate = .ok ()) :
    DenseRanks b.participants.toList := by
  have hranks : b.participants.toList.mapIdx (fun i _ => (⟨UInt64.ofNat i⟩ : RankId)) =
      b.participants.toList.map (·.rank) := by
    by_contra hne
    simp only [validate, if_pos hne] at h
    split_ifs at h
    split at h <;> cases h
  intro i p hp
  have hi := congrArg (fun l : List RankId => l[i]?) hranks
  simp only [List.getElem?_mapIdx, List.getElem?_map, hp, Option.map_some] at hi
  exact (Option.some.inj hi).symm

/-- `build`, with the builder it leaves: the ranks it assigned stay. -/
def build (b : GroupBuilder) : Except Error CollectiveGroup × GroupBuilder :=
  let b' := { b with participants := .ofList (assignRanks b.participants.toList) }
  (match h : b'.validate with
    | .error e => .error e
    | .ok () =>
      .ok ⟨b'.id, b'.generation, b'.membership, b'.topology, b'.health, b'.backend, b'.lifecycle,
        b'.provenance, b'.participants, dense_of_validate h⟩,
    b')

end GroupBuilder

end CollectiveFabric
