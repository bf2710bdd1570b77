import CollectiveFabric.Foundation.Model.Identity
import CollectiveFabric.Foundation.Model.Enums

/-!
# Evaluating an authority claim

What the coordinator holds to be true, the claim an incoming message
carries, and the cascade of comparisons that gives the verdict: the
incarnation, then the epoch, then the four generations.
-/

namespace CollectiveFabric

/-- The current authoritative ground truth held by the coordinator. -/
structure AuthorityGroundTruth where
  epoch : CoordinatorEpoch := {}
  liveBoot : WorkerBootId := {}
  groupGeneration : GroupGeneration := {}
  collectiveGeneration : CollectiveGeneration := {}
  attemptGeneration : AttemptGeneration := {}
  dispatchGeneration : DispatchGeneration := {}

/-- `boot_is_authoritative`. -/
def AuthorityGroundTruth.bootIsAuthoritative (truth : AuthorityGroundTruth) (b : WorkerBootId) :
    Bool :=
  !truth.liveBoot.isNull && b == truth.liveBoot

/-- A candidate authority claim carried by an incoming message. -/
structure AuthorityClaim where
  boot : WorkerBootId := {}
  epoch : CoordinatorEpoch := {}
  groupGeneration : GroupGeneration := {}
  collectiveGeneration : CollectiveGeneration := {}
  attemptGeneration : AttemptGeneration := {}
  dispatchGeneration : DispatchGeneration := {}
  isCompletion : Bool := false

structure AuthorityDecision where
  verdict : AuthorityVerdict := .unknown
  reason : String := ""
deriving DecidableEq

/-- `evaluate_authority`. -/
def evaluateAuthority (truth : AuthorityGroundTruth) (claim : AuthorityClaim) :
    AuthorityDecision :=
  if truth.liveBoot.isNull = false ∧ claim.boot ≠ truth.liveBoot then
    ⟨.stale, "WorkerBootId does not match current participant incarnation"⟩
  else if truth.liveBoot.isNull ∧ claim.boot.isNull then
    ⟨.invalid, "claim carries no boot identity"⟩
  else if claim.epoch ≠ truth.epoch then
    if compareGenerations claim.epoch truth.epoch = .lt then
      ⟨.stale, "stale coordinator epoch"⟩
    else ⟨.unknown, "claim epoch is ahead of the coordinator epoch"⟩
  else if compareGenerations claim.groupGeneration truth.groupGeneration = .lt then
    ⟨.stale, "stale group generation"⟩
  else if compareGenerations claim.collectiveGeneration truth.collectiveGeneration = .lt then
    ⟨.stale, "stale collective generation"⟩
  else if compareGenerations claim.attemptGeneration truth.attemptGeneration = .lt then
    ⟨.stale, "stale attempt generation"⟩
  else if compareGenerations claim.dispatchGeneration truth.dispatchGeneration = .lt then
    ⟨.stale, "stale dispatch generation"⟩
  else if claim.groupGeneration = truth.groupGeneration ∧
      claim.collectiveGeneration = truth.collectiveGeneration ∧
      claim.attemptGeneration = truth.attemptGeneration ∧
      claim.dispatchGeneration = truth.dispatchGeneration then
    ⟨if claim.isCompletion then .duplicate else .current,
      if claim.isCompletion then "generation matches but completion already recorded"
      else "claim is current"⟩
  else ⟨.fresh, "claim is newer than the recorded generation"⟩

/-! ## The comparisons behind the verdict -/

namespace AuthorityClaim

/-- The claim comes from another incarnation than the live one. -/
def Foreign (truth : AuthorityGroundTruth) (claim : AuthorityClaim) : Prop :=
  truth.liveBoot.isNull = false ∧ claim.boot ≠ truth.liveBoot

/-- Neither side names an incarnation. -/
def Anonymous (truth : AuthorityGroundTruth) (claim : AuthorityClaim) : Prop :=
  truth.liveBoot.isNull = true ∧ claim.boot.isNull = true

/-- One of the claim's generations is older than the recorded one. -/
def Behind (truth : AuthorityGroundTruth) (claim : AuthorityClaim) : Prop :=
  claim.groupGeneration < truth.groupGeneration ∨
    claim.collectiveGeneration < truth.collectiveGeneration ∨
    claim.attemptGeneration < truth.attemptGeneration ∨
    claim.dispatchGeneration < truth.dispatchGeneration

/-- The verdict takes the claim as one to act on. -/
def Accepted (v : AuthorityVerdict) : Prop :=
  v = .current ∨ v = .fresh ∨ v = .duplicate

/-- **The incarnation gate**, at one ground truth and one claim: a claim
acted on carries exactly the live boot, and any other claim is turned
away. -/
def IncarnationGate (truth : AuthorityGroundTruth) (claim : AuthorityClaim) : Prop :=
  (Accepted (evaluateAuthority truth claim).verdict →
      truth.bootIsAuthoritative claim.boot = true) ∧
    (truth.bootIsAuthoritative claim.boot = false →
      (evaluateAuthority truth claim).verdict = .stale ∨
      (evaluateAuthority truth claim).verdict = .unknown ∨
      (evaluateAuthority truth claim).verdict = .invalid)

end AuthorityClaim

/-! ## A run of the ground truth -/

/-- A generation advances: by `next`, or by being assigned a larger one. -/
def Generation.Advances {Tag : Type} (g g' : Generation Tag) : Prop :=
  g' = g.next ∨ g < g'

/-- **One step of the ground truth** as a claim from `boot` can see it:
the epoch and each generation stays or advances, and the live boot stays
or becomes another incarnation than the claim's. -/
structure AuthorityGroundTruth.Step (boot : WorkerBootId) (truth truth' : AuthorityGroundTruth) :
    Prop where
  epoch : truth'.epoch = truth.epoch ∨ truth.epoch.Advances truth'.epoch
  groupGeneration : truth'.groupGeneration = truth.groupGeneration ∨
    truth.groupGeneration.Advances truth'.groupGeneration
  collectiveGeneration : truth'.collectiveGeneration = truth.collectiveGeneration ∨
    truth.collectiveGeneration.Advances truth'.collectiveGeneration
  attemptGeneration : truth'.attemptGeneration = truth.attemptGeneration ∨
    truth.attemptGeneration.Advances truth'.attemptGeneration
  dispatchGeneration : truth'.dispatchGeneration = truth.dispatchGeneration ∨
    truth.dispatchGeneration.Advances truth'.dispatchGeneration
  liveBoot : truth'.liveBoot = truth.liveBoot ∨
    truth'.liveBoot.isNull = false ∧ truth'.liveBoot ≠ boot

end CollectiveFabric
