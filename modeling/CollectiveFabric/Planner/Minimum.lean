import CollectiveFabric.Group.Building
import CollectiveFabric.Planner.Selection
import Mathlib.Algebra.Order.Field.Rat
import Mathlib.Data.Prod.Lex

/-!
# The selection is a minimum

Without measurements the planner compares rounds, bytes moved and the
order of the algorithms, in this order, and selects the least of the real
candidates. With measurements it compares times up to a tolerance. That
comparison is not transitive, so the selected time may be above the least
by a tolerance for each candidate; where only a bandwidth is measured,
times that differ at all differ by more than the tolerance, and the
selection is a minimum again.
-/

namespace CollectiveFabric

namespace Planner

open Common

variable {R : Type} [EstimateArith R] {env : Ambient} {inp : PlannerInput}
  {cands : List Candidate} {b c : Candidate}

/-! ## What is asked -/

/-- The planner is asked for a descriptor on a group and a backend, with a
payload of `p` bytes. -/
structure Asked (inp : PlannerInput) (d : CollectiveDescriptor) (group : CollectiveGroup)
    (backend : BackendCapabilities) (p : UInt64) : Prop where
  descriptor_eq : inp.descriptor = some d
  group_eq : inp.group = some group
  backend_eq : inp.backend = some backend
  payload_eq : payloadBytes d group.rankCount = .ok p

section

variable {d : CollectiveDescriptor} {group : CollectiveGroup} {backend : BackendCapabilities}
  {p : UInt64} (h : Asked inp d group backend p)

include h

theorem Asked.candidates : candidates inp =
    .ok (algorithms.map (candidate d group.rankCount p backend inp.topology)) := by
  simp only [Planner.candidates, h.descriptor_eq, h.group_eq, h.backend_eq, h.payload_eq]

theorem Asked.planIn_none (hcands : Planner.candidates inp = .ok cands)
    (hselect : select R inp cands = none) :
    planIn R env inp =
      .error ⟨.unsupported, "no feasible algorithm for the requested collective"⟩ := by
  simp only [planIn, h.descriptor_eq, h.group_eq, h.backend_eq, h.payload_eq, hcands, hselect]

theorem Asked.planIn_some (env : Ambient) (hcands : Planner.candidates inp = .ok cands)
    (hselect : select R inp cands = some b) :
    ∃ plan, planIn R env inp = .ok plan ∧ plan.algorithm = b.algorithm ∧
      plan.backend = backend.id ∧ plan.transport = .of .hostMemory := by
  simp only [planIn, h.descriptor_eq, h.group_eq, h.backend_eq, h.payload_eq, hcands, hselect]
  exact ⟨_, rfl, rfl, rfl, rfl⟩

/-- **A plan is of what was selected**, for the backend and over host
memory. -/
theorem Asked.of_planIn_ok {pl : CollectivePlan} (hpl : planIn R env inp = .ok pl) :
    ∃ b, select R inp (algorithms.map (candidate d group.rankCount p backend inp.topology)) =
        some b ∧ pl.algorithm = b.algorithm ∧ pl.backend = backend.id ∧
      pl.transport = .of .hostMemory := by
  cases hselect : select R inp
      (algorithms.map (candidate d group.rankCount p backend inp.topology)) with
  | none =>
    rw [h.planIn_none h.candidates hselect] at hpl
    cases hpl
  | some b =>
    obtain ⟨pl', hplan, hfields⟩ := h.planIn_some env h.candidates hselect
    rw [hplan] at hpl
    cases hpl
    exact ⟨b, rfl, hfields⟩

end

/-! ## The candidates -/

section

variable {d : CollectiveDescriptor} {n p : UInt64} {backend : BackendCapabilities}
  {topology : Option Topology} {a a' : Algorithm}

theorem candidate_algorithm : (candidate d n p backend topology a).algorithm = a := by
  unfold candidate
  split <;> rfl

theorem candidate_feasible_iff :
    (candidate d n p backend topology a).feasible = true ↔
      rejectReason d n backend topology a = none := by
  unfold candidate
  split
  · next reason hreason => simp [hreason]
  · next hnone => simp [hnone]

/-- The algorithms' candidates differ in their algorithms. -/
theorem eq_of_algorithm (hb : b ∈ algorithms.map (candidate d n p backend topology))
    (hc : c ∈ algorithms.map (candidate d n p backend topology))
    (halgorithm : c.algorithm = b.algorithm) : c = b := by
  obtain ⟨a, -, rfl⟩ := List.mem_map.1 hb
  obtain ⟨a', -, rfl⟩ := List.mem_map.1 hc
  rw [candidate_algorithm, candidate_algorithm] at halgorithm
  rw [halgorithm]

/-- Only whether it applies to the kind, and its need of two nodes, tell
one algorithm's feasibility from another's. -/
theorem rejectReason_of_feasible (h : rejectReason d n backend topology a = none)
    (happlies : algorithmFeasible d.kind a' = true) (hflat : a' ≠ .hierarchical) :
    rejectReason d n backend topology a' = none := by
  unfold rejectReason at h ⊢
  split_ifs at h with h1 h2 h3 h4 h5 h6 h7
  rw [if_neg (by simp [happlies]), if_neg h2, if_neg h3, if_neg h4, if_neg h5, if_neg h6,
    if_neg (not_not.2 h7), if_neg fun hand => hflat hand.1]

/-- `TREE` applies to every kind that is one. -/
theorem tree_applies {kind : Scoped CollectiveKind} (h : kind.named.isSome = true) :
    algorithmFeasible kind .tree = true := by
  obtain ⟨k, hk⟩ := Option.isSome_iff_exists.1 h
  have hkind : kind = .of k :=
    congrArg Scoped.mk (eq_toRaw_of_getElem? (by rintro ⟨⟩ <;> rfl) (by decide) hk)
  rw [hkind]
  cases k <;> rfl

/-- **Where anything is feasible a real candidate is**, for a kind that is
one of the enumerators. -/
theorem exists_real (hkind : d.kind.named.isSome = true)
    (h : ∃ c ∈ algorithms.map (candidate d n p backend topology), c.feasible = true) :
    ∃ c ∈ algorithms.map (candidate d n p backend topology), c.Real := by
  obtain ⟨c, hc, hfeasible⟩ := h
  obtain ⟨a, -, rfl⟩ := List.mem_map.1 hc
  refine ⟨candidate d n p backend topology .tree, List.mem_map_of_mem (by decide), ?_, ?_⟩
  · exact candidate_feasible_iff.2 (rejectReason_of_feasible (candidate_feasible_iff.1 hfeasible)
      (tree_applies hkind) (by decide))
  · rw [candidate_algorithm]
    decide

end

/-! ## The selected candidate -/

/-- **Nothing is selected** only where nothing is feasible. -/
theorem select_eq_none_iff : select R inp cands = none ↔ ∀ c ∈ cands, c.feasible = false := by
  unfold select
  rw [selectReal_eq, selectFallback_eq]
  split
  · next b hb =>
    obtain ⟨hmem, hreal⟩ := List.mem_filter.1 (Best.mem hb)
    refine iff_of_false (by simp) fun hnone => ?_
    have hfeasible := (of_decide_eq_true hreal).1
    rw [hnone b hmem] at hfeasible
    cases hfeasible
  · rw [Best.eq_none_iff, List.filter_eq_nil_iff]
    simp only [Bool.not_eq_true]

/-- **A real candidate is preferred.** -/
theorem selectReal_of_select (h : select R inp cands = some b) (hreal : ∃ c ∈ cands, c.Real) :
    best (better R inp) (cands.filter fun c => c.Real) = some b := by
  obtain ⟨c, hc, hcreal⟩ := hreal
  unfold select at h
  rw [← selectReal_eq]
  split at h
  · next hb => rwa [h] at hb
  · next hnone =>
    rw [selectReal_eq, Best.eq_none_iff, List.filter_eq_nil_iff] at hnone
    exact absurd (decide_eq_true hcreal) (hnone c hc)

/-- What a plan's algorithm is, of the candidates: a feasible candidate's,
never `UNKNOWN`, and the backend's own only where no other is feasible. -/
structure Chosen (cands : List Candidate) (algorithm : Algorithm) (b : Candidate) : Prop where
  mem : b ∈ cands
  feasible : b.feasible = true
  algorithm : algorithm = b.algorithm
  known : b.algorithm ≠ .unknown
  real : (∃ c ∈ cands, c.Real) → b.Real
  only : ¬ b.Real → ∀ c ∈ cands, c.feasible = true → c = b

theorem chosen_of_select {d : CollectiveDescriptor} {n p : UInt64} {backend : BackendCapabilities}
    {topology : Option Topology}
    (h : select R inp (algorithms.map (candidate d n p backend topology)) = some b) :
    Chosen (algorithms.map (candidate d n p backend topology)) b.algorithm b := by
  obtain ⟨hmem, hfeasible⟩ := feasible_of_select h
  have hreal (hany : ∃ c ∈ algorithms.map (candidate d n p backend topology), c.Real) :
      b.Real := of_decide_eq_true (List.mem_filter.1 (Best.mem (selectReal_of_select h hany))).2
  refine ⟨hmem, hfeasible, rfl, ?_, hreal, ?_⟩
  · obtain ⟨a, -, rfl⟩ := List.mem_map.1 hmem
    exact ne_unknown_of_applicable (applicable_of_candidate hfeasible)
  · intro hdefault c hc hcfeasible
    have hdefault' : b.algorithm = .backendDefault := by
      by_contra hne
      exact hdefault ⟨hfeasible, hne⟩
    refine eq_of_algorithm hmem hc ?_
    rw [hdefault']
    by_contra hne
    exact hdefault (hreal ⟨c, hc, hcfeasible, hne⟩)

/-- **The least of the real candidates** by a key; it is unique. -/
structure Least {κ : Type} [LT κ] (key : Candidate → κ) (cands : List Candidate)
    (b : Candidate) : Prop where
  mem : b ∈ cands
  real : b.Real
  lt : ∀ c ∈ cands, c.Real → c ≠ b → key b < key c

/-- **A scan by a key that tells the candidates apart** ends with the
least. -/
theorem least_of_select {κ : Type} [LinearOrder κ] {key : Candidate → κ}
    (hkey : ∀ c b, better R inp c b = true ↔ key c < key b)
    (hinj : ∀ b ∈ cands, ∀ c ∈ cands, key b = key c → c = b)
    (h : select R inp cands = some b) (hreal : ∃ c ∈ cands, c.Real) : Least key cands b := by
  have hbest := selectReal_of_select h hreal
  obtain ⟨hmem, hb⟩ := List.mem_filter.1 (Best.mem hbest)
  refine ⟨hmem, of_decide_eq_true hb, fun c hc hcreal hne => ?_⟩
  have hle := Best.key_le hkey hbest c (List.mem_filter.2 ⟨hc, decide_eq_true hcreal⟩)
  exact lt_of_le_of_ne hle fun heq => hne (hinj b hmem c hc heq)

/-! ## Without measurements -/

/-- Rounds, then bytes moved, then the order of the algorithms. -/
def structuralKey (c : Candidate) : ℕ ×ₗ ℕ ×ₗ ℕ :=
  toLex (c.steps.toNat, toLex (c.byteMovement.toNat, c.algorithm.ctorIdx))

/-- Bytes moved, then rounds, then the order of the algorithms. -/
def movementKey (c : Candidate) : ℕ ×ₗ ℕ ×ₗ ℕ :=
  toLex (c.byteMovement.toNat, toLex (c.steps.toNat, c.algorithm.ctorIdx))

theorem structuralKey_lt : structuralKey c < structuralKey b ↔ c.steps.toNat < b.steps.toNat ∨
    c.steps.toNat = b.steps.toNat ∧ (c.byteMovement.toNat < b.byteMovement.toNat ∨
      c.byteMovement.toNat = b.byteMovement.toNat ∧
        c.algorithm.ctorIdx < b.algorithm.ctorIdx) := by
  rw [structuralKey, structuralKey, Prod.Lex.toLex_lt_toLex, Prod.Lex.toLex_lt_toLex]

theorem movementKey_lt : movementKey c < movementKey b ↔
    c.byteMovement.toNat < b.byteMovement.toNat ∨
      c.byteMovement.toNat = b.byteMovement.toNat ∧ (c.steps.toNat < b.steps.toNat ∨
        c.steps.toNat = b.steps.toNat ∧ c.algorithm.ctorIdx < b.algorithm.ctorIdx) := by
  rw [movementKey, movementKey, Prod.Lex.toLex_lt_toLex, Prod.Lex.toLex_lt_toLex]

/-- An algorithm is its place in the order. -/
theorem eq_of_ctorIdx {a a' : Algorithm} (h : a.ctorIdx = a'.ctorIdx) : a = a' := by
  cases a <;> cases a' <;> first | rfl | cases h

theorem algorithm_of_structuralKey (h : structuralKey b = structuralKey c) :
    c.algorithm = b.algorithm := by
  have hkeys := congrArg (fun k => (ofLex (ofLex k).2).2) h
  exact (eq_of_ctorIdx hkeys).symm

theorem algorithm_of_movementKey (h : movementKey b = movementKey c) :
    c.algorithm = b.algorithm := by
  have hkeys := congrArg (fun k => (ofLex (ofLex k).2).2) h
  exact (eq_of_ctorIdx hkeys).symm

/-- **The tie-break** compares the structural keys. -/
theorem tieBreak_iff : tieBreak c b = true ↔ structuralKey c < structuralKey b := by
  rw [structuralKey_lt, tieBreak]
  split_ifs with hsteps hmovement
  · rw [Ne, ← UInt64.toNat_inj] at hsteps
    simp only [decide_eq_true_eq, UInt64.lt_iff_toNat_lt]
    omega
  · rw [Ne, not_not, ← UInt64.toNat_inj] at hsteps
    rw [Ne, ← UInt64.toNat_inj] at hmovement
    simp only [decide_eq_true_eq, UInt64.lt_iff_toNat_lt]
    omega
  · rw [Ne, not_not, ← UInt64.toNat_inj] at hsteps hmovement
    simp only [decide_eq_true_eq]
    omega

/-- Neither a positive bandwidth nor a latency is measured. -/
def Unmeasured (inp : PlannerInput) : Prop :=
  (∀ w, inp.measuredBandwidthBytesPerSec = some w → w = 0) ∧ inp.measuredLatencyNs = none

theorem better_of_unmeasured (h : Unmeasured inp) : better R inp c b = tieBreak c b := by
  have hnone (c : Candidate) : estTime R inp c = none := by
    unfold estTime
    rw [h.2]
    cases hbandwidth : inp.measuredBandwidthBytesPerSec with
    | none => rfl
    | some w =>
      rw [h.1 w hbandwidth]
      rfl
  rw [better, hnone, hnone]

/-- **Without measurements the selection is a minimum.** The planner
throws `UNSUPPORTED` exactly where no candidate is feasible. Otherwise it
selects a feasible one: of those that are not `BACKEND_DEFAULT` the one
with the least rounds, bytes moved and place in the order, where there is
any, and for a kind that is an enumerator there is. -/
theorem plan_selects_minimum (env : Ambient) (inp : PlannerInput) (d : CollectiveDescriptor)
    (group : CollectiveGroup) (backend : BackendCapabilities) (p : UInt64)
    (h : Asked inp d group backend p) (hunmeasured : Unmeasured inp) :
    ∃ cands, candidates inp = .ok cands ∧
      ((∃ e, plan env inp = .error e) ↔ ∀ c ∈ cands, c.feasible = false) ∧
      (∀ e, plan env inp = .error e → e.code = .unsupported) ∧
      ∀ pl, plan env inp = .ok pl → ∃ b, Chosen cands pl.algorithm b ∧
        (d.kind.named.isSome = true → b.Real) ∧
        ((∃ c ∈ cands, c.Real) → Least structuralKey cands b) := by
  refine ⟨_, h.candidates, ?_⟩
  unfold plan
  cases hselect : select Float inp
      (algorithms.map (candidate d group.rankCount p backend inp.topology)) with
  | none =>
    rw [h.planIn_none h.candidates hselect]
    refine ⟨iff_of_true ⟨_, rfl⟩ (select_eq_none_iff.1 hselect), ?_, ?_⟩
    · intro e he
      cases he
      rfl
    · intro pl hpl
      cases hpl
  | some b =>
    obtain ⟨pl, hplan, halgorithm, -⟩ := h.planIn_some env h.candidates hselect
    have hchosen := chosen_of_select hselect
    rw [hplan]
    refine ⟨iff_of_false (by simp) fun hnone => ?_, by simp, ?_⟩
    · have hfeasible := hchosen.feasible
      rw [hnone b hchosen.mem] at hfeasible
      cases hfeasible
    · rintro pl' ⟨⟩
      refine ⟨b, halgorithm ▸ hchosen, fun hkind => ?_, ?_⟩
      · exact hchosen.real (exists_real hkind ⟨b, hchosen.mem, hchosen.feasible⟩)
      · refine least_of_select (fun c b => ?_) ?_ hselect
        · rw [better_of_unmeasured hunmeasured, tieBreak_iff]
        · intro b hb c hc hkeys
          exact eq_of_algorithm hb hc (algorithm_of_structuralKey hkeys)

/-! ## A group of two -/

def pair : CollectiveGroup := GroupBuilder.pairRanked.group GroupBuilder.pairRanked_validate

/-- An all-reduce of four floats. -/
def floatSum : CollectiveDescriptor where
  kind := .of .allReduce
  reduction := .of .sum
  datatype := .of .float32
  elementCount := 4

/-- The reference backend's capabilities. -/
def reference : BackendCapabilities := referenceBackendCapabilities ⟨1⟩ ⟨1⟩

def askPair (d : CollectiveDescriptor) (backend : BackendCapabilities) : PlannerInput where
  descriptor := some d
  group := some pair
  backend := some backend

theorem askPair_asked {d : CollectiveDescriptor} {backend : BackendCapabilities} {p : UInt64}
    (hp : payloadBytes d pair.rankCount = .ok p) : Asked (askPair d backend) d pair backend p :=
  ⟨rfl, rfl, rfl, hp⟩

theorem floatSum_payload : payloadBytes floatSum pair.rankCount = .ok 16 := by decide +kernel

/-- Two ranks sum floats on a ring: one round, as with recursive doubling,
and half the bytes. -/
theorem plan_selects_ring :
    ∃ pl, plan ⟨0, 0, 0⟩ (askPair floatSum reference) = .ok pl ∧ pl.algorithm = .ring := by
  have hasked : Asked (askPair floatSum reference) floatSum pair reference 16 :=
    askPair_asked floatSum_payload
  obtain ⟨cands, hcands, hunsupported, -, hplan⟩ := plan_selects_minimum ⟨0, 0, 0⟩ _ _ _ _ _ hasked
    ⟨by simp [askPair], rfl⟩
  have hring : ∃ cs, candidates (askPair floatSum reference) = .ok cs ∧ ∃ c ∈ cs, c.Real ∧
      c.algorithm = .ring ∧ ∀ b ∈ cs, b.Real → ¬ structuralKey b < structuralKey c :=
    ⟨_, hasked.candidates, by decide +kernel⟩
  obtain ⟨cs, hcs, c, hc, hcreal, halgorithm, hmin⟩ := hring
  obtain rfl := Except.ok.inj (hcands.symm.trans hcs)
  cases hpl : plan ⟨0, 0, 0⟩ (askPair floatSum reference) with
  | error e =>
    have hnone := hunsupported.1 ⟨e, hpl⟩ c hc
    rw [hcreal.1] at hnone
    cases hnone
  | ok pl =>
    obtain ⟨b, hchosen, -, hleast⟩ := hplan pl hpl
    have hb := hleast ⟨c, hc, hcreal⟩
    refine ⟨pl, rfl, hchosen.algorithm.trans ?_⟩
    by_contra hne
    exact hmin b hb.mem hb.real (hb.lt c hc hcreal fun hcb => hne (hcb ▸ halgorithm))

/-- A backend that lists a kind that is no enumerator. -/
def delegate : BackendCapabilities := { reference with supportedCollectiveKinds := [⟨200⟩] }

/-- **`BACKEND_DEFAULT` is selected** where no other algorithm applies to
the kind. -/
theorem plan_delegates :
    Asked (askPair { kind := ⟨200⟩ } delegate) { kind := ⟨200⟩ } pair delegate 0 ∧
      Unmeasured (askPair { kind := ⟨200⟩ } delegate) ∧
      ∃ pl, plan ⟨0, 0, 0⟩ (askPair { kind := ⟨200⟩ } delegate) = .ok pl ∧
        pl.algorithm = .backendDefault := by
  have hasked : Asked (askPair { kind := ⟨200⟩ } delegate) { kind := ⟨200⟩ } pair delegate 0 :=
    askPair_asked (by decide +kernel)
  refine ⟨hasked, ⟨by simp [askPair], rfl⟩, ?_⟩
  have honly : ∀ c ∈ algorithms.map (candidate { kind := ⟨200⟩ } pair.rankCount 0 delegate none),
      c.feasible = true ↔ c.algorithm = .backendDefault := by
    decide +kernel
  cases hselect : select Float (askPair { kind := ⟨200⟩ } delegate)
      (algorithms.map (candidate { kind := ⟨200⟩ } pair.rankCount 0 delegate none)) with
  | none =>
    have hnone := select_eq_none_iff.1 hselect _ (List.mem_map_of_mem (a := .backendDefault)
      (by decide))
    rw [(honly _ (List.mem_map_of_mem (by decide))).2 candidate_algorithm] at hnone
    cases hnone
  | some b =>
    obtain ⟨pl, hplan, halgorithm, -⟩ := hasked.planIn_some ⟨0, 0, 0⟩ hasked.candidates hselect
    have hchosen := chosen_of_select hselect
    exact ⟨pl, hplan, halgorithm.trans ((honly b hchosen.mem).1 hchosen.feasible)⟩

end Planner

end CollectiveFabric
