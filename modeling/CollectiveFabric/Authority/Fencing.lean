import CollectiveFabric.Authority.Model.Evaluation
import Mathlib.Logic.Relation

/-!
# What the verdict fences

The verdict is read off four comparisons: whether the claim is foreign,
whether it is anonymous, how its epoch compares, and whether a generation
of it is behind. From the characterisation of each verdict follow where
the incarnation gate holds, and that a stale claim stays stale while the
ground truth advances.
-/

namespace CollectiveFabric

namespace AuthorityClaim

variable {truth truth' : AuthorityGroundTruth} {claim : AuthorityClaim}

/-! ## The verdicts -/

/-- **The cascade, inverted**: which comparisons lead to which verdict. -/
theorem evaluateAuthority_cases (truth : AuthorityGroundTruth) (claim : AuthorityClaim) :
    (Foreign truth claim ∧ (evaluateAuthority truth claim).verdict = .stale) ∨
      (¬ Foreign truth claim ∧ Anonymous truth claim ∧
        (evaluateAuthority truth claim).verdict = .invalid) ∨
      (¬ Foreign truth claim ∧ ¬ Anonymous truth claim ∧ claim.epoch < truth.epoch ∧
        (evaluateAuthority truth claim).verdict = .stale) ∨
      (¬ Foreign truth claim ∧ ¬ Anonymous truth claim ∧ truth.epoch < claim.epoch ∧
        (evaluateAuthority truth claim).verdict = .unknown) ∨
      (¬ Foreign truth claim ∧ ¬ Anonymous truth claim ∧ claim.epoch = truth.epoch ∧
        Behind truth claim ∧ (evaluateAuthority truth claim).verdict = .stale) ∨
      (¬ Foreign truth claim ∧ ¬ Anonymous truth claim ∧ claim.epoch = truth.epoch ∧
        ¬ Behind truth claim ∧ Accepted (evaluateAuthority truth claim).verdict) := by
  unfold evaluateAuthority
  by_cases hforeign : truth.liveBoot.isNull = false ∧ claim.boot ≠ truth.liveBoot
  · rw [if_pos hforeign]
    exact .inl ⟨hforeign, rfl⟩
  by_cases hanon : truth.liveBoot.isNull = true ∧ claim.boot.isNull = true
  · rw [if_neg hforeign, if_pos hanon]
    exact .inr (.inl ⟨hforeign, hanon, rfl⟩)
  rw [if_neg hforeign, if_neg hanon]
  by_cases hepoch : claim.epoch ≠ truth.epoch
  · rw [if_pos hepoch]
    by_cases hlt : compareGenerations claim.epoch truth.epoch = .lt
    · rw [if_pos hlt]
      exact .inr (.inr (.inl ⟨hforeign, hanon, compareGenerations_eq_lt.1 hlt, rfl⟩))
    · rw [if_neg hlt]
      have hahead : truth.epoch < claim.epoch :=
        lt_of_le_of_ne (not_lt.1 (mt compareGenerations_eq_lt.2 hlt)) (Ne.symm hepoch)
      exact .inr (.inr (.inr (.inl ⟨hforeign, hanon, hahead, rfl⟩)))
  have hsame := not_not.1 hepoch
  rw [if_neg hepoch]
  right; right; right; right
  -- the four generations, in the order the source compares them
  by_cases hg : compareGenerations claim.groupGeneration truth.groupGeneration = .lt
  · rw [if_pos hg]
    exact .inl ⟨hforeign, hanon, hsame, .inl (compareGenerations_eq_lt.1 hg), rfl⟩
  by_cases hc : compareGenerations claim.collectiveGeneration truth.collectiveGeneration = .lt
  · rw [if_neg hg, if_pos hc]
    exact .inl ⟨hforeign, hanon, hsame, .inr (.inl (compareGenerations_eq_lt.1 hc)), rfl⟩
  by_cases ha : compareGenerations claim.attemptGeneration truth.attemptGeneration = .lt
  · rw [if_neg hg, if_neg hc, if_pos ha]
    exact .inl ⟨hforeign, hanon, hsame, .inr (.inr (.inl (compareGenerations_eq_lt.1 ha))), rfl⟩
  by_cases hd : compareGenerations claim.dispatchGeneration truth.dispatchGeneration = .lt
  · rw [if_neg hg, if_neg hc, if_neg ha, if_pos hd]
    exact .inl ⟨hforeign, hanon, hsame, .inr (.inr (.inr (compareGenerations_eq_lt.1 hd))), rfl⟩
  rw [if_neg hg, if_neg hc, if_neg ha, if_neg hd]
  rw [compareGenerations_eq_lt] at hg hc ha hd
  have hbehind : ¬ Behind truth claim := by
    rintro (h | h | h | h)
    exacts [hg h, hc h, ha h, hd h]
  refine .inr ⟨hforeign, hanon, hsame, hbehind, ?_⟩
  unfold Accepted
  split
  · cases claim.isCompletion <;> simp
  · simp

/-- **When a claim is stale.** -/
theorem verdict_eq_stale_iff :
    (evaluateAuthority truth claim).verdict = .stale ↔
      Foreign truth claim ∨ ¬ Anonymous truth claim ∧
        (claim.epoch < truth.epoch ∨ claim.epoch = truth.epoch ∧ Behind truth claim) := by
  rcases evaluateAuthority_cases truth claim with
    ⟨hf, hv⟩ | ⟨hf, ha, hv⟩ | ⟨hf, ha, he, hv⟩ | ⟨hf, ha, he, hv⟩ | ⟨hf, ha, he, hb, hv⟩ |
      ⟨hf, ha, he, hb, hv⟩
  · exact iff_of_true hv (.inl hf)
  · exact iff_of_false (by rw [hv]; decide) (by tauto)
  · exact iff_of_true hv (.inr ⟨ha, .inl he⟩)
  · have hnlt : ¬ claim.epoch < truth.epoch := lt_asymm he
    have hne : claim.epoch ≠ truth.epoch := ne_of_gt he
    exact iff_of_false (by rw [hv]; decide) (by tauto)
  · exact iff_of_true hv (.inr ⟨ha, .inr ⟨he, hb⟩⟩)
  · have hnlt : ¬ claim.epoch < truth.epoch := he ▸ lt_irrefl _
    refine iff_of_false (fun hs => ?_) (by tauto)
    rw [hs] at hv
    rcases hv with hv | hv | hv <;> exact AuthorityVerdict.noConfusion hv

/-- **When a claim is acted on.** -/
theorem accepted_iff :
    Accepted (evaluateAuthority truth claim).verdict ↔
      ¬ Foreign truth claim ∧ ¬ Anonymous truth claim ∧ claim.epoch = truth.epoch ∧
        ¬ Behind truth claim := by
  rcases evaluateAuthority_cases truth claim with
    ⟨hf, hv⟩ | ⟨hf, ha, hv⟩ | ⟨hf, ha, he, hv⟩ | ⟨hf, ha, he, hv⟩ | ⟨hf, ha, he, hb, hv⟩ |
      ⟨hf, ha, he, hb, hv⟩
  · exact iff_of_false (by rw [hv]; simp [Accepted]) (by tauto)
  · exact iff_of_false (by rw [hv]; simp [Accepted]) (by tauto)
  · exact iff_of_false (by rw [hv]; simp [Accepted]) fun h => ne_of_lt he h.2.2.1
  · exact iff_of_false (by rw [hv]; simp [Accepted]) fun h => ne_of_gt he h.2.2.1
  · exact iff_of_false (by rw [hv]; simp [Accepted]) (by tauto)
  · exact iff_of_true hv ⟨hf, ha, he, hb⟩

/-- Every verdict but these three turns the claim away. -/
theorem turned_away_of_not_accepted
    (h : ¬ Accepted (evaluateAuthority truth claim).verdict) :
    (evaluateAuthority truth claim).verdict = .stale ∨
      (evaluateAuthority truth claim).verdict = .unknown ∨
      (evaluateAuthority truth claim).verdict = .invalid := by
  rcases evaluateAuthority_cases truth claim with
    ⟨-, hv⟩ | ⟨-, -, hv⟩ | ⟨-, -, -, hv⟩ | ⟨-, -, -, hv⟩ | ⟨-, -, -, -, hv⟩ | ⟨-, -, -, -, hv⟩
  · exact .inl hv
  · exact .inr (.inr hv)
  · exact .inl hv
  · exact .inr (.inl hv)
  · exact .inl hv
  · exact absurd hv h

/-! ## The incarnation gate -/

theorem bootIsAuthoritative_iff :
    truth.bootIsAuthoritative claim.boot = true ↔
      truth.liveBoot.isNull = false ∧ ¬ Foreign truth claim := by
  unfold AuthorityGroundTruth.bootIsAuthoritative Foreign
  simp only [Bool.and_eq_true, Bool.not_eq_true', beq_iff_eq]
  tauto

/-- **Where the incarnation gate holds.** It fails exactly when no
incarnation is live and the claim carries one with the epoch of the
ground truth and no generation behind: such a claim is acted on. -/
theorem incarnationGate_iff (truth : AuthorityGroundTruth) (claim : AuthorityClaim) :
    IncarnationGate truth claim ↔
      ¬ (truth.liveBoot.isNull = true ∧ claim.boot.isNull = false ∧
          claim.epoch = truth.epoch ∧ truth.groupGeneration ≤ claim.groupGeneration ∧
          truth.collectiveGeneration ≤ claim.collectiveGeneration ∧
          truth.attemptGeneration ≤ claim.attemptGeneration ∧
          truth.dispatchGeneration ≤ claim.dispatchGeneration) := by
  have haccept : IncarnationGate truth claim ↔
      (Accepted (evaluateAuthority truth claim).verdict →
        truth.bootIsAuthoritative claim.boot = true) := by
    refine ⟨fun h => h.1, fun h => ⟨h, fun hboot => turned_away_of_not_accepted fun hacc => ?_⟩⟩
    rw [h hacc] at hboot
    exact Bool.noConfusion hboot
  have hbehind : ¬ Behind truth claim ↔ truth.groupGeneration ≤ claim.groupGeneration ∧
      truth.collectiveGeneration ≤ claim.collectiveGeneration ∧
      truth.attemptGeneration ≤ claim.attemptGeneration ∧
      truth.dispatchGeneration ≤ claim.dispatchGeneration := by
    simp only [Behind, not_or, not_lt]
  rw [haccept, accepted_iff, bootIsAuthoritative_iff, ← hbehind]
  unfold Foreign Anonymous
  cases truth.liveBoot.isNull <;> cases claim.boot.isNull <;> simp <;> tauto

/-- With no live boot, as recovery leaves the ground truth, a claim from an
old incarnation that carries the recovered epoch is current. -/
theorem not_incarnationGate_recovered :
    ¬ IncarnationGate { epoch := ⟨3⟩ } { boot := ⟨7⟩, epoch := ⟨3⟩ } := by
  intro h
  have hcurrent : Accepted (evaluateAuthority { epoch := ⟨3⟩ }
      { boot := ⟨7⟩, epoch := ⟨3⟩ }).verdict := .inl rfl
  exact absurd (h.1 hcurrent) (by decide)

/-! ## Stale stays stale -/

theorem advances_le {Tag : Type} {g g' : Generation Tag} (h : g.Advances g') :
    g ≤ g' := by
  rcases h with rfl | h
  · exact g.le_next
  · exact le_of_lt h

theorem le_of_eq_or_advances {Tag : Type} {g g' : Generation Tag}
    (h : g' = g ∨ g.Advances g') : g ≤ g' := by
  rcases h with rfl | h
  · exact le_rfl
  · exact advances_le h

/-- A generation behind stays behind. -/
theorem behind_step (hstep : truth.Step claim.boot truth') (h : Behind truth claim) :
    Behind truth' claim := by
  rcases h with h | h | h | h
  · exact .inl (lt_of_lt_of_le h (le_of_eq_or_advances hstep.groupGeneration))
  · exact .inr (.inl (lt_of_lt_of_le h (le_of_eq_or_advances hstep.collectiveGeneration)))
  · exact .inr (.inr (.inl (lt_of_lt_of_le h (le_of_eq_or_advances hstep.attemptGeneration))))
  · exact .inr (.inr (.inr (lt_of_lt_of_le h (le_of_eq_or_advances hstep.dispatchGeneration))))

/-- **One step keeps a stale claim stale.** A change of incarnation makes
the claim foreign; otherwise what put it behind still does, and an epoch
that moves on puts it behind by itself. -/
theorem stale_step (hstep : truth.Step claim.boot truth')
    (h : (evaluateAuthority truth claim).verdict = .stale) :
    (evaluateAuthority truth' claim).verdict = .stale := by
  rw [verdict_eq_stale_iff] at h ⊢
  rcases hstep.liveBoot with hboot | ⟨hlive, hne⟩
  · unfold Foreign Anonymous at h ⊢
    rw [hboot]
    refine h.imp id fun ⟨hanon, h⟩ => ⟨hanon, ?_⟩
    have hepoch := le_of_eq_or_advances hstep.epoch
    rcases h with h | ⟨heq, hb⟩
    · exact .inl (lt_of_lt_of_le h hepoch)
    · rcases lt_or_eq_of_le hepoch with hlt | hsame
      · exact .inl (heq ▸ hlt)
      · exact .inr ⟨heq.trans hsame, behind_step hstep hb⟩
  · exact .inl ⟨hlive, fun heq => hne heq.symm⟩

/-- **Stale stays stale.** Once a claim's verdict is stale, it is stale at
every later point of the run. -/
theorem stale_run {claim : AuthorityClaim} {truth truth' : AuthorityGroundTruth}
    (h : (evaluateAuthority truth claim).verdict = .stale)
    (hrun : Relation.ReflTransGen (AuthorityGroundTruth.Step claim.boot) truth truth') :
    (evaluateAuthority truth' claim).verdict = .stale := by
  induction hrun with
  | refl => exact h
  | tail _ hstep ih => exact stale_step hstep ih

/-- A claim stale by its group generation, through a new epoch and then a
new incarnation. -/
theorem stale_run_epoch_boot :
    (evaluateAuthority { epoch := ⟨2⟩, liveBoot := ⟨9⟩, groupGeneration := ⟨5⟩ }
      { boot := ⟨4⟩, epoch := ⟨1⟩, groupGeneration := ⟨3⟩ }).verdict = .stale := by
  have hepoch : AuthorityGroundTruth.Step ⟨4⟩
      { epoch := ⟨1⟩, liveBoot := ⟨4⟩, groupGeneration := ⟨5⟩ }
      { epoch := ⟨2⟩, liveBoot := ⟨4⟩, groupGeneration := ⟨5⟩ } :=
    ⟨.inr (.inl rfl), .inl rfl, .inl rfl, .inl rfl, .inl rfl, .inl rfl⟩
  have hboot : AuthorityGroundTruth.Step ⟨4⟩
      { epoch := ⟨2⟩, liveBoot := ⟨4⟩, groupGeneration := ⟨5⟩ }
      { epoch := ⟨2⟩, liveBoot := ⟨9⟩, groupGeneration := ⟨5⟩ } :=
    ⟨.inl rfl, .inl rfl, .inl rfl, .inl rfl, .inl rfl, .inr ⟨rfl, by decide⟩⟩
  exact stale_run (by decide) (.tail (.tail .refl hepoch) hboot)

end AuthorityClaim

end CollectiveFabric
