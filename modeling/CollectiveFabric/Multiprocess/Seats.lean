import CollectiveFabric.Multiprocess.Replies
import CollectiveFabric.Multiprocess.Throwing
import Mathlib.Data.List.Permutation

/-!
# The seats of two workers

A group of two workers ranks them by their boots, whatever its generation,
so a worker keeps its rank. What the two contribute is decided by their
ranks, and so is the sum.
-/

namespace CollectiveFabric

open Common

variable {rt rt' : Runtime} {env : Ambient} {w₀ w₁ : WorkerState} {gen : UInt64}
variable {g : CollectiveGroup}

/-! ## Ranks -/

/-- The rank of a boot beside the other one. -/
def seat (boot other : UInt64) : UInt64 := if other < boot then 1 else 0

theorem seat_of_lt {boot other : UInt64} (h : other < boot) : seat boot other = 1 := if_pos h

theorem seat_of_gt {boot other : UInt64} (h : boot < other) : seat boot other = 0 :=
  if_neg fun h' => absurd (UInt64.lt_trans h h') (UInt64.lt_irrefl _)

/-- Two boots take one seat each. -/
theorem seats {boot other : UInt64} (h : boot ≠ other) :
    (seat boot other = 0 ∧ seat other boot = 1) ∨ (seat boot other = 1 ∧ seat other boot = 0) := by
  rcases UInt64.lt_or_lt_of_ne h with hlt | hlt
  · exact .inl ⟨seat_of_gt hlt, seat_of_lt hlt⟩
  · exact .inr ⟨seat_of_lt hlt, seat_of_gt hlt⟩

/-- The boots of a group that is formed. -/
theorem formable_of_formGroup (hgen : gen ≠ 0)
    (h : formGroup rt env w₀ w₁ gen Coordinator.topoGeneration = (.ok g, rt')) :
    Formable w₀.boot w₁.boot := by
  obtain ⟨u, v, hordered, hformable⟩ := exists_ordered w₀ w₁
  simp only [formGroup, hordered] at h
  split at h
  · cases h
  · next g' hbuild => exact hformable.1 ((build_formBuilder_iff hgen u v).1 ⟨g', hbuild⟩)

/-- The identity of a participant of the group formed is its boot. -/
theorem id_formGroup {topoGen : TopologyGeneration}
    (h : formGroup rt env w₀ w₁ gen topoGen = (.ok g, rt')) :
    ∀ p ∈ g.participants.toList, p.id.raw = p.boot.raw := by
  simp only [formGroup] at h
  split at h
  · cases h
  · next g' hbuild =>
    obtain ⟨rfl, -⟩ := registerGroup_ok h
    intro p hp
    have hperm := GroupBuilder.map_build (f := fun p => (p.id.raw, p.boot.raw))
      (fun _ _ => rfl) hbuild
    have hmem : (p.id.raw, p.boot.raw) ∈ [(w₀.boot, w₀.boot), (w₁.boot, w₁.boot)] := by
      have hp' := hperm.subset (List.mem_map_of_mem hp)
      split_ifs at hp' with hlt
      · exact (List.Perm.swap _ _ _).subset hp'
      · exact hp'
    simp only [List.mem_cons, List.not_mem_nil, or_false, Prod.mk.injEq] at hmem
    rcases hmem with ⟨hid, hboot⟩ | ⟨hid, hboot⟩
    all_goals rw [hid, hboot]

/-- The participants of a group of generation `gen` are sorted by their
boots. -/
theorem sorted_formGroup {topoGen : TopologyGeneration}
    (h : formGroup rt env w₀ w₁ gen topoGen = (.ok g, rt')) :
    g.participants.toList.Pairwise GroupBuilder.ById := by
  simp only [formGroup] at h
  split at h
  · cases h
  · next g' hbuild =>
    obtain ⟨rfl, -⟩ := registerGroup_ok h
    exact GroupBuilder.sorted_of_build hbuild

/-- **The group formed seats its workers by their boots.** -/
theorem exists_participants (hgen : gen ≠ 0)
    (h : formGroup rt env w₀ w₁ gen Coordinator.topoGeneration = (.ok g, rt')) :
    ∃ p q, g.participants.toList = [p, q] ∧ p.rank = ⟨0⟩ ∧ q.rank = ⟨1⟩ ∧
      p.boot.raw < q.boot.raw ∧
      ((p.boot.raw = w₀.boot ∧ q.boot.raw = w₁.boot) ∨
        (p.boot.raw = w₁.boot ∧ q.boot.raw = w₀.boot)) := by
  have hboots := (formGroup_ok h).1
  have hlength := hboots.length_eq
  rw [CollectiveGroup.boots, List.length_map] at hlength
  obtain ⟨p, q, hpq⟩ := List.length_eq_two.1 hlength
  have hdense := g.dense
  have hsorted := sorted_formGroup h
  have hids := id_formGroup h
  rw [CollectiveGroup.boots, hpq] at hboots
  rw [hpq] at hdense hsorted hids
  have hle : p.id.raw.toNat ≤ q.id.raw.toNat := (List.pairwise_cons.1 hsorted).1 q (by simp)
  rw [hids p (by simp), hids q (by simp)] at hle
  have hplaces : (p.boot.raw = w₀.boot ∧ q.boot.raw = w₁.boot) ∨
      (p.boot.raw = w₁.boot ∧ q.boot.raw = w₀.boot) := by
    have hlist : [p.boot, q.boot] = [⟨w₀.boot⟩, ⟨w₁.boot⟩] ∨
        [p.boot, q.boot] = [⟨w₁.boot⟩, ⟨w₀.boot⟩] := List.perm_pair.1 hboots
    simp only [List.cons.injEq, and_true] at hlist
    rcases hlist with ⟨hp, hq⟩ | ⟨hp, hq⟩
    · exact .inl ⟨congrArg StrongId.raw hp, congrArg StrongId.raw hq⟩
    · exact .inr ⟨congrArg StrongId.raw hp, congrArg StrongId.raw hq⟩
  have hapart := (formable_of_formGroup hgen h).apart
  have hne : p.boot.raw ≠ q.boot.raw := by
    rcases hplaces with ⟨hp, hq⟩ | ⟨hp, hq⟩
    · rw [hp, hq]
      exact hapart
    · rw [hp, hq]
      exact hapart.symm
  refine ⟨p, q, hpq, hdense 0 p rfl, hdense 1 q rfl, ?_, hplaces⟩
  have hnat : p.boot.raw.toNat ≠ q.boot.raw.toNat := fun heq => hne (UInt64.toNat_inj.1 heq)
  rw [UInt64.lt_iff_toNat_lt]
  omega

/-- **The rank of each worker** in the group formed, whatever its
generation. -/
theorem rankOfBoot_formGroup (hgen : gen ≠ 0)
    (h : formGroup rt env w₀ w₁ gen Coordinator.topoGeneration = (.ok g, rt')) :
    rankOfBoot g w₀.boot = ⟨seat w₀.boot w₁.boot⟩ ∧
      rankOfBoot g w₁.boot = ⟨seat w₁.boot w₀.boot⟩ ∧ g.rankCount = 2 := by
  obtain ⟨p, q, hpq, hp, hq, hlt, hplaces⟩ := exists_participants hgen h
  have hne : p.boot.raw ≠ q.boot.raw := UInt64.ne_of_lt hlt
  have hfirst : rankOfBoot g p.boot.raw = ⟨0⟩ := by
    rw [rankOfBoot, hpq, List.find?_cons_of_pos (by simp), Option.map_some, Option.getD_some, hp]
  have hsecond : rankOfBoot g q.boot.raw = ⟨1⟩ := by
    rw [rankOfBoot, hpq, List.find?_cons_of_neg (by simpa using hne),
      List.find?_cons_of_pos (by simp), Option.map_some, Option.getD_some, hq]
  have hcount : g.rankCount = 2 := by
    rw [CollectiveGroup.rankCount, Vec.size, hpq]
    rfl
  rcases hplaces with ⟨hp₀, hq₁⟩ | ⟨hp₁, hq₀⟩
  · rw [hp₀] at hfirst hlt
    rw [hq₁] at hsecond hlt
    exact ⟨by rw [hfirst, seat_of_gt hlt], by rw [hsecond, seat_of_lt hlt], hcount⟩
  · rw [hp₁] at hfirst hlt
    rw [hq₀] at hsecond hlt
    exact ⟨by rw [hsecond, seat_of_lt hlt], by rw [hfirst, seat_of_gt hlt], hcount⟩

/-! ## Sums -/

open ReferenceEngine

/-- The bytes a worker of this rank contributes to a round. -/
def share (rank : UInt64) : List UInt8 :=
  (Worker.values rank).flatMap fun v => (BigEndian.digits 4 v.toNat).reverse

/-- The sums of two ranks' values, as the engine adds them. -/
def sums (a b : UInt64) : List UInt32 :=
  ((Worker.values a).zip (Worker.values b)).map fun p =>
    (Float32.ofBits p.1 + Float32.ofBits p.2).toBits

theorem load_store (v : UInt32) : elementF32.load (elementF32.store v) = v := by
  have hlt := v.toNat_lt
  show UInt32.ofNat (loadLe (storeLe 4 v.toNat)) = v
  rw [loadLe, storeLe, List.reverse_reverse, BigEndian.value_digits]
  rw [Nat.mod_eq_of_lt (by omega)]
  exact UInt32.ofNat_toNat

theorem share_length (rank : UInt64) : (share rank).length = 16 := by
  unfold share Worker.values
  split_ifs <;> rfl

theorem sums_length (a b : UInt64) : (sums a b).length = 4 := by
  unfold sums Worker.values
  split_ifs <;> rfl

theorem readElements_share (rank : UInt64) :
    readElements elementF32 4 (share rank) = .returns (Worker.values rank) := by
  unfold share Worker.values
  split_ifs <;> rfl

/-- **The engine adds the two shares** element by element. -/
theorem execute_shares (a b : UInt64) :
    execute (.of .allReduce) (.of .sum) (.of .float32) 4 0 2 [share a, share b] =
      .returns [(sums a b).flatMap elementF32.store, (sums a b).flatMap elementF32.store] := by
  have hexecute : execute (.of .allReduce) (.of .sum) (.of .float32) 4 0 2 [share a, share b] =
      allReduce [share a, share b] (.of .float32) (.of .sum) 16 2 := rfl
  have hsum : (((Worker.values a).zip (Worker.values b)).mapM fun p =>
      opF32 (.of .sum) p.1 p.2) = some (sums a b) := List.mapM_pure
  have hstep : reduceStep elementF32 (.of .sum) 4 (Worker.values a) (share b) =
      .returns (sums a b) := by
    rw [reduceStep, readElements_share, Outcome.returns_bind]
    exact congrArg Outcome.ofOption hsum
  have hloop : [share b].foldlM (reduceStep elementF32 (.of .sum) 4) (Worker.values a) =
      .returns (sums a b) := by
    rw [List.foldlM_cons, hstep]
    rfl
  have hreduce : reduceInto [share a, share b] (.of .float32) (.of .sum) 16 2 =
      .returns ((sums a b).flatMap elementF32.store) := by
    have h := @doReduce_cons _ (.of .sum) 4 elementF32 (by decide) (share a) [share b]
    rw [readElements_share, Outcome.returns_bind, hloop, Outcome.returns_bind] at h
    exact h
  rw [hexecute, allReduce]
  rcases checksize_cases [share a, share b] 16 2 with ⟨-, -, hcheck⟩ | ⟨hsizes, message, -⟩
  · rw [hcheck, Outcome.returns_bind, if_pos (by decide), hreduce]
    rfl
  · refine absurd ⟨le_rfl, ?_⟩ hsizes
    simp [share_length]

/-- The two contributions of a round are the shares of these ranks. -/
def Round.Shared (r : Round) (a b : UInt64) : Prop :=
  r.contributions.map (·.bytes.toList) = [share a, share b]

/-- The first float of the sum. -/
def firstSum (a b : UInt64) : UInt32 := (sums a b).headD 0

namespace Round

variable {r : Round} {a b : UInt64}

theorem output_of_shared (h : r.Shared a b) : r.output = (sums a b).flatMap elementF32.store := by
  rw [output, h, execute_shares]

theorem output_length (h : r.Shared a b) : r.output.length = 16 := by
  have hstore : ∀ v ∈ sums a b, (elementF32.store v).length = 4 := by
    intro v _
    show (storeLe 4 v.toNat).length = 4
    rw [storeLe, List.length_reverse, BigEndian.digits_length]
  rw [output_of_shared h, List.length_flatMap, List.map_congr_left hstore, List.map_const',
    List.sum_replicate, sums_length]
  rfl

/-- What a worker prints of the result, and the coordinator of the sum. -/
theorem first_output (h : r.Shared a b) :
    UInt32.ofNat (loadLe (r.output.take 4)) = firstSum a b := by
  obtain ⟨v, vs, hv⟩ := List.exists_cons_of_length_eq_add_one (sums_length a b)
  have htake : r.output.take 4 = elementF32.store v := by
    rw [output_of_shared h, hv, List.flatMap_cons]
    refine List.take_left' ?_
    show (storeLe 4 v.toNat).length = 4
    rw [storeLe, List.length_reverse, BigEndian.digits_length]
  rw [htake, firstSum, hv]
  exact load_store v

end Round

end CollectiveFabric
