import CollectiveFabric.Engine.Validation
import CollectiveFabric.Group.Construction
import CollectiveFabric.Multiprocess.Forming

/-!
# Where a worker's bytes reach a validator

Two calls of the coordinator throw for values that workers send: the
builder of a group, for the boots of the two workers, and the engine, for
the sizes of the two contributions. Both throw exactly for what they
validate, and nothing else about the values matters.
-/

namespace CollectiveFabric

open Common

/-- Two boots a group can be formed of. -/
structure Formable (boot₀ boot₁ : UInt64) : Prop where
  first : boot₀ ≠ 0
  second : boot₁ ≠ 0
  apart : boot₀ ≠ boot₁

instance (boot₀ boot₁ : UInt64) : Decidable (Formable boot₀ boot₁) :=
  decidable_of_iff (boot₀ ≠ 0 ∧ boot₁ ≠ 0 ∧ boot₀ ≠ boot₁)
    ⟨fun h => ⟨h.1, h.2.1, h.2.2⟩, fun h => ⟨h.first, h.second, h.apart⟩⟩

theorem Formable.symm {boot₀ boot₁ : UInt64} (h : Formable boot₀ boot₁) : Formable boot₁ boot₀ :=
  ⟨h.second, h.first, h.apart.symm⟩

/-! ## Forming a group -/

/-- What `validate` throws is a validation error. -/
theorem GroupBuilder.code_of_validate {b : GroupBuilder} {err : Error}
    (h : b.validate = .error err) : err.code = .validation := by
  cases hfirst : firstDuplicate b.participants.toList with
  | some message =>
    simp only [validate, hfirst] at h
    split_ifs at h
    all_goals
      cases h
      rfl
  | none =>
    simp only [validate, hfirst] at h
    split_ifs at h
    all_goals
      cases h
      rfl

theorem GroupBuilder.code_of_build {b : GroupBuilder} {err : Error}
    (h : b.build.1 = .error err) : err.code = .validation := by
  simp only [build] at h
  split at h
  · next he =>
    cases h
    exact code_of_validate he
  · cases h

section

variable {rt rt' : Runtime} {env : Ambient} {w₀ w₁ : WorkerState} {gen : UInt64}

/-- **The builder of `form_group`** builds a group of two workers exactly if
their boots are identities of their own. -/
theorem build_formBuilder_iff (hgen : gen ≠ 0) (u v : WorkerState) :
    (∃ g, (formBuilder env [u, v] gen Coordinator.topoGeneration).build.1 = .ok g) ↔
      Formable u.boot v.boot := by
  let b : GroupBuilder :=
    { id := groupId
      generation := ⟨gen⟩
      membership := ⟨gen⟩
      topology := Coordinator.topoGeneration
      backend := ⟨1⟩
      lifecycle := .of .ready
      provenance := makeSource env "multiprocess group" .derived }
  let added : List Added :=
    [⟨⟨u.boot⟩, ⟨u.boot⟩, ⟨u.boot⟩, ⟨1⟩, ⟨1 + UInt64.ofNat 0⟩, ⟨1⟩, ⟨UInt64.ofNat 0⟩⟩,
      ⟨⟨v.boot⟩, ⟨v.boot⟩, ⟨v.boot⟩, ⟨1⟩, ⟨1 + UInt64.ofNat 1⟩, ⟨1⟩, ⟨UInt64.ofNat 1⟩⟩]
  have hbuilder : formBuilder env [u, v] gen Coordinator.topoGeneration = b.addAll added := rfl
  have hsize : added.length < 2 ^ 64 := by
    change 2 < 2 ^ 64
    decide
  have hnull : ∃ a ∈ added, a.rank.isNull = true := ⟨_, List.mem_cons_self, rfl⟩
  rw [hbuilder, GroupBuilder.build_iff rfl hsize hnull]
  constructor
  · intro h
    have hids := h.ids
    have hknown := h.known
    simp only [added, List.map_cons, List.map_nil, List.nodup_cons, List.mem_singleton,
      StrongId.mk.injEq] at hids
    simp only [added, List.forall_mem_cons, StrongId.isNull, beq_eq_false_iff_ne] at hknown
    exact ⟨hknown.1.1, hknown.2.1.1, hids.1⟩
  · intro h
    refine ⟨by simp [added], ?_, rfl, ?_, ?_, ?_⟩
    · simpa [b, Generation.isNull] using hgen
    · simpa [added] using h.apart
    · simpa [added] using h.apart
    · simp [added, StrongId.isNull, h.first, h.second]

/-- The two workers in the order of their boots. -/
theorem exists_ordered (w₀ w₁ : WorkerState) :
    ∃ u v, (if w₁.boot < w₀.boot then [w₁, w₀] else [w₀, w₁]) = [u, v] ∧
      (Formable u.boot v.boot ↔ Formable w₀.boot w₁.boot) := by
  split_ifs
  · exact ⟨w₁, w₀, rfl, Formable.symm, Formable.symm⟩
  · exact ⟨w₀, w₁, rfl, Iff.rfl⟩

/-- **`form_group` succeeds** for a new generation exactly if the workers'
boots are identities of their own. -/
theorem formGroup_iff (hgen : gen ≠ 0) (hnew : rt.findGroup groupId ⟨gen⟩ = none) :
    (∃ g rt', formGroup rt env w₀ w₁ gen Coordinator.topoGeneration = (.ok g, rt')) ↔
      Formable w₀.boot w₁.boot := by
  obtain ⟨u, v, hordered, hformable⟩ := exists_ordered w₀ w₁
  rw [← hformable, ← @build_formBuilder_iff env gen hgen u v]
  constructor
  · rintro ⟨g, rt', h⟩
    simp only [formGroup, hordered] at h
    split at h
    · cases h
    · next g' hbuild => exact ⟨g', hbuild⟩
  · rintro ⟨g, hbuild⟩
    have hkey := key_formGroup (hordered ▸ hbuild)
    have hfree : ¬ ((g.id, g.generation) : GroupKey) ∈ rt.groups := by
      rw [hkey.1, hkey.2]
      exact fun hmem => absurd hnew (by simpa [Runtime.findGroup] using hmem)
    exact ⟨g, _, formGroup_of_build hordered hbuild hfree⟩

/-- Whatever `form_group` throws is no error of the file system. -/
theorem code_of_formGroup {topoGen : TopologyGeneration} {err : Error}
    (h : formGroup rt env w₀ w₁ gen topoGen = (.error err, rt')) : err.code ≠ .io := by
  simp only [formGroup] at h
  split at h
  · next hbuild =>
    cases h
    rw [GroupBuilder.code_of_build hbuild]
    decide
  · unfold Runtime.registerGroup at h
    split_ifs at h
    · cases h
      decide
    · cases h

end

/-! ## Handing a round to the engine -/

namespace ReferenceEngine

/-- A row of floats is there to read. -/
theorem readElements_float {n : ℕ} {buffer : List UInt8} (hlength : buffer.length = n * 4) :
    ∃ row, readElements elementF32 n buffer = .returns row :=
  ⟨_, if_neg (not_lt.2 hlength.ge)⟩

/-- A sum of floats is always defined. -/
theorem reduceStep_float {n : ℕ} (dst : List UInt32) {buffer : List UInt8}
    (hlength : buffer.length = n * 4) :
    ∃ dst', reduceStep elementF32 (.of .sum) n dst buffer = .returns dst' := by
  obtain ⟨src, hread⟩ := readElements_float hlength
  let row := (dst.zip src).map fun p => (Float32.ofBits p.1 + Float32.ofBits p.2).toBits
  have hsum : ((dst.zip src).mapM fun p => opF32 (.of .sum) p.1 p.2) = some row :=
    List.mapM_pure
  refine ⟨row, ?_⟩
  rw [reduceStep, hread, Outcome.returns_bind]
  exact congrArg Outcome.ofOption hsum

/-- So is the sum of two rows. -/
theorem doReduce_float {n : ℕ} {x y : List UInt8} (hx : x.length = n * 4) (hy : y.length = n * 4) :
    ∃ output, doReduce elementF32 [x, y] (.of .sum) (n * 4) 2 = .returns output := by
  obtain ⟨start, hstart⟩ := readElements_float hx
  obtain ⟨row, hrow⟩ := reduceStep_float start hy
  refine ⟨row.flatMap elementF32.store, ?_⟩
  have hreduce := @doReduce_cons _ (.of .sum) n elementF32 (by decide) x [y]
  rw [hstart, Outcome.returns_bind, List.foldlM_cons] at hreduce
  have hloop : (reduceStep elementF32 (.of .sum) n start y >>= fun row =>
      [].foldlM (reduceStep elementF32 (.of .sum) n) row) = .returns row := by
    rw [hrow]
    rfl
  rw [hloop] at hreduce
  exact hreduce

/-- **The round of two contributions** returns, exactly if each is four
floats long. -/
theorem execute_pair (x y : List UInt8) :
    (x.length = 16 ∧ y.length = 16 ∧ ∃ output, execute (.of .allReduce) (.of .sum) (.of .float32)
      4 0 2 [x, y] = .returns [output, output]) ∨
    (¬(x.length = 16 ∧ y.length = 16) ∧ ∃ message, execute (.of .allReduce) (.of .sum)
      (.of .float32) 4 0 2 [x, y] = .throws ⟨.validation, message⟩) := by
  have hexecute : execute (.of .allReduce) (.of .sum) (.of .float32) 4 0 2 [x, y] =
      allReduce [x, y] (.of .float32) (.of .sum) 16 2 := rfl
  rw [hexecute, allReduce]
  rcases checksize_cases [x, y] 16 2 with ⟨-, hsizes, hcheck⟩ | ⟨hsizes, message, hcheck⟩
  · obtain ⟨hx, hy⟩ : x.length = 16 ∧ y.length = 16 := by simpa using hsizes
    obtain ⟨output, houtput⟩ := @doReduce_float 4 x y hx hy
    have hreduce : reduceInto [x, y] (.of .float32) (.of .sum) 16 2 = .returns output := houtput
    refine .inl ⟨hx, hy, output, ?_⟩
    rw [hcheck, Outcome.returns_bind, if_pos (by decide), hreduce]
    rfl
  · refine .inr ⟨fun h => hsizes ⟨le_rfl, by simpa using h⟩, message, ?_⟩
    rw [hcheck]
    rfl

end ReferenceEngine

end CollectiveFabric
