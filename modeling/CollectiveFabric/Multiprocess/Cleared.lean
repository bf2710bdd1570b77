import CollectiveFabric.Multiprocess.Model.Recover
import CollectiveFabric.Store.Frame

/-!
# What recovery reports

The coordinator clears the live boot of the runtime it recovers and puts
no measurement in it. The state both recovery paths work on is the one
`load` returns, and that is the one that was saved: a measurement saved
as current is loaded as current, and the command line says so.
-/

namespace CollectiveFabric

namespace Recover

open Common Store

/-! ## The recovered runtime -/

/-- Rebuilding the groups leaves the authority and the measurements. -/
theorem rebuildRuntime_frame (rt : Runtime) (pgs : List PersistedGroup) (envs : ℕ → Ambient) :
    (rebuildRuntime rt pgs envs).2.authority = rt.authority ∧
      (rebuildRuntime rt pgs envs).2.measurements = rt.measurements := by
  induction pgs generalizing rt envs with
  | nil => exact ⟨rfl, rfl⟩
  | cons pg rest ih =>
    rw [rebuildRuntime]
    split
    · exact ⟨rfl, rfl⟩
    · next g _ =>
      have hregister : (rt.registerGroup g).2.authority = rt.authority ∧
          (rt.registerGroup g).2.measurements = rt.measurements := by
        rw [Runtime.registerGroup]
        split_ifs
        · exact ⟨rfl, rfl⟩
        · exact ⟨rfl, rfl⟩
      split
      · next heq => rwa [heq] at hregister
      · next rt' heq =>
        rw [heq] at hregister
        obtain ⟨hauthority, hmeasurements⟩ := ih rt' fun i => envs (i + 1)
        exact ⟨hauthority.trans hregister.1, hmeasurements.trans hregister.2⟩

/-- **The coordinator recovers without live authority**, in the epoch it
loaded, and with no measurement. -/
theorem runRecover_listening {buf : List UInt8} {envs : ℕ → Ambient} {rt : Runtime}
    (h : (runRecover buf envs).2 = .listening rt) :
    ∃ s res, load buf = .ok (s, res) ∧ rt.authority = { epoch := s.epoch } ∧
      rt.measurements = ∅ := by
  rw [runRecover] at h
  split at h
  · cases h
  · next s res hload =>
    split_ifs at h
    have hframe := rebuildRuntime_frame (startRuntime s) s.groups.toList envs
    split at h
    · cases h
    · next rt' heq =>
      cases h
      rw [heq] at hframe
      exact ⟨s, res, hload, hframe.1, hframe.2⟩

/-! ## Main results -/

/-- No live boot and no current measurement. -/
structure Dormant (s : PersistentState) : Prop where
  boot : s.liveBoot.isNull = true
  measurements : ∀ m ∈ s.measurements.toList, m.freshness ≠ .of .current

/-- **Recovery clears live state**: whatever comes of the file a state is
saved in, the state that is loaded, what the command line prints of its
measurements and the runtime the coordinator listens with are free of
live authority and of current measurements. -/
structure Clears (s : PersistentState) : Prop where
  loaded : ∀ s' res, load (file s) = .ok (s', res) → Dormant s'
  printed : ∀ lines, cmdRecover (file s) = .ok lines → .freshness "CURRENT" ∉ lines
  runtime : ∀ envs rt, (runRecover (file s) envs).2 = .listening rt →
    rt.authority.liveBoot.isNull = true ∧
      ∀ (id : MeasurementId) (m : CollectiveMeasurement), rt.measurements[id]? = some m →
        m.freshness ≠ .of .current

theorem named_of_toString {f : Scoped MeasurementFreshness}
    (h : measurementFreshnessToString f = "CURRENT") : f.named = some .current := by
  rw [measurementFreshnessToString] at h
  split at h
  · assumption
  all_goals exact absurd h (by decide)

theorem eq_current_of_toString {f : Scoped MeasurementFreshness}
    (h : measurementFreshnessToString f = "CURRENT") : f = .of .current :=
  congrArg Scoped.mk (eq_toRaw_of_getElem? (by rintro ⟨⟩ <;> rfl) (by decide) (named_of_toString h))

/-- **Recovery clears what was not live.** It clears live state exactly for
a state that, if the store keeps it at all, was saved without a live boot
and without a current measurement. -/
theorem clears_iff (s : PersistentState) :
    Clears s ↔ (InDomain s → (encode s).length < 2 ^ 64 → Dormant s) := by
  constructor
  · intro h hdomain hlen
    exact h.loaded s _ (load_file ((fits_iff s).2 hdomain) hlen)
  · intro h
    have hloaded {s' res} (hload : load (file s) = .ok (s', res)) : Dormant s' := by
      obtain ⟨⟨hfits, hlen⟩, rfl, -⟩ := (load_file_iff s).1 hload
      exact h ((fits_iff s').1 hfits) hlen
    refine ⟨fun s' res => hloaded, fun lines hlines hmem => ?_, fun envs rt hrt => ?_⟩
    · rw [cmdRecover] at hlines
      split at hlines
      · cases hlines
      · next s' res hload =>
        cases hlines
        obtain ⟨m, hm, hname⟩ : ∃ m ∈ s'.measurements.toList,
            Line.freshness (measurementFreshnessToString m.freshness) = .freshness "CURRENT" := by
          simpa using hmem
        exact (hloaded hload).measurements m hm
          (eq_current_of_toString (Line.freshness.inj hname))
    · obtain ⟨s', res, -, hauthority, hmeasurements⟩ := runRecover_listening hrt
      rw [hauthority, hmeasurements]
      exact ⟨rfl, fun id m hm => by cases hm⟩

/-- The measurement the command line saves, in a state with a live boot. -/
def liveState : PersistentState where
  epoch := ⟨1⟩
  liveBoot := ⟨100⟩
  measurements := ⟨[cmdMeasurement], by decide⟩

/-- **A live state is recovered live**: the file is loaded with its live
boot and its current measurement, which the command line prints as
current. -/
theorem not_clears_liveState :
    (∃ res, load (file liveState) = .ok (liveState, res)) ∧ liveState.liveBoot.isNull = false ∧
      cmdRecover (file liveState) =
        .ok [.loaded 0 1, .freshness "CURRENT", .remain "REVALIDATION_REQUIRED", .provenance] ∧
      ¬ Clears liveState := by
  have hload : load (file liveState) = .ok (liveState, saveResult liveState) :=
    load_file ((fits_iff _).2 (by constructor <;> decide)) (by decide +kernel)
  have hprinted : cmdRecover (file liveState) =
      .ok [.loaded 0 1, .freshness "CURRENT", .remain "REVALIDATION_REQUIRED", .provenance] := by
    rw [cmdRecover, hload]
    rfl
  refine ⟨⟨_, hload⟩, rfl, hprinted, fun h => ?_⟩
  exact absurd (h.printed _ hprinted) (by decide)

end Recover

end CollectiveFabric
