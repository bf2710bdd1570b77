import Mathlib.Data.List.Nodup
import CollectiveFabric.Store.Canonical

/-!
# Identities in an accepted payload

What the decoder accepts fits: of groups, of participants within a group
and of measurements it keeps the identities it has seen and refuses one
that comes again. It keeps none of the backends, so a payload that lists a
backend twice is accepted. Where the ids of the backends stand in a payload
follows from its counts and lengths, like its flags.
-/

namespace CollectiveFabric

namespace Store

open Common Reader CanonicalReader

/-- **No identity twice**: of groups and their generations, of participants
and ranks within a group, of measurements and of backends. -/
structure NoDuplicates (s : PersistentState) : Prop where
  groups : (s.groups.toList.map fun g => (g.groupId, g.generation)).Nodup
  participants : ∀ g ∈ s.groups.toList, (g.participants.toList.map (·.participantId)).Nodup
  ranks : ∀ g ∈ s.groups.toList, (g.participants.toList.map (·.rank)).Nodup
  measurements : (s.measurements.toList.map (·.id)).Nodup
  backends : (s.backends.toList.map (·.id)).Nodup

/-- **What `decode` accepts fits.** -/
theorem fits_of_decode {b : List UInt8} {s : PersistentState} (h : decode b = .ok s) : Fits s := by
  obtain ⟨r, hread, -⟩ := readState_of_decode h
  obtain ⟨bs, ⟨hfits, -⟩, -⟩ := took_state.returns _ s r hread
  exact hfits

/-- The walk over the backends stands at the id of each in turn. -/
theorem number_backend (xs : List PersistedBackend) (t fs : List UInt8) {i : ℕ}
    (hi : i < xs.length) :
    (Scan.backend^[i] ⟨xs.flatMap backendBytes ++ t, fs⟩).number = xs[i].id.raw.toNat := by
  induction xs generalizing i with
  | nil => exact absurd hi (Nat.not_lt_zero i)
  | cons x xs ih =>
    rw [List.flatMap_cons, backendBytes, List.append_assoc, List.append_assoc, List.append_assoc]
    cases i with
    | zero => exact Scan.number_mk x.id.raw
    | succ i =>
      rw [Function.iterate_succ_apply, Scan.backend, Scan.word_mk, Scan.word_mk, Scan.text_mk]
      exact ih (by simpa using hi)

/-- **The ids of a payload's backends** are those of the state it decodes
to. -/
theorem backendIds_of_decode {b : List UInt8} {s : PersistentState} (h : decode b = .ok s) :
    backendIds b = s.backends.toList.map (·.id.raw.toNat) := by
  obtain ⟨r, hread, hend⟩ := readState_of_decode h
  obtain ⟨bs, ⟨-, -, hwalk⟩, hview, -⟩ := took_state.returns _ s r hread
  have hbs : b = bs := by rwa [hend, List.append_nil] at hview
  obtain ⟨gs, u, hbackends⟩ := hwalk []
  rw [List.append_nil, ← hbs] at hbackends
  refine List.ext_getElem ?_ fun i hi hi' => ?_
  · simp [backendIds, hbackends, Scan.number_mk]
  · rw [List.length_map] at hi'
    simp only [backendIds, hbackends, Scan.word_mk, List.getElem_map, List.getElem_range]
    exact number_backend _ u gs hi'

/-- **No duplicate identity survives decoding but a backend's.** In the
state of an accepted payload no identity is there twice exactly if the
payload lists no backend id twice. -/
theorem noDuplicates_iff (b : List UInt8) (s : PersistentState) (h : decode b = .ok s) :
    NoDuplicates s ↔ (backendIds b).Nodup := by
  have hfits := fits_of_decode h
  have hids : (s.backends.toList.map (·.id.raw.toNat)).Nodup ↔
      (s.backends.toList.map (·.id)).Nodup := by
    have hraw : Function.Injective fun id : BackendId => id.raw.toNat := by
      rintro ⟨i⟩ ⟨j⟩ hij
      rw [UInt64.toNat_inj.1 (show i.toNat = j.toNat from hij)]
    have hmap := List.nodup_map_iff (l := s.backends.toList.map (·.id)) hraw
    rwa [List.map_map] at hmap
  rw [backendIds_of_decode h, hids]
  refine ⟨fun hdistinct => hdistinct.backends, fun hbackends => ?_⟩
  exact ⟨hfits.groupKeys, fun g hg => (hfits.groups g hg).ids,
    fun g hg => (hfits.groups g hg).ranks, hfits.measurementIds, hbackends⟩

/-- Two backends of different ids. -/
theorem noDuplicates_two :
    NoDuplicates { backends := ⟨[{ id := ⟨1⟩ }, { id := ⟨2⟩ }], by decide⟩ } :=
  (noDuplicates_iff _ _ (decode_encode_of_fits ((fits_iff _).2 (by constructor <;> decide)))).2
    (by decide +kernel)

/-- **A backend saved twice is loaded twice.** -/
theorem not_noDuplicates_backends :
    decode (encode { backends := ⟨[{ id := ⟨1⟩ }, { id := ⟨1⟩ }], by decide⟩ }) =
        .ok { backends := ⟨[{ id := ⟨1⟩ }, { id := ⟨1⟩ }], by decide⟩ } ∧
      ¬ NoDuplicates { backends := ⟨[{ id := ⟨1⟩ }, { id := ⟨1⟩ }], by decide⟩ } := by
  refine ⟨decode_encode_of_fits ((fits_iff _).2 (by constructor <;> decide)), ?_⟩
  intro h
  exact absurd h.backends (by decide)

end Store

end CollectiveFabric
