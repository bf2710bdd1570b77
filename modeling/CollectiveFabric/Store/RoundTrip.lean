import CollectiveFabric.Store.Model.State
import CollectiveFabric.Digest.Canonical

/-!
# The store decodes exactly what it should

Each reader of the decoder is paired with the bytes the encoder writes
for its record, and what it refuses is read off its checks. Composed over
the three nested loops this gives the domain of the format: on a state in
it the decoder returns the state, on any other it throws.
-/

namespace CollectiveFabric

namespace Store

open Common Reader CanonicalReader
open CanonicalWriter (u64_buf u8_buf boolean_buf string_buf foldl_buf)

/-! ## The bytes of each record -/

/-- The eight bytes of an integer. -/
def word (v : UInt64) : List UInt8 := CanonicalWriter.beBytes v 8

/-- The bytes of a string, after their count. -/
def text (s : Bytes) : List UInt8 := CanonicalWriter.beBytes s.size 8 ++ s.toList

/-- The byte of a flag. -/
def flag (b : Bool) : List UInt8 := [if b then 1 else 0]

def participantBytes (p : PersistedParticipant) : List UInt8 :=
  word p.participantId.raw ++ (word p.worker.raw ++ (word p.boot.raw ++ (word p.node.raw ++
    (word p.device.raw ++ (word p.rank.raw ++ (word p.backendGeneration.value ++
      flag p.isKnown))))))

def groupBytes (g : PersistedGroup) : List UInt8 :=
  word g.groupId.raw ++ (word g.generation.value ++ (word g.membership.value ++
    (word g.topology.value ++ (word g.health.value ++ (word g.backend.value ++
      ([g.lifecycle.raw] ++ (text g.provenance ++ (word g.participants.size ++
        g.participants.toList.flatMap participantBytes))))))))

def measurementBytes (m : PersistedMeasurement) : List UInt8 :=
  word m.id.raw ++ (word m.collective.raw ++ (word m.collectiveGeneration.value ++
    (word m.groupGeneration.value ++ ([m.algorithm.raw] ++ (word m.backend.raw ++
      (word m.rankCount ++ (word m.payloadBytes ++ (word m.wallTimeUs ++ ([m.provenance.raw] ++
        ([m.freshness.raw] ++ (word m.timestampNs ++ (word m.measurementGeneration.value ++
          flag m.success))))))))))))

def healthBytes (health : Option PersistedHealth) : List UInt8 :=
  flag health.isSome ++
    match health with
    | none => []
    | some h => [h.state.raw] ++ (word h.generation.value ++ (word h.observedNs ++
        text h.narrative))

def backendBytes (b : PersistedBackend) : List UInt8 :=
  word b.id.raw ++ (word b.generation.value ++ text b.name)

theorem writeParticipant_buf (w : CanonicalWriter) (p : PersistedParticipant) :
    (writeParticipant w p).buf = w.buf ++ participantBytes p := by
  simp only [writeParticipant, u64_buf, boolean_buf, participantBytes, word, flag,
    List.append_assoc]

theorem writeGroup_buf (w : CanonicalWriter) (g : PersistedGroup) :
    (writeGroup w g).buf = w.buf ++ groupBytes g := by
  simp only [writeGroup, foldl_buf writeParticipant_buf, u64_buf, u8_buf, string_buf, groupBytes,
    word, text, List.append_assoc]

theorem writeMeasurement_buf (w : CanonicalWriter) (m : PersistedMeasurement) :
    (writeMeasurement w m).buf = w.buf ++ measurementBytes m := by
  simp only [writeMeasurement, u64_buf, u8_buf, boolean_buf, measurementBytes, word, flag,
    List.append_assoc]

theorem writeHealth_buf (w : CanonicalWriter) (health : Option PersistedHealth) :
    (writeHealth w health).buf = w.buf ++ healthBytes health := by
  cases health <;>
    simp only [writeHealth, u64_buf, u8_buf, boolean_buf, string_buf, healthBytes, word, text,
      flag, List.append_assoc, List.append_nil]

theorem writeBackend_buf (w : CanonicalWriter) (b : PersistedBackend) :
    (writeBackend w b).buf = w.buf ++ backendBytes b := by
  simp only [writeBackend, u64_buf, string_buf, backendBytes, word, text, List.append_assoc]

/-- **The payload**, field by field. -/
theorem encode_eq (s : PersistentState) :
    encode s = word s.formatVersion ++ (word s.epoch.value ++ (word s.liveBoot.raw ++
      (word s.groups.size ++ (s.groups.toList.flatMap groupBytes ++
        (word s.measurements.size ++ (s.measurements.toList.flatMap measurementBytes ++
          (healthBytes s.health ++ (word s.backends.size ++
            (s.backends.toList.flatMap backendBytes ++
              (word s.policyCount ++ word s.savedNs)))))))))) := by
  simp only [encode, u64_buf, foldl_buf writeGroup_buf, foldl_buf writeMeasurement_buf,
    foldl_buf writeBackend_buf, writeHealth_buf, word, List.nil_append, List.append_assoc]

/-! ## What the decoder's steps decide -/

/-- A decoder's contract against an encoding: it throws `DECODE` errors. -/
abbrev Reads {α : Type} (p : Decoder α) (bs : List UInt8) (good : Prop) (a : α) : Prop :=
  Decides CanonicalReader.rest (fun e : Error => e.code = .decode) p bs good a

variable {α γ : Type} {bs cs : List UInt8} {good : Prop} {c : γ}

theorem reads_need {read : CanonicalReader → Option α × CanonicalReader} {a : α}
    (h : Takes read bs a) (message : String) : Reads (need read message) bs True a := by
  refine ⟨fun _ r t hr => ?_, fun hn => absurd trivial hn⟩
  obtain ⟨r', hread, hrest⟩ := h r t hr
  exact ⟨r', by rw [need, hread], hrest⟩

/-- A read followed by the rest of a decoder. -/
theorem reads_need_bind {read : CanonicalReader → Option α × CanonicalReader} {a : α}
    {f : α → Decoder γ} {message : String} (h : Takes read bs a) (hf : Reads (f a) cs good c) :
    Reads (need read message >>= f) (bs ++ cs) good c :=
  (Decides.bind (reads_need h message) fun _ => hf).of_iff ⟨fun h => h.2, fun h => ⟨trivial, h⟩⟩

/-- A check followed by the rest of a decoder. -/
theorem reads_refuse_bind {bad : Prop} [Decidable bad] {f : Unit → Decoder γ} {message : String}
    (hf : ¬ bad → Reads (f ()) cs good c) :
    Reads (refuse bad message >>= f) cs (¬ bad ∧ good) c := by
  have hcheck : Reads (refuse bad message) [] (¬ bad) () :=
    Decides.check (E := fun e : Error => e.code = .decode) (e := Error.mk .decode message) rfl bad
  exact Decides.bind hcheck hf

/-! ## Records -/

/-- The loop's state after a list of participants. -/
def participantLoop (ps : List PersistedParticipant) : ParticipantLoop :=
  ⟨ps, ps.map (·.participantId), ps.map (·.rank)⟩

theorem reads_participant (pre : List PersistedParticipant) (p : PersistedParticipant) :
    Reads (readParticipant (participantLoop pre)) (participantBytes p)
      (p.participantId ∉ pre.map (·.participantId) ∧ p.rank ∉ pre.map (·.rank))
      (participantLoop (pre ++ [p])) := by
  have hend : participantLoop (pre ++ [p]) =
      ⟨pre ++ [p], pre.map (·.participantId) ++ [p.participantId],
        pre.map (·.rank) ++ [p.rank]⟩ := by
    simp only [participantLoop, List.map_append, List.map_cons, List.map_nil]
  have h : Reads (readParticipant (participantLoop pre)) (participantBytes p ++ [])
      (p.participantId ∉ pre.map (·.participantId) ∧ p.rank ∉ pre.map (·.rank) ∧ True)
      (participantLoop (pre ++ [p])) := by
    rw [hend]
    simp only [participantBytes, List.append_assoc]
    exact reads_need_bind (takes_u64 _) <| reads_need_bind (takes_u64 _) <|
      reads_need_bind (takes_u64 _) <| reads_need_bind (takes_u64 _) <|
      reads_need_bind (takes_u64 _) <| reads_need_bind (takes_u64 _) <|
      reads_need_bind (takes_u64 _) <| reads_need_bind (takes_boolean _) <|
      reads_refuse_bind fun _ => reads_refuse_bind fun _ => Decides.pure _
  simpa only [List.append_nil, and_true] using h

theorem admitted_participants (ps : List PersistedParticipant) :
    Admitted (fun pre p => p.participantId ∉ pre.map (·.participantId) ∧
        p.rank ∉ pre.map (·.rank)) [] ps ↔
      (ps.map (·.participantId)).Nodup ∧ (ps.map (·.rank)).Nodup := by
  rw [admitted_and, admitted_nodup, admitted_nodup]
  simp only [List.map_nil, List.not_mem_nil, not_false_eq_true, implies_true, and_true]

/-- The checks on a group but for the one against the groups before it. -/
structure GroupFits (g : PersistedGroup) : Prop where
  lifecycle : validLifecycle g.lifecycle.raw = true
  count : ¬ g.participants.size > maxCount
  ids : (g.participants.toList.map (·.participantId)).Nodup
  ranks : (g.participants.toList.map (·.rank)).Nodup

/-- What tells one group from another. -/
def groupKey (g : PersistedGroup) : CollectiveGroupId × GroupGeneration :=
  (g.groupId, g.generation)

/-- The loop's state after a list of groups. -/
def groupLoop (gs : List PersistedGroup) : GroupLoop := ⟨gs, gs.map groupKey⟩

theorem reads_group (pre : List PersistedGroup) (g : PersistedGroup) :
    Reads (readGroup (groupLoop pre)) (groupBytes g)
      (groupKey g ∉ pre.map groupKey ∧ GroupFits g) (groupLoop (pre ++ [g])) := by
  have hend : groupLoop (pre ++ [g]) =
      ⟨pre ++ [{ g with participants := .ofList g.participants.toList }],
        pre.map groupKey ++ [(g.groupId, g.generation)]⟩ := by
    simp only [groupLoop, List.map_append, List.map_cons, List.map_nil, Vec.ofList_toList, groupKey]
  have hps : Reads (Reader.iterate readParticipant g.participants.size.toNat {})
      (g.participants.toList.flatMap participantBytes)
      ((g.participants.toList.map (·.participantId)).Nodup ∧
        (g.participants.toList.map (·.rank)).Nodup)
      (participantLoop g.participants.toList) := by
    rw [Vec.toNat_size]
    exact (Decides.iterate reads_participant g.participants.toList []).of_iff
      (admitted_participants _)
  have h : Reads (readGroup (groupLoop pre)) (groupBytes g ++ [])
      (¬ (¬ validLifecycle g.lifecycle.raw) ∧ ¬ g.participants.size > maxCount ∧
        ((g.participants.toList.map (·.participantId)).Nodup ∧
          (g.participants.toList.map (·.rank)).Nodup) ∧ groupKey g ∉ pre.map groupKey ∧ True)
      (groupLoop (pre ++ [g])) := by
    rw [hend]
    simp only [groupBytes, List.append_assoc]
    exact reads_need_bind (takes_u64 _) <| reads_need_bind (takes_u64 _) <|
      reads_need_bind (takes_u64 _) <| reads_need_bind (takes_u64 _) <|
      reads_need_bind (takes_u64 _) <| reads_need_bind (takes_u64 _) <|
      reads_need_bind (takes_u8 _) <| reads_refuse_bind fun _ =>
      reads_need_bind (takes_string _) <| reads_need_bind (takes_u64 _) <|
      reads_refuse_bind fun _ => hps.bind fun _ =>
      reads_refuse_bind fun _ => Decides.pure _
  rw [List.append_nil] at h
  refine h.of_iff ⟨fun ⟨hl, hc, ⟨hi, hr⟩, hk, _⟩ => ⟨hk, not_not.1 hl, hc, hi, hr⟩,
    fun ⟨hk, hf⟩ => ⟨not_not.2 hf.lifecycle, hf.count, ⟨hf.ids, hf.ranks⟩, hk, trivial⟩⟩

/-- The checks on a measurement but for the one against those before it. -/
structure MeasurementFits (m : PersistedMeasurement) : Prop where
  algorithm : validAlgorithm m.algorithm.raw = true
  provenance : validProv m.provenance.raw = true
  freshness : validFresh m.freshness.raw = true

/-- The loop's state after a list of measurements. -/
def measurementLoop (ms : List PersistedMeasurement) : MeasurementLoop := ⟨ms, ms.map (·.id)⟩

theorem reads_measurement (pre : List PersistedMeasurement) (m : PersistedMeasurement) :
    Reads (readMeasurement (measurementLoop pre)) (measurementBytes m)
      (m.id ∉ pre.map (·.id) ∧ MeasurementFits m) (measurementLoop (pre ++ [m])) := by
  have hend : measurementLoop (pre ++ [m]) = ⟨pre ++ [m], pre.map (·.id) ++ [m.id]⟩ := by
    simp only [measurementLoop, List.map_append, List.map_cons, List.map_nil]
  have h : Reads (readMeasurement (measurementLoop pre)) (measurementBytes m ++ [])
      (¬ (¬ validAlgorithm m.algorithm.raw) ∧
        ¬ (¬ validProv m.provenance.raw ∨ ¬ validFresh m.freshness.raw) ∧
        m.id ∉ pre.map (·.id) ∧ True) (measurementLoop (pre ++ [m])) := by
    rw [hend]
    simp only [measurementBytes, List.append_assoc]
    exact reads_need_bind (takes_u64 _) <| reads_need_bind (takes_u64 _) <|
      reads_need_bind (takes_u64 _) <| reads_need_bind (takes_u64 _) <|
      reads_need_bind (takes_u8 _) <| reads_refuse_bind fun _ =>
      reads_need_bind (takes_u64 _) <| reads_need_bind (takes_u64 _) <|
      reads_need_bind (takes_u64 _) <| reads_need_bind (takes_u64 _) <|
      reads_need_bind (takes_u8 _) <| reads_need_bind (takes_u8 _) <|
      reads_refuse_bind fun _ => reads_need_bind (takes_u64 _) <|
      reads_need_bind (takes_u64 _) <| reads_need_bind (takes_boolean _) <|
      reads_refuse_bind fun _ => Decides.pure _
  rw [List.append_nil] at h
  refine h.of_iff ⟨fun ⟨ha, hpf, hid, _⟩ => ⟨hid, not_not.1 ha, ?_, ?_⟩,
    fun ⟨hid, hf⟩ => ⟨not_not.2 hf.algorithm, ?_, hid, trivial⟩⟩
  · exact not_not.1 (not_or.1 hpf).1
  · exact not_not.1 (not_or.1 hpf).2
  · exact not_or.2 ⟨not_not.2 hf.provenance, not_not.2 hf.freshness⟩

theorem reads_health (health : Option PersistedHealth) :
    Reads readHealth (healthBytes health) (∀ h ∈ health, validHealth h.state.raw = true)
      health := by
  cases health with
  | none =>
    have h : Reads readHealth (flag false ++ []) True none :=
      reads_need_bind (takes_boolean false) (Decides.pure _)
    exact h.of_iff (by simp)
  | some health =>
    have h : Reads readHealth (healthBytes (some health) ++ [])
        (¬ (¬ validHealth health.state.raw) ∧ True) (some health) := by
      simp only [healthBytes, List.append_assoc]
      exact reads_need_bind (takes_boolean true) <| reads_need_bind (takes_u8 _) <|
        reads_refuse_bind fun _ => reads_need_bind (takes_u64 _) <|
        reads_need_bind (takes_u64 _) <| reads_need_bind (takes_string _) <| Decides.pure _
    rw [List.append_nil] at h
    exact h.of_iff (by simp)

theorem reads_backend (pre : List PersistedBackend) (b : PersistedBackend) :
    Reads (readBackend pre) (backendBytes b) True (pre ++ [b]) := by
  have h : Reads (readBackend pre) (backendBytes b ++ []) True (pre ++ [b]) := by
    simp only [backendBytes, List.append_assoc]
    exact reads_need_bind (takes_u64 _) <| reads_need_bind (takes_u64 _) <|
      reads_need_bind (takes_string _) <| Decides.pure _
  rwa [List.append_nil] at h

/-! ## The whole state -/

/-- **The checks of the decoder**, as it makes them. -/
structure Fits (s : PersistentState) : Prop where
  version : ¬ s.formatVersion > formatVersion
  groupCount : ¬ s.groups.size > maxCount
  groupKeys : (s.groups.toList.map groupKey).Nodup
  groups : ∀ g ∈ s.groups.toList, GroupFits g
  measurementCount : ¬ s.measurements.size > maxCount
  measurementIds : (s.measurements.toList.map (·.id)).Nodup
  measurements : ∀ m ∈ s.measurements.toList, MeasurementFits m
  health : ∀ h ∈ s.health, validHealth h.state.raw = true
  backendCount : ¬ s.backends.size > maxCount

/-- A loop over records with a key, each also checked by itself. -/
theorem admitted_keyed {α κ : Type} {key : α → κ} {fit : α → Prop} (xs : List α) :
    Admitted (fun pre x => key x ∉ pre.map key ∧ fit x) [] xs ↔
      (xs.map key).Nodup ∧ ∀ x ∈ xs, fit x := by
  rw [admitted_and, admitted_nodup, admitted_forall]
  simp only [List.map_nil, List.not_mem_nil, not_false_eq_true, implies_true, and_true]

theorem reads_state (s : PersistentState) : Reads readState (encode s) (Fits s) s := by
  have hgroups : Reads (Reader.iterate readGroup s.groups.size.toNat {})
      (s.groups.toList.flatMap groupBytes)
      ((s.groups.toList.map groupKey).Nodup ∧ ∀ g ∈ s.groups.toList, GroupFits g)
      (groupLoop s.groups.toList) := by
    rw [Vec.toNat_size]
    exact (Decides.iterate reads_group s.groups.toList []).of_iff (admitted_keyed _)
  have hmeasurements : Reads (Reader.iterate readMeasurement s.measurements.size.toNat {})
      (s.measurements.toList.flatMap measurementBytes)
      ((s.measurements.toList.map (·.id)).Nodup ∧
        ∀ m ∈ s.measurements.toList, MeasurementFits m)
      (measurementLoop s.measurements.toList) := by
    rw [Vec.toNat_size]
    exact (Decides.iterate reads_measurement s.measurements.toList []).of_iff (admitted_keyed _)
  have hbackends : Reads (Reader.iterate readBackend s.backends.size.toNat [])
      (s.backends.toList.flatMap backendBytes) True s.backends.toList := by
    rw [Vec.toNat_size]
    have hiter : Reads (Reader.iterate readBackend s.backends.toList.length [])
        (s.backends.toList.flatMap backendBytes)
        (Admitted (fun _ _ => True) [] s.backends.toList) s.backends.toList :=
      Decides.iterate reads_backend s.backends.toList []
    exact hiter.of_iff ((admitted_forall _ _).trans (by simp))
  have hend : s = ⟨s.formatVersion, s.epoch, s.liveBoot, .ofList s.groups.toList,
      .ofList s.measurements.toList, s.health, .ofList s.backends.toList, s.policyCount,
      s.savedNs⟩ := by
    simp only [Vec.ofList_toList]
  have h : Reads readState (encode s ++ [])
      (¬ s.formatVersion > formatVersion ∧ ¬ s.groups.size > maxCount ∧
        ((s.groups.toList.map groupKey).Nodup ∧ ∀ g ∈ s.groups.toList, GroupFits g) ∧
        ¬ s.measurements.size > maxCount ∧
        ((s.measurements.toList.map (·.id)).Nodup ∧
          ∀ m ∈ s.measurements.toList, MeasurementFits m) ∧
        (∀ h ∈ s.health, validHealth h.state.raw = true) ∧ ¬ s.backends.size > maxCount ∧
        True ∧ True) s := by
    simp only [encode_eq, List.append_assoc]
    exact reads_need_bind (takes_u64 _) <| reads_refuse_bind fun _ =>
      reads_need_bind (takes_u64 _) <| reads_need_bind (takes_u64 _) <|
      reads_need_bind (takes_u64 _) <| reads_refuse_bind fun _ => hgroups.bind fun _ =>
      reads_need_bind (takes_u64 _) <| reads_refuse_bind fun _ => hmeasurements.bind fun _ =>
      (reads_health _).bind fun _ => reads_need_bind (takes_u64 _) <|
      reads_refuse_bind fun _ => hbackends.bind fun _ => reads_need_bind (takes_u64 _) <|
      reads_need_bind (takes_u64 _) <| hend ▸ Decides.pure _
  rw [List.append_nil] at h
  refine h.of_iff ⟨?_, ?_⟩
  · rintro ⟨hv, hgc, ⟨hk, hg⟩, hmc, ⟨hi, hm⟩, hh, hbc, -, -⟩
    exact ⟨hv, hgc, hk, hg, hmc, hi, hm, hh, hbc⟩
  · rintro ⟨hv, hgc, hk, hg, hmc, hi, hm, hh, hbc⟩
    exact ⟨hv, hgc, ⟨hk, hg⟩, hmc, ⟨hi, hm⟩, hh, hbc, trivial, trivial⟩

/-- On its own payload the decoder is at the end when the state is read. -/
theorem decode_encode_of_fits {s : PersistentState} (h : Fits s) : decode (encode s) = .ok s := by
  have hrest : (CanonicalReader.ofData (encode s)).rest = encode s ++ [] := by
    rw [List.append_nil, CanonicalReader.ofData, rest, List.drop_zero]
  obtain ⟨r, hread, hend⟩ := (reads_state s).reads h _ [] hrest
  have hatEnd : r.atEnd = true := atEnd_iff.2 hend
  rw [decode, hread]
  simp only [hatEnd, not_true_eq_false, if_false]

theorem decode_encode_of_not_fits {s : PersistentState} (h : ¬ Fits s) :
    ∃ e, e.code = .decode ∧ decode (encode s) = .error e := by
  have hrest : (CanonicalReader.ofData (encode s)).rest = encode s ++ [] := by
    rw [List.append_nil, CanonicalReader.ofData, rest, List.drop_zero]
  obtain ⟨e, hcode, hread⟩ := (reads_state s).refuses h _ [] hrest
  exact ⟨e, hcode, by rw [decode, hread]⟩

/-! ## The domain of the format -/

/-- An enumeration field holds one of its enumerators. -/
abbrev InRange {E U : Type} [Enumeration E U] (v : Scoped E) : Prop := v.named.isSome = true

/-- **The states the format keeps**: a known version, counts within ten
million, every enumeration in range and no duplicate identity. -/
structure InDomain (s : PersistentState) : Prop where
  version : s.formatVersion.toNat ≤ 1
  groups : s.groups.toList.length ≤ 10000000
  measurements : s.measurements.toList.length ≤ 10000000
  backends : s.backends.toList.length ≤ 10000000
  participants : ∀ g ∈ s.groups.toList, g.participants.toList.length ≤ 10000000
  lifecycle : ∀ g ∈ s.groups.toList, InRange g.lifecycle
  algorithm : ∀ m ∈ s.measurements.toList, InRange m.algorithm
  provenance : ∀ m ∈ s.measurements.toList, InRange m.provenance
  freshness : ∀ m ∈ s.measurements.toList, InRange m.freshness
  health : ∀ h ∈ s.health, InRange h.state
  groupKeys : (s.groups.toList.map fun g => (g.groupId, g.generation)).Nodup
  participantIds : ∀ g ∈ s.groups.toList, (g.participants.toList.map (·.participantId)).Nodup
  ranks : ∀ g ∈ s.groups.toList, (g.participants.toList.map (·.rank)).Nodup
  measurementIds : (s.measurements.toList.map (·.id)).Nodup

/-- A byte within the last enumerator names one. -/
theorem le_toRaw_iff {E : Type} {all : List E} {v : UInt8} {last : UInt8}
    (h : last.toNat + 1 = all.length) :
    decide (v ≤ last) = true ↔ all[v.toNat]?.isSome = true := by
  rw [decide_eq_true_iff, UInt8.le_iff_toNat_le, isSome_getElem?]
  omega

theorem not_count_gt_iff {α : Type} (v : Vec α) :
    ¬ v.size > maxCount ↔ v.toList.length ≤ 10000000 := by
  have hmax : maxCount.toNat = 10000000 := rfl
  rw [gt_iff_lt, UInt64.lt_iff_toNat_lt, hmax, Vec.toNat_size, not_lt]

/-- The decoder's checks are the domain. -/
theorem fits_iff (s : PersistentState) : Fits s ↔ InDomain s := by
  have hversion : ¬ s.formatVersion > formatVersion ↔ s.formatVersion.toNat ≤ 1 := by
    have hmax : formatVersion.toNat = 1 := rfl
    rw [gt_iff_lt, UInt64.lt_iff_toNat_lt, hmax, not_lt]
  constructor
  · intro h
    exact ⟨hversion.1 h.version, (not_count_gt_iff _).1 h.groupCount,
      (not_count_gt_iff _).1 h.measurementCount, (not_count_gt_iff _).1 h.backendCount,
      fun g hg => (not_count_gt_iff _).1 (h.groups g hg).count,
      fun g hg => (le_toRaw_iff rfl).1 (h.groups g hg).lifecycle,
      fun m hm => (le_toRaw_iff rfl).1 (h.measurements m hm).algorithm,
      fun m hm => (le_toRaw_iff rfl).1 (h.measurements m hm).provenance,
      fun m hm => (le_toRaw_iff rfl).1 (h.measurements m hm).freshness,
      fun x hx => (le_toRaw_iff rfl).1 (h.health x hx), h.groupKeys,
      fun g hg => (h.groups g hg).ids, fun g hg => (h.groups g hg).ranks, h.measurementIds⟩
  · intro h
    exact ⟨hversion.2 h.version, (not_count_gt_iff _).2 h.groups, h.groupKeys,
      fun g hg => ⟨(le_toRaw_iff rfl).2 (h.lifecycle g hg),
        (not_count_gt_iff _).2 (h.participants g hg), h.participantIds g hg, h.ranks g hg⟩,
      (not_count_gt_iff _).2 h.measurements, h.measurementIds,
      fun m hm => ⟨(le_toRaw_iff rfl).2 (h.algorithm m hm),
        (le_toRaw_iff rfl).2 (h.provenance m hm), (le_toRaw_iff rfl).2 (h.freshness m hm)⟩,
      fun x hx => (le_toRaw_iff rfl).2 (h.health x hx), (not_count_gt_iff _).2 h.backends⟩

/-- The empty state fits. -/
theorem fits_empty : Fits {} := (fits_iff _).2 (by constructor <;> decide)

/-- A state with a group of one participant, a measurement, a health report
and a backend. -/
def filled : PersistentState where
  epoch := ⟨2⟩
  liveBoot := ⟨100⟩
  groups := ⟨[{
    groupId := ⟨1⟩
    generation := ⟨1⟩
    participants := ⟨[{ participantId := ⟨1⟩, worker := ⟨1⟩, boot := ⟨100⟩ }], by decide⟩ }],
    by decide⟩
  measurements := ⟨[{ id := ⟨1⟩, rankCount := 2, payloadBytes := 16, success := true }], by decide⟩
  health := some { generation := ⟨3⟩ }
  backends := ⟨[{ id := ⟨1⟩, name := ⟨[82, 69, 70], by decide⟩ }], by decide⟩

theorem fits_filled : Fits filled := (fits_iff _).2 (by constructor <;> decide)

/-- **The persistence round trip, on its exact domain.** A state in the
domain comes back as it was; any other is refused with a `DECODE`
error. -/
theorem round_trip_domain (s : PersistentState) :
    (InDomain s → decode (encode s) = .ok s) ∧
      (¬ InDomain s → ∃ e, e.code = .decode ∧ decode (encode s) = .error e) := by
  rw [← fits_iff]
  exact ⟨decode_encode_of_fits, decode_encode_of_not_fits⟩

/-- A state with a group of one participant, and one with that group
twice. -/
theorem round_trip_domain_one_group :
    decode (encode { groups := ⟨[{ participants := ⟨[{}], by decide⟩ }], by decide⟩ }) =
        .ok { groups := ⟨[{ participants := ⟨[{}], by decide⟩ }], by decide⟩ } ∧
      ∃ e, e.code = .decode ∧
        decode (encode { groups := ⟨[{}, {}], by decide⟩ }) = .error e := by
  refine ⟨(round_trip_domain _).1 ?_, (round_trip_domain _).2 ?_⟩
  · constructor <;> decide
  · intro h
    exact absurd h.groupKeys (by decide)

end Store

end CollectiveFabric
