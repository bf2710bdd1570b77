import CollectiveFabric.Common.Run
import CollectiveFabric.Store.Frame
import CollectiveFabric.Store.Model.Saving

/-!
# Overlapping saves

Both calls go through one temporary name, so one may truncate or overwrite
what the other is about to rename. As long as neither does, whatever fails
and in whatever order the steps are taken, the file at the path is the old
one or a whole frame of one of the two states.
-/

namespace CollectiveFabric

namespace Store

open Common Files

namespace Caller

theorem other_other (k : Caller) : k.other.other = k := by
  cases k <;> rfl

theorem eq_or_eq_other (k k' : Caller) : k' = k ∨ k' = k.other := by
  cases k <;> cases k' <;> decide

theorem other_ne (k : Caller) : k.other ≠ k := by
  cases k <;> decide

end Caller

theorem tmpName_ne (path : String) : path ≠ tmpName path := by
  intro h
  have hlength := congrArg String.length h
  rw [tmpName, String.length_append] at hlength
  have hsuffix : ".tmp".length = 4 := rfl
  omega

theorem file_ne_nil (s : PersistentState) : file s ≠ [] := by
  intro h
  have hlength := congrArg List.length h
  rw [file_eq, List.length_append, length_be4, List.length_nil] at hlength
  omega

/-! ## What is at the path -/

variable {old : Option (List UInt8)} {path : String} {state : Caller → PersistentState}

/-- The file at the path is the old one, or a whole frame of one of the
states. -/
def Whole (old : Option (List UInt8)) (state : Caller → PersistentState)
    (now : Option (List UInt8)) : Prop :=
  now = old ∨ ∃ k, now = some (file (state k))

/-- **A save is atomic** to whoever reads the path: the file there is
whole, and loading it fails only where loading the old one does or the
state saved is outside the store's domain. -/
structure Atomic (old : Option (List UInt8)) (state : Caller → PersistentState)
    (now : Option (List UInt8)) : Prop where
  whole : Whole old state now
  loads : ∀ bytes e, now = some bytes → load bytes = .error e → now = old ∨
    ∃ k, now = some (file (state k)) ∧ ¬ (Fits (state k) ∧ (encode (state k)).length < 2 ^ 64)

theorem Whole.atomic {now : Option (List UInt8)} (h : Whole old state now) :
    Atomic old state now := by
  refine ⟨h, fun bytes e hbytes he => h.imp_right fun ⟨k, hk⟩ => ⟨k, hk, fun hdomain => ?_⟩⟩
  obtain rfl : bytes = file (state k) := Option.some.inj (hbytes.symm.trans hk)
  rw [load_file hdomain.1 hdomain.2] at he
  cases he

namespace Saving

variable {s : Saving} {ev : SaveStep}

@[simp] theorem put_files (files : Files String UInt8) (k : Caller) (stage : Stage) :
    (s.put files k stage).files = files := rfl

@[simp] theorem put_stage_self (files : Files String UInt8) (k : Caller) (stage : Stage) :
    (s.put files k stage).stage k = stage :=
  Function.update_self ..

@[simp] theorem put_stage_other (files : Files String UInt8) (k : Caller) (stage : Stage) :
    (s.put files k stage).stage k.other = s.stage k.other :=
  Function.update_of_ne k.other_ne ..

/-- After a step of one call, either call stands where the step left it. -/
theorem put_stage_eq {files : Files String UInt8} {k k' : Caller} {stage st : Stage}
    (h : (s.put files k stage).stage k' = st) :
    (k' = k ∧ stage = st) ∨ (k' = k.other ∧ s.stage k' = st) := by
  obtain rfl | rfl := k.eq_or_eq_other k'
  · exact .inl ⟨rfl, put_stage_self files k' stage ▸ h⟩
  · exact .inr ⟨rfl, put_stage_other files k stage ▸ h⟩

/-- A call that has gone on from a stage of its own has left the other one
no longer alone. -/
theorem put_not_alone {files : Files String UInt8} {k k' : Caller} {stage : Stage} {i : ℕ}
    (hopened : ∀ i, stage ≠ .opened i) (hready : stage ≠ .ready)
    (h : (s.put files k stage).stage k' = .opened i) :
    (s.put files k stage).stage k'.other ≠ .ready := by
  obtain ⟨-, heq⟩ | ⟨rfl, -⟩ := put_stage_eq h
  · exact absurd heq (hopened i)
  · rw [Caller.other_other, put_stage_self]
    exact hready

/-- **What a step can do**: nothing, throw and leave the files as they are,
open the temporary name, write the frame or a part of it, or rename. -/
theorem step_cases {P : Saving → Prop} (idle : P s)
    (thrown : ∀ e, P (s.put s.files ev.caller (.threw e)))
    (opens : s.stage ev.caller = .ready →
      P (s.put (s.files.openTrunc (tmpName path)).1 ev.caller
        (.opened (s.files.openTrunc (tmpName path)).2)))
    (writes : ∀ k i, ev = .write k none → s.stage k = .opened i →
      P (s.put (s.files.write i (file (state k))) k .written))
    (breaks : ∀ k i n e, ev = .write k (some n) → s.stage k = .opened i →
      P (s.put (s.files.write i ((file (state k)).take n)) k (.threw e)))
    (renames : ∀ k i, ev = .rename k true → s.stage k = .written →
      s.files.entry (tmpName path) = some i →
      P (s.put (s.files.move (tmpName path) path) k (.returned (saveResult (state k))))) :
    P (step path state s ev) := by
  cases ev with
  | openTmp k succeeds =>
    rw [step]
    split
    · next hready =>
      split_ifs
      · exact opens hready
      · exact thrown _
    · exact idle
  | write k failsAfter =>
    rw [step]
    split
    · next i hopened =>
      cases failsAfter with
      | none => exact writes k i rfl hopened
      | some n => exact breaks k i n _ rfl hopened
    · exact idle
  | rename k succeeds =>
    rw [step]
    split
    · next hwritten =>
      cases succeeds with
      | false => exact thrown _
      | true =>
        rw [if_pos rfl, Files.rename]
        cases hentry : s.files.entry (tmpName path) with
        | none => exact thrown _
        | some i => exact renames k i rfl hwritten hentry
    · exact idle

/-! ## The condition -/

/-- **No mixture**: a frame is written over nothing longer, and what a
failing write leaves is in no file that has been renamed to the path or
that the other call is about to rename. -/
def Unmixed (path : String) (state : Caller → PersistentState) (s : Saving) : SaveStep → Prop
  | .write k none =>
    ∀ i, s.stage k = .opened i → (s.files.content i).length ≤ (file (state k)).length
  | .write k (some n) =>
    ∀ i, s.stage k = .opened i →
      n = 0 ∨ (s.files.entry path ≠ some i ∧ s.stage k.other ≠ .written)
  | _ => True

/-- **The temporary file is not empty when it is renamed**: the other call
has not opened, and so truncated, it since it was written. -/
def Unemptied (path : String) (s : Saving) : SaveStep → Prop
  | .rename k succeeds =>
    succeeds = true → s.stage k = .written → s.files.read (tmpName path) ≠ some []
  | _ => True

/-- A step the other call does not spoil. -/
def Unspoilt (path : String) (state : Caller → PersistentState) (s : Saving) (ev : SaveStep) :
    Prop :=
  Unmixed path state s ev ∧ Unemptied path s ev

/-- What holds between the steps: a file opened for writing is the
temporary one until that is renamed, and is it still while the other call
has not begun; and once a frame has been written the temporary file is
empty or whole. -/
structure Sound (path : String) (state : Caller → PersistentState) (s : Saving) : Prop where
  handle : ∀ k i j, s.stage k = .opened i → s.files.entry (tmpName path) = some j → j = i
  alone : ∀ k i, s.stage k = .opened i → s.stage k.other = .ready →
    s.files.entry (tmpName path) = some i
  kept : ∀ k bs, s.stage k = .written → s.files.read (tmpName path) = some bs →
    bs = [] ∨ ∃ k', bs = file (state k')

namespace Sound

/-- A call that throws leaves what it has done to the other. -/
theorem put_threw (h : Sound path state s) (k : Caller) (e : Thrown) :
    Sound path state (s.put s.files k (.threw e)) := by
  refine ⟨fun k' i j hk' => ?_, fun k' i hk' hother => ?_, fun k' bs hk' => ?_⟩
  · obtain ⟨-, heq⟩ | ⟨-, hk'⟩ := put_stage_eq hk'
    · cases heq
    · exact h.handle k' i j hk'
  · exact absurd hother (put_not_alone (by simp) (by simp) hk')
  · obtain ⟨-, heq⟩ | ⟨-, hk'⟩ := put_stage_eq hk'
    · cases heq
    · exact h.kept k' bs hk'

theorem put_opened (h : Sound path state s) {k : Caller} (hready : s.stage k = .ready) :
    Sound path state (s.put (s.files.openTrunc (tmpName path)).1 k
      (.opened (s.files.openTrunc (tmpName path)).2)) := by
  have hentry := entry_openTrunc_self (s := s.files) (n := tmpName path)
  refine ⟨fun k' i j hk' hj => ?_, fun k' i hk' hother => ?_, fun k' bs _ hbs => ?_⟩
  · rw [put_files, hentry] at hj
    obtain rfl := Option.some.inj hj
    obtain ⟨-, heq⟩ | ⟨rfl, hk'⟩ := put_stage_eq hk'
    · exact Stage.opened.inj heq
    · -- the other call has the temporary file open, and this one has truncated it
      exact openTrunc_of_some (h.alone _ i hk' (by rw [Caller.other_other, hready]))
  · obtain ⟨-, heq⟩ | ⟨rfl, -⟩ := put_stage_eq hk'
    · rw [put_files, hentry, Stage.opened.inj heq]
    · rw [Caller.other_other, put_stage_self] at hother
      cases hother
  · rw [put_files, read_openTrunc_self] at hbs
    exact .inl (Option.some.inj hbs).symm

theorem put_written (h : Sound path state s) {k : Caller} {i : ℕ}
    (hopened : s.stage k = .opened i)
    (hlength : (s.files.content i).length ≤ (file (state k)).length) :
    Sound path state (s.put (s.files.write i (file (state k))) k .written) := by
  refine ⟨fun k' i' j hk' hj => ?_, fun k' i' hk' hother => ?_, fun k' bs _ hbs => ?_⟩
  · obtain ⟨-, heq⟩ | ⟨-, hk'⟩ := put_stage_eq hk'
    · cases heq
    · exact h.handle k' i' j hk' hj
  · exact absurd hother (put_not_alone (by simp) (by simp) hk')
  · rw [put_files] at hbs
    cases htmp : s.files.entry (tmpName path) with
    | none =>
      rw [Files.read, entry_write, htmp] at hbs
      cases hbs
    | some j =>
      obtain rfl := h.handle k i j hopened htmp
      rw [read_write_self htmp, overlay_of_length_le hlength] at hbs
      exact .inr ⟨k, (Option.some.inj hbs).symm⟩

/-- What a failing write leaves is in no file that anyone will rename. -/
theorem put_broken (h : Sound path state s) {k : Caller} {i : ℕ} {bs : List UInt8}
    (hother : s.stage k.other ≠ .written) (e : Thrown) :
    Sound path state (s.put (s.files.write i bs) k (.threw e)) := by
  have hthrew := h.put_threw k e
  refine ⟨hthrew.handle, hthrew.alone, fun k' bs hk' => ?_⟩
  obtain ⟨-, heq⟩ | ⟨rfl, hk'⟩ := put_stage_eq hk'
  · cases heq
  · exact absurd hk' hother

/-- Once it is renamed there is no temporary file. -/
theorem put_returned {k : Caller} (res : SaveResult) :
    Sound path state (s.put (s.files.move (tmpName path) path) k (.returned res)) := by
  have hgone : (s.files.move (tmpName path) path).entry (tmpName path) = none :=
    entry_move (tmpName_ne path).symm
  refine ⟨fun k' i' j _ hj => ?_, fun k' i' hk' hother => ?_, fun k' bs _ hbs => ?_⟩
  · rw [put_files, hgone] at hj
    cases hj
  · exact absurd hother (put_not_alone (by simp) (by simp) hk')
  · rw [put_files, Files.read, hgone] at hbs
    cases hbs

/-- **A step that mixes nothing keeps the files sound.** -/
theorem step (h : Sound path state s) (hev : Unmixed path state s ev) :
    Sound path state (step path state s ev) := by
  refine step_cases h (h.put_threw ev.caller) h.put_opened ?_ ?_ fun k i _ _ _ => put_returned _
  · rintro k i rfl hopened
    exact h.put_written hopened (hev i hopened)
  · rintro k i n e rfl hopened
    obtain rfl | ⟨-, hother⟩ := hev i hopened
    · rw [List.take_zero, write_nil]
      exact h.put_threw k e
    · exact h.put_broken hother e

end Sound

theorem sound_start (files : Files String UInt8) : Sound path state (start files) where
  handle _ _ _ h := by cases h
  alone _ _ h := by cases h
  kept _ _ h := by cases h

/-! ## What a step leaves at the path -/

/-- **A step that is not spoilt leaves the path whole.** -/
theorem whole_step (h : Sound path state s) (hev : Unspoilt path state s ev)
    (hwhole : Whole old state (s.files.read path)) :
    Whole old state ((step path state s ev).files.read path) := by
  obtain ⟨hunmixed, hunemptied⟩ := hev
  refine step_cases (P := fun s' => Whole old state (s'.files.read path)) hwhole
    (fun _ => hwhole) (fun _ => ?_) ?_ ?_ ?_
  · rw [put_files, read_openTrunc_of_ne (tmpName_ne path)]
    exact hwhole
  · rintro k i rfl hopened
    rw [put_files]
    by_cases hpath : s.files.entry path = some i
    · -- the other call has renamed the file this one is writing to
      rw [read_write_self hpath, overlay_of_length_le (hunmixed i hopened)]
      exact .inr ⟨k, rfl⟩
    · rw [read_write_of_ne hpath]
      exact hwhole
  · rintro k i n e rfl hopened
    rw [put_files]
    obtain rfl | ⟨hpath, -⟩ := hunmixed i hopened
    · rw [List.take_zero, write_nil]
      exact hwhole
    · rw [read_write_of_ne hpath]
      exact hwhole
  · rintro k i rfl hwritten hentry
    have hread : s.files.read (tmpName path) = some (s.files.content i) := by
      rw [Files.read, hentry, Option.map_some]
    rw [put_files, read_move, hread]
    obtain hnil | ⟨k', hk'⟩ := h.kept k _ hwritten hread
    · exact absurd (hnil ▸ hread) (hunemptied rfl hwritten)
    · exact .inr ⟨k', by rw [hk']⟩

/-- **Renaming an emptied file publishes an empty one**, which `load`
refuses. -/
theorem rename_empty {k : Caller} (hwritten : s.stage k = .written)
    (hempty : s.files.read (tmpName path) = some []) :
    (step path state s (.rename k true)).files.read path = some [] := by
  obtain ⟨i, hentry, -⟩ := Option.map_eq_some_iff.1 hempty
  simp only [step, hwritten, Files.rename, hentry, Option.map_some, if_true, put_files, read_move,
    hempty]

theorem not_whole_nil (hold : old ≠ some []) : ¬ Whole old state (some []) := by
  rintro (h | ⟨k, hk⟩)
  · exact hold h.symm
  · exact file_ne_nil _ (Option.some.inj hk).symm

theorem unemptied_of_whole (hold : old ≠ some [])
    (h : Whole old state ((step path state s ev).files.read path)) : Unemptied path s ev := by
  cases ev with
  | openTmp k succeeds => trivial
  | write k failsAfter => trivial
  | rename k succeeds =>
    rintro rfl hwritten hempty
    rw [rename_empty hwritten hempty] at h
    exact not_whole_nil hold h

/-! ## Whole runs -/

theorem whole_throughout {files : Files String UInt8} {evs : List SaveStep}
    (h : Run.Along (step path state) (Unspoilt path state) (start files) evs) :
    Run.Throughout (step path state) (fun s => Whole (files.read path) state (s.files.read path))
      (start files) evs := by
  have hboth := Run.throughout_of_step
    (I := fun s => Sound path state s ∧ Whole (files.read path) state (s.files.read path))
    (fun s ev hs hev => ⟨hs.1.step hev.1, whole_step hs.1 hev hs.2⟩) ⟨sound_start files, .inl rfl⟩ h
  exact hboth.mono fun _ hs => hs.2

/-- **Overlapping saves are atomic where neither spoils the other**: in
every state of every run of their steps. -/
theorem atomic_throughout (path : String) (state : Caller → PersistentState)
    (files : Files String UInt8) (evs : List SaveStep)
    (h : Run.Along (step path state) (Unspoilt path state) (start files) evs) :
    Run.Throughout (step path state)
      (fun s => Atomic (files.read path) state (s.files.read path)) (start files) evs :=
  (whole_throughout h).mono fun _ hs => hs.atomic

/-- Two overlapping saves of frames of one length: the second one renames,
the first one throws. -/
theorem atomic_throughout_both :
    Run.Throughout (step "state" fun k => { policyCount := if k = .first then 0 else 1 })
      (fun s => Atomic (Files.empty.read "state")
        (fun k => { policyCount := if k = .first then 0 else 1 }) (s.files.read "state"))
      (start Files.empty) [.openTmp .first true, .openTmp .second true, .write .first none,
        .write .second none, .rename .second true, .rename .first true] := by
  refine atomic_throughout "state" _ Files.empty _ ⟨⟨trivial, trivial⟩, ⟨trivial, trivial⟩,
    ⟨fun i h => ?_, trivial⟩, ⟨fun i h => ?_, trivial⟩, ⟨trivial, fun _ _ => ?_⟩,
    ⟨trivial, fun _ _ => ?_⟩, trivial⟩
  · cases h
    decide +kernel
  · cases h
    decide +kernel
  · decide +kernel
  · decide +kernel

/-! ## Spoilt steps -/

/-- **Where nothing is mixed, the path stays whole exactly while no emptied
file is renamed**; an old file that was empty already cannot tell. -/
theorem whole_throughout_iff {files : Files String UInt8} (hold : files.read path ≠ some [])
    {evs : List SaveStep}
    (h : Run.Along (step path state) (Unmixed path state) (start files) evs) :
    Run.Throughout (step path state) (fun s => Whole (files.read path) state (s.files.read path))
        (start files) evs ↔
      Run.Along (step path state) (Unemptied path) (start files) evs := by
  refine Run.throughout_iff_along (I := Sound path state) (fun s ev hs hev => hs.step hev) ?_
    (sound_start files) (.inl rfl) h
  intro s ev hs hev hwhole
  exact ⟨unemptied_of_whole hold, fun hunemptied => whole_step hs ⟨hev, hunemptied⟩ hwhole⟩

/-- Any disk and any two states: the second call opens the temporary file
between the first one's write and its rename. -/
theorem read_truncated (path : String) (state : Caller → PersistentState)
    (files : Files String UInt8) :
    (Run.run (step path state) (start files) [.openTmp .first true, .write .first none,
      .openTmp .second true, .rename .first true]).files.read path = some [] := by
  let s₁ := start files |>.put (files.openTrunc (tmpName path)).1 .first
    (.opened (files.openTrunc (tmpName path)).2)
  let s₂ := s₁.put (s₁.files.write (files.openTrunc (tmpName path)).2 (file (state .first))) .first
    .written
  exact rename_empty (s := step path state s₂ (.openTmp .second true)) (k := .first) rfl
    read_openTrunc_self

/-- Two states that differ, on a path without a file: the file there is
neither missing, as it was, nor one of their frames. -/
theorem not_atomic_truncated :
    ¬ Run.Throughout (step "state" fun k => { policyCount := if k = .first then 0 else 1 })
      (fun s => Atomic (Files.empty.read "state")
        (fun k => { policyCount := if k = .first then 0 else 1 }) (s.files.read "state"))
      (start Files.empty) [.openTmp .first true, .write .first none, .openTmp .second true,
        .rename .first true] := by
  intro h
  have hread := read_truncated "state"
    (fun k => { policyCount := if k = .first then 0 else 1 }) Files.empty
  have hwhole := h.last.whole
  rw [hread] at hwhole
  exact not_whole_nil (by decide) hwhole

/-! ## Calls that do not overlap -/

/-- No call takes a step while the other is between its opening the
temporary file and its end. -/
def Exclusive (s : Saving) (ev : SaveStep) : Prop :=
  ∀ i, s.stage ev.caller.other ≠ .opened i ∧ s.stage ev.caller.other ≠ .written

/-- What holds between the steps of calls that do not overlap: the
temporary file is the empty one a call has opened, or holds the frame it
has written. -/
structure Solo (path : String) (state : Caller → PersistentState) (s : Saving) : Prop where
  opened : ∀ k i, s.stage k = .opened i →
    s.files.entry (tmpName path) = some i ∧ s.files.read (tmpName path) = some []
  written : ∀ k, s.stage k = .written →
    s.files.read (tmpName path) = some (file (state k))

theorem Solo.unspoilt (h : Solo path state s) (hev : Exclusive s ev) :
    Unspoilt path state s ev := by
  cases ev with
  | openTmp k succeeds => exact ⟨trivial, trivial⟩
  | write k failsAfter =>
    refine ⟨?_, trivial⟩
    cases failsAfter with
    | none =>
      intro i hopened
      obtain ⟨hentry, hread⟩ := h.opened k i hopened
      rw [Files.read, hentry] at hread
      rw [Option.some.inj hread]
      exact Nat.zero_le _
    | some n =>
      intro i hopened
      refine .inr ⟨fun hpath => ?_, (hev i).2⟩
      exact tmpName_ne path (s.files.apart _ _ i hpath (h.opened k i hopened).1)
  | rename k succeeds =>
    refine ⟨trivial, fun _ hwritten hempty => ?_⟩
    rw [h.written k hwritten] at hempty
    exact file_ne_nil _ (Option.some.inj hempty)

/-- A call's step leaves the other where it was, not at work. -/
theorem Solo.put {k : Caller}
    (hother : ∀ i, s.stage k.other ≠ .opened i ∧ s.stage k.other ≠ .written)
    {files : Files String UInt8} {stage : Stage} (hopened : ∀ i, stage = .opened i →
      files.entry (tmpName path) = some i ∧ files.read (tmpName path) = some [])
    (hwritten : stage = .written → files.read (tmpName path) = some (file (state k))) :
    Solo path state (s.put files k stage) := by
  refine ⟨fun k' i hk' => ?_, fun k' hk' => ?_⟩
  · obtain ⟨rfl, heq⟩ | ⟨rfl, hk'⟩ := put_stage_eq hk'
    · exact hopened i heq
    · exact absurd hk' (hother i).1
  · obtain ⟨rfl, heq⟩ | ⟨rfl, hk'⟩ := put_stage_eq hk'
    · exact hwritten heq
    · exact absurd hk' (hother 0).2

theorem Solo.step (h : Solo path state s) (hev : Exclusive s ev) :
    Solo path state (step path state s ev) := by
  refine step_cases h (fun e => .put hev ?_ ?_) (fun _ => .put hev ?_ ?_) ?_ ?_ ?_
  · intro i heq
    cases heq
  · intro heq
    cases heq
  · intro i heq
    rw [entry_openTrunc_self, Stage.opened.inj heq, read_openTrunc_self]
    exact ⟨rfl, rfl⟩
  · intro heq
    cases heq
  · rintro k i rfl hopened
    refine .put (k := k) hev (fun i heq => by cases heq) fun _ => ?_
    obtain ⟨hentry, hread⟩ := h.opened k i hopened
    rw [Files.read, hentry] at hread
    rw [read_write_self hentry, Option.some.inj hread, overlay_of_length_le (Nat.zero_le _)]
  · rintro k i n e rfl -
    exact .put hev (fun i heq => by cases heq) fun heq => by cases heq
  · rintro k i rfl - -
    exact .put hev (fun i heq => by cases heq) fun heq => by cases heq

theorem solo_start (files : Files String UInt8) : Solo path state (start files) where
  opened _ _ h := by cases h
  written _ h := by cases h

/-- **Saves one after the other are atomic**, whatever fails. -/
theorem atomic_of_exclusive (files : Files String UInt8) {evs : List SaveStep}
    (h : Run.Along (Saving.step path state) Exclusive (start files) evs) :
    Run.Throughout (Saving.step path state)
      (fun s => Atomic (files.read path) state (s.files.read path)) (start files) evs := by
  have hsolo :
      Run.Along (Saving.step path state) (fun s _ => Solo path state s) (start files) evs :=
    (Run.throughout_of_step (fun _ _ => Solo.step) (solo_start files) h).along fun _ _ hs => hs
  have hunspoilt : Run.Along (Saving.step path state) (Unspoilt path state) (start files) evs :=
    (hsolo.and h).imp fun _ _ ⟨hs, hev⟩ => hs.unspoilt hev
  exact (whole_throughout hunspoilt).mono fun _ hs => hs.atomic

end Saving

end Store

end CollectiveFabric
