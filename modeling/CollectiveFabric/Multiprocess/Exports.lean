import CollectiveFabric.Multiprocess.Reconfiguration

/-!
# What the saved states hold

The coordinator registers two generations of its group and records a
measurement for every finished round; what it saves has every measurement
and the first generation alone. So a saved state is complete exactly as
long as the second generation is not registered.
-/

namespace CollectiveFabric

open Common

namespace PersistentState

/-- **A saved state is complete**: each group generation registered is in
it, and the group of each of its measurements. -/
structure Complete (ps : PersistentState) (rt : Runtime) : Prop where
  groups : ∀ (key : GroupKey) g, rt.groups[key]? = some g →
    ∃ pg ∈ ps.groups.toList, pg.groupId = key.1 ∧ pg.generation = key.2
  measurements : ∀ pm ∈ ps.measurements.toList,
    ∃ pg ∈ ps.groups.toList, pg.generation = pm.groupGeneration

end PersistentState

/-! ## The books -/

/-- **What the coordinator's runtime holds**: at most the two generations of
its group, each under its key, and measurements of registered groups. -/
structure Runtime.Booked (rt : Runtime) : Prop where
  keys : ∀ (key : GroupKey) g, rt.groups[key]? = some g →
    g.id = key.1 ∧ g.generation = key.2 ∧ (key = (groupId, ⟨1⟩) ∨ key = (groupId, ⟨2⟩))
  measured : ∀ (id : MeasurementId) m, rt.measurements[id]? = some m →
    (rt.findGroup groupId m.groupGeneration).isSome

namespace Runtime.Booked

variable {rt rt' : Runtime}

/-- A runtime with the same books. -/
theorem same (h : rt.Booked) (hgroups : rt'.groups = rt.groups)
    (hmeasurements : rt'.measurements = rt.measurements) : rt'.Booked := by
  refine ⟨fun key g hg => h.keys key g (hgroups ▸ hg), fun id m hm => ?_⟩
  have hfind := h.measured id m (hmeasurements ▸ hm)
  rwa [Runtime.findGroup, ← hgroups] at hfind

/-- A group that is registered stays registered. -/
theorem isSome_insert {g : CollectiveGroup} {key : GroupKey} {gen : GroupGeneration}
    (h : (rt.findGroup groupId gen).isSome) :
    (({ rt with groups := rt.groups.insert key g } : Runtime).findGroup groupId gen).isSome := by
  by_cases hkey : key = (groupId, gen)
  · subst hkey
    rw [Runtime.findGroup, OrdMap.getElem?_insert_same]
    rfl
  · rwa [Runtime.findGroup, OrdMap.getElem?_insert_of_ne _ hkey]

/-- **A generation that is formed** is booked. -/
theorem formGroup (h : rt.Booked) {env : Ambient} {w₀ w₁ : WorkerState} {gen : UInt64}
    {topoGen : TopologyGeneration} {res : Except Error CollectiveGroup}
    (hgen : gen = 1 ∨ gen = 2)
    (hform : CollectiveFabric.formGroup rt env w₀ w₁ gen topoGen = (res, rt')) : rt'.Booked := by
  simp only [CollectiveFabric.formGroup] at hform
  split at hform
  · cases hform
    exact h
  next g hbuild =>
  obtain ⟨hid, hgeneration⟩ := key_formGroup hbuild
  unfold Runtime.registerGroup at hform
  split_ifs at hform
  all_goals cases hform
  · exact h
  refine ⟨fun key g' hg' => ?_, fun id m hm => isSome_insert (h.measured id m hm)⟩
  rcases OrdMap.getElem?_insert_eq_some hg' with ⟨rfl, rfl⟩ | ⟨-, hold⟩
  · refine ⟨rfl, rfl, ?_⟩
    rw [hid, hgeneration]
    rcases hgen with rfl | rfl
    · exact .inl rfl
    · exact .inr rfl
  · exact h.keys key g' hold

/-- The measurement of a round on a registered group is booked. -/
theorem ingestMeasurement (h : rt.Booked) {m : CollectiveMeasurement}
    (hm : (rt.findGroup groupId m.groupGeneration).isSome) :
    (rt.ingestMeasurement m).Booked := by
  refine ⟨h.keys, fun id m' hm' => ?_⟩
  rcases OrdMap.getElem?_insert_eq_some hm' with ⟨rfl, rfl⟩ | ⟨-, hold⟩
  · exact hm
  · exact h.measured id m' hold

end Runtime.Booked

/-! ## What is exported -/

section

variable {rt : Runtime}

/-- The exported groups are the first generation. -/
theorem groups_buildState (rt : Runtime) (wallNs : UInt64) :
    (buildState rt wallNs).groups.toList =
      (rt.findGroup groupId ⟨1⟩).toList.map exportGroup := by
  refine List.take_of_length_le ?_
  rw [List.length_map]
  exact (Option.length_toList_le).trans (by decide)

/-- An exported measurement is one the runtime holds. -/
theorem exists_of_mem_measurements {wallNs : UInt64} {pm : PersistedMeasurement}
    (h : pm ∈ (buildState rt wallNs).measurements.toList) :
    ∃ (id : MeasurementId) (m : CollectiveMeasurement), rt.measurements[id]? = some m ∧
      pm.groupGeneration = m.groupGeneration := by
  obtain ⟨entry, hentry, rfl⟩ := List.mem_map.1 (List.mem_of_mem_take h)
  exact ⟨entry.1, entry.2, Std.TreeMap.mem_toList_iff_getElem?_eq_some.1 hentry, rfl⟩

/-- **An export is complete** exactly while the second generation is not
registered. -/
theorem complete_buildState_iff (h : rt.Booked) (wallNs : UInt64) :
    (buildState rt wallNs).Complete rt ↔ rt.findGroup groupId ⟨2⟩ = none := by
  constructor
  · intro hcomplete
    by_contra hsecond
    obtain ⟨g, hg⟩ := Option.ne_none_iff_exists'.1 hsecond
    obtain ⟨pg, hpg, -, hgen⟩ := hcomplete.groups _ g hg
    rw [groups_buildState] at hpg
    obtain ⟨g₁, hg₁, rfl⟩ := List.mem_map.1 hpg
    have hfirst := (h.keys _ g₁ (Option.mem_toList.1 hg₁)).2.1
    have hboth : (⟨1⟩ : GroupGeneration) = ⟨2⟩ := hfirst.symm.trans hgen
    exact absurd hboth (by decide)
  · intro hnone
    -- whatever is registered is the first generation
    have hexported (gen : GroupGeneration) (hgen : (rt.findGroup groupId gen).isSome) :
        ∃ pg ∈ (buildState rt wallNs).groups.toList, pg.groupId = groupId ∧
          pg.generation = gen := by
      obtain ⟨g, hg⟩ := Option.isSome_iff_exists.1 hgen
      obtain ⟨hid, hgeneration, hkey | hkey⟩ := h.keys _ g hg
      · cases hkey
        refine ⟨exportGroup g, ?_, hid, hgeneration⟩
        rw [groups_buildState, hg]
        exact List.mem_singleton_self _
      · cases hkey
        rw [hnone] at hg
        cases hg
    refine ⟨fun key g hg => ?_, fun pm hpm => ?_⟩
    · obtain ⟨-, -, rfl | rfl⟩ := h.keys key g hg
      · exact hexported _ (by rw [Runtime.findGroup, hg]; rfl)
      · exact hexported _ (by rw [Runtime.findGroup, hg]; rfl)
    · obtain ⟨id, m, hm, hgen⟩ := exists_of_mem_measurements hpm
      obtain ⟨pg, hpg, -, hpgen⟩ := hexported _ (h.measured id m hm)
      exact ⟨pg, hpg, hpgen.trans hgen.symm⟩

end

namespace Coordinator

variable {s s' : Coordinator} {env : Surroundings} {saved : List (String × PersistentState)}

/-- The group a phase is on. -/
def Phase.gen : Phase → Option UInt64
  | .barrier _ => some 1
  | .contribution r => some r.site.gen
  | .complete r _ _ => some r.site.gen
  | _ => none

/-- The group of the generation is registered. -/
def Formed (s : Coordinator) (gen : UInt64) : Prop := (s.runtime.findGroup groupId ⟨gen⟩).isSome

/-- **What a turn leaves** that began with `saved`: its books, the group its
phase is on, and one more state saved at most, an export of the runtime it
leaves. -/
structure Leaves (saved : List (String × PersistentState)) (s : Coordinator) : Prop where
  booked : s.runtime.Booked
  formed : ∀ gen, Phase.gen s.phase = some gen → s.Formed gen
  saved : s.saved = saved ∨
    ∃ path wallNs, s.saved = saved ++ [(path, buildState s.runtime wallNs)]

/-! ### What leaves the runtime and the saved states as they are -/

/-- The runtime and the saved states are the same. -/
structure Same (s s' : Coordinator) : Prop where
  runtime : s'.runtime = s.runtime
  saved : s'.saved = s.saved

namespace Same

theorem refl (s : Coordinator) : Same s s := ⟨rfl, rfl⟩

theorem trans {s'' : Coordinator} (h : Same s s') (h' : Same s' s'') : Same s s'' :=
  ⟨h'.runtime.trans h.runtime, h'.saved.trans h.saved⟩

theorem say (s : Coordinator) (line : Line) : Same s (s.say line) := ⟨rfl, rfl⟩

theorem send (s : Coordinator) (ch : ℕ) (f : Frame) : Same s (s.send ch f) := ⟨rfl, rfl⟩

theorem foldl {α : Type} (f : Coordinator → α → Coordinator) (h : ∀ s a, Same s (f s a))
    (xs : List α) (s : Coordinator) : Same s (xs.foldl f s) := by
  induction xs generalizing s with
  | nil => exact refl s
  | cons x xs ih => exact (h s x).trans (ih _)

theorem sendEach (s : Coordinator) (f : WorkerState → Frame) : Same s (s.sendEach f) :=
  foldl (fun s (w : WorkerState) => s.send w.ch (f w)) (fun s w => send s w.ch (f w)) s.workers s

theorem announce (s : Coordinator) (g : CollectiveGroup) (gen : UInt64)
    (line : UInt64 → RankId → Line) : Same s (s.announce g gen line) :=
  foldl _ (fun s _ => (send s _ _).trans (say _ _)) _ s

theorem staleReplay (s : Coordinator) (live : WorkerBootId) : Same s (s.staleReplay live) :=
  (foldl _ (fun s _ => say s _) _ s).trans (say _ _)

theorem prune (s : Coordinator) : Same s s.prune :=
  (foldl (fun s (w : WorkerState) => s.say (.droppingDeadWorker w.boot)) (fun s _ => say s _)
    (s.workers.filter s.dead) s).trans ⟨rfl, rfl⟩

theorem formed {gen : UInt64} (h : Same s s') (hs : s.Formed gen) : s'.Formed gen := by
  rw [Formed, h.runtime]
  exact hs

end Same

/-! ### Where a turn ends -/

theorem leaves_goto (hb : s.runtime.Booked) {p : Phase}
    (hp : ∀ gen, Phase.gen p = some gen → s.Formed gen) : Leaves s.saved (s.goto p) :=
  ⟨hb, hp, .inl rfl⟩

/-- A phase that is on no group. -/
theorem leaves_off (hb : s.runtime.Booked) {p : Phase} (hp : Phase.gen p = none) :
    Leaves s.saved (s.goto p) := by
  refine leaves_goto hb fun gen hgen => ?_
  rw [hp] at hgen
  cases hgen

theorem leaves_quit (hb : s.runtime.Booked) (line : String) : Leaves s.saved (s.quit line) :=
  ⟨hb, fun _ hgen => (nomatch hgen), .inl rfl⟩

/-- **What is saved is an export** of the runtime that is left, when what
follows the save keeps the runtime. -/
theorem leaves_save (hb : s.runtime.Booked) {path : String} {k : Coordinator → Coordinator}
    (hk : ∀ s', s'.runtime = s.runtime → Same s' (k s') ∧
      ∀ gen, Phase.gen (k s').phase = some gen → s.Formed gen) :
    Leaves s.saved (s.save env path k) := by
  unfold save
  split
  · exact leaves_off hb rfl
  · obtain ⟨hsame, hformed⟩ := hk { s with
      saved := s.saved ++ [(path, buildState s.runtime (env.clocks 1).wallNs)] } rfl
    refine ⟨?_, fun gen hgen => hsame.formed (hformed gen hgen),
      .inr ⟨path, (env.clocks 1).wallNs, ?_⟩⟩
    · rw [hsame.runtime]
      exact hb
    · rw [hsame.saved, hsame.runtime]

theorem same_beginAllreduce (s : Coordinator) (site : Site) : Same s (s.beginAllreduce site) :=
  (Same.sendEach s _).trans ⟨rfl, rfl⟩

theorem leaves_afterAllreduce (hb : s.runtime.Booked) {site : Site} (h : s.Formed site.gen) :
    Leaves s.saved (s.afterAllreduce env site) := by
  cases site with
  | first =>
    rw [afterAllreduce]
    have hsaid : (s.say (.text "PHASE_ALLREDUCE_DONE gen=1")).runtime.Booked := hb
    refine leaves_save hsaid fun s₁ _ => ?_
    have hsame : Same s₁ ((s₁.say (.text ("PHASE_SAVED path=" ++ s₁.statefile))).say
        (.text "PHASE_BEGIN_LIVE_COLLECTIVE")) := ⟨rfl, rfl⟩
    refine ⟨hsame.trans (same_beginAllreduce _ _), fun gen hgen => ?_⟩
    obtain rfl : Site.loss.gen = gen := Option.some.inj hgen
    exact h
  | loss =>
    let s₁ := { s.say (.text "PHASE_LOSS_DETECTED") with runtime := s.runtime.advanceEpoch }
    have hbooked : s₁.runtime.Booked := hb.same rfl rfl
    have hprune := Same.prune s₁
    refine ⟨?_, fun gen hgen => (by cases hgen), .inl hprune.saved⟩
    exact hprune.runtime ▸ hbooked
  | second =>
    rw [afterAllreduce]
    have hsaid : (s.say (.text "PHASE_ALLREDUCE_DONE gen=2")).runtime.Booked := hb
    refine leaves_save hsaid fun s₁ _ => ?_
    exact ⟨⟨rfl, rfl⟩, fun gen hgen => (by cases hgen)⟩

theorem leaves_finishAllreduce (hb : s.runtime.Booked) {r : Round} (h : s.Formed r.site.gen)
    (output : List UInt8) : Leaves s.saved (s.finishAllreduce env r output) := by
  let sum := UInt32.ofNat (ReferenceEngine.loadLe (output.take 4))
  let s₁ := { s.say (.allreduceDone r.site.label sum) with
    runtime := s.runtime.ingestMeasurement (measurement env r.site.gen) }
  have hb₁ : s₁.runtime.Booked := hb.ingestMeasurement (m := measurement env r.site.gen) h
  have h₁ : s₁.Formed r.site.gen := h
  exact leaves_afterAllreduce hb₁ h₁

theorem leaves_awaitComplete (hb : s.runtime.Booked) {r : Round} (h : s.Formed r.site.gen)
    (outputs : List (List UInt8)) (i : ℕ) :
    Leaves s.saved (s.awaitComplete env r outputs i) := by
  unfold awaitComplete
  split_ifs
  · exact leaves_goto hb fun gen hgen => Option.some.inj hgen ▸ h
  · split
    · exact leaves_off hb rfl
    · exact leaves_finishAllreduce hb h _

theorem leaves_execute (hb : s.runtime.Booked) {r : Round} (h : s.Formed r.site.gen) :
    Leaves s.saved (s.execute env r) := by
  let s₁ : Coordinator := { s with executed := s.executed ++ [r] }
  have hb₁ : s₁.runtime.Booked := hb
  unfold execute
  split
  · exact leaves_off hb₁ rfl
  · exact leaves_off hb₁ rfl
  · next outputs _ =>
    split
    · exact leaves_off hb₁ rfl
    · next output _ =>
      have hsend := Same.sendEach s₁ fun w =>
        { kind := .of .result, payload := encBlob (resultAuth r.site.gen w.boot) (.ofList output) }
      have hsent := @leaves_awaitComplete _ env (hsend.runtime.symm ▸ hb₁) r (hsend.formed h)
        outputs 0
      rwa [hsend.saved] at hsent

theorem leaves_onContribution (hb : s.runtime.Booked) {r : Round} (h : s.Formed r.site.gen)
    (w : WorkerState) (f : Frame) : Leaves s.saved (s.onContribution env r w f) := by
  have habandon (line : String) :
      Leaves s.saved ((s.say (.text (r.site.label ++ line))).afterAllreduce env r.site) :=
    @leaves_afterAllreduce (s.say (.text (r.site.label ++ line))) env hb _ h
  unfold onContribution
  split_ifs
  · exact habandon _
  split
  · exact habandon _
  split
  · exact habandon _
  next x bytes _ =>
  let s₁ := s.say (.contribution r.site.label r.contributions.length bytes.toList.length)
  have hb₁ : s₁.runtime.Booked := hb
  simp only
  split_ifs
  · exact leaves_goto hb₁ fun gen hgen => Option.some.inj hgen ▸ h
  · exact @leaves_execute s₁ env hb₁ _ h

/-! ### Groups -/

theorem leaves_awaitBarrier (hb : s.runtime.Booked) (h : s.Formed 1) (i : ℕ) :
    Leaves s.saved (s.awaitBarrier i) := by
  unfold awaitBarrier
  split_ifs
  · exact leaves_goto hb fun gen hgen => Option.some.inj hgen ▸ h
  · let ack : Frame := { kind := .of .complete, payload := encSimple 1 1 }
    have hsame := ((Same.sendEach s fun _ => ack).trans (.say _ (.text "PHASE_BARRIER_DONE"))).trans
      (same_beginAllreduce _ .first)
    refine ⟨?_, fun gen hgen => ?_, .inl hsame.saved⟩
    · rw [hsame.runtime]
      exact hb
    · obtain rfl : Site.first.gen = gen := Option.some.inj hgen
      exact hsame.formed h

theorem leaves_groupReady (hb : s.runtime.Booked) : Leaves s.saved (s.groupReady env) := by
  unfold groupReady
  split
  · split
    · next rt hform =>
      exact @leaves_off { s with runtime := rt } (hb.formGroup (.inl rfl) hform) _ rfl
    · next rt hform =>
      split
      · exact leaves_off hb rfl
      · next g hfind =>
        let s₁ : Coordinator := { s with runtime := rt }
        have hsame := (Same.announce s₁ g 1 .groupAccept).trans
          (.say _ (.text "PHASE_GROUP_READY gen=1 ranks=2"))
        have hb₁ : s₁.runtime.Booked := hb.formGroup (.inl rfl) hform
        have hformed : s₁.Formed 1 := Option.isSome_iff_exists.2 ⟨g, hfind⟩
        have hready := leaves_awaitBarrier (hsame.runtime.symm ▸ hb₁) (hsame.formed hformed) 0
        rwa [hsame.saved] at hready
  · exact leaves_off hb rfl

/-- What the second group changes of the runtime besides. -/
theorem books_regrouped (s : Coordinator) (g : CollectiveGroup) (live : WorkerBootId) :
    (s.regrouped g live).runtime.groups = s.runtime.groups ∧
      (s.regrouped g live).runtime.measurements = s.runtime.measurements ∧
      (s.regrouped g live).saved = s.saved := by
  have hannounce := Same.announce s g 2 .regenGroupAccept
  have hreplay (s₁ : Coordinator) := Same.staleReplay s₁ live
  simp only [regrouped, (hreplay _).runtime, (hreplay _).saved]
  refine ⟨?_, ?_, ?_⟩
  · exact congrArg (·.groups) hannounce.runtime
  · exact congrArg (·.measurements) hannounce.runtime
  · exact hannounce.saved

theorem leaves_regroup (hb : s.runtime.Booked) : Leaves s.saved (s.regroup env) := by
  unfold regroup
  split
  swap
  · exact leaves_off hb rfl
  next w₀ w₁ _ _ =>
  split
  · next rt hform =>
    exact @leaves_off { s with runtime := rt } (hb.formGroup (.inr rfl) hform) _ rfl
  next rt hform =>
  split
  · exact leaves_off hb rfl
  next g hfind =>
  let s₁ : Coordinator := { s with runtime := rt }
  obtain ⟨hgroups, hmeasurements, hsaved⟩ := books_regrouped s₁ g ⟨w₀.boot⟩
  have hb₁ : s₁.runtime.Booked := hb.formGroup (.inr rfl) hform
  have hformed : (s₁.regrouped g ⟨w₀.boot⟩).Formed Site.second.gen := by
    rw [Formed, Runtime.findGroup, hgroups]
    exact Option.isSome_iff_exists.2 ⟨g, hfind⟩
  have hregrouped := @leaves_save _ env (hb₁.same hgroups hmeasurements)
    (s.statefile ++ ".before2") (fun s => s.beginAllreduce .second) fun s₂ _ =>
      ⟨same_beginAllreduce _ _, fun gen hgen => Option.some.inj hgen ▸ hformed⟩
  rwa [hsaved] at hregrouped

/-! ### Turns -/

theorem leaves_onJoin (hb : s.runtime.Booked) {ch : ℕ} {boot : UInt64} {name : Bytes} (f : Frame) :
    Leaves s.saved (s.onJoin env ch boot name f) := by
  let s₁ := (s.join ⟨ch, boot, name⟩).say (.acceptedWorker name boot)
  have hb₁ : s₁.runtime.Booked := hb
  unfold onJoin
  split_ifs
  · exact leaves_quit hb _
  simp only
  split_ifs
  · exact leaves_off hb₁ rfl
  · exact leaves_groupReady hb₁

theorem leaves_onBarrier (hb : s.runtime.Booked) (h : s.Formed 1) (i : ℕ) (f : Frame) :
    Leaves s.saved (s.onBarrier i f) := by
  unfold onBarrier
  split_ifs
  · exact leaves_quit hb _
  split
  · exact leaves_quit hb _
  · split_ifs
    · exact leaves_quit hb _
    · exact leaves_awaitBarrier hb h _

theorem leaves_onAccept (hb : s.runtime.Booked) {phase : ℕ → Phase}
    (hphase : ∀ ch, Phase.gen (phase ch) = none) (failure : String) :
    Leaves s.saved (s.onAccept env failure phase) := by
  unfold onAccept
  split_ifs
  · let s₁ := { s with connections := s.connections ++ [({} : FrameChannel)] }
    have hb₁ : s₁.runtime.Booked := hb
    exact leaves_off hb₁ (hphase _)
  · exact leaves_quit hb _

theorem leaves_onHello (hb : s.runtime.Booked) (ch : ℕ) (f : Frame) :
    Leaves s.saved (s.onHello ch f) := by
  unfold onHello
  split_ifs
  · exact leaves_quit hb _
  split
  · exact leaves_quit hb _
  · exact leaves_off hb rfl

theorem leaves_onHelloFresh (hb : s.runtime.Booked) (ch : ℕ) (f : Frame) :
    Leaves s.saved (s.onHelloFresh ch f) := by
  unfold onHelloFresh
  split_ifs
  · exact leaves_quit hb _
  · exact leaves_off hb rfl

theorem leaves_onJoinFresh (hb : s.runtime.Booked) {ch : ℕ} {boot : Option UInt64}
    {name : Bytes} : Leaves s.saved (s.onJoinFresh env ch boot name) := by
  cases boot with
  | none => exact leaves_off hb rfl
  | some boot =>
    let s₁ := (s.join ⟨ch, boot, name⟩).say (.newWorker boot)
    have hb₁ : s₁.runtime.Booked := hb
    exact leaves_regroup hb₁

/-- A state with the books in order and the phase's group registered. -/
structure InBooks (s : Coordinator) : Prop where
  booked : s.runtime.Booked
  formed : ∀ gen, Phase.gen s.phase = some gen → s.Formed gen

/-- A turn of `recv`, when what follows it leaves the books in order. -/
theorem leaves_recv (h : s.InBooks) {ch : ℕ} {onFrame : Frame → Coordinator → Coordinator}
    {onLoss : String → Coordinator → Coordinator}
    (hframe : ∀ f s₁, Same s s₁ → Leaves s₁.saved (onFrame f s₁))
    (hloss : ∀ reason s₁, Same s s₁ → Leaves s₁.saved (onLoss reason s₁)) :
    Leaves s.saved (s.recv env ch onFrame onLoss) := by
  unfold recv
  split
  · exact leaves_off h.booked rfl
  split
  · exact hframe _ (s.setChannel ch _) ⟨rfl, rfl⟩
  · exact hloss _ (s.setChannel ch _) ⟨rfl, rfl⟩
  · exact ⟨h.booked, h.formed, .inl rfl⟩

/-- **One turn** keeps the books in order, and what it saves is an export of
the runtime it leaves. -/
theorem leaves_turn (h : s.InBooks) (env : Surroundings) : Leaves s.saved (s.turn env) := by
  have hb {s₁ : Coordinator} (h₁ : Same s s₁) : s₁.runtime.Booked := by
    rw [h₁.runtime]
    exact h.booked
  have hquit (line : String) (reason : String) (s₁ : Coordinator) (h₁ : Same s s₁) :
      Leaves s₁.saved (s₁.quit (line ++ reason)) := leaves_quit (hb h₁) _
  have hformed := h.formed
  unfold turn
  cases hphase : s.phase with
  | accept => exact leaves_onAccept h.booked (fun _ => rfl) _
  | hello ch => exact leaves_recv h (fun f s₁ h₁ => leaves_onHello (hb h₁) ch f) (hquit _)
  | join ch boot name => exact leaves_recv h (fun f s₁ h₁ => leaves_onJoin (hb h₁) f) (hquit _)
  | barrier i =>
    rw [hphase] at hformed
    simp only
    split
    · exact leaves_off h.booked rfl
    · exact leaves_recv h
        (fun f s₁ h₁ => leaves_onBarrier (hb h₁) (h₁.formed (hformed 1 rfl)) i f) (hquit _)
  | contribution r =>
    rw [hphase] at hformed
    have hround {s₁ : Coordinator} (h₁ : Same s s₁) : s₁.Formed r.site.gen :=
      h₁.formed (hformed _ rfl)
    simp only
    split
    · exact leaves_off h.booked rfl
    · next w _ =>
      exact leaves_recv h (fun f s₁ h₁ => leaves_onContribution (hb h₁) (hround h₁) w f)
        fun reason s₁ h₁ =>
          have hsaid := h₁.trans (.say s₁ (.lossDetected r.site.label w.boot reason))
          leaves_afterAllreduce (hb hsaid) (hround hsaid)
  | complete r outputs i =>
    rw [hphase] at hformed
    have hround {s₁ : Coordinator} (h₁ : Same s s₁) : s₁.Formed r.site.gen :=
      h₁.formed (hformed _ rfl)
    simp only
    split
    · exact leaves_off h.booked rfl
    · next w _ =>
      exact leaves_recv h (fun f s₁ h₁ => leaves_awaitComplete (hb h₁) (hround h₁) outputs _)
        fun reason s₁ h₁ =>
          have hsaid := h₁.trans (.say s₁ (.completeLost r.site.label w.boot reason))
          leaves_afterAllreduce (hb hsaid) (hround hsaid)
  | acceptFresh => exact leaves_onAccept h.booked (fun _ => rfl) _
  | helloFresh ch =>
    exact leaves_recv h (fun f s₁ h₁ => leaves_onHelloFresh (hb h₁) ch f)
      fun _ s₁ h₁ => leaves_onHelloFresh (hb h₁) ch {}
  | joinFresh ch boot name =>
    exact leaves_recv h (fun _ s₁ h₁ => leaves_onJoinFresh (hb h₁))
      fun _ s₁ h₁ => leaves_onJoinFresh (hb h₁)
  | returned code => exact ⟨h.booked, h.formed, .inl rfl⟩
  | threw e => exact ⟨h.booked, h.formed, .inl rfl⟩
  | undefined => exact ⟨h.booked, h.formed, .inl rfl⟩

theorem leaves_step (h : s.InBooks) (ev : Event) : Leaves s.saved (s.step ev) := by
  cases ev with
  | arrive ch bs => exact ⟨h.booked, h.formed, .inl rfl⟩
  | hangUp ch reset => exact ⟨h.booked, h.formed, .inl rfl⟩
  | turn env => exact leaves_turn h env

/-! ## Runs -/

theorem inBooks_start (statefile : String) (wallNs : UInt64) :
    (start statefile wallNs).InBooks where
  booked := by
    refine ⟨fun key g hg => ?_, fun id m hm => ?_⟩
    · have hnone : (∅ : OrdMap GroupKey CollectiveGroup)[key]? = some g := hg
      rw [Std.TreeMap.getElem?_emptyc] at hnone
      cases hnone
    · have hnone : (∅ : OrdMap MeasurementId CollectiveMeasurement)[id]? = some m := hm
      rw [Std.TreeMap.getElem?_emptyc] at hnone
      cases hnone
  formed _ hgen := (nomatch hgen)

/-- **The books are in order throughout every run.** -/
theorem inBooks_run (statefile : String) (wallNs : UInt64) (evs : List Event) :
    Run.Throughout step InBooks (start statefile wallNs) evs := by
  have hstep (s : Coordinator) (ev : Event) (h : s.InBooks) (_ : True) : (s.step ev).InBooks :=
    ⟨(leaves_step h ev).booked, (leaves_step h ev).formed⟩
  exact Run.throughout_of_step hstep (inBooks_start statefile wallNs)
    (Run.along_of_forall (fun _ _ => trivial) evs)

/-- **What is saved is complete exactly while the second group generation is
not registered.** In every run of the coordinator, whatever the workers
do, an export made in a state that is reached is complete if and only if
the runtime has no second generation there, and what a step saves is an
export of the runtime it leaves. -/
theorem exports_complete_iff (statefile : String) (wallNs : UInt64) (evs : List Event) :
    Run.Throughout step (fun s => ∀ ns,
        (buildState s.runtime ns).Complete s.runtime ↔ s.second = none)
      (start statefile wallNs) evs ∧
    Run.Along step (fun s ev => (s.step ev).saved = s.saved ∨ ∃ path ns,
        (s.step ev).saved = s.saved ++ [(path, buildState (s.step ev).runtime ns)])
      (start statefile wallNs) evs := by
  have hbooks := inBooks_run statefile wallNs evs
  refine ⟨hbooks.mono fun s h ns => complete_buildState_iff h.booked ns, ?_⟩
  exact hbooks.along fun s ev h => (leaves_step h ev).saved

/-- The save after the second group is formed. -/
theorem saved_regroup {w₀ w₁ : WorkerState} {g : CollectiveGroup} {rt : Runtime}
    (hdisk : env.disk = none) (hw₀ : s.workers[0]? = some w₀) (hw₁ : s.workers[1]? = some w₁)
    (hform : formGroup s.runtime (env.clocks 0) w₀ w₁ 2 topoGeneration = (.ok g, rt)) :
    ∃ path ns, (s.regroup env).saved =
      s.saved ++ [(path, buildState (s.regroup env).runtime ns)] := by
  obtain ⟨-, -, hsaved⟩ := books_regrouped { s with runtime := rt } g ⟨w₀.boot⟩
  have hbegin (s₁ : Coordinator) := same_beginAllreduce s₁ .second
  simp only [regroup, hw₀, hw₁, hform, (formGroup_ok hform).2, save, hdisk, (hbegin _).runtime,
    (hbegin _).saved, hsaved]
  exact ⟨_, _, rfl⟩

/-- So is the turn that takes the fresh worker's last frame. -/
theorem saved_joinFresh {ch : ℕ} {boot : UInt64} {name : Bytes} {c c' : FrameChannel} {f : Frame}
    {w₀ w₁ : WorkerState} {g : CollectiveGroup} {rt : Runtime} (hdisk : env.disk = none)
    (hphase : s.phase = .joinFresh ch (some boot) name) (hworkers : s.workers = [w₀, w₁])
    (hc : s.connections[ch]? = some c) (hrecv : c.recv env.received = (.frame f, c'))
    (hform : formGroup s.runtime (env.clocks 0) w₀ w₁ 2 topoGeneration = (.ok g, rt)) :
    ∃ path ns, (s.turn env).saved = s.saved ++ [(path, buildState (s.turn env).runtime ns)] := by
  have hturn : s.turn env = (s.setChannel ch c').onJoinFresh env ch (some boot) name := by
    rw [turn, hphase]
    exact recv_of_frame hc hrecv _ _
  have hjoined : s.workers ++ [⟨ch, boot, name⟩] = [w₀, w₁, ⟨ch, boot, name⟩] :=
    congrArg (· ++ [⟨ch, boot, name⟩]) hworkers
  rw [hturn, onJoinFresh]
  exact saved_regroup hdisk (congrArg (·[0]?) hjoined) (congrArg (·[1]?) hjoined) hform

/-- **The save after the second group is formed loses it**: in the run in
which the first worker is lost, the state saved while the second generation
is registered is not complete. -/
theorem not_complete_second :
    let s := Run.run step (start "state" 0) (accepts ++ [.turn calm] ++ loses ++ [.turn calm])
    ∃ path ps, (path, ps) ∈ s.saved ∧ ¬ps.Complete s.runtime := by
  have hlast (s : Coordinator) : Run.run step s [.turn calm] = s.turn calm := rfl
  have hend : Run.run step (start "state" 0) (accepts ++ [.turn calm] ++ loses ++ [.turn calm]) =
      afterLoss.turn calm := by
    rw [Run.run_append, hlast, run_loses]
  have hbooks := (inBooks_run "state" 0
    (accepts ++ [.turn calm] ++ loses ++ [.turn calm])).last
  have hsecond : ((Run.run step (start "state" 0) (accepts ++ [.turn calm] ++ loses)).turn
      calm).second = some pairGroupSecond := registers_loses.2
  rw [hend] at hbooks ⊢
  rw [run_loses] at hsecond
  obtain ⟨hworkers, hphase, -, -, hnew, hchannel⟩ := afterLoss_eq
  have hrecv : FrameChannel.recv ⟨{}, Protocol.encode (Worker.joinGroup 3)⟩ calm.received =
      (.frame (Worker.joinGroup 3), {}) := by decide +kernel
  have hform : formGroup afterLoss.runtime (calm.clocks 0) ⟨0, 1, ∅⟩ ⟨1, 2, ∅⟩ 2
      topoGeneration = _ :=
    formGroup_of_build (if_neg (by decide)) pairBuilder_build_second hnew
  obtain ⟨path, ns, hsaved⟩ := saved_joinFresh rfl hphase hworkers hchannel hrecv hform
  refine ⟨path, buildState (afterLoss.turn calm).runtime ns, ?_, fun hcomplete => ?_⟩
  · rw [hsaved]
    exact List.mem_append_right _ (List.mem_singleton_self _)
  · have hnone := (complete_buildState_iff hbooks.booked ns).1 hcomplete
    exact absurd (hsecond.symm.trans hnone) (Option.some_ne_none _)

end Coordinator

end CollectiveFabric
