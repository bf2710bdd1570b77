import CollectiveFabric.Multiprocess.Contributions

/-!
# The second group

After a loss the coordinator erases the workers whose channels are no
longer valid, and a channel stays valid until it is closed, which nothing
does. The second group is formed of the workers in places 0 and 1: of the
two that joined first, the lost one among them, and never of the fresh
one.
-/

namespace CollectiveFabric

open Common

/-- **What reconfiguration is for**: the group has the survivor and the
fresh worker, and the lost one is not in it. -/
structure CollectiveGroup.Replaces (g : CollectiveGroup) (lost survivor fresh : UInt64) :
    Prop where
  participants : ∀ boot, boot ∈ g.boots ↔ boot = ⟨survivor⟩ ∨ boot = ⟨fresh⟩
  dropped : (⟨lost⟩ : WorkerBootId) ∉ g.boots

namespace Coordinator

variable {s : Coordinator} {ev : Event} {g : CollectiveGroup}

/-- The step registers `g` as the second group. -/
def Registers (s : Coordinator) (ev : Event) (g : CollectiveGroup) : Prop :=
  s.second = none ∧ (s.step ev).second = some g

/-- The fresh worker's last frame has the second group registered, if
`form_group` forms it. -/
theorem registers_of_joinFresh (h : s.Sound) {env : Surroundings} {ch : ℕ} {boot : UInt64}
    {name : Bytes} {c c' : FrameChannel} {f : Frame} {w₀ w₁ : WorkerState} {rt : Runtime}
    (hnone : s.second = none) (hphase : s.phase = .joinFresh ch (some boot) name)
    (hworkers : s.workers = [w₀, w₁]) (hc : s.connections[ch]? = some c)
    (hrecv : c.recv env.received = (.frame f, c'))
    (hform : formGroup s.runtime (env.clocks 0) w₀ w₁ 2 topoGeneration = (.ok g, rt)) :
    s.Registers (.turn env) g := by
  have hturn : s.turn env = (s.setChannel ch c').onJoinFresh env ch (some boot) name := by
    rw [turn, hphase]
    exact recv_of_frame hc hrecv _ _
  have hvalid : c'.valid = c.valid := by
    have hkept := valid_recv c env.received
    rwa [hrecv] at hkept
  have hkeeps := Keeps.setChannel s hc hvalid
  have hlive : s.Live ch := h.placed.joining ch (by rw [hphase]; rfl)
  have hbase : Base s.executed s.second
      (((s.setChannel ch c').join ⟨ch, boot, name⟩).say (.newWorker boot)) :=
    (Base.join (h.base.keeps hkeeps) (hkeeps.live ch hlive)).keeps (.say _ rfl)
  have hall : s.workers ++ [⟨ch, boot, name⟩] = [w₀, w₁, ⟨ch, boot, name⟩] := by
    rw [hworkers]
    rfl
  refine ⟨hnone, ?_⟩
  rw [step, hturn]
  exact (inv_regroup_ok hbase (congrArg (·[0]?) hall) (congrArg (·[1]?) hall) hform).base.second

/-- The step that registers the second group finds two workers there and
forms the group of them. -/
theorem boots_of_registers (h : s.Sound) (hreg : s.Registers ev g) :
    ∃ w₀ w₁, s.workers = [w₀, w₁] ∧ g.boots.Perm [⟨w₀.boot⟩, ⟨w₁.boot⟩] := by
  obtain ⟨hnone, hsome⟩ := hreg
  obtain ⟨G', hinv, hgrows⟩ := inv_step h ev
  obtain rfl : some g = G' := hsome.symm.trans hinv.base.second
  rw [hnone] at hgrows
  obtain hsame | ⟨ch, boot, name, hphase, hforms⟩ := hgrows
  · cases hsame
  · obtain hsame | ⟨w₀, w₁, g', hw₀, hw₁, hg, hboots⟩ := hforms
    · cases hsame
    · obtain rfl : g = g' := Option.some.inj hg
      -- the fresh worker stands behind the first two
      have hlen : s.workers.length = 2 := by
        have hearly := h.placed.early hnone
        rwa [hphase] at hearly
      obtain ⟨u, v, huv⟩ := List.length_eq_two.1 hlen
      rw [huv] at hw₀ hw₁
      cases hw₀
      cases hw₁
      exact ⟨w₀, w₁, huv, hboots⟩

/-- **A lost worker is in the second group.** -/
theorem lost_mem_of_registers (h : s.Sound) (hreg : s.Registers ev g) {lost : UInt64}
    (hlost : lost ∈ s.lost) : (⟨lost⟩ : WorkerBootId) ∈ g.boots := by
  obtain ⟨w₀, w₁, hworkers, hboots⟩ := boots_of_registers h hreg
  have hmem := h.base.lost hreg.1 lost hlost
  rw [hworkers] at hmem
  rw [hboots.mem_iff]
  simpa using hmem

/-- **Reconfiguration never replaces the lost worker.** In every run, when
a loss has been logged and the second group is registered, the lost worker
is one of its participants; it is never the survivor and the fresh
worker. -/
theorem never_replaces (statefile : String) (wallNs : UInt64) (evs : List Event) (ev : Event)
    (g : CollectiveGroup) (lost survivor fresh : UInt64)
    (hlost : lost ∈ (Run.run step (start statefile wallNs) evs).lost)
    (hreg : (Run.run step (start statefile wallNs) evs).Registers ev g) :
    ¬ g.Replaces lost survivor fresh := by
  intro hreplaces
  have hsound := (sound_run statefile wallNs evs).last
  exact hreplaces.dropped (lost_mem_of_registers hsound hreg hlost)

/-! ## The stale replay -/

/-- Each claim of the stale replay but the last is turned away, for the one
thing that is wrong with it. -/
theorem decisions_staleClaims {live : WorkerBootId} (hlive : live.isNull = false)
    (hmade : live ≠ ⟨999⟩) :
    (staleClaims live).map (evaluateAuthority ⟨⟨2⟩, live, ⟨2⟩, ⟨1⟩, ⟨2⟩, ⟨2⟩⟩) =
      [⟨.stale, "stale coordinator epoch"⟩,
        ⟨.stale, "WorkerBootId does not match current participant incarnation"⟩,
        ⟨.stale, "stale group generation"⟩, ⟨.stale, "stale collective generation"⟩,
        ⟨.stale, "stale attempt generation"⟩, ⟨.stale, "stale dispatch generation"⟩,
        ⟨.duplicate, "generation matches but completion already recorded"⟩,
        ⟨.current, "claim is current"⟩] := by
  simp only [staleClaims, List.map_cons, List.map_nil, evaluateAuthority, hlive, ne_eq,
    not_true, and_false, if_false, Bool.false_eq_true, false_and, hmade.symm, not_false_eq_true,
    and_self, if_true]
  rfl

/-- **What the stale replay logs**, if the live boot is not the one it makes
up: seven claims rejected and one accepted. -/
theorem log_staleReplay {live : WorkerBootId} (hlive : live.isNull = false)
    (hmade : live ≠ ⟨999⟩) : (s.staleReplay live).log = s.log ++
      [.stale .stale true "stale coordinator epoch",
        .stale .stale true "WorkerBootId does not match current participant incarnation",
        .stale .stale true "stale group generation",
        .stale .stale true "stale collective generation",
        .stale .stale true "stale attempt generation",
        .stale .stale true "stale dispatch generation",
        .stale .duplicate true "generation matches but completion already recorded",
        .stale .current false "claim is current", .staleReplay 7 1] := by
  simp only [staleReplay, decisions_staleClaims hlive hmade, List.foldl_cons, List.foldl_nil, say,
    List.append_assoc]
  rfl

/-! ## A run in which the first worker is lost -/

/-- Past the barrier the first worker is gone, which two rounds notice, and
a fresh worker is accepted, up to the turn that takes its `JOIN_GROUP`. -/
def loses : List Event :=
  takes 0 [Worker.barrier 1 1] ++ takes 1 [Worker.barrier 2 1] ++
    [.hangUp 0 true, .turn calm, .turn calm, .turn calm] ++ takes 2 [Worker.hello 3 ∅] ++
    [.arrive 2 (Protocol.encode (Worker.joinGroup 3)), .turn calm]

theorem pairRanked_validate_second : (pairRanked 2).validate = .ok () := by decide +kernel

/-- The second group of the run. -/
def pairGroupSecond : CollectiveGroup := (pairRanked 2).group pairRanked_validate_second

theorem pairBuilder_build_second : (pairBuilder 2).build.1 = .ok pairGroupSecond :=
  GroupBuilder.build_of_sorted (by decide) (by decide) pairRanked_validate_second

/-- What the turn that takes the fresh worker's `JOIN_GROUP` leaves. -/
def rejoined (s : Coordinator) : Coordinator :=
  let s := ((s.setChannel 2 {}).join ⟨2, 3, ∅⟩).say (.newWorker 3)
  let groups := s.runtime.groups.insert (groupId, ⟨2⟩) pairGroupSecond
  let rt := { s.runtime with groups := groups }
  ({ s with runtime := rt }.regrouped pairGroupSecond ⟨1⟩).save calm (s.statefile ++ ".before2")
    fun s => s.beginAllreduce .second

theorem turn_rejoined (hphase : s.phase = .joinFresh 2 (some 3) ∅)
    (hworkers : s.workers = [⟨0, 1, ∅⟩, ⟨1, 2, ∅⟩])
    (hchannel : s.connections[2]? = some ⟨{}, Protocol.encode (Worker.joinGroup 3)⟩)
    (hnew : ¬ ((groupId, ⟨2⟩) : GroupKey) ∈ s.runtime.groups) : s.turn calm = rejoined s := by
  have hrecv : FrameChannel.recv ⟨{}, Protocol.encode (Worker.joinGroup 3)⟩ calm.received =
      (.frame (Worker.joinGroup 3), {}) := by decide +kernel
  have hall : s.workers ++ [⟨2, 3, ∅⟩] = [⟨0, 1, ∅⟩, ⟨1, 2, ∅⟩, ⟨2, 3, ∅⟩] := by rw [hworkers]; rfl
  have hform : formGroup s.runtime (calm.clocks 0) ⟨0, 1, ∅⟩ ⟨1, 2, ∅⟩ 2 topoGeneration = _ :=
    formGroup_of_build (if_neg (by decide)) pairBuilder_build_second hnew
  rw [turn, hphase]
  simp only
  rw [recv_of_frame hchannel hrecv, onJoinFresh]
  have hregroup := regroup_of_formGroup
    (s := ((s.setChannel 2 {}).join ⟨2, 3, ∅⟩).say (.newWorker 3)) hall hform
  rw [hregroup, rejoined]
  rfl

/-- The coordinator before the fresh worker's `JOIN_GROUP`. -/
def afterLoss : Coordinator :=
  Run.run step (paired (Run.run step (start "state" 0) accepts)) loses

theorem run_loses :
    Run.run step (start "state" 0) (accepts ++ [.turn calm] ++ loses) = afterLoss := by
  rw [Run.run_append, run_accepts, afterLoss]

theorem afterLoss_eq : afterLoss.workers = [⟨0, 1, ∅⟩, ⟨1, 2, ∅⟩] ∧
    afterLoss.phase = .joinFresh 2 (some 3) ∅ ∧ afterLoss.lost = [1, 1] ∧
    afterLoss.second.isNone = true ∧ ¬ ((groupId, ⟨2⟩) : GroupKey) ∈ afterLoss.runtime.groups ∧
    afterLoss.connections[2]? = some ⟨{}, Protocol.encode (Worker.joinGroup 3)⟩ := by
  decide +kernel

theorem registers_loses : (Run.run step (start "state" 0)
    (accepts ++ [.turn calm] ++ loses)).Registers (.turn calm) pairGroupSecond := by
  have hsound := (sound_run "state" 0 (accepts ++ [.turn calm] ++ loses)).last
  rw [run_loses] at hsound ⊢
  obtain ⟨hworkers, hphase, -, hnone, hnew, hchannel⟩ := afterLoss_eq
  have hrecv : FrameChannel.recv ⟨{}, Protocol.encode (Worker.joinGroup 3)⟩ calm.received =
      (.frame (Worker.joinGroup 3), {}) := by decide +kernel
  have hform : formGroup afterLoss.runtime (calm.clocks 0) ⟨0, 1, ∅⟩ ⟨1, 2, ∅⟩ 2
      topoGeneration = _ :=
    formGroup_of_build (if_neg (by decide)) pairBuilder_build_second hnew
  exact registers_of_joinFresh hsound (Option.isNone_iff_eq_none.1 hnone) hphase hworkers hchannel
    hrecv hform

theorem lost_loses :
    1 ∈ (Run.run step (start "state" 0) (accepts ++ [.turn calm] ++ loses)).lost := by
  rw [run_loses, afterLoss_eq.2.2.1]
  exact List.mem_cons_self

theorem never_replaces_first : ¬ pairGroupSecond.Replaces 1 2 3 :=
  never_replaces "state" 0 _ (.turn calm) pairGroupSecond 1 2 3 lost_loses registers_loses

/-- **The lost worker is in the second group** of this run, and the fresh
one is not. -/
theorem lost_worker_regrouped :
    ∃ evs ev g, (Run.run step (start "state" 0) evs).Registers ev g ∧
      (Run.run step (start "state" 0) evs).workers.map (·.boot) = [1, 2] ∧
      (Run.run step (start "state" 0) evs).phase = .joinFresh 2 (some 3) ∅ ∧
      (Run.run step (start "state" 0) evs).lost = [1, 1] ∧ g.boots = [⟨1⟩, ⟨2⟩] ∧
      ¬ g.Replaces 1 2 3 := by
  obtain ⟨hworkers, hphase, hlost, -⟩ := afterLoss_eq
  rw [← run_loses] at hworkers hphase hlost
  refine ⟨_, _, _, registers_loses, ?_, hphase, hlost, rfl, fun hreplaces =>
    hreplaces.dropped List.mem_cons_self⟩
  rw [hworkers, List.map_cons, List.map_cons, List.map_nil]

end Coordinator

end CollectiveFabric
