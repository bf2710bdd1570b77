import CollectiveFabric.Multiprocess.Invariant
import CollectiveFabric.Multiprocess.Payloads

/-!
# The claims contributions carry

A contribution's claim is read and kept, and then compared with nothing:
the engine is handed whatever two contributions come first. So every
contribution it is handed carries the claim of its round exactly when the
frames the workers send already do.
-/

namespace CollectiveFabric

open Common

/-- The claim a contribution from `boot` to a round on this request has to
carry. -/
def Desc.authority (d : Desc) (boot : UInt64) : AuthClaim :=
  ⟨d.epoch, boot, d.groupGen, d.collectiveGen, d.attemptGen, d.dispatchGen⟩

/-- Each contribution of the round carries the boot registered for its
channel and the generations of the round's request. -/
def Round.Authorised (r : Round) : Prop :=
  ∀ c ∈ r.contributions, c.auth = r.request.authority c.boot

instance (r : Round) : Decidable r.Authorised :=
  inferInstanceAs (Decidable (∀ c ∈ r.contributions, c.auth = r.request.authority c.boot))

namespace Coordinator

variable {s : Coordinator}

/-- Every round handed to the engine so far is authorised. -/
def Authorised (s : Coordinator) : Prop := ∀ r ∈ s.executed, r.Authorised

instance (s : Coordinator) : Decidable s.Authorised :=
  inferInstanceAs (Decidable (∀ r ∈ s.executed, r.Authorised))

/-- The coordinator stands at the channel the last contribution of `r` is
awaited from, and the frame there is one, of a well-formed payload. -/
structure Completing (s : Coordinator) (r : Round) (w : WorkerState) (f : Frame) : Prop where
  phase : s.phase = .contribution r
  last : ¬ r.contributions.length + 1 < 2
  worker : s.workers[r.contributions.length]? = some w
  head : s.head w.ch = some f
  kind : f.kind = .of .contribution
  payload : (Fields.blob.decode f.payload).isSome = true

/-- **The frame that completes a round begins with the round's claim**,
and so did the contributions before it. -/
def Fenced (s : Coordinator) : Event → Prop
  | .turn _ => ∀ r w f, s.Completing r w f → r.Authorised ∧
      (encAuth (r.request.authority w.boot)).toList <+: f.payload.toList
  | _ => True

theorem completed_eq_some {r r' : Round} {w : WorkerState} {f : Frame} :
    r.completed w f = some r' ↔ f.kind = .of .contribution ∧ ¬ r.contributions.length + 1 < 2 ∧
      ∃ x, Fields.blob.decode f.payload = some x ∧
        r' = { r with contributions := r.contributions ++ [⟨w.boot, x.1, x.2⟩] } := by
  unfold Round.completed
  by_cases hkind : f.kind = .of .contribution
  · rw [if_neg (not_not.2 hkind)]
    cases hblob : Fields.blob.decode f.payload with
    | none => cases decAuth f.payload <;> simp
    | some x =>
      obtain ⟨auth, bytes⟩ := x
      simp only [decAuth_of_blob hblob, hkind, true_and, Option.some.injEq]
      by_cases hlast : r.contributions.length + 1 < 2
      · simp [hlast]
      · simp [hlast, eq_comm]
  · rw [if_pos hkind]
    simp [hkind]

/-- **What a turn hands to the engine**: the awaited round with the frame
that completes it. -/
theorem handed_eq_some {r' : Round} : s.handed = some r' ↔
    ∃ r w f x, s.Completing r w f ∧ Fields.blob.decode f.payload = some x ∧
      r' = { r with contributions := r.contributions ++ [⟨w.boot, x.1, x.2⟩] } := by
  constructor
  · intro h
    unfold handed at h
    split at h
    · next r hphase =>
      obtain ⟨w, hw, h⟩ := Option.bind_eq_some_iff.1 h
      obtain ⟨f, hf, h⟩ := Option.bind_eq_some_iff.1 h
      obtain ⟨hkind, hlast, x, hblob, hr'⟩ := completed_eq_some.1 h
      exact ⟨r, w, f, x, ⟨hphase, hlast, hw, hf, hkind, by rw [hblob]; rfl⟩, hblob, hr'⟩
    · cases h
  · rintro ⟨r, w, f, x, hc, hblob, hr'⟩
    have hcompleted := completed_eq_some.2 ⟨hc.kind, hc.last, x, hblob, hr'⟩
    simp only [handed, hc.phase, hc.worker, hc.head, Option.bind_some, hcompleted]

/-- **What is handed over is authorised** exactly when the frame that
completes it is fenced. -/
theorem authorised_handed (env : Surroundings) :
    (∀ r ∈ s.handed, r.Authorised) ↔ s.Fenced (.turn env) := by
  -- the claim read is the round's exactly if the payload begins with it
  have hclaim {r : Round} {w : WorkerState} {f : Frame} {x : AuthClaim × Bytes}
      (hblob : Fields.blob.decode f.payload = some x) :
      Round.Authorised { r with contributions := r.contributions ++ [⟨w.boot, x.1, x.2⟩] } ↔
        r.Authorised ∧ (encAuth (r.request.authority w.boot)).toList <+: f.payload.toList := by
    rw [← decAuth_eq_some, decAuth_of_blob hblob, Option.some.injEq]
    simp only [Round.Authorised, List.forall_mem_append, List.forall_mem_singleton]
  constructor
  · intro h r w f hc
    obtain ⟨x, hblob⟩ := Option.isSome_iff_exists.1 hc.payload
    exact (hclaim hblob).1 (h _ (handed_eq_some.2 ⟨r, w, f, x, hc, hblob, rfl⟩))
  · intro h r' hr'
    obtain ⟨r, w, f, x, hc, hblob, rfl⟩ := handed_eq_some.1 hr'
    exact (hclaim hblob).2 (h r w f hc)

/-- **One step**: the rounds handed over stay authorised exactly if the
step is fenced. -/
theorem authorised_step (h : s.Sound) (hs : s.Authorised) (ev : Event) :
    (s.step ev).Authorised ↔ s.Fenced ev := by
  have hexecuted : (s.step ev).executed = s.executed ++ (s.handedBy ev).toList := by
    obtain ⟨_, hinv, -⟩ := inv_step h ev
    exact hinv.base.executed
  have hnew : (s.step ev).Authorised ↔ ∀ r ∈ s.handedBy ev, r.Authorised := by
    simp only [Authorised, hexecuted, List.forall_mem_append, Option.mem_toList]
    exact and_iff_right hs
  rw [hnew]
  cases ev with
  | arrive ch bs => exact iff_of_true (fun _ hr => (nomatch hr)) trivial
  | hangUp ch reset => exact iff_of_true (fun _ hr => (nomatch hr)) trivial
  | turn env => exact authorised_handed env

/-- **The contributions the engine is handed are authorised exactly when
what completes a round is fenced.** In every run of the coordinator with
any workers, all of them carry the claim of their round if and only if,
whenever a frame completes a round, it begins with that claim. -/
theorem contributions_authorised (statefile : String) (wallNs : UInt64) (evs : List Event) :
    Run.Throughout step Authorised (start statefile wallNs) evs ↔
      Run.Along step Fenced (start statefile wallNs) evs := by
  have hsound (s : Coordinator) (ev : Event) (h : s.Sound) (_ : True) : (s.step ev).Sound :=
    sound_step h ev
  have hexact (s : Coordinator) (ev : Event) (h : s.Sound) (_ : True) (hs : s.Authorised) :
      (s.step ev).Authorised ↔ s.Fenced ev := authorised_step h hs ev
  exact Run.throughout_iff_along hsound hexact (sound_start statefile wallNs)
    (fun _ hr => (List.not_mem_nil hr).elim) (Run.along_of_forall (fun _ _ => trivial) evs)

/-! ## An honest run -/

/-- Surroundings in which nothing fails and reads are short of nothing. -/
def calm : Surroundings where
  received := 8192
  clocks _ := ⟨0, 0, 0⟩

/-- Frames arrive, and the coordinator takes a turn for the bytes and one
for each frame. -/
def takes (ch : ℕ) (fs : List Frame) : List Event :=
  .arrive ch (fs.flatMap Protocol.encode) :: .turn calm :: fs.map fun _ => .turn calm

/-- Two workers are accepted, up to the turn that takes the second
`JOIN_GROUP`. -/
def accepts : List Event :=
  .turn calm :: takes 0 [Worker.hello 1 ∅, Worker.joinGroup 1] ++
  .turn calm :: takes 1 [Worker.hello 2 ∅] ++ [.arrive 1 (Protocol.encode (Worker.joinGroup 2)),
    .turn calm]

/-- The builder of a group of the two workers. -/
def pairBuilder (gen : UInt64) : GroupBuilder :=
  formBuilder ⟨0, 0, 0⟩ [⟨0, 1, ∅⟩, ⟨1, 2, ∅⟩] gen topoGeneration

/-- The same with the ranks assigned. -/
def pairRanked (gen : UInt64) : GroupBuilder :=
  { pairBuilder gen with
    participants := .ofList (GroupBuilder.ranked (pairBuilder gen).participants.toList) }

theorem pairRanked_validate : (pairRanked 1).validate = .ok () := by decide +kernel

/-- The first group of the run. -/
def pairGroup : CollectiveGroup := (pairRanked 1).group pairRanked_validate

theorem pairBuilder_build : (pairBuilder 1).build.1 = .ok pairGroup :=
  GroupBuilder.build_of_sorted (by decide) (by decide) pairRanked_validate

/-- What the turn that takes the second `JOIN_GROUP` leaves. -/
def paired (s : Coordinator) : Coordinator :=
  let s := ((s.setChannel 1 {}).join ⟨1, 2, ∅⟩).say (.acceptedWorker ∅ 2)
  let groups := s.runtime.groups.insert (groupId, ⟨1⟩) pairGroup
  let s := { s with runtime := { s.runtime with groups := groups } }
  ((s.announce pairGroup 1 .groupAccept).say
    (.text "PHASE_GROUP_READY gen=1 ranks=2")).awaitBarrier 0

theorem turn_paired (hphase : s.phase = .join 1 2 ∅) (hworkers : s.workers = [⟨0, 1, ∅⟩])
    (hchannel : s.connections[1]? = some ⟨{}, Protocol.encode (Worker.joinGroup 2)⟩)
    (hnew : ¬ ((groupId, ⟨1⟩) : GroupKey) ∈ s.runtime.groups) : s.turn calm = paired s := by
  have hrecv : FrameChannel.recv ⟨{}, Protocol.encode (Worker.joinGroup 2)⟩ calm.received =
      (.frame (Worker.joinGroup 2), {}) := by decide +kernel
  have hpair : s.workers ++ [⟨1, 2, ∅⟩] = [⟨0, 1, ∅⟩, ⟨1, 2, ∅⟩] := by rw [hworkers]; rfl
  have hform : formGroup s.runtime (calm.clocks 0) ⟨0, 1, ∅⟩ ⟨1, 2, ∅⟩ 1 topoGeneration = _ :=
    formGroup_of_build (if_neg (by decide)) pairBuilder_build hnew
  rw [turn, hphase]
  simp only
  rw [recv_of_frame hchannel hrecv, onJoin, if_neg (by decide)]
  simp only
  rw [if_neg (by simp [say, join, setChannel, hworkers])]
  exact groupReady_of_formGroup hpair hform

/-- The workers pass the barrier and answer the first request. -/
def contributes : List Event :=
  takes 0 [Worker.barrier 1 1] ++ takes 1 [Worker.barrier 2 1] ++
    takes 0 [Worker.contribution 1 0 Site.first.request] ++
    takes 1 [Worker.contribution 2 1 Site.first.request]

theorem run_accepts :
    Run.run step (start "state" 0) (accepts ++ [.turn calm]) =
      paired (Run.run step (start "state" 0) accepts) := by
  have hlast (s : Coordinator) : Run.run step s [.turn calm] = s.turn calm := rfl
  rw [Run.run_append, hlast]
  exact turn_paired (by decide +kernel) (by decide +kernel) (by decide +kernel) (by decide +kernel)

/-- **An honest first round is stale**: both workers claim epoch 1 and the
request names epoch 2. -/
theorem contributions_stale :
    ¬ (Run.run step (start "state" 0) (accepts ++ [.turn calm] ++ contributes)).Authorised := by
  rw [Run.run_append, run_accepts]
  decide +kernel

end Coordinator

end CollectiveFabric
