import CollectiveFabric.Common.Run
import CollectiveFabric.Multiprocess.Model.Coordinator
import CollectiveFabric.Runtime.Invariant

/-!
# What a turn of the coordinator keeps

Almost everything the coordinator does leaves its workers, its registered
groups and the losses it has logged as they are, and no turn closes a
handle: loss is only ever a read that failed. So the erasing of dead
workers erases none, and until the second group is registered the workers
are the two that joined first.
-/

namespace CollectiveFabric

open Common

/-- The worker a line reports as lost. -/
def Line.lost : Line → Option UInt64
  | .lossDetected _ boot _ => some boot
  | .completeLost _ boot _ => some boot
  | _ => none

namespace Coordinator

variable {s s' s'' : Coordinator}

/-- The boots of the workers whose loss is logged. -/
def lost (s : Coordinator) : List UInt64 := s.log.filterMap Line.lost

/-- The channel is there and its handle is open. -/
def Live (s : Coordinator) (ch : ℕ) : Prop := ∃ c, s.connections[ch]? = some c ∧ c.valid = true

/-- **What most of the coordinator's doings keep.** -/
structure Keeps (s s' : Coordinator) : Prop where
  workers : s'.workers = s.workers
  groups : s'.runtime.groups = s.runtime.groups
  executed : s'.executed = s.executed
  lost : s'.lost = s.lost
  live : ∀ ch, s.Live ch → s'.Live ch

namespace Keeps

theorem refl (s : Coordinator) : Keeps s s := ⟨rfl, rfl, rfl, rfl, fun _ h => h⟩

theorem trans (h : Keeps s s') (h' : Keeps s' s'') : Keeps s s'' where
  workers := h'.workers.trans h.workers
  groups := h'.groups.trans h.groups
  executed := h'.executed.trans h.executed
  lost := h'.lost.trans h.lost
  live ch hch := h'.live ch (h.live ch hch)

theorem findGroup (h : Keeps s s') (id : CollectiveGroupId) (gen : GroupGeneration) :
    s'.runtime.findGroup id gen = s.runtime.findGroup id gen := by
  rw [Runtime.findGroup, Runtime.findGroup, h.groups]

theorem goto (s : Coordinator) (p : Phase) : Keeps s (s.goto p) :=
  ⟨rfl, rfl, rfl, rfl, fun _ h => h⟩

/-- A line that reports no loss. -/
theorem say (s : Coordinator) {line : Line} (hline : line.lost = none) :
    Keeps s (s.say line) := by
  refine ⟨rfl, rfl, rfl, ?_, fun _ h => h⟩
  simp only [Coordinator.lost, Coordinator.say, List.filterMap_append, List.filterMap_cons, hline,
    List.filterMap_nil, List.append_nil]

theorem text (s : Coordinator) (t : String) : Keeps s (s.say (.text t)) := say s rfl

theorem quit (s : Coordinator) (line : String) : Keeps s (s.quit line) :=
  (text s line).trans (goto _ _)

/-- A runtime with the same groups. -/
theorem runtime (s : Coordinator) {rt : Runtime} (h : rt.groups = s.runtime.groups) :
    Keeps s { s with runtime := rt } :=
  ⟨rfl, h, rfl, rfl, fun _ h => h⟩

theorem saved (s : Coordinator) (saves : List (String × PersistentState)) :
    Keeps s { s with saved := saves } :=
  ⟨rfl, rfl, rfl, rfl, fun _ h => h⟩

/-- Connections whose handles stay open. -/
theorem connections (s : Coordinator) {cs : List FrameChannel}
    (h : ∀ (ch : ℕ) (c : FrameChannel), s.connections[ch]? = some c → c.valid = true →
      ∃ c' : FrameChannel, cs[ch]? = some c' ∧ c'.valid = true) :
    Keeps s { s with connections := cs } :=
  ⟨rfl, rfl, rfl, rfl, fun ch ⟨c, hc, hv⟩ => h ch c hc hv⟩

/-- A change to one connection that leaves its handle open. -/
theorem modify (s : Coordinator) (ch : ℕ) {f : FrameChannel → FrameChannel}
    (hf : ∀ c, (f c).valid = c.valid) :
    Keeps s { s with connections := s.connections.modify ch f } := by
  refine connections s fun k c hc hv => ?_
  rw [List.getElem?_modify, hc]
  by_cases hk : ch = k
  · exact ⟨f c, by simp [hk], by rw [hf, hv]⟩
  · exact ⟨c, by simp [hk], hv⟩

theorem send (s : Coordinator) (ch : ℕ) (f : Frame) : Keeps s (s.send ch f) :=
  modify s ch fun _ => rfl

theorem setChannel (s : Coordinator) {ch : ℕ} {c c' : FrameChannel}
    (hc : s.connections[ch]? = some c) (hv : c'.valid = c.valid) :
    Keeps s (s.setChannel ch c') := by
  refine connections s fun k d hd hdv => ?_
  rw [List.getElem?_set]
  by_cases hk : ch = k
  · subst hk
    obtain ⟨hlt, -⟩ := List.getElem?_eq_some_iff.1 hc
    obtain rfl : c = d := Option.some.inj (hc.symm.trans hd)
    exact ⟨c', by simp [hlt], hv.trans hdv⟩
  · exact ⟨d, by simp [hk, hd], hdv⟩

/-- A loop each of whose turns keeps them. -/
theorem foldl {α : Type} (f : Coordinator → α → Coordinator) (h : ∀ s a, Keeps s (f s a))
    (xs : List α) (s : Coordinator) : Keeps s (xs.foldl f s) := by
  induction xs generalizing s with
  | nil => exact refl s
  | cons x xs ih => exact (h s x).trans (ih _)

theorem sendEach (s : Coordinator) (f : WorkerState → Frame) : Keeps s (s.sendEach f) :=
  foldl (fun s (w : WorkerState) => s.send w.ch (f w)) (fun s w => send s w.ch (f w)) s.workers s

theorem announce (s : Coordinator) (g : CollectiveGroup) (gen : UInt64)
    {line : UInt64 → RankId → Line} (hline : ∀ boot rank, (line boot rank).lost = none) :
    Keeps s (s.announce g gen line) :=
  foldl _ (fun s _ => (send s _ _).trans (say _ (hline _ _))) _ s

theorem staleReplay (s : Coordinator) (live : WorkerBootId) : Keeps s (s.staleReplay live) :=
  (foldl _ (fun s _ => say s rfl) _ s).trans (say _ rfl)

theorem regrouped (s : Coordinator) (g : CollectiveGroup) (live : WorkerBootId) :
    Keeps s (s.regrouped g live) := by
  have hannounce := @announce s g 2 .regenGroupAccept fun _ _ => rfl
  let rt := (s.announce g 2 .regenGroupAccept).runtime.setLiveBoot live
  let authority := { rt.authority with
    groupGeneration := ⟨2⟩
    collectiveGeneration := ⟨1⟩
    attemptGeneration := ⟨2⟩
    dispatchGeneration := ⟨2⟩ }
  have hauthority := hannounce.trans (@runtime _ { rt with authority := authority } rfl)
  exact (hauthority.trans (text _ "PHASE_REGROUP gen=2")).trans (staleReplay _ live)

/-- **No worker is erased**: every worker's handle is still open. -/
theorem prune (hlive : ∀ w ∈ s.workers, s.Live w.ch) : Keeps s s.prune := by
  have hdead : ∀ w ∈ s.workers, s.dead w = false := by
    intro w hw
    obtain ⟨c, hc, hv⟩ := hlive w hw
    simp [dead, hc, hv]
  have hnone : s.workers.filter s.dead = [] := by
    rw [List.filter_eq_nil_iff]
    exact fun w hw => by simp [hdead w hw]
  have hall : (s.workers.filter fun w => !s.dead w) = s.workers := by
    rw [List.filter_eq_self]
    exact fun w hw => by simp [hdead w hw]
  rw [Coordinator.prune, hnone, hall]
  exact refl s

end Keeps

/-! ## Reads -/

/-- The handle of a channel stays open while it is read. -/
theorem valid_recv (c : FrameChannel) (n : ℕ) : (c.recv n).2.valid = c.valid := by
  unfold FrameChannel.recv
  split
  · rfl
  · rfl
  · split
    all_goals
      next h =>
        unfold TcpConnection.recvSome at h
        split_ifs at h
        all_goals cases h
        all_goals rfl

/-- The frame the next turn of `recv` takes from a channel. -/
def head (s : Coordinator) (ch : ℕ) : Option Frame :=
  match s.connections[ch]? with
  | none => none
  | some c =>
    match c.decoder.next.1 with
    | .frame f _ => some f
    | _ => none

/-- **What a turn of `recv` comes to**: nothing is there to read, or a
frame is taken, or the read fails, or it goes on. -/
inductive Read (s : Coordinator) (ch : ℕ) (onFrame : Frame → Coordinator → Coordinator)
    (onLoss : String → Coordinator → Coordinator) : Coordinator → Prop
  | missing (hhead : s.head ch = none) : Read s ch onFrame onLoss (s.goto .undefined)
  | frame {s' : Coordinator} {f : Frame} (hhead : s.head ch = some f) (hphase : s'.phase = s.phase)
      (hkeeps : Keeps s s') : Read s ch onFrame onLoss (onFrame f s')
  | loss {s' : Coordinator} {reason : String} (hhead : s.head ch = none)
      (hphase : s'.phase = s.phase) (hkeeps : Keeps s s') :
      Read s ch onFrame onLoss (onLoss reason s')
  | pending {s' : Coordinator} (hhead : s.head ch = none) (hphase : s'.phase = s.phase)
      (hkeeps : Keeps s s') : Read s ch onFrame onLoss s'

/-- The frame at the head is the one that a turn of `recv` takes. -/
theorem head_eq {ch : ℕ} {c : FrameChannel} (hc : s.connections[ch]? = some c) (n : ℕ) :
    s.head ch = match (c.recv n).1 with
      | .frame f => some f
      | _ => none := by
  simp only [head, hc, FrameChannel.recv]
  rcases c.decoder.next with ⟨_ | _ | _, _⟩
  · simp only
    rcases c.conn.recvSome n with ⟨_ | _ | _, _⟩ <;> rfl
  · rfl
  · rfl

theorem read_recv (s : Coordinator) (env : Surroundings) (ch : ℕ)
    (onFrame : Frame → Coordinator → Coordinator) (onLoss : String → Coordinator → Coordinator) :
    Read s ch onFrame onLoss (s.recv env ch onFrame onLoss) := by
  unfold Coordinator.recv
  split
  · next hc => exact .missing (by simp only [head, hc])
  · next c hc =>
    -- however the read ends, only the channel read from has changed
    have hkeeps : Keeps s (s.setChannel ch (c.recv env.received).2) :=
      .setChannel s hc (valid_recv c _)
    have hhead := head_eq hc env.received
    split
    all_goals
      next h =>
        rw [h] at hkeeps hhead
        first
        | exact .frame hhead rfl hkeeps
        | exact .loss hhead rfl hkeeps
        | exact .pending hhead rfl hkeeps

/-- **A turn of `recv` on a channel that is there** goes on with the frame
at its head; without one, with a loss or not at all. -/
theorem recv_cases {ch : ℕ} (hlive : s.Live ch) (env : Surroundings)
    (onFrame : Frame → Coordinator → Coordinator) (onLoss : String → Coordinator → Coordinator) :
    (∃ f s₁, s.head ch = some f ∧ Keeps s s₁ ∧ s₁.phase = s.phase ∧
        s.recv env ch onFrame onLoss = onFrame f s₁) ∨
      s.head ch = none ∧ ∃ s₁, Keeps s s₁ ∧ s₁.phase = s.phase ∧
        ((∃ reason, s.recv env ch onFrame onLoss = onLoss reason s₁) ∨
          s.recv env ch onFrame onLoss = s₁) := by
  obtain ⟨c, hc, -⟩ := hlive
  have hkeeps : Keeps s (s.setChannel ch (c.recv env.received).2) :=
    .setChannel s hc (valid_recv c _)
  have hhead := head_eq hc env.received
  simp only [Coordinator.recv, hc]
  rcases hrecv : c.recv env.received with ⟨f | reason | _, c'⟩
  all_goals rw [hrecv] at hkeeps hhead
  · exact .inl ⟨f, _, hhead, hkeeps, rfl, rfl⟩
  · exact .inr ⟨hhead, _, hkeeps, rfl, .inl ⟨reason, rfl⟩⟩
  · exact .inr ⟨hhead, _, hkeeps, rfl, .inr rfl⟩

end Coordinator

end CollectiveFabric
