import CollectiveFabric.Common.Settling
import CollectiveFabric.Multiprocess.Coordination
import CollectiveFabric.Multiprocess.Scenario

/-!
# The blocking calls of the coordinator

The scenario is a straight line: each blocking call that comes back leaves
fewer of them ahead. So a turn either only waits, or leads on; and whoever
the peers are, at most twenty-four calls come back in a run.
-/

namespace CollectiveFabric

open Common

/-- The blocking calls after a site's round. -/
def Site.ahead : Site → ℕ
  | .first => 12
  | .loss => 8
  | .second => 0

namespace Phase

/-- The number of workers a phase goes with, and how far its loops are. -/
def Within (n : ℕ) : Phase → Prop
  | .accept | .hello _ | .join _ _ _ => n < 2
  | .barrier i => n ≤ 2 ∧ i < n
  | .contribution r => n ≤ r.site.crowd ∧ r.contributions.length < 2
  | .complete r _ i => n ≤ r.site.crowd ∧ i < n
  | .acceptFresh | .helloFresh _ | .joinFresh _ _ _ => n ≤ 2
  | .returned _ | .threw _ | .undefined => True

/-- The blocking calls from a phase on, with `n` workers. -/
def left (n : ℕ) : Phase → ℕ
  | .accept => 24 - 3 * n
  | .hello _ => 23 - 3 * n
  | .join _ _ _ => 22 - 3 * n
  | .barrier i => 16 + (2 - i)
  | .contribution r => r.site.ahead + r.site.crowd + (2 - r.contributions.length)
  | .complete r _ i => r.site.ahead + (r.site.crowd - i)
  | .acceptFresh => 8
  | .helloFresh _ => 7
  | .joinFresh _ _ _ => 6
  | .returned _ | .threw _ | .undefined => 0

/-- The process takes no more turns. -/
def Ended : Phase → Prop
  | .returned _ | .threw _ | .undefined => True
  | _ => False

end Phase

namespace Coordinator

variable {s : Coordinator} {env : Surroundings} {n : ℕ} {site : Site}

/-- The blocking calls ahead. -/
def left (s : Coordinator) : ℕ := s.phase.left s.workers.length

def Within (s : Coordinator) : Prop := s.phase.Within s.workers.length

/-- The channel the coordinator reads from. -/
def listening (s : Coordinator) : Option ℕ :=
  match s.phase with
  | .hello ch | .join ch _ _ | .helloFresh ch | .joinFresh ch _ _ => some ch
  | .barrier i | .complete _ _ i => s.workers[i]?.map (·.ch)
  | .contribution r => s.workers[r.contributions.length]?.map (·.ch)
  | .accept | .acceptFresh | .returned _ | .threw _ | .undefined => none

/-- The coordinator stands where fewer than `n` calls are ahead. -/
structure Ahead (n : ℕ) (s : Coordinator) : Prop where
  within : s.Within
  lt : s.left < n

/-! ## Where a turn leads -/

@[simp] theorem workers_sendEach (s : Coordinator) (f : WorkerState → Frame) :
    (s.sendEach f).workers = s.workers :=
  (Keeps.sendEach s f).workers

@[simp] theorem workers_say (s : Coordinator) (line : Line) : (s.say line).workers = s.workers :=
  rfl

theorem ahead_quit (hn : 0 < n) (s : Coordinator) (line : String) : Ahead n (s.quit line) :=
  ⟨trivial, hn⟩

theorem ahead_undefined (hn : 0 < n) (s : Coordinator) : Ahead n (s.goto .undefined) :=
  ⟨trivial, hn⟩

theorem ahead_done (hn : 0 < n) (s : Coordinator) : Ahead n (s.goto (.returned 0)) :=
  ⟨trivial, hn⟩

theorem ahead_threw (hn : 0 < n) (s : Coordinator) (e : Error) : Ahead n (s.goto (.threw e)) :=
  ⟨trivial, hn⟩

theorem ahead_save (hn : 0 < n) (s : Coordinator) (path : String) {k : Coordinator → Coordinator}
    (hk : ∀ s', s'.workers = s.workers → Ahead n (k s')) : Ahead n (s.save env path k) := by
  unfold save
  split
  · exact ahead_threw hn s _
  · exact hk _ rfl

/-- A round begins. -/
theorem ahead_beginAllreduce (site : Site) (hw : s.workers.length ≤ site.crowd)
    (hn : site.ahead + site.crowd + 2 < n) : Ahead n (s.beginAllreduce site) := by
  have hworkers : (s.beginAllreduce site).workers = s.workers := workers_sendEach ..
  refine ⟨?_, hn⟩
  show (s.beginAllreduce site).workers.length ≤ site.crowd ∧ 0 < 2
  rw [hworkers]
  exact ⟨hw, Nat.zero_lt_two⟩

theorem length_prune (s : Coordinator) : s.prune.workers.length ≤ s.workers.length :=
  List.length_filter_le ..

/-- **A round is over**, however it ended. -/
theorem ahead_afterAllreduce (hw : s.workers.length ≤ site.crowd) (hn : site.ahead < n) :
    Ahead n (s.afterAllreduce env site) := by
  have hpos : 0 < n := by omega
  unfold afterAllreduce
  cases site with
  | first =>
    refine ahead_save hpos _ s.statefile fun s' hs' => ahead_beginAllreduce .loss ?_ hn
    show s'.workers.length ≤ 2
    rw [hs']
    exact hw
  | loss => exact ⟨(length_prune _).trans hw, hn⟩
  | second => exact ahead_save hpos _ s.statefile fun s' _ => ahead_done hpos _

theorem ahead_awaitComplete {r : Round} {outputs : List (List UInt8)} {i : ℕ}
    (hw : s.workers.length ≤ r.site.crowd) (hn : r.site.ahead + (r.site.crowd - i) < n) :
    Ahead n (s.awaitComplete env r outputs i) := by
  unfold awaitComplete
  split_ifs with hi
  · exact ⟨⟨hw, hi⟩, hn⟩
  · split
    · exact ahead_undefined (by omega) s
    · exact ahead_afterAllreduce hw (by omega)

/-- The contributions are there. -/
theorem ahead_execute {r : Round} (hw : s.workers.length ≤ r.site.crowd)
    (hn : r.site.ahead + r.site.crowd < n) : Ahead n (s.execute env r) := by
  have hpos : 0 < n := by omega
  unfold execute
  simp only
  split
  · exact ahead_threw hpos _ _
  · exact ahead_undefined hpos _
  · split
    · exact ahead_undefined hpos _
    · refine ahead_awaitComplete ?_ hn
      rw [workers_sendEach]
      exact hw

theorem ahead_onContribution {r : Round} (hw : s.workers.length ≤ r.site.crowd)
    (hlt : r.contributions.length < 2) (w : WorkerState) (f : Frame) :
    Ahead (r.site.ahead + r.site.crowd + (2 - r.contributions.length))
      (s.onContribution env r w f) := by
  unfold onContribution
  split_ifs
  · exact ahead_afterAllreduce hw (by omega)
  split
  · exact ahead_afterAllreduce hw (by omega)
  split
  · exact ahead_afterAllreduce hw (by omega)
  next auth _ _ _ bytes _ =>
    simp only
    split_ifs with hlast
    · have hlength : (r.contributions ++ [(⟨w.boot, auth, bytes⟩ : Contribution)]).length =
          r.contributions.length + 1 := List.length_append
      refine ⟨⟨hw, ?_⟩, ?_⟩
      · rwa [hlength]
      · show r.site.ahead + r.site.crowd +
          (2 - (r.contributions ++ [(⟨w.boot, auth, bytes⟩ : Contribution)]).length) < _
        rw [hlength]
        omega
    · exact ahead_execute hw (by show r.site.ahead + r.site.crowd < _; omega)

/-! ## Accepting -/

theorem ahead_onHello {ch : ℕ} (hw : s.workers.length < 2) (f : Frame) :
    Ahead (23 - 3 * s.workers.length) (s.onHello ch f) := by
  unfold onHello
  split_ifs
  · exact ahead_quit (by omega) s _
  · split
    · exact ahead_quit (by omega) s _
    · refine ⟨hw, ?_⟩
      show 22 - 3 * s.workers.length < _
      omega

theorem ahead_awaitBarrier (hw : s.workers.length ≤ 2) {i : ℕ} (hn : 16 + (2 - i) < n) :
    Ahead n (s.awaitBarrier i) := by
  unfold awaitBarrier
  split_ifs with hi
  · exact ⟨⟨hw, hi⟩, hn⟩
  · refine ahead_beginAllreduce .first ?_ (by show 16 < n; omega)
    rw [workers_say, workers_sendEach]
    exact hw

theorem ahead_groupReady (hw : s.workers.length ≤ 2) (hn : 18 < n) :
    Ahead n (s.groupReady env) := by
  have hpos : 0 < n := by omega
  unfold groupReady
  split
  · split
    · exact ahead_threw hpos _ _
    · next rt _ =>
      split
      · exact ahead_undefined hpos s
      · next g _ =>
        have hworkers := (@Keeps.announce { s with runtime := rt } g 1 .groupAccept
          fun _ _ => rfl).workers
        refine ahead_awaitBarrier ?_ hn
        rw [workers_say, hworkers]
        exact hw
  · exact ahead_undefined hpos s

theorem ahead_onJoin {ch : ℕ} {boot : UInt64} {name : Bytes} (hw : s.workers.length < 2)
    (f : Frame) : Ahead (22 - 3 * s.workers.length) (s.onJoin env ch boot name f) := by
  unfold onJoin
  split_ifs
  · exact ahead_quit (by omega) s _
  · have hlength : ((s.join ⟨ch, boot, name⟩).say (.acceptedWorker name boot)).workers.length =
        s.workers.length + 1 := List.length_append
    simp only
    split_ifs with hfew
    · refine ⟨hfew, ?_⟩
      show 24 - 3 * ((s.join ⟨ch, boot, name⟩).say (.acceptedWorker name boot)).workers.length < _
      rw [hlength]
      omega
    · exact ahead_groupReady (by omega) (by omega)

theorem ahead_onBarrier {i : ℕ} (hw : s.workers.length ≤ 2) (hi : i < s.workers.length)
    (f : Frame) : Ahead (16 + (2 - i)) (s.onBarrier i f) := by
  unfold onBarrier
  split_ifs
  · exact ahead_quit (by omega) s _
  · split
    · exact ahead_quit (by omega) s _
    · split_ifs
      · exact ahead_quit (by omega) s _
      · exact ahead_awaitBarrier hw (by omega)

theorem ahead_onHelloFresh {ch : ℕ} (hw : s.workers.length ≤ 2) (f : Frame) :
    Ahead 7 (s.onHelloFresh ch f) := by
  unfold onHelloFresh
  split_ifs
  · exact ahead_quit (by omega) s _
  · exact ⟨hw, Nat.lt_succ_self 6⟩

theorem ahead_onJoinFresh {ch : ℕ} {boot : Option UInt64} {name : Bytes}
    (hw : s.workers.length ≤ 2) : Ahead 6 (s.onJoinFresh env ch boot name) := by
  unfold onJoinFresh
  cases boot with
  | none => exact ahead_undefined (by omega) s
  | some boot => ?_
  have hlength : ((s.join ⟨ch, boot, name⟩).say (.newWorker boot)).workers.length =
      s.workers.length + 1 := List.length_append
  simp only
  generalize (s.join ⟨ch, boot, name⟩).say (.newWorker boot) = s₁ at hlength
  unfold regroup
  split
  · next w₀ _ _ _ =>
    split
    · exact ahead_threw (by omega) _ _
    · next rt _ =>
      split
      · exact ahead_undefined (by omega) s₁
      · next g _ =>
        have hworkers := (Keeps.regrouped { s₁ with runtime := rt } g ⟨w₀.boot⟩).workers
        refine ahead_save (by omega) _ _ fun s' hs' => ahead_beginAllreduce .second ?_ (by decide)
        rw [hs', hworkers]
        show s₁.workers.length ≤ 3
        omega
  · exact ahead_undefined (by omega) s₁

/-! ## Turns -/

/-- **A turn that only waits**: the coordinator has ended, or its read
goes on. -/
inductive Waits (s : Coordinator) (env : Surroundings) : Coordinator → Prop
  | ended (h : s.phase.Ended) : Waits s env s
  | pending {k : ℕ} {c c' : FrameChannel} (hk : s.listening = some k)
      (hc : s.connections[k]? = some c) (hread : c.recv env.received = (.pending, c')) :
      Waits s env (s.setChannel k c')

theorem ahead_or_waits_recv (hn : 0 < n) {ch : ℕ} (hch : s.listening = some ch)
    {onFrame : Frame → Coordinator → Coordinator} {onLoss : String → Coordinator → Coordinator}
    (hframe : ∀ f c, Ahead n (onFrame f (s.setChannel ch c)))
    (hloss : ∀ reason c, Ahead n (onLoss reason (s.setChannel ch c))) :
    Ahead n (s.recv env ch onFrame onLoss) ∨ Waits s env (s.recv env ch onFrame onLoss) := by
  unfold recv
  split
  · exact .inl (ahead_undefined hn s)
  · next c hc =>
    split
    · exact .inl (hframe _ _)
    · exact .inl (hloss _ _)
    · next c' hread => exact .inr (.pending hch hc hread)

/-- **Every turn leads on or only waits.** -/
theorem ahead_or_waits (h : s.Within) (env : Surroundings) :
    Ahead s.left (s.turn env) ∨ Waits s env (s.turn env) := by
  unfold Within at h
  unfold left
  cases hphase : s.phase with
  | accept =>
    rw [hphase] at h
    have hw : s.workers.length < 2 := h
    left
    unfold turn onAccept
    simp only [hphase]
    split_ifs
    · refine ⟨hw, ?_⟩
      show 23 - 3 * s.workers.length < 24 - 3 * s.workers.length
      omega
    · refine ahead_quit ?_ s _
      show 0 < 24 - 3 * s.workers.length
      omega
  | hello ch =>
    rw [hphase] at h
    have hw : s.workers.length < 2 := h
    have hpos : 0 < 23 - 3 * s.workers.length := by omega
    unfold turn
    simp only [hphase]
    refine ahead_or_waits_recv hpos (by simp only [listening, hphase])
      (fun f c => ahead_onHello (s := s.setChannel ch c) hw f) fun _ _ => ahead_quit hpos _ _
  | join ch boot name =>
    rw [hphase] at h
    have hw : s.workers.length < 2 := h
    have hpos : 0 < 22 - 3 * s.workers.length := by omega
    unfold turn
    simp only [hphase]
    exact ahead_or_waits_recv hpos (by simp only [listening, hphase])
      (fun f c => ahead_onJoin (s := s.setChannel ch c) hw f) fun _ _ => ahead_quit hpos _ _
  | barrier i =>
    rw [hphase] at h
    obtain ⟨hw, hi⟩ : s.workers.length ≤ 2 ∧ i < s.workers.length := h
    have hpos : 0 < 16 + (2 - i) := by omega
    have hget := List.getElem?_eq_getElem hi
    unfold turn
    simp only [hphase, hget]
    exact ahead_or_waits_recv hpos (by simp only [listening, hphase, hget]; rfl)
      (fun f c => ahead_onBarrier (s := s.setChannel s.workers[i].ch c) hw hi f)
      fun _ _ => ahead_quit hpos _ _
  | contribution r =>
    rw [hphase] at h
    obtain ⟨hw, hlt⟩ : s.workers.length ≤ r.site.crowd ∧ r.contributions.length < 2 := h
    unfold turn
    simp only [hphase]
    split
    · refine .inl (ahead_undefined ?_ s)
      show 0 < r.site.ahead + r.site.crowd + (2 - r.contributions.length)
      omega
    · next w hget =>
      refine ahead_or_waits_recv ?_ (by simp only [listening, hphase, hget]; rfl)
        (fun f c => ahead_onContribution (s := s.setChannel w.ch c) hw hlt w f)
        fun reason c => ahead_afterAllreduce hw ?_
      · show 0 < r.site.ahead + r.site.crowd + (2 - r.contributions.length)
        omega
      · show r.site.ahead < r.site.ahead + r.site.crowd + (2 - r.contributions.length)
        omega
  | complete r outputs i =>
    rw [hphase] at h
    obtain ⟨hw, hi⟩ : s.workers.length ≤ r.site.crowd ∧ i < s.workers.length := h
    have hget := List.getElem?_eq_getElem hi
    unfold turn
    simp only [hphase, hget]
    refine ahead_or_waits_recv ?_ (by simp only [listening, hphase, hget]; rfl)
      (fun f c => ahead_awaitComplete (s := s.setChannel s.workers[i].ch c) hw ?_)
      fun reason c => ahead_afterAllreduce hw ?_
    · show 0 < r.site.ahead + (r.site.crowd - i)
      omega
    · show r.site.ahead + (r.site.crowd - (i + 1)) < r.site.ahead + (r.site.crowd - i)
      omega
    · show r.site.ahead < r.site.ahead + (r.site.crowd - i)
      omega
  | acceptFresh =>
    rw [hphase] at h
    have hw : s.workers.length ≤ 2 := h
    left
    unfold turn onAccept
    simp only [hphase]
    split_ifs
    · exact ⟨hw, Nat.lt_succ_self 7⟩
    · exact ahead_quit (Nat.succ_pos 7) s _
  | helloFresh ch =>
    rw [hphase] at h
    have hw : s.workers.length ≤ 2 := h
    unfold turn
    simp only [hphase]
    exact ahead_or_waits_recv (Nat.succ_pos 6) (by simp only [listening, hphase])
      (fun f c => ahead_onHelloFresh (s := s.setChannel ch c) hw f)
      fun _ c => ahead_onHelloFresh (s := s.setChannel ch c) hw {}
  | joinFresh ch boot name =>
    rw [hphase] at h
    have hw : s.workers.length ≤ 2 := h
    unfold turn
    simp only [hphase]
    exact ahead_or_waits_recv (Nat.succ_pos 5) (by simp only [listening, hphase])
      (fun _ c => ahead_onJoinFresh (s := s.setChannel ch c) hw)
      fun _ c => ahead_onJoinFresh (s := s.setChannel ch c) hw
  | returned code | threw e | undefined =>
    have hturn : s.turn env = s := by
      unfold turn
      rw [hphase]
    rw [hturn]
    exact .inr (.ended (by rw [hphase]; trivial))

/-! ## Runs -/

theorem Waits.eq {s' : Coordinator} (h : Waits s env s') :
    s' = s ∨ ∃ k c c', s.connections[k]? = some c ∧ c.recv env.received = (.pending, c') ∧
      s' = s.setChannel k c' := by
  cases h with
  | ended => exact .inl rfl
  | pending hk hc hread => exact .inr ⟨_, _, _, hc, hread, rfl⟩

theorem Waits.keeps {s' : Coordinator} (h : Waits s env s') :
    s'.phase = s.phase ∧ s'.workers = s.workers := by
  cases h with
  | ended => exact ⟨rfl, rfl⟩
  | pending => exact ⟨rfl, rfl⟩

/-- A step that keeps the phase and the workers keeps what is ahead. -/
theorem within_of_keeps {s' : Coordinator} (h : s'.phase = s.phase ∧ s'.workers = s.workers)
    (hw : s.Within) : s'.Within ∧ s'.left = s.left := by
  unfold Within left
  rw [h.1, h.2]
  exact ⟨hw, rfl⟩

/-- **What a step does to the calls ahead.** -/
theorem left_step (h : s.Within) (ev : Event) :
    (s.step ev).Within ∧ ((s.step ev).left < s.left ∨
      (s.step ev).phase = s.phase ∧ (s.step ev).left = s.left) := by
  have hstays {s' : Coordinator} (hkeeps : s'.phase = s.phase ∧ s'.workers = s.workers) :
      s'.Within ∧ (s'.left < s.left ∨ s'.phase = s.phase ∧ s'.left = s.left) := by
    obtain ⟨hwithin, hleft⟩ := within_of_keeps hkeeps h
    exact ⟨hwithin, .inr ⟨hkeeps.1, hleft⟩⟩
  cases ev with
  | arrive ch bs => exact hstays ⟨rfl, rfl⟩
  | hangUp ch reset => exact hstays ⟨rfl, rfl⟩
  | turn env =>
    rcases ahead_or_waits h env with hahead | hwaits
    · exact ⟨hahead.within, .inl hahead.lt⟩
    · exact hstays hwaits.keeps

/-- **At most twenty-four blocking calls come back** in a run, whoever the
peers are and whatever they send. -/
theorem calls_bounded (statefile : String) (wallNs : UInt64) (evs : List Event) :
    Run.count step (fun s ev => (s.step ev).phase ≠ s.phase) (start statefile wallNs) evs ≤ 24 := by
  have hstart : (start statefile wallNs).Within := Nat.zero_lt_two
  refine Run.count_le (I := Within) left (fun s ev h => (left_step h ev).1) ?_ ?_ hstart evs
  · intro s ev h
    rcases (left_step h ev).2 with hlt | ⟨-, heq⟩
    · exact hlt.le
    · exact heq.le
  · intro s ev h hne
    exact (left_step h ev).2.resolve_right fun hsame => hne hsame.1

end Coordinator

end CollectiveFabric
