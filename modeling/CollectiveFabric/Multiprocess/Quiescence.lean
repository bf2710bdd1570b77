import CollectiveFabric.Multiprocess.Blocking
import CollectiveFabric.Multiprocess.Discipline
import CollectiveFabric.Multiprocess.Fidelity

/-!
# Where a deployment comes to rest

Suppose that nothing more goes wrong: every process takes its turns, who
has connected is accepted, every byte arrives, and a connection ends where
the process at its other end has. When none of this changes anything any
more, the coordinator has ended, or fewer than three workers have
connected, or the worker whose contribution it waits for has stalled as it
was told to.
-/

namespace CollectiveFabric

open Common

namespace Protocol

/-- The bytes of a frame are taken or rejected, whatever follows them. -/
theorem decode_encode_ne (f : Frame) (t : List UInt8) :
    framer.decode (encode f ++ t) ≠ .needMore := by
  intro hmore
  have hmore : decode (encode f ++ t) = .needMore := hmore
  by_cases hf : Valid f
  · rw [decode_encode hf t] at hmore
    cases hmore
  · obtain ⟨r, hr⟩ := decode_encode_of_not_valid hf t
    rw [hr] at hmore
    cases hmore

end Protocol

namespace FrameChannel

variable {c : FrameChannel} {n : ℕ}

/-- Whoever reads from the channel waits for bytes that may come. -/
structure Waiting (c : FrameChannel) : Prop where
  more : Protocol.decode c.decoder = .needMore
  empty : c.conn.incoming = []
  live : ¬c.conn.ended = true

theorem Waiting.held (h : c.Waiting) : c.held = c.decoder := by
  rw [FrameChannel.held, h.empty, List.append_nil]

theorem Waiting.not_deaf (h : c.Waiting) : ¬c.Deaf := by
  rintro (⟨why, hwhy⟩ | ⟨-, -, hended⟩)
  · rw [h.more] at hwhy
    cases hwhy
  · exact h.live hended

/-- **A read that goes on and changes nothing** waits. -/
theorem waiting_of_recv (h : c.recv n = (.pending, c)) : c.Waiting := by
  have hread := h
  unfold recv at h
  rw [next_eq] at h
  cases hdecode : Protocol.decode c.decoder with
  | frame g m =>
    simp only [hdecode] at h
    cases h
  | reject why =>
    simp only [hdecode] at h
    cases h
  | needMore =>
    simp only [hdecode] at h
    unfold TcpConnection.recvSome at h
    split_ifs at h with hempty hended
    · cases h
    · exact ⟨hdecode, hempty, hended⟩
    · -- bytes that wait are moved to the decoder
      have hdrop : c.conn.incoming.drop (max 1 (min n 8192)) = c.conn.incoming :=
        congrArg (fun p : Received × FrameChannel => p.2.conn.incoming) h
      have hlength := congrArg List.length hdrop
      have hpos := List.length_pos_iff.2 hempty
      rw [List.length_drop] at hlength
      omega

/-- Who waits goes on waiting. -/
theorem recv_of_waiting (h : c.Waiting) (n : ℕ) : c.recv n = (.pending, c) := by
  unfold recv TcpConnection.recvSome
  rw [next_eq, h.more, if_pos h.empty, if_neg h.live]

end FrameChannel

namespace Worker

variable {w : Worker} {env : Surroundings}

/-- The worker is gone. -/
def Over (w : Worker) : Prop := (∃ code, w.phase = .returned code) ∨ w.phase = .killed

/-- The worker waits for a frame. -/
def Awaits (w : Worker) : Prop :=
  match w.phase with
  | .accept | .barrier _ | .serve _ _ | .result _ _ => True
  | .stalled | .returned _ | .killed | .undefined => False

theorem turn_of_awaits (h : w.Awaits) (env : Surroundings) : w.turn env = w.recv env := by
  unfold Awaits at h
  unfold turn
  split
  · rfl
  all_goals simp_all

/-- A turn of a worker that waits for a frame, if it awaits one, and sleeps
on. -/
theorem turn_of_waiting (h : w.Awaits → w.channel.Waiting) (hwakes : env.wakes = false) :
    w.turn env = w := by
  by_cases hawaits : w.Awaits
  · rw [turn_of_awaits hawaits, recv, FrameChannel.recv_of_waiting (h hawaits)]
  · unfold Awaits at hawaits
    unfold turn
    cases hphase : w.phase with
    | accept | barrier rank | serve rank index | result rank index =>
      rw [hphase] at hawaits
      exact absurd trivial hawaits
    | stalled => exact if_neg (by simp [hwakes])
    | returned code | killed | undefined => rfl

/-- A worker that waits for a frame notices the loss of its connection. -/
theorem phase_onLoss_ne (h : w.Awaits) (reason : String) : (w.onLoss reason).phase ≠ w.phase := by
  unfold Awaits at h
  unfold onLoss
  cases hphase : w.phase with
  | accept => exact nofun
  | barrier rank => exact nofun
  | serve rank index =>
    simp only [onServeLoss]
    split_ifs
    · exact nofun
    · exact nofun
  | result rank index => exact nofun
  | stalled | returned code | killed | undefined =>
    rw [hphase] at h
    exact h.elim

/-- **A turn that changes nothing**, of a worker that waits for a frame. -/
theorem waiting_of_turn (h : w.Awaits) (hturn : w.turn env = w) : w.channel.Waiting := by
  rw [turn_of_awaits h, recv] at hturn
  split at hturn
  · next f c hread =>
    -- a frame is taken off what is held
    obtain ⟨m, hdecode, rfl⟩ := FrameChannel.recv_frame hread
    obtain ⟨_, hsends⟩ := exists_sends_onFrame
      ({ w with channel := { w.channel with decoder := w.channel.decoder.drop m } } : Worker) f
    have hheld := congrArg List.length hsends.held
    rw [hturn] at hheld
    simp only [FrameChannel.held, List.length_append, List.length_drop] at hheld
    have hpos := Protocol.framer.consumed_pos hdecode
    have hle := Protocol.framer.consumed_le hdecode
    omega
  · next reason c hread =>
    obtain ⟨rfl, -⟩ := FrameChannel.recv_failed hread
    exact absurd (congrArg Worker.phase hturn) (phase_onLoss_ne (w := w) h reason)
  · next c hread =>
    have hc : c = w.channel := congrArg Worker.channel hturn
    rw [hc] at hread
    exact FrameChannel.waiting_of_recv hread

end Worker

namespace Coordinator

variable {s s' : Coordinator} {env : Surroundings}

/-- A turn that only waits, and changes nothing. -/
theorem Waits.stays (h : Waits s env s') (hs : s' = s) :
    s.phase.Ended ∨
      ∃ k c, s.listening = some k ∧ s.connections[k]? = some c ∧ c.Waiting := by
  cases h with
  | ended hended => exact .inl hended
  | @pending k c c' hk hc hread =>
    refine .inr ⟨k, c, hk, hc, ?_⟩
    obtain ⟨hlt, -⟩ := List.getElem?_eq_some_iff.1 hc
    have hset : (s.connections.set k c')[k]? = s.connections[k]? :=
      congrArg (fun s : Coordinator => s.connections[k]?) hs
    rw [List.getElem?_set_self hlt, hc] at hset
    rw [Option.some.inj hset] at hread
    exact FrameChannel.waiting_of_recv hread

/-- A read that waits changes nothing. -/
theorem recv_of_waiting {k : ℕ} {c : FrameChannel} (hc : s.connections[k]? = some c)
    (hwaiting : c.Waiting) (onFrame : Frame → Coordinator → Coordinator)
    (onLoss : String → Coordinator → Coordinator) : s.recv env k onFrame onLoss = s := by
  obtain ⟨hlt, rfl⟩ := List.getElem?_eq_some_iff.1 hc
  simp only [recv, hc, FrameChannel.recv_of_waiting hwaiting, setChannel, List.set_getElem_self]

theorem turn_of_waiting {k : ℕ} {c : FrameChannel} (hk : s.listening = some k)
    (hc : s.connections[k]? = some c) (hwaiting : c.Waiting) (env : Surroundings) :
    s.turn env = s := by
  unfold listening at hk
  unfold turn
  cases hphase : s.phase with
  | hello ch | join ch boot name | helloFresh ch | joinFresh ch boot name =>
    rw [hphase] at hk
    obtain rfl : ch = k := Option.some.inj hk
    exact recv_of_waiting hc hwaiting _ _
  | barrier i | contribution r | complete r outputs i =>
    rw [hphase] at hk
    obtain ⟨w, hw, rfl⟩ := Option.map_eq_some_iff.1 hk
    simp only [hw]
    exact recv_of_waiting hc hwaiting _ _
  | accept | acceptFresh =>
    rw [hphase] at hk
    cases hk
  | returned code | threw e | undefined => rfl

theorem listening_of_ended (h : s.phase.Ended) : s.listening = none := by
  unfold Phase.Ended at h
  unfold listening
  split at h
  · next hphase => rw [hphase]
  · next hphase => rw [hphase]
  · next hphase => rw [hphase]
  · exact h.elim

theorem turn_of_ended (h : s.phase.Ended) (env : Surroundings) : s.turn env = s := by
  unfold Phase.Ended at h
  unfold turn
  split at h
  · next hphase => rw [hphase]
  · next hphase => rw [hphase]
  · next hphase => rw [hphase]
  · exact h.elim

end Coordinator

/-! ## A worker that has caught up -/

/-- The worker is there, it stands where all that it was told leaves it,
and all that this makes it send has been taken. -/
structure CaughtUp (w : Worker) (told taken : List Frame) : Prop where
  present : ¬w.Over
  phase : w.phase = (Worker.scripted w.args told).phase
  taken : taken = (Worker.scripted w.args told).sent

namespace Worker

variable {w : Worker} {heard told : List Frame}

/-- A worker that has stalled hears nothing. -/
theorem hear_of_stuck (h : w.phase = .stalled ∨ w.phase = .undefined) (fs : List Frame) :
    w.hear fs = w := by
  induction fs with
  | nil => rfl
  | cons f fs ih =>
    have hstay : w.onFrame f = w := by
      unfold onFrame
      rcases h with hphase | hphase
      · rw [hphase]
      · rw [hphase]
    rw [hear_cons, hstay, ih]

/-- **A worker that is there stands where its script does.** -/
theorem Follows.stands (h : w.Follows heard) (hpresent : ¬w.Over)
    (hwaiting : w.Awaits → w.channel.Waiting) : w.phase = (scripted w.args heard).phase := by
  refine h.phase.resolve_right ?_
  rintro (⟨-, hreturned⟩ | hkilled | ⟨hdeaf, hstalled, hundefined⟩)
  · exact hpresent (.inl ⟨0, hreturned⟩)
  · exact hpresent (.inr hkilled)
  · refine (hwaiting ?_).not_deaf hdeaf
    unfold Awaits
    unfold Over at hpresent
    cases hphase : w.phase with
    | accept | barrier _ | serve _ _ | result _ _ => trivial
    | stalled => exact hstalled hphase
    | undefined => exact hundefined hphase
    | returned code => exact hpresent (.inl ⟨code, hphase⟩)
    | killed => exact hpresent (.inr hphase)

/-- A worker that has stalled would do the same with more. -/
theorem scripted_of_stuck (htold : heard <+: told)
    (h : (scripted w.args heard).phase = .stalled ∨ (scripted w.args heard).phase = .undefined) :
    scripted w.args told = scripted w.args heard := by
  obtain ⟨t, rfl⟩ := htold
  rw [scripted, hear_append, ← scripted, hear_of_stuck h]

end Worker

/-! ## Who has caught up -/

section

variable {rank boot : UInt64} {rs : List Round} {told taken : List Frame} {site : Site}
variable {w : Worker}

theorem length_greeting (args : Worker.Args) : (Worker.greeting args).length = 2 := rfl

/-- A worker contributes no more often than it is told to. -/
theorem Worker.length_sent_le (args : Args) (heard : List Frame) :
    (scripted args heard).sent.length ≤ 3 + 2 * args.stallAfter.toNat := by
  obtain ⟨gen, rank, ds, hanswered, hprefix⟩ := (order_scripted args heard).said
  have hanswers : (answers args.boot rank ds).length = 2 * ds.length := by
    have htwo : ∀ d ∈ ds, [contribution args.boot rank d, complete].length = 2 := fun _ _ => rfl
    rw [answers, List.length_flatMap, List.map_congr_left htwo, List.map_const',
      List.sum_replicate_nat, Nat.mul_comm]
  have hle := hprefix.length_le
  have hbounded := hanswered.bounded
  rw [opened, List.length_append, hanswers] at hle
  have hthree : [hello args.boot args.name, joinGroup args.boot, barrier args.boot gen].length = 3 :=
    rfl
  omega

/-- A worker that was asked for a contribution, and has caught up without
one, has stalled. -/
theorem Asked.stalled (h : Asked rank boot rs told taken site) (hcaught : CaughtUp w told taken)
    (hfew : rs.length ≤ 3) (houtput : ∀ r ∈ rs, r.output.length = 16) :
    w.phase = .stalled ∧ w.args.stallAfter.toNat ≤ 3 := by
  have hstalled : (Worker.scripted w.args told).phase = .stalled := by
    refine (Worker.lags_scripted w.args told).stands.resolve_left fun ⟨_, hsent⟩ => ?_
    obtain ⟨hall, -⟩ := Worker.requested_scripted w.args.tireless rank boot site
      (by rw [Worker.rounds_tireless]; omega) houtput
    rw [← List.append_assoc, ← toldScript, ← h.told, ← hsent, ← hcaught.taken] at hall
    have hlength := congrArg List.length hall
    simp only [h.count, List.length_append, List.length_singleton, length_replies,
      length_greeting] at hlength
    omega
  exact ⟨hcaught.phase.trans hstalled, stalls_of_asked h.told hfew houtput w.args hstalled⟩

/-- A worker that sends nothing more, and is there, has stalled. -/
theorem Spent.stalled (h : Spent w.args told taken) (hcaught : CaughtUp w told taken) :
    w.phase = .stalled ∧ w.args.stallAfter.toNat ≤ 3 := by
  have hstalled : (Worker.scripted w.args told).phase = .stalled := by
    refine (Worker.lags_scripted w.args told).stands.resolve_left fun ⟨hsame, _⟩ => ?_
    exact hcaught.present (.inl ⟨1, hcaught.phase.trans (hsame.trans h.ended)⟩)
  exact ⟨hcaught.phase.trans hstalled, h.stalls hstalled⟩

/-- **No completion is owed** by a worker that has caught up: it stalls on
a request or answers it and its result. -/
theorem Owing.not_caught_up (h : Owing rank boot rs told taken) (hne : rs ≠ [])
    (hfew : rs.length ≤ 3) (houtput : ∀ r ∈ rs, r.output.length = 16)
    (hcaught : CaughtUp w told taken) : False := by
  have hcount := h.count
  rw [hcaught.taken] at hcount
  have hpos := List.length_pos_iff.2 hne
  have hmin : w.args.rounds = min w.args.stallAfter.toNat (2 ^ 31 - 1) := rfl
  by_cases hrounds : rs.length ≤ w.args.rounds
  · have hsent := (Worker.serving_scripted w.args rank boot hrounds houtput).sent
    rw [← toldScript, ← h.told] at hsent
    have hlength := congrArg List.length hsent
    simp only [List.length_append, List.length_singleton, length_replies, length_greeting]
      at hlength
    omega
  · have hle := Worker.length_sent_le w.args told
    omega

end

namespace Coordinator

variable {β : ℕ → UInt64} {s : Coordinator} {links : List Link} {b : Book} {k : ℕ}
variable {c : FrameChannel} {l : Link}

/-- A worker that was accepted late has sent its barrier. -/
theorem length_sent_late {rank boot : UInt64} {output : List UInt8} (args : Worker.Args) :
    (Worker.scripted args [acceptFrame rank 2, requestFrame .second,
      resultFrame .second boot output]).sent.length = 3 := by
  have hhear : Worker.scripted args [acceptFrame rank 2, requestFrame .second,
      resultFrame .second boot output] =
      ((((Worker.start args).onAccept (acceptFrame rank 2)).onFrame (requestFrame .second)).onFrame
        (resultFrame .second boot output)) := rfl
  rw [hhear, Worker.onAccept_acceptFrame]
  rfl

/-- A worker in a later place owes nothing, if it has caught up. -/
theorem Rest.not_caught_up {r : Round}
    (h : Rest s b fun boot => [requestFrame r.site, resultFrame r.site boot r.output])
    (hsite : r.site = .second) (hk : 2 ≤ k) (hlt : k < s.workers.length)
    (hc : s.connections[k]? = some c) (hdeaf : ¬c.Deaf) {w : Worker}
    (hcaught : CaughtUp w (b.told k) (b.taken k)) : False := by
  obtain ⟨rank, boot, htold⟩ := h.later k hk hlt
  have hsent := congrArg List.length hcaught.taken
  rw [htold, hsite, length_sent_late] at hsent
  rcases h.greeted k hk hlt with htwo | ⟨c', hc', hdeaf'⟩
  · omega
  · obtain rfl : c = c' := Option.some.inj (hc.symm.trans hc')
    exact hdeaf hdeaf'

/-- The coordinator reads from the connection of the place it waits for. -/
theorem awaited_of_listening (h : s.InPlace) (hk : s.listening = some k) :
    s.phase.awaited = some k := by
  have hplace {i : ℕ} (hi : s.workers[i]?.map (·.ch) = some k) : i = k := by
    obtain ⟨w, hw, rfl⟩ := Option.map_eq_some_iff.1 hi
    exact (h i w hw).symm
  unfold listening at hk
  cases hphase : s.phase with
  | hello ch | join ch boot name | helloFresh ch | joinFresh ch boot name =>
    rw [hphase] at hk
    exact hk
  | barrier i | complete r outputs i | contribution r =>
    rw [hphase] at hk
    exact congrArg some (hplace hk)
  | accept | acceptFresh | returned code | threw e | undefined =>
    rw [hphase] at hk
    cases hk

/-- **The coordinator waits for nobody who has caught up**, except for the
contribution of a worker that has stalled. -/
theorem Acts.stalled (h : Acts β s links b) (hk : s.phase.awaited = some k)
    (hc : s.connections[k]? = some c) (hdeaf : ¬c.Deaf) (hl : links[k]? = some l)
    (hcaught : CaughtUp l.worker (b.told k) (b.taken k)) :
    ∃ r, s.phase = .contribution r ∧ r.contributions.length = k ∧ l.worker.phase = .stalled ∧
      l.worker.args.stallAfter.toNat ≤ 3 := by
  have hfew := h.scene.few
  have houtput := h.scene.output_length
  have hsent := congrArg List.length hcaught.taken
  have hstage := h.stage
  cases hphase : s.phase with
  | hello ch =>
    rw [hphase] at hk hstage
    obtain rfl : ch = k := Option.some.inj hk
    obtain ⟨ho, -, -, htaken⟩ := hstage
    rw [htaken, ho.told, Worker.sent_scripted_nil, length_greeting] at hsent
    cases hsent
  | join ch boot name =>
    rw [hphase] at hk hstage
    obtain rfl : ch = k := Option.some.inj hk
    obtain ⟨ho, -, -, htaken⟩ := hstage
    rw [htaken, ho.told, Worker.sent_scripted_nil, length_greeting] at hsent
    cases hsent
  | barrier i =>
    rw [hphase] at hk hstage
    obtain rfl : i = k := Option.some.inj hk
    obtain ⟨-, -, hi, hstands, -⟩ := hstage
    have hat := hstands i hi
    rw [if_neg (Nat.lt_irrefl i)] at hat
    rw [hat.count, hat.told, Worker.sent_scripted_accept, List.length_append, length_greeting,
      List.length_singleton] at hsent
    cases hsent
  | contribution r =>
    rw [hphase] at hk hstage
    obtain rfl : r.contributions.length = k := Option.some.inj hk
    refine ⟨r, rfl, rfl, ?_⟩
    obtain ⟨-, hplaying, -⟩ := hstage
    rcases hplaying with ⟨-, -, hlt, hstands⟩ | ⟨j, ⟨hj, c', hc', hdeaf'⟩, hle, hfirst⟩
    · have hat := hstands _ hlt
      rw [if_neg (Nat.lt_irrefl _)] at hat
      exact Asked.stalled hat hcaught hfew houtput
    · -- the worker that is lost is the other one
      have hne : r.contributions.length ≠ j := by
        rintro rfl
        obtain rfl : c = c' := Option.some.inj (hc.symm.trans hc')
        exact hdeaf hdeaf'
      have hzero : r.contributions.length = 0 := by omega
      have hstands := hfirst (by omega)
      rw [if_pos hzero] at hstands
      rw [hzero] at hcaught hl
      rcases hstands with hasked | ⟨l', hl', hspent⟩
      · exact Asked.stalled hasked hcaught hfew houtput
      · obtain rfl : l = l' := Option.some.inj (hl.symm.trans hl')
        exact hspent.stalled hcaught
  | complete r outputs i =>
    rw [hphase] at hk hstage
    obtain rfl : i = k := Option.some.inj hk
    obtain ⟨hcast, hfinishing, hi, hrest⟩ := hstage
    by_cases hpair : i < 2
    · have howing := hfinishing.stands i hpair
      rw [if_neg (Nat.lt_irrefl i)] at howing
      exact (Owing.not_caught_up howing (List.ne_nil_of_mem hfinishing.mem) hfew houtput
        hcaught).elim
    · have hsite : r.site = .second := by
        rw [hcast.workers] at hi
        cases hr : r.site with
        | first | loss =>
          rw [hr] at hi
          exact absurd hi hpair
        | second => rfl
      exact (hrest.not_caught_up hsite (by omega) hi hc hdeaf hcaught).elim
  | helloFresh ch =>
    rw [hphase] at hk hstage
    obtain ⟨hcast, rfl, -, htaken, hrest⟩ := hstage
    obtain rfl : 2 = k := Option.some.inj hk
    rw [htaken, hrest.beyond 2 le_rfl hcast.workers.le, Worker.sent_scripted_nil,
      length_greeting] at hsent
    cases hsent
  | joinFresh ch boot name =>
    rw [hphase] at hk hstage
    obtain ⟨hcast, rfl, -, htaken, hrest⟩ := hstage
    obtain rfl : 2 = k := Option.some.inj hk
    rw [htaken, hrest.beyond 2 le_rfl hcast.workers.le, Worker.sent_scripted_nil,
      length_greeting] at hsent
    cases hsent
  | accept | acceptFresh | returned code | threw e | undefined =>
    rw [hphase] at hk
    cases hk

/-- What the stage says of the number of workers and the loops. -/
theorem Acts.within (h : Acts β s links b) : s.Within := by
  have hstage := h.stage
  unfold Within
  cases hphase : s.phase with
  | accept | hello ch | join ch boot name =>
    rw [hphase] at hstage
    exact hstage.1.few
  | barrier i =>
    rw [hphase] at hstage
    obtain ⟨hcast, -, hi, -⟩ := hstage
    exact ⟨hcast.workers.le, hcast.workers.symm ▸ hi⟩
  | contribution r =>
    rw [hphase] at hstage
    exact ⟨hstage.1.workers.le, hstage.2.1.length_lt⟩
  | complete r outputs i =>
    rw [hphase] at hstage
    exact ⟨hstage.1.workers.le, hstage.2.2.1⟩
  | acceptFresh | helloFresh ch | joinFresh ch boot name =>
    rw [hphase] at hstage
    exact hstage.1.workers.le
  | returned code | threw e | undefined => trivial

/-- Where a client is awaited, each worker so far has its connection. -/
theorem Acts.few_connections (h : Acts β s links b)
    (hphase : s.phase = .accept ∨ s.phase = .acceptFresh) : s.connections.length < 3 := by
  have hstage := h.stage
  rcases hphase with hphase | hphase
  · rw [hphase] at hstage
    have hfew := hstage.1.few
    have hlength := hstage.2
    omega
  · rw [hphase] at hstage
    have hlength := hstage.1.connections
    omega

end Coordinator

/-! ## What is due -/

namespace Deployment

open Coordinator

/-- **What happens when nothing more goes wrong**: nobody starts or is
killed, who has connected is accepted, sleepers sleep on, and a connection
ends only where the process at its other end has. -/
def Due (d : Deployment Coordinator.host) : Event → Prop
  | .launch _ | .kill _ => False
  | .host env => env.accepts = true
  | .worker _ env => env.wakes = false
  | .up _ _ | .down _ _ => True
  | .lose k _ => ∃ l, d.links[k]? = some l ∧ l.worker.Over
  | .close _ _ => d.state.phase.Ended

variable {d : Deployment Coordinator.host} {k : ℕ} {c : FrameChannel} {l : Link}

/-- A link that is set to something else changes. -/
theorem eq_of_setLink {c' : FrameChannel} {l' : Link} (hc : d.connection k = some c)
    (hl : d.links[k]? = some l) (h : d.setLink k c' l' = d) : c' = c ∧ l' = l := by
  obtain ⟨hclt, -⟩ := List.getElem?_eq_some_iff.1 hc
  obtain ⟨hlt, -⟩ := List.getElem?_eq_some_iff.1 hl
  constructor
  · have hconnections := congrArg (fun d : Deployment Coordinator.host => d.connection k) h
    simp only [setLink, connection, Coordinator.host.connections_setConnections,
      List.getElem?_set_self hclt] at hconnections
    exact Option.some.inj (hconnections.trans hc)
  · have hlinks := congrArg (fun d : Deployment Coordinator.host => d.links[k]?) h
    simp only [setLink, List.getElem?_set_self hlt] at hlinks
    exact Option.some.inj (hlinks.trans hl)

theorem eq_of_modify {f : Link → Link} (hl : d.links[k]? = some l)
    (h : ({ d with links := d.links.modify k f } : Deployment Coordinator.host) = d) : f l = l := by
  have hlinks := congrArg (fun d : Deployment Coordinator.host => d.links[k]?) h
  simp only [List.getElem?_modify_eq, hl] at hlinks
  exact Option.some.inj hlinks

/-- What is left of the bytes of a stream when none more comes. -/
theorem length_of_none {bs : List UInt8} {passed : ℕ} (hle : passed ≤ bs.length)
    (h : passed + ((bs.drop passed).take bs.length).length = passed) : passed = bs.length := by
  rw [List.length_take, List.length_drop] at h
  omega

variable (hquiet : Run.Quiet step Due d)

include hquiet

/-- All that the worker sent has come. -/
theorem quiet_up (hc : d.connection k = some c) (hl : d.links[k]? = some l)
    (hle : l.up ≤ l.worker.channel.conn.outgoing.length) :
    l.up = l.worker.channel.conn.outgoing.length := by
  have h := hquiet (.up k l.worker.channel.conn.outgoing.length) trivial
  simp only [step, hc, hl] at h
  obtain ⟨-, hsame⟩ := eq_of_setLink hc hl h
  exact length_of_none hle (congrArg Link.up hsame)

/-- All that the coordinator sent has come. -/
theorem quiet_down (hc : d.connection k = some c) (hl : d.links[k]? = some l)
    (hle : l.down ≤ c.conn.outgoing.length) : l.down = c.conn.outgoing.length := by
  have h := hquiet (.down k c.conn.outgoing.length) trivial
  simp only [step, hc, hl] at h
  obtain ⟨-, hsame⟩ := eq_of_setLink hc hl h
  exact length_of_none hle (congrArg Link.down hsame)

/-- The loss of a worker that is gone has been seen. -/
theorem quiet_lose (hc : d.connection k = some c) (hl : d.links[k]? = some l)
    (hover : l.worker.Over) : c.conn.ended = true := by
  have h := hquiet (.lose k false) ⟨l, hl, hover⟩
  simp only [step, hc, hl] at h
  obtain ⟨hsame, -⟩ := eq_of_setLink hc hl h
  exact (congrArg (fun c : FrameChannel => c.conn.ended) hsame).symm

/-- The end of the coordinator has been seen. -/
theorem quiet_close (hl : d.links[k]? = some l) (hended : d.state.phase.Ended) :
    l.worker.channel.conn.ended = true := by
  have h := eq_of_modify hl (hquiet (.close k false) hended)
  exact (congrArg (fun l : Link => l.worker.channel.conn.ended) h).symm

/-- A worker that awaits a frame waits for bytes that may come. -/
theorem quiet_worker (hl : d.links[k]? = some l) (hawaits : l.worker.Awaits) :
    l.worker.channel.Waiting := by
  have h := eq_of_modify hl (hquiet (.worker k { received := 0 }) rfl)
  exact Worker.waiting_of_turn hawaits (congrArg Link.worker h)

/-- **Where the coordinator stands**: it has ended, nobody is there to be
accepted, or it waits for bytes that may come. -/
theorem quiet_host (hwithin : d.state.Within) :
    d.state.phase.Ended ∨
      (Coordinator.host.accepting d.state = true ∧ d.links.length ≤ d.state.connections.length) ∨
        ∃ k c, d.state.listening = some k ∧ d.state.connections[k]? = some c ∧ c.Waiting := by
  let env : Surroundings := { received := 0, clocks := fun _ => ⟨0, 0, 0⟩ }
  have h := hquiet (.host env) rfl
  simp only [step] at h
  split_ifs at h with hwaits
  · rw [waits, Bool.and_true, Bool.and_eq_true, decide_eq_true_eq] at hwaits
    exact .inr (.inl hwaits)
  · have hturn : d.state.turn env = d.state :=
      congrArg (fun d : Deployment Coordinator.host => d.state) h
    rcases ahead_or_waits hwithin env with hahead | hwaits
    · have hlt := hahead.lt
      rw [hturn] at hlt
      exact absurd hlt (Nat.lt_irrefl _)
    · exact (hwaits.stays hturn).imp_right .inr

/-- **Where a quiet coordinator waits, the worker has caught up.** -/
theorem caught_up {b : Book} (hwired : Wired d.state.connections d.links b)
    (hc : d.state.connections[k]? = some c) (hwaiting : c.Waiting) (hl : d.links[k]? = some l) :
    CaughtUp l.worker (b.told k) (b.taken k) := by
  have hanswers := hwired.worker k l hl
  have hserves := hwired.server k c l hc hl
  have hpresent : ¬l.worker.Over := fun hover => hwaiting.live (quiet_lose hquiet hc hl hover)
  -- all that the worker sent has come, and been taken
  have htaken : b.taken k = l.worker.sent := by
    have hup := quiet_up hquiet hc hl (by rw [hanswers.outgoing]; exact hserves.up.passed_le)
    rw [hanswers.outgoing] at hup
    refine hserves.up.drained hwaiting.live hup Protocol.decode_encode_ne ?_
    rw [hwaiting.held]
    exact hwaiting.more
  have hstands := hanswers.follows.stands hpresent (quiet_worker hquiet hl)
  have hsent := hanswers.follows.alike.sent
  by_cases hawaits : l.worker.Awaits
  · -- all that it was told has come to it, and it has taken it
    have hwait := quiet_worker hquiet hl hawaits
    have hheard : b.heard k = b.told k := by
      have hdown := quiet_down hquiet hc hl (by rw [hserves.outgoing]; exact hanswers.down.passed_le)
      rw [hserves.outgoing] at hdown
      refine hanswers.down.drained hwait.live hdown Protocol.decode_encode_ne ?_
      rw [hwait.held]
      exact hwait.more
    rw [hheard] at hstands hsent
    exact ⟨hpresent, hstands, htaken.trans hsent⟩
  · have hstuck : l.worker.phase = .stalled ∨ l.worker.phase = .undefined := by
      unfold Worker.Awaits at hawaits
      unfold Worker.Over at hpresent
      cases hphase : l.worker.phase with
      | accept | barrier _ | serve _ _ | result _ _ =>
        rw [hphase] at hawaits
        exact absurd trivial hawaits
      | stalled => exact .inl rfl
      | undefined => exact .inr rfl
      | returned code => exact absurd (.inl ⟨code, hphase⟩) hpresent
      | killed => exact absurd (.inr hphase) hpresent
    have hsame := Worker.scripted_of_stuck hanswers.down.taken_prefix (hstands ▸ hstuck)
    rw [← hsame] at hstands hsent
    exact ⟨hpresent, hstands, htaken.trans hsent⟩

omit hquiet

/-- **A deployment comes to rest** only where the coordinator has ended,
and with it every worker that waited for a frame; where fewer than three
workers have connected; or where a worker that was told to stall that soon
keeps the coordinator waiting for its contribution. -/
theorem quiet_stands (statefile : String) (wallNs : UInt64) (evs : List Event)
    (hquiet : Run.Quiet step Due (Run.run step (deploy statefile wallNs) evs)) :
    let d := Run.run step (deploy statefile wallNs) evs
    (d.state.phase.Ended ∧ ∀ l ∈ d.links, ¬l.worker.Awaits) ∨
      ((d.state.phase = .accept ∨ d.state.phase = .acceptFresh) ∧ d.links.length < 3) ∨
        ∃ r l, d.state.phase = .contribution r ∧ d.links[r.contributions.length]? = some l ∧
          l.worker.phase = .stalled ∧ l.worker.args.stallAfter.toNat ≤ 3 := by
  intro d
  obtain ⟨β, b, h⟩ := sees_run statefile wallNs evs
  rcases quiet_host hquiet h.within with hended | ⟨haccepting, hlength⟩ | ⟨k, c, hk, hc, hwaiting⟩
  · refine .inl ⟨hended, fun l hl hawaits => ?_⟩
    obtain ⟨k, hlt, rfl⟩ := List.mem_iff_getElem.1 hl
    have hget := List.getElem?_eq_getElem hlt
    exact (quiet_worker hquiet hget hawaits).live (quiet_close hquiet hget hended)
  · have hphase := of_decide_eq_true haccepting
    exact .inr (.inl ⟨hphase, hlength.trans_lt (h.few_connections hphase)⟩)
  · refine .inr (.inr ?_)
    obtain ⟨hlt, -⟩ := List.getElem?_eq_some_iff.1 hc
    obtain ⟨l, hl⟩ := h.scene.exists_link hlt
    have hcaught := caught_up hquiet h.scene.wired hc hwaiting hl
    obtain ⟨r, hphase, rfl, hstalled⟩ := h.stalled (awaited_of_listening h.scene.inPlace hk) hc
      hwaiting.not_deaf hl hcaught
    exact ⟨r, l, hphase, hl, hstalled⟩

/-! ## A deployment at rest -/

/-- **What it takes to be at rest**: the coordinator has ended, has nobody
to accept or waits; every worker waits that awaits a frame; all bytes have
come; and the end of whoever ended has been seen. -/
structure Settled (d : Deployment Coordinator.host) : Prop where
  host : d.state.phase.Ended ∨
    (Coordinator.host.accepting d.state = true ∧ d.links.length ≤ d.state.connections.length) ∨
      ∃ k c, d.state.listening = some k ∧ d.state.connections[k]? = some c ∧ c.Waiting
  workers : ∀ l ∈ d.links, l.worker.Awaits → l.worker.channel.Waiting
  come : ∀ p ∈ d.state.connections.zip d.links,
    p.2.up = p.2.worker.channel.conn.outgoing.length ∧ p.2.down = p.1.conn.outgoing.length
  lost : ∀ p ∈ d.state.connections.zip d.links, p.2.worker.Over →
    p.1.conn.ended = true ∧ p.1.conn.incoming = []
  closed : d.state.phase.Ended → ∀ l ∈ d.links,
    l.worker.channel.conn.ended = true ∧ l.worker.channel.conn.incoming = []

theorem setLink_self (hc : d.connection k = some c) (hl : d.links[k]? = some l) :
    d.setLink k c l = d := by
  obtain ⟨hclt, rfl⟩ := List.getElem?_eq_some_iff.1 hc
  obtain ⟨hlt, rfl⟩ := List.getElem?_eq_some_iff.1 hl
  unfold setLink
  rw [List.set_getElem_self, List.set_getElem_self]
  rfl

theorem modify_self {f : Link → Link} (h : ∀ l ∈ d.links, f l = l) :
    ({ d with links := d.links.modify k f } : Deployment Coordinator.host) = d := by
  have hlinks : d.links.modify k f = d.links := by
    refine List.ext_getElem? fun i => ?_
    rw [List.getElem?_modify]
    cases hl : d.links[i]? with
    | none => rfl
    | some l =>
      rw [Option.map_eq_map, Option.map_some, h l (List.mem_of_getElem? hl), ite_self]
  rw [hlinks]

/-- **At rest nothing due changes anything.** -/
theorem quiet_of_settled (h : d.Settled) : Run.Quiet step Due d := by
  have hzip {k : ℕ} {c : FrameChannel} {l : Link} (hc : d.connection k = some c)
      (hl : d.links[k]? = some l) : (c, l) ∈ d.state.connections.zip d.links := by
    refine List.mem_of_getElem? (i := k) ?_
    rw [List.getElem?_zip_eq_some]
    exact ⟨hc, hl⟩
  -- bytes that have all come change nothing
  have hnone (bs : List UInt8) (n : ℕ) : (bs.drop bs.length).take n = [] := by
    rw [List.drop_length, List.take_nil]
  have harrive (conn : TcpConnection) : conn.arrive [] = conn := by
    unfold TcpConnection.arrive
    split_ifs
    · rfl
    · rw [List.append_nil]
  have hhangUp {conn : TcpConnection} (hended : conn.ended = true) (hempty : conn.incoming = [])
      (reset : Bool) : conn.hangUp reset = conn := by
    unfold TcpConnection.hangUp
    cases conn
    simp_all
  intro ev hdue
  cases ev with
  | launch args => exact hdue.elim
  | kill k => exact hdue.elim
  | host env =>
    simp only [step]
    split_ifs with hwaits
    · rfl
    have hturn : d.state.turn env = d.state := by
      rcases h.host with hended | ⟨haccepting, hlength⟩ | ⟨k, c, hk, hc, hwaiting⟩
      · exact turn_of_ended hended env
      · refine absurd ?_ hwaits
        rw [waits, haccepting, show env.accepts = true from hdue]
        exact decide_eq_true hlength
      · exact turn_of_waiting hk hc hwaiting env
    show ({ d with state := d.state.turn env } : Deployment Coordinator.host) = d
    rw [hturn]
  | worker k env =>
    refine modify_self fun l hl => ?_
    rw [Worker.turn_of_waiting (h.workers l hl) hdue]
  | up k n =>
    simp only [step]
    split
    · next c l hc hl =>
      have hup : l.up = l.worker.channel.conn.outgoing.length := (h.come _ (hzip hc hl)).1
      simp only [hup, hnone, harrive, List.length_nil, Nat.add_zero]
      rw [← hup]
      exact setLink_self hc hl
    · rfl
  | down k n =>
    simp only [step]
    split
    · next c l hc hl =>
      have hdown : l.down = c.conn.outgoing.length := (h.come _ (hzip hc hl)).2
      simp only [hdown, hnone, harrive, List.length_nil, Nat.add_zero]
      rw [← hdown]
      exact setLink_self hc hl
    · rfl
  | lose k reset =>
    simp only [step]
    split
    · next c l hc hl =>
      obtain ⟨l', hl', hover⟩ := hdue
      obtain rfl : l' = l := Option.some.inj (hl'.symm.trans hl)
      obtain ⟨hended, hempty⟩ := h.lost _ (hzip hc hl) hover
      rw [hhangUp hended hempty]
      exact setLink_self hc hl
    · rfl
  | close k reset =>
    refine modify_self fun l hl => ?_
    obtain ⟨hended, hempty⟩ := h.closed hdue l hl
    rw [hhangUp hended hempty]

/-- A deployment is at rest where the coordinator waits, and so does every
worker that has not stalled. -/
theorem settled_of_waiting (hk : d.state.listening = some k)
    (hc : d.state.connections[k]? = some c) (hwaiting : c.Waiting)
    (hworkers : ∀ l ∈ d.links,
      l.worker.phase = .stalled ∨ l.worker.Awaits ∧ l.worker.channel.Waiting)
    (hcome : ∀ p ∈ d.state.connections.zip d.links,
      p.2.up = p.2.worker.channel.conn.outgoing.length ∧ p.2.down = p.1.conn.outgoing.length) :
    d.Settled where
  host := .inr (.inr ⟨k, c, hk, hc, hwaiting⟩)
  workers l hl hawaits := by
    rcases hworkers l hl with hphase | ⟨-, hwaits⟩
    · rw [Worker.Awaits, hphase] at hawaits
      exact hawaits.elim
    · exact hwaits
  come := hcome
  lost p hp hover := by
    obtain ⟨-, hl⟩ := List.of_mem_zip hp
    unfold Worker.Over at hover
    rcases hworkers _ hl with hphase | ⟨hawaits, -⟩
    · simp [hphase] at hover
    · unfold Worker.Awaits at hawaits
      rcases hover with ⟨code, hphase⟩ | hphase
      · simp [hphase] at hawaits
      · simp [hphase] at hawaits
  closed hended := by
    rw [listening_of_ended hended] at hk
    cases hk

/-- The first worker's contribution is taken, and the second has stalled. -/
def stalled : Deployment Coordinator.host :=
  Run.run step (deploy "state" 0) (meets ++ [.host calm] ++ asks ++ [.host calm])

theorem stalled_eq : stalled = Run.run step grouped (asks ++ [.host calm]) := by
  rw [stalled, Run.run_append, ← asked, asked_eq, Run.run_append]

/-- The coordinator's end of the second connection there. -/
def stalledChannel : FrameChannel where
  conn := { outgoing :=
    [acceptFrame 1 1, barrierAck, requestFrame .first].flatMap Protocol.encode }

theorem settled_stalled : stalled.Settled := by
  have hstalled : (stalled.state.listening = some 1 ∧
        stalled.state.connections[1]? = some stalledChannel) ∧
      (∀ l ∈ stalled.links, l.worker.phase = .stalled ∨
        l.worker.phase = .result 0 1 ∧ l.worker.channel.decoder = [] ∧
          l.worker.channel.conn.incoming = [] ∧ l.worker.channel.conn.ended = false) ∧
      ∀ p ∈ stalled.state.connections.zip stalled.links,
        p.2.up = p.2.worker.channel.conn.outgoing.length ∧
          p.2.down = p.1.conn.outgoing.length := by
    rw [stalled_eq]
    decide +kernel
  obtain ⟨⟨hlistening, hchannel⟩, hworkers, hcome⟩ := hstalled
  refine settled_of_waiting hlistening hchannel ⟨rfl, rfl, Bool.false_ne_true⟩
    (fun l hl => ?_) hcome
  refine (hworkers l hl).imp_right fun ⟨hphase, hdecoder, hempty, hlive⟩ => ⟨?_, ?_, hempty, ?_⟩
  · rw [Worker.Awaits, hphase]
    trivial
  · rw [hdecoder]
    rfl
  · rw [hlive]
    exact Bool.false_ne_true

/-- **A worker that stalls keeps everyone waiting.** -/
theorem quiet_stands_stalled :
    (stalled.state.phase.Ended ∧ ∀ l ∈ stalled.links, ¬l.worker.Awaits) ∨
      ((stalled.state.phase = .accept ∨ stalled.state.phase = .acceptFresh) ∧
        stalled.links.length < 3) ∨
      ∃ r l, stalled.state.phase = .contribution r ∧
        stalled.links[r.contributions.length]? = some l ∧
        l.worker.phase = .stalled ∧ l.worker.args.stallAfter.toNat ≤ 3 := by
  have hstands := quiet_stands "state" 0 (meets ++ [.host calm] ++ asks ++ [.host calm])
  rw [← stalled] at hstands
  exact hstands (quiet_of_settled settled_stalled)

end Deployment

end CollectiveFabric
