import CollectiveFabric.Multiprocess.Agreement
import CollectiveFabric.Multiprocess.Reconfiguration

/-!
# The frames the coordinator reads

In any deployment the next frame from the worker the coordinator waits for
is the one its phase calls for, with the worker's own values: none of the
tests of its kind or of its fields can fail. A worker that is accepted
after the pair takes no part: it sends its two greetings and one barrier.
-/

namespace CollectiveFabric

open Common

/-- The connection a phase reads from. -/
def Phase.awaited : Phase → Option ℕ
  | .hello ch | .join ch _ _ | .helloFresh ch | .joinFresh ch _ _ => some ch
  | .barrier i | .complete _ _ i => some i
  | .contribution r => some r.contributions.length
  | _ => none

/-- What a worker sends where a phase awaits it, over a connection. -/
def Phase.Replies (c : FrameChannel) (args : Worker.Args) : Phase → Frame → Prop
  | .hello _, f | .helloFresh _, f => f = Worker.hello args.boot args.name
  | .join _ _ _, f | .joinFresh _ _ _, f => f = Worker.joinGroup args.boot
  | .barrier _, f => f = Worker.barrier args.boot 1
  -- the rank is the one the worker was told first of all
  | .contribution r, f =>
    ∃ rank, (rank = 0 ∨ rank = 1) ∧
      Protocol.encode (Coordinator.acceptFrame rank 1) <+: c.conn.outgoing ∧
      f = Worker.contribution args.boot rank r.site.request
  -- the barrier of a worker accepted later counts as its completion
  | .complete _ _ i, f => f = if i < 2 then Worker.complete else Worker.barrier args.boot 2
  | _, _ => False

/-- What the coordinator tests of a frame it reads at a phase. -/
def Phase.Passes : Phase → Frame → Prop
  | .hello _, f => f.kind = .of .hello ∧ (Fields.bootName.decode f.payload).isSome
  | .join _ _ _, f => f.kind = .of .joinGroup
  | .barrier _, f => f.kind = .of .barrier ∧
      ∃ c, decAuth f.payload = some c ∧ c.groupGen = 1 ∧ c.epoch = 1
  | .contribution _, f => f.kind = .of .contribution ∧ (decAuth f.payload).isSome ∧
      (Fields.blob.decode f.payload).isSome
  | .helloFresh _, f => f.kind = .of .hello
  | _, _ => True

namespace Worker

/-- A greeting that fits a frame is read back. -/
theorem decode_hello {boot : UInt64} {name : Bytes} (h : Protocol.Valid (hello boot name)) :
    Fields.bootName.decode (hello boot name).payload = some (boot, name) := by
  refine decode_encBootName boot ?_
  by_contra hlong
  have hbuf : ((({} : CanonicalWriter).u64 boot).string name).buf =
      CanonicalWriter.beBytes boot 8 ++ (CanonicalWriter.beBytes name.size 8 ++ name.toList) := by
    rw [CanonicalWriter.string_buf]
    simp [CanonicalWriter.u64, CanonicalWriter.pushBe]
  have hlength : (encBootName boot name).toList.length = min (2 ^ 64 - 1)
      (16 + name.toList.length) := by
    show (List.take _ _).length = _
    rw [hbuf, List.length_take, List.length_append, List.length_append, beBytes_length _ le_rfl,
      beBytes_length _ le_rfl, ← Nat.add_assoc]
  have hle : (encBootName boot name).toList.length ≤ 64 * 1024 * 1024 := h.payload_le
  omega

end Worker

theorem Phase.passes_of_replies {c : FrameChannel} {args : Worker.Args} {p : Phase} {f : Frame}
    (hvalid : Protocol.Valid f) (h : p.Replies c args f) : p.Passes f := by
  cases p with
  | hello ch =>
    obtain rfl : f = Worker.hello args.boot args.name := h
    exact ⟨rfl, by rw [Worker.decode_hello hvalid]; rfl⟩
  | join ch boot name =>
    obtain rfl : f = Worker.joinGroup args.boot := h
    rfl
  | barrier i =>
    obtain rfl : f = Worker.barrier args.boot 1 := h
    exact ⟨rfl, _, decode_encAuth _, rfl, rfl⟩
  | contribution r =>
    obtain ⟨rank, -, -, rfl⟩ := h
    exact ⟨rfl, by rw [Worker.decAuth_contribution]; rfl, by rw [Worker.decode_contribution]; rfl⟩
  | helloFresh ch =>
    obtain rfl : f = Worker.hello args.boot args.name := h
    rfl
  | complete r outputs i | joinFresh ch boot name => trivial
  | accept | acceptFresh | returned code | threw e | undefined => exact h.elim

/-! ## The next frame -/

/-- The frame in a worker's script. -/
theorem Next.getElem? {args : Worker.Args} {told taken : List Frame} {f : Frame}
    (h : Next args told taken f) : (Worker.scripted args told).sent[taken.length]? = some f := by
  obtain ⟨t, ht⟩ := h
  rw [← ht, List.append_assoc, List.getElem?_append_right le_rfl, Nat.sub_self]
  rfl

/-- A worker that was told nothing has greeted. -/
theorem Next.greeting {args : Worker.Args} {taken : List Frame} {f : Frame}
    (h : Next args [] taken f) :
    (taken.length = 0 → f = Worker.hello args.boot args.name) ∧
      (taken.length = 1 → f = Worker.joinGroup args.boot) := by
  have hget := h.getElem?
  rw [Worker.sent_scripted_nil] at hget
  refine ⟨fun hzero => ?_, fun hone => ?_⟩
  · rw [hzero] at hget
    exact (Option.some.inj hget).symm
  · rw [hone] at hget
    exact (Option.some.inj hget).symm

/-- What a worker sends that is told no more than a late one. -/
theorem Coordinator.Late.sent_upto {told : List Frame} (h : Coordinator.Late told)
    (args : Worker.Args) : (Worker.scripted args told).sent <+:
      [Worker.hello args.boot args.name, Worker.joinGroup args.boot,
        Worker.barrier args.boot 2] := by
  obtain ⟨rank, boot, output, hprefix⟩ := h
  refine (Worker.sent_hear_mono _ hprefix).trans ?_
  -- the request is taken for the answer to the barrier, and the result is dropped
  have hhear : (Worker.start args).hear
      [Coordinator.acceptFrame rank 2, Coordinator.requestFrame .second,
        Coordinator.resultFrame .second boot output] =
      ((((Worker.start args).onAccept (Coordinator.acceptFrame rank 2)).onFrame
        (Coordinator.requestFrame .second)).onFrame
          (Coordinator.resultFrame .second boot output)) := rfl
  rw [hhear, Worker.onAccept_acceptFrame]
  exact List.prefix_rfl

namespace Coordinator

variable {β : ℕ → UInt64} {s : Coordinator} {links : List Link} {b : Book} {k n : ℕ} {f : Frame}
variable {c c' : FrameChannel}

/-- The next frame from a connection is the next its worker's script
sends. -/
theorem Acts.next (h : Acts β s links b) (hc : s.connections[k]? = some c)
    (hread : c.recv n = (.frame f, c')) {l : Link} (hl : links[k]? = some l) :
    Next l.worker.args (b.told k) (b.taken k) f := by
  have hprefix := (h.scene.wired.frame hc hread).taken_prefix_scripted hl
  rw [taken_take] at hprefix
  exact hprefix

/-- **Where a frame is read, it is the one the phase calls for.** -/
theorem Acts.replies (h : Acts β s links b) (hk : s.phase.awaited = some k)
    (hc : s.connections[k]? = some c) (hread : c.recv n = (.frame f, c')) {l : Link}
    (hl : links[k]? = some l) : s.phase.Replies c l.worker.args f := by
  have hnext := h.next hc hread hl
  have hdeaf : ¬c.Deaf := fun hdeaf => hdeaf.not_frame hread
  have hfew := h.scene.few
  have hstage := h.stage
  cases hphase : s.phase with
  | hello ch =>
    rw [hphase] at hk hstage
    obtain rfl : ch = k := Option.some.inj hk
    obtain ⟨ho, -, -, htaken⟩ := hstage
    rw [ho.told] at hnext
    exact hnext.greeting.1 htaken
  | join ch boot name =>
    rw [hphase] at hk hstage
    obtain rfl : ch = k := Option.some.inj hk
    obtain ⟨ho, -, -, htaken⟩ := hstage
    rw [ho.told] at hnext
    exact hnext.greeting.2 htaken
  | barrier i =>
    rw [hphase] at hk hstage
    obtain rfl : i = k := Option.some.inj hk
    obtain ⟨-, -, hi, hstands, -⟩ := hstage
    have hat := hstands i hi
    rw [if_neg (Nat.lt_irrefl i)] at hat
    have hget := hnext.getElem?
    rw [hat.told, hat.count, Worker.sent_scripted_accept] at hget
    exact (Option.some.inj hget).symm
  | contribution r =>
    rw [hphase] at hk hstage
    obtain rfl : r.contributions.length = k := Option.some.inj hk
    have hplaying := hstage.2.1
    have hseat := seats h.scene.apart
    refine ⟨rankIn β r.contributions.length, ?_, ?_, hplaying.next h.scene hc hdeaf hl hnext⟩
    · match r.contributions.length, hplaying.length_lt with
      | 0, _ => exact hseat.imp And.left And.left
      | 1, _ => exact (hseat.imp And.right And.right).symm
    · rw [(h.scene.wired.server _ c l hc hl).outgoing, ← List.flatMap_singleton Protocol.encode]
      exact List.IsPrefix.flatMap (hplaying.asked hc hdeaf hl hnext).accepted _
  | complete r outputs i =>
    rw [hphase] at hk hstage
    obtain rfl : i = k := Option.some.inj hk
    obtain ⟨-, hfinishing, hlt, hrest⟩ := hstage
    show f = if i < 2 then Worker.complete else Worker.barrier l.worker.args.boot 2
    split_ifs with hi
    · have howing := hfinishing.stands i hi
      rw [if_neg (Nat.lt_irrefl i)] at howing
      exact Owing.next howing (List.ne_nil_of_mem hfinishing.mem) (by omega)
        h.scene.output_length hnext
    · -- its two greetings have been taken, so the barrier comes next
      have hgreeted : (b.taken i).length = 2 := by
        rcases hrest.greeted i (by omega) hlt with htwo | ⟨d, hd, hddeaf⟩
        · exact htwo
        · obtain rfl : d = c := Option.some.inj (hd.symm.trans hc)
          exact absurd hddeaf hdeaf
      have hsent : (Worker.scripted l.worker.args (b.told i)).sent <+:
          [Worker.hello l.worker.args.boot l.worker.args.name,
            Worker.joinGroup l.worker.args.boot] ++ [Worker.barrier l.worker.args.boot 2] :=
        (h.scene.late i (by omega)).sent_upto l.worker.args
      exact next_of_prefix (hnext.trans hsent) hgreeted
  | helloFresh ch =>
    rw [hphase] at hk hstage
    obtain ⟨hcast, rfl, -, htaken, hrest⟩ := hstage
    obtain rfl : 2 = k := Option.some.inj hk
    rw [hrest.beyond 2 le_rfl hcast.workers.le] at hnext
    exact hnext.greeting.1 htaken
  | joinFresh ch boot name =>
    rw [hphase] at hk hstage
    obtain ⟨hcast, rfl, -, htaken, hrest⟩ := hstage
    obtain rfl : 2 = k := Option.some.inj hk
    rw [hrest.beyond 2 le_rfl hcast.workers.le] at hnext
    exact hnext.greeting.2 htaken
  | accept | acceptFresh | returned code | threw e | undefined =>
    rw [hphase] at hk
    cases hk

end Coordinator

namespace Deployment

open Coordinator

/-! ## A run that loses its pair -/

/-- Two workers are started and accepted, the second one to stall at its
first request, up to the turn that takes its `JOIN_GROUP`. -/
def meets : List Event :=
  [.launch { boot := 1 }, .host calm, .up 0 8192, .host calm, .host calm, .host calm,
    .launch { boot := 2, stallAfter := 0 }, .host calm, .up 1 8192, .host calm, .host calm]

/-- What was sent to a worker comes, the worker takes its turn for the bytes
and one for each of `n` frames, and what it answers comes back. -/
def hears (k n : ℕ) : List Event :=
  .down k 8192 :: List.replicate (n + 1) (.worker k { received := 8192 }) ++ [.up k 8192]

/-- The pair passes the barrier and hears of the first request, up to the
turn that takes the first contribution. -/
def asks : List Event :=
  hears 0 1 ++ hears 1 1 ++ List.replicate 4 (.host calm) ++ hears 0 2 ++ hears 1 2 ++
    [.host calm]

/-- The second worker is killed where its contribution is awaited, the first
one ends over the request that comes for a result, and a third is started
and accepted, up to the turn that takes its `JOIN_GROUP`. -/
def loses : List Event :=
  [.host calm, .kill 1, .lose 1 false, .host calm] ++ hears 0 1 ++
    [.lose 0 false, .host calm, .launch { boot := 3 }, .host calm, .up 2 8192, .host calm,
      .host calm]

/-- A turn of a coordinator that stands at no accept. -/
theorem run_host {d : Deployment Coordinator.host} (hwaits : d.waits calm = false) :
    Run.run step d [.host calm] = { d with state := d.state.turn calm } := by
  show step d (.host calm) = _
  rw [step, hwaits]
  rfl

/-- The deployment before the turn that takes the second `JOIN_GROUP`. -/
def met : Deployment Coordinator.host := Run.run step (deploy "state" 0) meets

/-- And after it. -/
def grouped : Deployment Coordinator.host := { met with state := paired met.state }

theorem run_meets : Run.run step (deploy "state" 0) (meets ++ [.host calm]) = grouped := by
  have hmet : met.state.phase = .join 1 2 ∅ ∧ met.state.workers = [⟨0, 1, ∅⟩] ∧
      met.state.connections[1]? = some ⟨{}, Protocol.encode (Worker.joinGroup 2)⟩ ∧
      ¬((groupId, ⟨1⟩) : GroupKey) ∈ met.state.runtime.groups ∧ met.waits calm = false := by
    decide +kernel
  obtain ⟨hphase, hworkers, hchannel, hnew, hwaits⟩ := hmet
  have hturn : met.state.turn calm = paired met.state := turn_paired hphase hworkers hchannel hnew
  rw [Run.run_append, ← met, run_host hwaits, hturn, grouped]

/-- The deployment where a contribution can be taken. -/
def asked : Deployment Coordinator.host :=
  Run.run step (deploy "state" 0) (meets ++ [.host calm] ++ asks)

theorem asked_eq : asked = Run.run step grouped asks := by
  rw [asked, Run.run_append, run_meets]

/-- The coordinator's end of the first connection there: the worker has been
told its rank and asked, and its contribution has come. -/
def askedChannel : FrameChannel where
  conn := { outgoing :=
    [acceptFrame 0 1, barrierAck, requestFrame .first].flatMap Protocol.encode }
  decoder := Protocol.encode (Worker.contribution 1 0 Site.first.request)

/-- The deployment before the turn that takes the third `JOIN_GROUP`. -/
def lost : Deployment Coordinator.host := Run.run step asked loses

theorem lost_eq : lost = Run.run step grouped (asks ++ loses) := by
  rw [lost, asked_eq, Run.run_append]

/-- And after it. -/
def regrouped : Deployment Coordinator.host := { lost with state := rejoined lost.state }

theorem run_loses : Run.run step (deploy "state" 0) (meets ++ [.host calm] ++ asks ++ loses ++
    [.host calm]) = regrouped := by
  have hlost : lost.state.phase = .joinFresh 2 (some 3) ∅ ∧
      lost.state.workers = [⟨0, 1, ∅⟩, ⟨1, 2, ∅⟩] ∧
      lost.state.connections[2]? = some ⟨{}, Protocol.encode (Worker.joinGroup 3)⟩ ∧
      ¬((groupId, ⟨2⟩) : GroupKey) ∈ lost.state.runtime.groups ∧ lost.waits calm = false := by
    rw [lost_eq]
    decide +kernel
  obtain ⟨hphase, hworkers, hchannel, hnew, hwaits⟩ := hlost
  have hturn : lost.state.turn calm = rejoined lost.state :=
    turn_rejoined hphase hworkers hchannel hnew
  rw [Run.run_append, Run.run_append, ← asked, ← lost, run_host hwaits, hturn, regrouped]

/-! ## The frames of a deployment -/

/-- **Fidelity.** In every run of a deployment, whatever frame the
coordinator can read from the connection it waits on is what the worker
there sends at this point of the scenario, with that worker's own boot and
name; so no test of a frame ever fails. -/
theorem frames_expected (statefile : String) (wallNs : UInt64) (evs : List Event) (k n : ℕ)
    (c c' : FrameChannel) (f : Frame)
    (hk : (Run.run step (deploy statefile wallNs) evs).state.phase.awaited = some k)
    (hc : (Run.run step (deploy statefile wallNs) evs).connection k = some c)
    (hread : c.recv n = (.frame f, c')) :
    ∃ l, (Run.run step (deploy statefile wallNs) evs).links[k]? = some l ∧
      (Run.run step (deploy statefile wallNs) evs).state.phase.Replies c l.worker.args f ∧
      (Run.run step (deploy statefile wallNs) evs).state.phase.Passes f := by
  obtain ⟨β, b, h⟩ := sees_run statefile wallNs evs
  obtain ⟨hlt, -⟩ := List.getElem?_eq_some_iff.1 hc
  obtain ⟨l, hl⟩ := h.scene.exists_link hlt
  have hreplies := h.replies hk hc hread hl
  obtain ⟨m, hdecode, -⟩ := FrameChannel.recv_frame hread
  exact ⟨l, hl, hreplies, Phase.passes_of_replies (Protocol.decode_eq_frame hdecode).1 hreplies⟩

theorem frames_expected_contribution :
    ∃ l, asked.links[0]? = some l ∧
      asked.state.phase.Replies askedChannel l.worker.args
        (Worker.contribution 1 0 Site.first.request) ∧
      asked.state.phase.Passes (Worker.contribution 1 0 Site.first.request) := by
  have hasked : asked.state.phase.awaited = some 0 ∧ asked.connection 0 = some askedChannel := by
    rw [asked_eq]
    decide +kernel
  have hread : askedChannel.recv 0 = (.frame (Worker.contribution 1 0 Site.first.request),
      { askedChannel with decoder := [] }) := by decide +kernel
  have hexpected := frames_expected "state" 0 (meets ++ [.host calm] ++ asks) 0 0 askedChannel
  rw [← asked] at hexpected
  exact hexpected _ _ hasked.1 hasked.2 hread

/-- **A worker accepted after the pair takes no part.** Whatever happens,
the bytes that the worker in a later place has sent are its two greetings
and one barrier, or the first of these: it contributes to no round, and it
completes none. -/
theorem late_takes_no_part (statefile : String) (wallNs : UInt64) (evs : List Event) (k : ℕ)
    (l : Link) (hk : 2 ≤ k) (hl : (Run.run step (deploy statefile wallNs) evs).links[k]? = some l) :
    ∃ fs, l.worker.channel.conn.outgoing = fs.flatMap Protocol.encode ∧
      fs <+: [Worker.hello l.worker.args.boot l.worker.args.name,
        Worker.joinGroup l.worker.args.boot, Worker.barrier l.worker.args.boot 2] := by
  obtain ⟨β, b, h⟩ := sees_run statefile wallNs evs
  have hanswers := h.scene.wired.worker k l hl
  refine ⟨l.worker.sent, hanswers.outgoing, ?_⟩
  rw [hanswers.follows.alike.sent]
  refine (Worker.sent_hear_mono _ hanswers.down.taken_prefix).trans ?_
  exact (h.scene.late k hk).sent_upto l.worker.args

/-- The third worker is accepted and answered, and all it sends is two
greetings and one barrier. -/
theorem late_takes_no_part_third :
    ∃ l, (Run.run step (deploy "state" 0) (meets ++ [.host calm] ++ asks ++ loses ++
        [.host calm] ++ hears 2 2)).links[2]? = some l ∧
      l.worker.channel.conn.outgoing =
        [Worker.hello 3 ∅, Worker.joinGroup 3, Worker.barrier 3 2].flatMap Protocol.encode ∧
      ∃ fs, l.worker.channel.conn.outgoing = fs.flatMap Protocol.encode ∧
        fs <+: [Worker.hello l.worker.args.boot l.worker.args.name,
          Worker.joinGroup l.worker.args.boot, Worker.barrier l.worker.args.boot 2] := by
  have hsent : (Run.run step regrouped (hears 2 2)).links[2]?.map
      (·.worker.channel.conn.outgoing) = some
        ([Worker.hello 3 ∅, Worker.joinGroup 3, Worker.barrier 3 2].flatMap Protocol.encode) := by
    rw [regrouped, lost_eq]
    decide +kernel
  rw [← run_loses, ← Run.run_append] at hsent
  obtain ⟨l, hl, hout⟩ := Option.map_eq_some_iff.1 hsent
  exact ⟨l, hl, hout, late_takes_no_part "state" 0 _ 2 l le_rfl hl⟩

end Deployment

end CollectiveFabric
