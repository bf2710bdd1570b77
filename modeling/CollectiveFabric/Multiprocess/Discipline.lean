import CollectiveFabric.Common.Run
import CollectiveFabric.Multiprocess.Hearing

/-!
# A worker among strangers

Whatever bytes a worker's peer sends, and in whatever pieces: the frames
it reads are the first ones of those bytes, and what it sends is its two
greetings, one barrier and then, for requests that it read, in their order
and each at most once, a contribution and a completion. It contributes no
more often than it was told to before it stalls.
-/

namespace CollectiveFabric

open Common

namespace Worker

/-- What happens to a worker next. -/
inductive Event where
  | arrive (bs : List UInt8)
  | hangUp (reset : Bool)
  | kill
  | turn (env : Surroundings)

def step (w : Worker) : Event → Worker
  | .arrive bs => { w with channel := { w.channel with conn := w.channel.conn.arrive bs } }
  | .hangUp reset => { w with channel := { w.channel with conn := w.channel.conn.hangUp reset } }
  | .kill => w.goto .killed
  | .turn env => w.turn env

/-- The bytes an event brings. -/
def Event.bytes : Event → List UInt8
  | .arrive bs => bs
  | .hangUp _ | .kill | .turn _ => []

/-- The descriptor a frame asks for a contribution with. -/
def asked (f : Frame) : Option Desc :=
  if f.kind = .of .requestCollective then decDesc f.payload else none

/-- The answers to these requests. -/
def answers (boot rank : UInt64) (ds : List Desc) : List Frame :=
  ds.flatMap fun d => [contribution boot rank d, complete]

theorem answers_append (boot rank : UInt64) (ds : List Desc) (d : Desc) :
    answers boot rank (ds ++ [d]) = answers boot rank ds ++ [contribution boot rank d] ++
      [complete] := by
  rw [answers, List.flatMap_append, List.flatMap_singleton, List.append_assoc]
  rfl

/-- The requests a worker has answered. -/
structure Answered (args : Args) (heard : List Frame) (ds : List Desc) : Prop where
  sublist : ds.Sublist (heard.filterMap asked)
  small : ∀ d ∈ ds, ¬4 < d.elementCount
  bounded : ds.length ≤ args.stallAfter.toNat
  counted : ds.length < 2 ^ 31

namespace Answered

variable {args : Args} {heard : List Frame} {ds : List Desc} {f : Frame} {d : Desc}

theorem nil (args : Args) (heard : List Frame) : Answered args heard [] :=
  ⟨List.nil_sublist _, fun _ hd => (List.not_mem_nil hd).elim, Nat.zero_le _, by decide⟩

/-- More is heard. -/
theorem hear (h : Answered args heard ds) (f : Frame) : Answered args (heard ++ [f]) ds := by
  refine ⟨h.sublist.trans ?_, h.small, h.bounded, h.counted⟩
  rw [List.filterMap_append]
  exact List.sublist_append_left ..

/-- One more request is answered. -/
theorem answer (h : Answered args heard ds) (hasked : asked f = some d)
    (hawake : ¬args.stallAfter ≤ UInt64.ofNat ds.length)
    (hfew : ¬(4 < d.elementCount ∨ ds.length = 2 ^ 31 - 1)) :
    Answered args (heard ++ [f]) (ds ++ [d]) := by
  have hcounted := h.counted
  have hlength : (ds ++ [d]).length = ds.length + 1 := by
    rw [List.length_append, List.length_singleton]
  have hsize : ds.length < UInt64.size := by
    show ds.length < 2 ^ 64
    omega
  rw [UInt64.le_iff_toNat_le, UInt64.toNat_ofNat_of_lt' hsize] at hawake
  refine ⟨?_, ?_, by omega, ?_⟩
  · rw [List.filterMap_append]
    refine h.sublist.append ?_
    rw [List.filterMap_cons, hasked]
    exact List.Sublist.refl _
  · intro e he
    rcases List.mem_append.1 he with he | he
    · exact h.small e he
    · exact List.mem_singleton.1 he ▸ fun hlt => hfew (.inl hlt)
  · rw [hlength]
    have hne : ds.length ≠ 2 ^ 31 - 1 := fun heq => hfew (.inr heq)
    omega

end Answered

/-- The worker has greeted, sent its barrier and answered `ds`. -/
def opened (args : Args) (gen rank : UInt64) (ds : List Desc) : List Frame :=
  [hello args.boot args.name, joinGroup args.boot, barrier args.boot gen] ++
    answers args.boot rank ds

/-- What a worker that has ended may have sent. -/
def Said (args : Args) (heard sent : List Frame) : Prop :=
  ∃ gen rank ds, Answered args heard ds ∧ sent <+: opened args gen rank ds

/-- **Where the worker stands, and what it has sent.** -/
def Order (args : Args) (heard : List Frame) (w : Worker) : Prop :=
  match w.phase with
  | .accept => w.sent = [hello args.boot args.name, joinGroup args.boot]
  | .barrier rank => ∃ gen, w.sent = opened args gen rank []
  | .serve rank index => ∃ gen ds, Answered args heard ds ∧ ds.length = index ∧
      w.sent = opened args gen rank ds
  | .result rank index => ∃ gen ds d, Answered args heard (ds ++ [d]) ∧ ds.length + 1 = index ∧
      w.sent = opened args gen rank ds ++ [contribution args.boot rank d]
  | .stalled | .returned _ | .killed | .undefined => Said args heard w.sent

variable {args : Args} {heard : List Frame} {w : Worker} {f : Frame}

/-- However it ends, it has kept the order. -/
theorem Order.said (h : Order args heard w) : Said args heard w.sent := by
  unfold Order at h
  split at h
  · exact ⟨0, 0, [], .nil args heard, h ▸ List.prefix_append _ [barrier args.boot 0]⟩
  · next rank _ =>
    obtain ⟨gen, hsent⟩ := h
    exact ⟨gen, rank, [], .nil args heard, hsent ▸ List.prefix_rfl⟩
  · next rank _ _ =>
    obtain ⟨gen, ds, hanswered, -, hsent⟩ := h
    exact ⟨gen, rank, ds, hanswered, hsent ▸ List.prefix_rfl⟩
  · next rank _ _ =>
    obtain ⟨gen, ds, d, hanswered, -, hsent⟩ := h
    refine ⟨gen, rank, ds ++ [d], hanswered, ?_⟩
    rw [hsent, opened, opened, answers_append, ← List.append_assoc, ← List.append_assoc]
    exact List.prefix_append ..
  all_goals exact h

theorem Said.hear {sent : List Frame} (h : Said args heard sent) (f : Frame) :
    Said args (heard ++ [f]) sent := by
  obtain ⟨gen, rank, ds, hanswered, hprefix⟩ := h
  exact ⟨gen, rank, ds, hanswered.hear f, hprefix⟩

/-- The worker ends, and has sent nothing more. -/
theorem Order.quit (h : Order args heard w) (f : Frame) (line : Line) :
    Order args (heard ++ [f]) (w.quit line) := h.said.hear f

theorem order_onRequest {gen rank : UInt64} {ds : List Desc} (h : Answered args heard ds)
    (hargs : w.args = args) (hsent : w.sent = opened args gen rank ds)
    (hkind : f.kind = .of .requestCollective) :
    Order args (heard ++ [f]) (w.onRequest rank ds.length f) := by
  have hsaid : Said args (heard ++ [f]) w.sent :=
    ⟨gen, rank, ds, h.hear f, hsent ▸ List.prefix_rfl⟩
  unfold onRequest
  cases hdesc : decDesc f.payload with
  | none => exact hsaid
  | some d =>
    have hasked : asked f = some d := (if_pos hkind).trans hdesc
    simp only
    split_ifs with hstall hfew
    · exact hsaid
    · exact hsaid
    · rw [hargs] at hstall
      refine ⟨gen, ds, d, h.answer hasked hstall hfew, rfl, ?_⟩
      show w.sent ++ [contribution w.args.boot rank d] = _
      rw [hsent, hargs]

/-- **A frame keeps the order.** -/
theorem Order.onFrame (h : Order args heard w) (hargs : w.args = args) (f : Frame) :
    Order args (heard ++ [f]) (w.onFrame f) := by
  have hquit := h.quit f
  have hsaid := h.said.hear f
  unfold Worker.onFrame
  unfold Order at h
  cases hphase : w.phase with
  | accept =>
    rw [hphase] at h
    simp only [onAccept] at h ⊢
    split
    · exact hquit _
    · next groupGen _ =>
      refine ⟨groupGen, ?_⟩
      show w.sent ++ [barrier w.args.boot groupGen] = _
      rw [h, hargs]
      rfl
  | barrier rank =>
    rw [hphase] at h
    obtain ⟨gen, hsent⟩ := h
    refine ⟨gen, [], .nil args _, rfl, ?_⟩
    simp only [onBarrier]
    split_ifs <;> exact hsent
  | serve rank index =>
    rw [hphase] at h
    obtain ⟨gen, ds, hanswered, rfl, hsent⟩ := h
    have hstay (w' : Worker) (hw : w'.phase = w.phase) (hs : w'.sent = w.sent) :
        Order args (heard ++ [f]) w' := by
      unfold Order
      rw [hw, hphase]
      exact ⟨gen, ds, hanswered.hear f, rfl, hs.trans hsent⟩
    simp only [onServe]
    split_ifs with hrequest
    · exact order_onRequest hanswered hargs hsent hrequest
    · exact hstay _ rfl rfl
    · exact hquit _
    · exact hstay _ rfl rfl
  | result rank index =>
    rw [hphase] at h
    obtain ⟨gen, ds, d, hanswered, rfl, hsent⟩ := h
    simp only [onResult]
    by_cases hkind : f.kind ≠ .of .result
    · rw [if_pos hkind]
      exact hquit _
    rw [if_neg hkind]
    cases Fields.blob.decode f.payload with
    | none => exact hquit _
    | some blob =>
      simp only
      split_ifs
      · exact hsaid
      · refine ⟨gen, ds ++ [d], hanswered.hear f, by
          rw [List.length_append, List.length_singleton], ?_⟩
        show w.sent ++ [complete] = _
        rw [hsent, opened, opened, answers_append]
        simp only [List.append_assoc]
  | stalled | returned code | killed | undefined =>
    unfold Order
    rw [hphase]
    exact hsaid

theorem order_start (args : Args) : Order args [] (start args) := rfl

theorem order_scripted (args : Args) (heard : List Frame) :
    Order args heard (scripted args heard) := by
  have hfrom (w : Worker) (before fs : List Frame) (h : Order args before w)
      (hargs : w.args = args) : Order args (before ++ fs) (w.hear fs) := by
    induction fs generalizing w before with
    | nil => rwa [List.append_nil]
    | cons f fs ih =>
      obtain ⟨_, hsends⟩ := exists_sends_onFrame w f
      have hrest := ih (w.onFrame f) (before ++ [f]) (h.onFrame hargs f) (hsends.args.trans hargs)
      rwa [List.append_assoc] at hrest
  exact hfrom (start args) [] heard (order_start args) rfl

/-! ## Runs -/

/-- What a worker has read and done, when `arrived` has been sent to it. -/
structure Read (args : Args) (arrived : List UInt8) (heard : List Frame) (w : Worker) : Prop where
  args : w.args = args
  bytes : heard.flatMap Protocol.encode ++ w.channel.held <+: arrived
  whole : ¬w.channel.conn.ended = true →
    heard.flatMap Protocol.encode ++ w.channel.held = arrived
  outgoing : w.channel.conn.outgoing = w.sent.flatMap Protocol.encode
  follows : w.Follows heard

variable {arrived : List UInt8}

theorem read_start (args : Args) : Read args [] [] (start args) where
  args := rfl
  bytes := List.prefix_rfl
  whole _ := rfl
  outgoing := by
    show (([] ++ Protocol.encode _) ++ Protocol.encode _ : List UInt8) = _
    simp [start, send]
  follows := follows_start args

/-- Bytes arrive. -/
theorem Read.arrive (h : Read args arrived heard w) (bs : List UInt8) :
    Read args (arrived ++ bs) heard (w.step (.arrive bs)) := by
  by_cases hended : w.channel.conn.ended = true
  · have hsame : w.channel.conn.arrive bs = w.channel.conn := if_pos hended
    have hstep : w.step (.arrive bs) = w := by
      rw [step, hsame]
    rw [hstep]
    exact ⟨h.args, h.bytes.trans (List.prefix_append ..), fun hnot => absurd hended hnot,
      h.outgoing, h.follows⟩
  · have hheld : heard.flatMap Protocol.encode ++
        (w.step (.arrive bs)).channel.held = arrived ++ bs := by
      rw [← h.whole hended, List.append_assoc]
      exact congrArg _ (FrameChannel.held_arrive hended bs)
    exact ⟨h.args, hheld ▸ List.prefix_rfl, fun _ => hheld,
      (FrameChannel.outgoing_arrive bs).trans h.outgoing,
      h.follows.reads fun hdeaf => hdeaf.arrive bs⟩

/-- The connection ends. -/
theorem Read.hangUp (h : Read args arrived heard w) (reset : Bool) :
    Read args arrived heard (w.step (.hangUp reset)) where
  args := h.args
  bytes := ((List.prefix_append_right_inj _).2 (FrameChannel.held_hangUp _ reset)).trans h.bytes
  whole hnot := absurd rfl hnot
  outgoing := h.outgoing
  follows := h.follows.reads fun hdeaf => hdeaf.hangUp reset

/-- Nothing was read, and nothing sent. -/
theorem Read.stay (h : Read args arrived heard w) {phase : Phase}
    (hfollows : (w.goto phase).Follows heard) : Read args arrived heard (w.goto phase) :=
  ⟨h.args, h.bytes, h.whole, h.outgoing, hfollows⟩

/-- A turn of `recv`. -/
theorem Read.recv (h : Read args arrived heard w) (env : Surroundings)
    (hawaits : (∀ code, w.phase ≠ .returned code) ∧ w.phase ≠ .killed) :
    ∃ heard', Read args arrived heard' (w.recv env) := by
  unfold Worker.recv
  split
  · next f c hread =>
    obtain ⟨m, hdecode, rfl⟩ := FrameChannel.recv_frame hread
    obtain ⟨-, -, hle, hencode⟩ := Protocol.encode_of_decode hdecode
    have hphase : w.phase = (scripted w.args heard).phase := by
      refine h.follows.phase.resolve_right ?_
      rintro (⟨-, hcode⟩ | hkilled | ⟨hdeaf, -⟩)
      · exact hawaits.1 0 hcode
      · exact hawaits.2 hkilled
      · exact hdeaf.not_frame hread
    let v : Worker := { w with channel :=
      { w.channel with decoder := w.channel.decoder.drop m } }
    obtain ⟨fs, hsends⟩ := exists_sends_onFrame v f
    have hv : v.Follows heard :=
      ⟨⟨h.follows.alike.args, h.follows.alike.sent, h.follows.alike.log⟩, .inl hphase⟩
    have hheld : (heard ++ [f]).flatMap Protocol.encode ++ v.channel.held =
        heard.flatMap Protocol.encode ++ w.channel.held := by
      rw [List.flatMap_append, List.flatMap_singleton, hencode, List.append_assoc]
      show _ ++ (_ ++ (w.channel.decoder.drop m ++ w.channel.conn.incoming)) = _
      rw [← List.append_assoc (w.channel.decoder.take m), List.take_append_drop]
      rfl
    refine ⟨heard ++ [f], hsends.args.trans h.args, ?_, ?_, ?_, hv.onFrame hphase f⟩
    · rw [hsends.held, hheld]
      exact h.bytes
    · rw [hsends.held, hheld, hsends.ended]
      exact h.whole
    · rw [hsends.outgoing, hsends.sent, List.flatMap_append]
      exact congrArg (· ++ _) h.outgoing
  · next reason c hread =>
    obtain ⟨rfl, hdeaf, -⟩ := FrameChannel.recv_failed hread
    have hsends := sends_onLoss w reason
    change ∃ heard', Read args arrived heard' (w.onLoss reason)
    refine ⟨heard, hsends.args.trans h.args, ?_, ?_, ?_, h.follows.onLoss hdeaf reason⟩
    · rw [hsends.held]
      exact h.bytes
    · rw [hsends.held, hsends.ended]
      exact h.whole
    · rw [hsends.outgoing, hsends.sent, List.flatMap_append]
      exact congrArg (· ++ _) h.outgoing
  · next c hread =>
    obtain ⟨hheld, hreads⟩ := FrameChannel.recv_pending hread
    refine ⟨heard, h.args, ?_, ?_, hreads.outgoing.trans h.outgoing,
      h.follows.reads fun hdeaf => ?_⟩
    · rw [hheld]
      exact h.bytes
    · rw [hheld, hreads.ended]
      exact h.whole
    · have hsame : c = w.channel := by
        rw [← hdeaf.recv_snd env.received, hread]
      rwa [hsame]

theorem Read.turn (h : Read args arrived heard w) (env : Surroundings) :
    ∃ heard', Read args arrived heard' (w.turn env) := by
  unfold Worker.turn
  cases hphase : w.phase with
  | accept | barrier _ | serve _ _ | result _ _ =>
    exact h.recv env ⟨fun code hcode => (by rw [hphase] at hcode; cases hcode), fun hkilled =>
      (by rw [hphase] at hkilled; cases hkilled)⟩
  | stalled =>
    simp only
    split_ifs
    · exact ⟨heard, h.stay (h.follows.wake hphase)⟩
    · exact ⟨heard, h⟩
  | returned code | killed | undefined => exact ⟨heard, h⟩

theorem read_run (args : Args) (evs : List Event) :
    ∃ heard, Read args (evs.flatMap Event.bytes) heard (Run.run step (start args) evs) := by
  induction evs using List.reverseRecOn with
  | nil => exact ⟨[], read_start args⟩
  | append_singleton evs ev ih =>
    obtain ⟨heard, h⟩ := ih
    rw [Run.run_append, List.flatMap_append, List.flatMap_singleton]
    generalize Run.run step (start args) evs = w at h
    show ∃ heard, Read args _ heard (w.step ev)
    cases ev with
    | arrive bs => exact ⟨heard, h.arrive bs⟩
    | hangUp reset =>
      rw [Event.bytes, List.append_nil]
      exact ⟨heard, h.hangUp reset⟩
    | kill =>
      rw [Event.bytes, List.append_nil]
      exact ⟨heard, h.stay h.follows.kill⟩
    | turn env =>
      rw [Event.bytes, List.append_nil]
      exact h.turn env

/-- **The discipline of a worker.** Whatever its peer sends it, in
whatever pieces, and however it ends: what a worker has sent is, or begins,
its two greetings, one barrier and the contributions and completions for
some of the requests among the frames that these bytes encode, in their
order, each answered once with the generations it asked for; there are no
more of them than the rounds before it stalls. A worker that comes to
undefined behaviour, by a request of more than four elements or by a result
that ends before its first float, is followed up to there. -/
theorem discipline (args : Args) (evs : List Event) :
    ∃ (heard : List Frame) (gen rank : UInt64) (ds : List Desc) (fs : List Frame),
      heard.flatMap Protocol.encode <+: evs.flatMap Event.bytes ∧
      ds.Sublist (heard.filterMap asked) ∧ ds.length ≤ args.stallAfter.toNat ∧
      fs <+: [hello args.boot args.name, joinGroup args.boot, barrier args.boot gen] ++
        answers args.boot rank ds ∧
      (Run.run step (start args) evs).channel.conn.outgoing = fs.flatMap Protocol.encode := by
  obtain ⟨heard, h⟩ := read_run args evs
  obtain ⟨gen, rank, ds, hanswered, hprefix⟩ := (order_scripted args heard).said
  have hsent := h.follows.alike.sent
  rw [h.args] at hsent
  rw [← hsent] at hprefix
  exact ⟨heard, gen, rank, ds, _, (List.prefix_append ..).trans h.bytes, hanswered.sublist,
    hanswered.bounded, hprefix, h.outgoing⟩

end Worker

end CollectiveFabric
