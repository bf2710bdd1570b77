import CollectiveFabric.Multiprocess.Contributions
import CollectiveFabric.Multiprocess.Throwing

/-!
# What workers can make the coordinator do

Everything a worker sends is read with a return code, but two of the
values are then passed on to functions that throw, and nothing catches:
the boots of the two workers to the group builder, and the contributions
to the engine. And the return code of one read is dropped: a fresh worker
whose `HELLO` holds no boot joins with a variable that was never set. A run
whose boots and contributions pass those checks goes on or returns; any
other ends in the exception or in undefined behaviour.
-/

namespace CollectiveFabric

open Common

namespace Coordinator

variable {s s' : Coordinator} {env : Surroundings}

/-- **The coordinator goes on or has returned.** What it throws at most is
an error of the file system. -/
structure Contained (s : Coordinator) : Prop where
  defined : s.phase ≠ .undefined
  throws : ∀ e, s.phase = .threw e → e.code = .io

/-- The exception that ended the run. -/
def thrown (s : Coordinator) : Option Error :=
  match s.phase with
  | .threw e => some e
  | _ => none

theorem contained_iff : s.Contained ↔ s.phase ≠ .undefined ∧ ∀ e ∈ s.thrown, e.code = .io := by
  have hthrown (e : Error) : e ∈ s.thrown ↔ s.phase = .threw e := by
    unfold thrown
    cases s.phase <;> simp
  simp only [hthrown]
  exact ⟨fun h => ⟨h.defined, h.throws⟩, fun h => ⟨h.1, h.2⟩⟩

instance (s : Coordinator) : Decidable s.Contained := decidable_of_iff _ contained_iff.symm

/-- What `Store::save` throws at the event. -/
def Event.disk : Event → Option Error
  | .turn env => env.disk
  | _ => none

/-- The next frame is the `JOIN_GROUP` of the second worker. -/
structure Pairing (s : Coordinator) (w₀ w₁ : WorkerState) (f : Frame) : Prop where
  phase : s.phase = .join w₁.ch w₁.boot w₁.name
  worker : s.workers = [w₀]
  head : s.head w₁.ch = some f
  kind : f.kind = .of .joinGroup

/-- The turn ends a read of the channel, with a frame or with a failure. -/
def Ends (s : Coordinator) (env : Surroundings) (ch : ℕ) : Prop :=
  ∃ c, s.connections[ch]? = some c ∧ (c.recv env.received).1 ≠ .pending

/-- **What the workers send is in order**: where the second worker joins,
the two boots are identities of their own; where a contribution completes
a round, it and the ones before it are four floats long; and where the
fresh worker joins, its `HELLO` held a boot. -/
def Orderly (s : Coordinator) : Event → Prop
  | .turn env =>
    (∀ w₀ w₁ f, s.Pairing w₀ w₁ f → Formable w₀.boot w₁.boot) ∧
      (∀ r w f x, s.Completing r w f → Fields.blob.decode f.payload = some x →
        (∀ c ∈ r.contributions, c.bytes.toList.length = 16) ∧ x.2.toList.length = 16) ∧
      ∀ ch boot name, s.phase = .joinFresh ch boot name → s.Ends env ch → boot ≠ none
  | _ => True

/-! ## What each phase relies on -/

/-- The first group, once it is registered. -/
def first (s : Coordinator) : Option CollectiveGroup := s.runtime.findGroup groupId ⟨1⟩

/-- The workers in places 0 and 1 can form a group. -/
def Paired (s : Coordinator) : Prop :=
  ∃ w₀ w₁, s.workers[0]? = some w₀ ∧ s.workers[1]? = some w₁ ∧ Formable w₀.boot w₁.boot

/-- What a round relies on. -/
structure OnRound (s : Coordinator) (site : Site) : Prop where
  live : ∀ w ∈ s.workers, s.Live w.ch
  paired : s.Paired
  fresh : site ≠ .second → s.second = none

/-- What a phase relies on. -/
def Fits (s : Coordinator) : Phase → Prop
  | .accept | .hello _ | .join _ _ _ => s.workers.length < 2 ∧ s.first = none ∧ s.second = none
  | .barrier i => s.OnRound .first ∧ i < s.workers.length
  | .contribution r => s.OnRound r.site ∧ r.contributions.length < 2
  | .complete r outputs i => s.OnRound r.site ∧ outputs ≠ [] ∧ i < s.workers.length
  | .acceptFresh | .helloFresh _ | .joinFresh _ _ _ => s.OnRound .loss
  | .returned _ => True
  | .threw e => e.code = .io
  | .undefined => False

theorem Paired.keeps (h : s.Paired) (hk : Keeps s s') : s'.Paired := by
  rw [Paired, hk.workers]
  exact h

theorem OnRound.keeps {site : Site} (h : s.OnRound site) (hk : Keeps s s') :
    s'.OnRound site where
  live w hw := hk.live _ (h.live w (hk.workers ▸ hw))
  paired := h.paired.keeps hk
  fresh hne := (hk.findGroup _ _).trans (h.fresh hne)

theorem Fits.keeps {p : Phase} (h : s.Fits p) (hk : Keeps s s') : s'.Fits p := by
  have hfirst : s'.first = s.first := hk.findGroup _ _
  have hsecond : s'.second = s.second := hk.findGroup _ _
  cases p with
  | accept | hello ch | join ch boot name =>
    simp only [Fits, hk.workers, hfirst, hsecond]
    exact h
  | barrier i => exact ⟨h.1.keeps hk, hk.workers ▸ h.2⟩
  | contribution r => exact ⟨h.1.keeps hk, h.2⟩
  | complete r outputs i => exact ⟨h.1.keeps hk, h.2.1, hk.workers ▸ h.2.2⟩
  | acceptFresh | helloFresh ch | joinFresh ch boot name => exact OnRound.keeps h hk
  | returned code => trivial
  | threw e => exact h
  | undefined => exact h

theorem contained_of_fits (h : s.Fits s.phase) : s.Contained := by
  refine ⟨fun hphase => ?_, fun e hphase => ?_⟩
  all_goals
    rw [hphase] at h
    exact h

theorem OnRound.two_le {site : Site} (h : s.OnRound site) : 2 ≤ s.workers.length := by
  obtain ⟨w₀, w₁, -, hw₁, -⟩ := h.paired
  exact (List.getElem?_eq_some_iff.1 hw₁).1

/-! ## Where a turn ends -/

/-- The coordinator stands where it can go on. -/
abbrev Stands (s : Coordinator) : Prop := s.Fits s.phase

theorem stands_goto {p : Phase} (h : s.Fits p) : (s.goto p).Stands := h.keeps (.goto s p)

theorem stands_quit (line : String) : (s.quit line).Stands :=
  stands_goto (s := s.say (.text line)) trivial

theorem stands_save (hdisk : ∀ e ∈ env.disk, e.code = .io) {path : String}
    {k : Coordinator → Coordinator} (hk : ∀ s', Keeps s s' → (k s').Stands) :
    (s.save env path k).Stands := by
  unfold save
  split
  · next err herr => exact stands_goto (hdisk err herr)
  · exact hk _ (.saved s _)

theorem stands_beginAllreduce {site : Site} (h : s.OnRound site) :
    (s.beginAllreduce site).Stands :=
  stands_goto ⟨h.keeps (.sendEach s _), Nat.zero_lt_two⟩

theorem stands_afterAllreduce (hdisk : ∀ e ∈ env.disk, e.code = .io)
    {site : Site} (h : s.OnRound site) :
    (s.afterAllreduce env site).Stands := by
  cases site with
  | first =>
    have hsay := Keeps.text s "PHASE_ALLREDUCE_DONE gen=1"
    refine stands_save hdisk fun s₁ h₁ => ?_
    have hsaved := (Keeps.text s₁ ("PHASE_SAVED path=" ++ s₁.statefile)).trans
      (.text _ "PHASE_BEGIN_LIVE_COLLECTIVE")
    have hround := h.keeps ((hsay.trans h₁).trans hsaved)
    exact stands_beginAllreduce ⟨hround.live, hround.paired, fun _ => hround.fresh (by decide)⟩
  | loss =>
    have hepoch := (Keeps.text s "PHASE_LOSS_DETECTED").trans
      (@Keeps.runtime _ s.runtime.advanceEpoch rfl)
    have hprune := hepoch.trans (.prune (h.keeps hepoch).live)
    exact stands_goto (p := .acceptFresh)
      (h.keeps (hprune.trans (.text _ "PHASE_RECONFIGURE epoch=2")))
  | second =>
    refine stands_save hdisk fun s₁ _ => ?_
    exact stands_goto (p := .returned 0) trivial

theorem stands_finishAllreduce (hdisk : ∀ e ∈ env.disk, e.code = .io)
    {r : Round} (h : s.OnRound r.site)
    (output : List UInt8) : (s.finishAllreduce env r output).Stands := by
  let sum := UInt32.ofNat (ReferenceEngine.loadLe (output.take 4))
  have hkeeps : Keeps s { s.say (.allreduceDone r.site.label sum) with
      runtime := s.runtime.ingestMeasurement (measurement env r.site.gen) } :=
    (Keeps.say s rfl).trans (.runtime _ rfl)
  exact stands_afterAllreduce hdisk (h.keeps hkeeps)

theorem stands_awaitComplete (hdisk : ∀ e ∈ env.disk, e.code = .io)
    {r : Round} (h : s.OnRound r.site)
    {outputs : List (List UInt8)} (houtputs : outputs ≠ []) (i : ℕ) :
    (s.awaitComplete env r outputs i).Stands := by
  obtain ⟨output, rest, rfl⟩ := List.exists_cons_of_ne_nil houtputs
  unfold awaitComplete
  split_ifs with hi
  · exact stands_goto ⟨h, houtputs, hi⟩
  · exact stands_finishAllreduce hdisk h output

/-- **The engine returns** for two contributions of four floats. -/
theorem stands_execute (hdisk : ∀ e ∈ env.disk, e.code = .io)
    {r : Round} (h : s.OnRound r.site)
    {c₀ c₁ : Contribution} (hr : r.contributions = [c₀, c₁])
    (hsize : c₀.bytes.toList.length = 16 ∧ c₁.bytes.toList.length = 16) :
    (s.execute env r).Stands := by
  rcases ReferenceEngine.execute_pair c₀.bytes.toList c₁.bytes.toList with
    ⟨-, -, output, hreturns⟩ | ⟨hbad, -⟩
  swap
  · exact absurd hsize hbad
  simp only [execute, hr, List.map_cons, List.map_nil, hreturns, List.getElem?_cons_zero]
  let s₁ : Coordinator := { s with executed := s.executed ++ [r] }
  have hsend := Keeps.sendEach s₁ fun w =>
    { kind := .of .result, payload := encBlob (resultAuth r.site.gen w.boot) (.ofList output) }
  have hround : s₁.OnRound r.site := ⟨h.live, h.paired, h.fresh⟩
  exact stands_awaitComplete hdisk (hround.keeps hsend) (List.cons_ne_nil _ _) 0

theorem stands_onContribution (hdisk : ∀ e ∈ env.disk, e.code = .io)
    {r : Round} (h : s.OnRound r.site)
    (hlength : r.contributions.length < 2) {w : WorkerState} {f : Frame}
    (hsizes : f.kind = .of .contribution → ¬ r.contributions.length + 1 < 2 →
      ∀ x, Fields.blob.decode f.payload = some x →
        (∀ c ∈ r.contributions, c.bytes.toList.length = 16) ∧ x.2.toList.length = 16) :
    (s.onContribution env r w f).Stands := by
  have habandon (line : String) :
      ((s.say (.text (r.site.label ++ line))).afterAllreduce env r.site).Stands :=
    stands_afterAllreduce hdisk (h.keeps (.text s _))
  unfold onContribution
  split_ifs with hkind
  · exact habandon _
  cases hblob : Fields.blob.decode f.payload with
  | none =>
    cases decAuth f.payload with
    | none => exact habandon _
    | some auth => exact habandon _
  | some x =>
    obtain ⟨auth, bytes⟩ := x
    simp only [decAuth_of_blob hblob]
    have hsay : Keeps s (s.say (.contribution r.site.label r.contributions.length
      bytes.toList.length)) := .say s rfl
    split_ifs with hlast
    · refine stands_goto ⟨h.keeps hsay, ?_⟩
      rw [List.length_append, List.length_singleton]
      exact hlast
    · -- one contribution is there, and this one completes the round
      obtain ⟨hbefore, hbytes⟩ := hsizes (not_not.1 hkind) hlast _ hblob
      obtain ⟨c, hc⟩ := List.length_eq_one_iff.1 (by omega : r.contributions.length = 1)
      refine stands_execute hdisk (h.keeps hsay)
        (congrArg (· ++ [⟨w.boot, auth, bytes⟩]) hc) ⟨hbefore c ?_, hbytes⟩
      rw [hc]
      exact List.mem_singleton_self c

/-! ## Forming groups -/

theorem stands_awaitBarrier (h : s.OnRound .first) (i : ℕ) : (s.awaitBarrier i).Stands := by
  unfold awaitBarrier
  split_ifs with hi
  · exact stands_goto ⟨h, hi⟩
  · let ack : Frame := { kind := .of .complete, payload := encSimple 1 1 }
    have hkeeps := (Keeps.sendEach s fun _ => ack).trans (.text _ "PHASE_BARRIER_DONE")
    exact stands_beginAllreduce (h.keeps hkeeps)

/-- **The first group is formed** of two workers whose boots are in
order. -/
theorem stands_groupReady (hlive : ∀ w ∈ s.workers, s.Live w.ch) (hpaired : s.Paired)
    (hfirst : s.first = none) (hsecond : s.second = none) : (s.groupReady env).Stands := by
  obtain ⟨w₀, w₁, hw₀, hw₁, hformable⟩ := hpaired
  obtain ⟨g, rt, hform⟩ := (@formGroup_iff s.runtime (env.clocks 0) w₀ w₁ 1 (by decide) hfirst).2
    hformable
  have hstill : rt.findGroup groupId ⟨2⟩ = none :=
    (findGroup_formGroup hform (by decide)).trans hsecond
  simp only [groupReady, hw₀, hw₁, hform, (formGroup_ok hform).2]
  have hannounce := @Keeps.announce { s with runtime := rt } g 1 .groupAccept fun _ _ => rfl
  have hround : OnRound { s with runtime := rt } .first :=
    ⟨hlive, ⟨w₀, w₁, hw₀, hw₁, hformable⟩, fun _ => hstill⟩
  exact stands_awaitBarrier (hround.keeps (hannounce.trans (.text _ _))) 0

/-- **The second group is formed** of the same two workers. -/
theorem stands_regroup (hdisk : ∀ e ∈ env.disk, e.code = .io)
    (hlive : ∀ w ∈ s.workers, s.Live w.ch) (hpaired : s.Paired) (hsecond : s.second = none) :
    (s.regroup env).Stands := by
  obtain ⟨w₀, w₁, hw₀, hw₁, hformable⟩ := hpaired
  obtain ⟨g, rt, hform⟩ := (@formGroup_iff s.runtime (env.clocks 0) w₀ w₁ 2 (by decide) hsecond).2
    hformable
  simp only [regroup, hw₀, hw₁, hform, (formGroup_ok hform).2]
  have hkeeps := Keeps.regrouped { s with runtime := rt } g ⟨w₀.boot⟩
  have hround : OnRound { s with runtime := rt } .second :=
    ⟨hlive, ⟨w₀, w₁, hw₀, hw₁, hformable⟩, fun hne => absurd rfl hne⟩
  exact stands_save hdisk fun s₁ h₁ => stands_beginAllreduce (hround.keeps (hkeeps.trans h₁))

/-- One more worker, over an open handle. -/
theorem live_join (hlive : ∀ w ∈ s.workers, s.Live w.ch) {w : WorkerState} (hw : s.Live w.ch) :
    ∀ v ∈ (s.join w).workers, (s.join w).Live v.ch := by
  intro v hv
  rcases List.mem_append.1 hv with hv | hv
  · exact hlive v hv
  · exact List.mem_singleton.1 hv ▸ hw

theorem stands_onAccept (phase : ℕ → Phase) (h : ∀ ch, s.Fits (phase ch)) (failure : String) :
    (s.onAccept env failure phase).Stands := by
  unfold onAccept
  split_ifs
  · have hkeeps : Keeps s { s with connections := s.connections ++ [({} : FrameChannel)] } := by
      refine .connections s fun ch c hc hv => ⟨c, ?_, hv⟩
      obtain ⟨hlt, -⟩ := List.getElem?_eq_some_iff.1 hc
      rw [List.getElem?_append_left hlt, hc]
    exact stands_goto ((h _).keeps hkeeps)
  · exact stands_quit _

theorem stands_onHello {ch : ℕ} (h : s.Fits (.hello ch)) (f : Frame) :
    (s.onHello ch f).Stands := by
  unfold onHello
  split_ifs
  · exact stands_quit _
  · split
    · exact stands_quit _
    · exact stands_goto (p := .join ..) h

theorem stands_onJoin (hlive : ∀ w ∈ s.workers, s.Live w.ch) {w : WorkerState}
    (hw : s.Live w.ch) (h : s.Fits (.join w.ch w.boot w.name)) {f : Frame}
    (hpair : ∀ w₀, s.workers = [w₀] → f.kind = .of .joinGroup → Formable w₀.boot w.boot) :
    (s.onJoin env w.ch w.boot w.name f).Stands := by
  obtain ⟨hlength, hfirst, hsecond⟩ := h
  have hjoined : ((s.join w).say (.acceptedWorker w.name w.boot)).workers = s.workers ++ [w] := rfl
  unfold onJoin
  split_ifs with hkind
  · exact stands_quit _
  simp only
  split_ifs with hlt
  · exact stands_goto (p := .accept) ⟨hlt, hfirst, hsecond⟩
  · -- one worker was there before this one
    rw [hjoined, List.length_append, List.length_singleton] at hlt
    obtain ⟨w₀, hw₀⟩ := List.length_eq_one_iff.1 (by omega : s.workers.length = 1)
    refine stands_groupReady (live_join hlive hw) ⟨w₀, w, ?_, ?_, hpair w₀ hw₀ (not_not.1 hkind)⟩
      hfirst hsecond
    all_goals
      rw [hjoined, hw₀]
      rfl

theorem stands_onBarrier (h : s.OnRound .first) (i : ℕ) (f : Frame) :
    (s.onBarrier i f).Stands := by
  unfold onBarrier
  split_ifs
  · exact stands_quit _
  · split
    · exact stands_quit _
    · split_ifs
      · exact stands_quit _
      · exact stands_awaitBarrier h _

theorem stands_onHelloFresh {ch : ℕ} (h : s.OnRound .loss) (f : Frame) :
    (s.onHelloFresh ch f).Stands := by
  unfold onHelloFresh
  split_ifs
  · exact stands_quit _
  · exact stands_goto (p := .joinFresh ..) h

/-- The boot of the fresh worker is there exactly where its `HELLO` holds
the eight bytes of one. -/
theorem phase_onHelloFresh {f : Frame} (hkind : f.kind = .of .hello) (ch : ℕ) :
    ∃ boot name, (s.onHelloFresh ch f).phase = .joinFresh ch boot name ∧
      (boot ≠ none ↔ 8 ≤ f.payload.toList.length) := by
  rw [onHelloFresh, if_neg (not_not.2 hkind)]
  exact ⟨_, _, rfl, CanonicalReader.u64_ne_none⟩

theorem stands_onJoinFresh (hdisk : ∀ e ∈ env.disk, e.code = .io) {w : WorkerState}
    (hw : s.Live w.ch) (h : s.OnRound .loss) :
    (s.onJoinFresh env w.ch (some w.boot) w.name).Stands := by
  obtain ⟨w₀, w₁, hw₀, hw₁, hformable⟩ := h.paired
  refine stands_regroup hdisk (live_join h.live hw) ⟨w₀, w₁, ?_, ?_, hformable⟩
    (h.fresh (by decide))
  · exact List.getElem?_append_left (List.getElem?_eq_some_iff.1 hw₀).1 ▸ hw₀
  · exact List.getElem?_append_left (List.getElem?_eq_some_iff.1 hw₁).1 ▸ hw₁

/-! ## Turns -/

/-- A turn of `recv` on a channel that is there, when what follows it
stands. -/
theorem stands_recv (h : s.Stands) {ch : ℕ} (hlive : s.Live ch)
    {onFrame : Frame → Coordinator → Coordinator} {onLoss : String → Coordinator → Coordinator}
    (hframe : ∀ f s₁, s.head ch = some f → Keeps s s₁ → (onFrame f s₁).Stands)
    (hloss : ∀ reason s₁, Keeps s s₁ → (onLoss reason s₁).Stands) :
    (s.recv env ch onFrame onLoss).Stands := by
  rcases recv_cases hlive env onFrame onLoss with
    ⟨f, s₁, hhead, hkeeps, -, hrecv⟩ | ⟨-, s₁, hkeeps, hphase, ⟨reason, hrecv⟩ | hrecv⟩
  · rw [hrecv]
    exact hframe f s₁ hhead hkeeps
  · rw [hrecv]
    exact hloss reason s₁ hkeeps
  · rw [hrecv, Stands, hphase]
    exact h.keeps hkeeps

/-- A read that the turn ends goes on with a frame or with a loss. -/
theorem recv_of_ends {ch : ℕ} (h : s.Ends env ch)
    (onFrame : Frame → Coordinator → Coordinator) (onLoss : String → Coordinator → Coordinator) :
    ∃ s₁, Keeps s s₁ ∧ ((∃ f, s.recv env ch onFrame onLoss = onFrame f s₁) ∨
      ∃ reason, s.recv env ch onFrame onLoss = onLoss reason s₁) := by
  obtain ⟨c, hc, hends⟩ := h
  refine ⟨_, .setChannel s hc (valid_recv c env.received), ?_⟩
  simp only [Coordinator.recv, hc]
  rcases hrecv : c.recv env.received with ⟨f | reason | _, c'⟩
  · exact .inl ⟨f, rfl⟩
  · exact .inr ⟨reason, rfl⟩
  · exact absurd (congrArg Prod.fst hrecv) hends

/-- One that it does not end goes on. -/
theorem recv_of_not_ends {ch : ℕ} (hlive : s.Live ch) (h : ¬s.Ends env ch)
    (onFrame : Frame → Coordinator → Coordinator) (onLoss : String → Coordinator → Coordinator) :
    ∃ s₁, Keeps s s₁ ∧ s₁.phase = s.phase ∧ s.recv env ch onFrame onLoss = s₁ := by
  obtain ⟨c, hc, -⟩ := hlive
  have hpending : (c.recv env.received).1 = .pending := by
    by_contra hends
    exact h ⟨c, hc, hends⟩
  refine ⟨_, .setChannel s hc (valid_recv c env.received), rfl, ?_⟩
  simp only [Coordinator.recv, hc]
  rcases hrecv : c.recv env.received with ⟨f | reason | _, c'⟩
  · rw [hrecv] at hpending
    cases hpending
  · rw [hrecv] at hpending
    cases hpending
  · rfl

/-- **An orderly turn** leaves the coordinator where it can go on. -/
theorem stands_turn (hsound : s.Sound) (hdisk : ∀ e ∈ env.disk, e.code = .io) (h : s.Stands)
    (horderly : s.Orderly (.turn env)) : (s.turn env).Stands := by
  have hfits : s.Fits s.phase := h
  have hjoining := hsound.placed.joining
  unfold turn
  cases hphase : s.phase with
  | accept =>
    rw [hphase] at hfits
    exact stands_onAccept .hello (fun _ => hfits) _
  | hello ch =>
    rw [hphase] at hfits
    refine stands_recv h (hjoining ch (by rw [hphase]; rfl)) (fun f s₁ _ hkeeps => ?_)
      fun _ _ _ => stands_quit _
    exact stands_onHello (hfits.keeps hkeeps) f
  | join ch boot name =>
    rw [hphase] at hfits
    have hlive : s.Live ch := hjoining ch (by rw [hphase]; rfl)
    refine stands_recv h hlive (fun f s₁ hhead hkeeps => ?_) fun _ _ _ => stands_quit _
    refine stands_onJoin (w := ⟨ch, boot, name⟩) ?_ (hkeeps.live _ hlive) (hfits.keeps hkeeps)
      fun w₀ hw₀ hkind => horderly.1 w₀ ⟨ch, boot, name⟩ f ⟨hphase, ?_, hhead, hkind⟩
    · intro w hw
      exact hkeeps.live _ (hsound.base.live w (hkeeps.workers ▸ hw))
    · exact hkeeps.workers ▸ hw₀
  | barrier i =>
    rw [hphase] at hfits
    obtain ⟨hround, hi⟩ := hfits
    simp only [List.getElem?_eq_getElem hi]
    refine stands_recv h (hround.live _ (List.getElem_mem hi)) (fun f s₁ _ hkeeps => ?_)
      fun _ _ _ => stands_quit _
    exact stands_onBarrier (hround.keeps hkeeps) i f
  | contribution r =>
    rw [hphase] at hfits
    obtain ⟨hround, hlength⟩ := hfits
    have hi : r.contributions.length < s.workers.length := lt_of_lt_of_le hlength hround.two_le
    have hw := List.getElem?_eq_getElem hi
    simp only [hw]
    refine stands_recv h (hround.live _ (List.getElem_mem hi)) (fun f s₁ hhead hkeeps => ?_)
      fun _ s₁ hkeeps => ?_
    · refine stands_onContribution hdisk (hround.keeps hkeeps) hlength fun hkind hlast x hx => ?_
      exact horderly.2.1 r _ f x ⟨hphase, hlast, hw, hhead, hkind, by rw [hx]; rfl⟩ hx
    · have hsay := hround.keeps hkeeps
      exact stands_afterAllreduce hdisk ⟨hsay.live, hsay.paired, hsay.fresh⟩
  | complete r outputs i =>
    rw [hphase] at hfits
    obtain ⟨hround, houtputs, hi⟩ := hfits
    simp only [List.getElem?_eq_getElem hi]
    refine stands_recv h (hround.live _ (List.getElem_mem hi)) (fun f s₁ _ hkeeps => ?_)
      fun _ s₁ hkeeps => ?_
    · exact stands_awaitComplete hdisk (hround.keeps hkeeps) houtputs _
    · have hsay := hround.keeps hkeeps
      exact stands_afterAllreduce hdisk ⟨hsay.live, hsay.paired, hsay.fresh⟩
  | acceptFresh =>
    rw [hphase] at hfits
    exact stands_onAccept .helloFresh (fun _ => hfits) _
  | helloFresh ch =>
    rw [hphase] at hfits
    have hhello (f : Frame) (s₁ : Coordinator) (hkeeps : Keeps s s₁) :
        (s₁.onHelloFresh ch f).Stands :=
      stands_onHelloFresh (OnRound.keeps hfits hkeeps) f
    exact stands_recv h (hjoining ch (by rw [hphase]; rfl))
      (fun f s₁ _ hkeeps => hhello f s₁ hkeeps) fun _ s₁ hkeeps => hhello {} s₁ hkeeps
  | joinFresh ch boot name =>
    rw [hphase] at hfits
    have hlive : s.Live ch := hjoining ch (by rw [hphase]; rfl)
    simp only
    by_cases hends : s.Ends env ch
    · obtain ⟨boot, rfl⟩ := Option.ne_none_iff_exists'.1 (horderly.2.2 ch boot name hphase hends)
      have hjoin (s₁ : Coordinator) (hkeeps : Keeps s s₁) :
          (s₁.onJoinFresh env ch (some boot) name).Stands :=
        stands_onJoinFresh (w := ⟨ch, boot, name⟩) hdisk (hkeeps.live _ hlive)
          (OnRound.keeps hfits hkeeps)
      exact stands_recv h hlive (fun _ s₁ _ hkeeps => hjoin s₁ hkeeps)
        fun _ s₁ hkeeps => hjoin s₁ hkeeps
    · -- nothing more came, and the boot is not yet used
      obtain ⟨s₁, hkeeps, hsame, hrecv⟩ := recv_of_not_ends hlive hends
        (fun _ => onJoinFresh env ch boot name) fun _ => onJoinFresh env ch boot name
      rw [hrecv, Stands, hsame, hphase]
      exact OnRound.keeps hfits hkeeps
  | returned code => exact h
  | threw e => exact h
  | undefined => exact h

/-! ## What is not in order is thrown for -/

/-- A turn that takes a frame. -/
theorem recv_of_head {ch : ℕ} {f : Frame} (hlive : s.Live ch) (hhead : s.head ch = some f)
    (env : Surroundings) (onFrame : Frame → Coordinator → Coordinator)
    (onLoss : String → Coordinator → Coordinator) :
    ∃ s₁, Keeps s s₁ ∧ s.recv env ch onFrame onLoss = onFrame f s₁ := by
  rcases recv_cases hlive env onFrame onLoss with
    ⟨f', s₁, hhead', hkeeps, -, hrecv⟩ | ⟨hnone, -⟩
  · obtain rfl : f' = f := Option.some.inj (hhead'.symm.trans hhead)
    exact ⟨s₁, hkeeps, hrecv⟩
  · rw [hhead] at hnone
    cases hnone

/-- An exception that is no error of the file system is not contained. -/
theorem not_contained {e : Error} (hphase : s.phase = .threw e) (he : e.code ≠ .io) :
    ¬s.Contained :=
  fun h => he (h.throws e hphase)

theorem phase_groupReady {w₀ w₁ : WorkerState} {err : Error} {rt : Runtime}
    (hw₀ : s.workers[0]? = some w₀) (hw₁ : s.workers[1]? = some w₁)
    (hform : formGroup s.runtime (env.clocks 0) w₀ w₁ 1 topoGeneration = (.error err, rt)) :
    (s.groupReady env).phase = .threw err := by
  simp only [groupReady, hw₀, hw₁, hform]
  rfl

/-- **Boots that are no identities of their own** end the run in the
builder's exception. -/
theorem formable_of_contained (hsound : s.Sound) (h : s.Stands) {w₀ w₁ : WorkerState} {f : Frame}
    (hpair : s.Pairing w₀ w₁ f) (hcontained : (s.turn env).Contained) :
    Formable w₀.boot w₁.boot := by
  have hfits : s.Fits s.phase := h
  rw [hpair.phase] at hfits
  have hlive : s.Live w₁.ch := hsound.placed.joining _ (by rw [hpair.phase]; rfl)
  obtain ⟨s₁, hkeeps, hrecv⟩ := recv_of_head hlive hpair.head env
    (onJoin env w₁.ch w₁.boot w₁.name) fun reason s =>
      s.quit ("COORD JOIN read failed " ++ reason)
  have hturn : s.turn env = s₁.onJoin env w₁.ch w₁.boot w₁.name f := by
    rw [turn, hpair.phase]
    exact hrecv
  let s₂ := (s₁.join w₁).say (.acceptedWorker w₁.name w₁.boot)
  have hworkers : s₂.workers = [w₀, w₁] :=
    congrArg (· ++ [w₁]) (hkeeps.workers.trans hpair.worker)
  have hfirst : s₂.runtime.findGroup groupId ⟨1⟩ = none :=
    (hkeeps.findGroup _ _).trans hfits.2.1
  have hready : s.turn env = s₂.groupReady env := by
    have hfull : ¬ s₂.workers.length < 2 := by
      rw [hworkers]
      exact Nat.lt_irrefl 2
    rw [hturn, onJoin, if_neg (not_not.2 hpair.kind)]
    exact if_neg hfull
  by_contra hbad
  rw [← @formGroup_iff s₂.runtime (env.clocks 0) w₀ w₁ 1 (by decide) hfirst] at hbad
  rcases hform : formGroup s₂.runtime (env.clocks 0) w₀ w₁ 1 topoGeneration with ⟨err | g, rt⟩
  · rw [hready] at hcontained
    refine not_contained (phase_groupReady ?_ ?_ hform) (code_of_formGroup hform) hcontained
    all_goals
      rw [hworkers]
      rfl
  · exact hbad ⟨g, rt, hform⟩

theorem phase_execute {r : Round} {err : Error}
    (hthrows : ReferenceEngine.execute (.of .allReduce) (.of .sum) (.of .float32) 4 0 2
      (r.contributions.map (·.bytes.toList)) = .throws err) :
    (s.execute env r).phase = .threw err := by
  simp only [execute, hthrows]
  rfl

/-- **Contributions of another size** end the run in the engine's
exception. -/
theorem sizes_of_contained (h : s.Stands) {r : Round} {w : WorkerState} {f : Frame}
    {x : AuthClaim × Bytes} (hc : s.Completing r w f) (hx : Fields.blob.decode f.payload = some x)
    (hcontained : (s.turn env).Contained) :
    (∀ c ∈ r.contributions, c.bytes.toList.length = 16) ∧ x.2.toList.length = 16 := by
  have hfits : s.Fits s.phase := h
  rw [hc.phase] at hfits
  obtain ⟨hround, hlength⟩ := hfits
  have hlast := hc.last
  obtain ⟨c, hone⟩ := List.length_eq_one_iff.1 (by omega : r.contributions.length = 1)
  have hlive : s.Live w.ch := hround.live w (List.mem_of_getElem? hc.worker)
  obtain ⟨s₁, -, hrecv⟩ := recv_of_head hlive hc.head env (onContribution env r w)
    (onContributionLoss env r w)
  have hturn : s.turn env = s₁.onContribution env r w f := by
    rw [turn, hc.phase]
    simp only [hc.worker]
    exact hrecv
  rcases ReferenceEngine.execute_pair c.bytes.toList x.2.toList with
    ⟨hold, hnew, -⟩ | ⟨-, message, hthrows⟩
  · refine ⟨fun c' hc' => ?_, hnew⟩
    rw [hone, List.mem_singleton] at hc'
    rw [hc', hold]
  · have hcode : ErrorCode.validation ≠ .io := by decide
    refine absurd hcontained (not_contained (e := ⟨.validation, message⟩) ?_ hcode)
    rw [hturn, onContribution, if_neg (not_not.2 hc.kind)]
    simp only [decAuth_of_blob hx, hx, if_neg hlast]
    refine phase_execute ?_
    rw [hone]
    exact hthrows

/-- **A boot that was not read** is used where the fresh worker joins. -/
theorem boot_of_contained {ch : ℕ} {boot : Option UInt64} {name : Bytes}
    (hphase : s.phase = .joinFresh ch boot name) (hends : s.Ends env ch)
    (hcontained : (s.turn env).Contained) : boot ≠ none := by
  rintro rfl
  obtain ⟨s₁, -, hrecv⟩ := recv_of_ends hends (fun _ => onJoinFresh env ch none name)
    fun _ => onJoinFresh env ch none name
  refine hcontained.defined ?_
  rw [turn, hphase]
  rcases hrecv with ⟨_, hrecv⟩ | ⟨_, hrecv⟩
  all_goals
    simp only [hrecv]
    rfl

/-! ## Runs -/

/-- A step of an event that is in order. -/
theorem stands_step (hsound : s.Sound) {ev : Event} (hdisk : ∀ e ∈ ev.disk, e.code = .io)
    (h : s.Stands) (horderly : s.Orderly ev) : (s.step ev).Stands := by
  have hconnection {ch : ℕ} {f : FrameChannel → FrameChannel} (hf : ∀ c, (f c).valid = c.valid) :
      Stands { s with connections := s.connections.modify ch f } :=
    Fits.keeps (p := s.phase) h (.modify s ch hf)
  cases ev with
  | arrive ch bs =>
    refine hconnection fun c => ?_
    unfold FrameChannel.valid TcpConnection.arrive
    split_ifs <;> rfl
  | hangUp ch reset => exact hconnection fun _ => rfl
  | turn env => exact stands_turn hsound hdisk h horderly

/-- What is contained after a step of the coordinator was in order. -/
theorem orderly_of_contained (hsound : s.Sound) (h : s.Stands) {ev : Event}
    (hcontained : (s.step ev).Contained) : s.Orderly ev := by
  cases ev with
  | arrive ch bs => trivial
  | hangUp ch reset => trivial
  | turn env =>
    exact ⟨fun w₀ w₁ f hpair => formable_of_contained hsound h hpair hcontained,
      fun r w f x hc hx => sizes_of_contained h hc hx hcontained,
      fun ch boot name hphase hends => boot_of_contained hphase hends hcontained⟩

/-- An exception stays one. -/
theorem contained_of_step {ev : Event} (h : (s.step ev).Contained) : s.Contained := by
  have hends {p : Phase} (hphase : s.phase = p)
      (hstays : ∀ env, s.phase = p → (s.turn env).phase = p) : (s.step ev).phase = p := by
    cases ev with
    | arrive ch bs => exact hphase
    | hangUp ch reset => exact hphase
    | turn env => exact hstays env hphase
  refine ⟨fun hphase => h.defined ?_, fun e hphase => h.throws e ?_⟩
  all_goals
    refine hends hphase fun env hphase => ?_
    rw [turn, hphase]
    exact hphase

/-- **Malformed traffic ends a run exactly when boots or contributions are
not in order.** Where the file system throws its own errors, the
coordinator goes on or has returned at every state of a run if and only
if, along the run, the second worker joins with a boot that forms a group
with the first one's, every round is completed by contributions of four
floats, and the fresh worker joins with a boot that was read. -/
theorem contained_iff_orderly (statefile : String) (wallNs : UInt64) (evs : List Event)
    (hdisk : ∀ ev ∈ evs, ∀ e ∈ ev.disk, e.code = .io) :
    Run.Throughout step Contained (start statefile wallNs) evs ↔
      Run.Along step Orderly (start statefile wallNs) evs := by
  let I (s : Coordinator) : Prop := s.Sound ∧ (s.Contained → s.Stands)
  have hinvariant (s : Coordinator) (ev : Event) (h : I s)
      (hdisk : ∀ e ∈ ev.disk, e.code = .io) : I (s.step ev) := by
    refine ⟨sound_step h.1 ev, fun hcontained => ?_⟩
    have hstands := h.2 (contained_of_step hcontained)
    exact stands_step h.1 hdisk hstands (orderly_of_contained h.1 hstands hcontained)
  have hexact (s : Coordinator) (ev : Event) (h : I s) (hdisk : ∀ e ∈ ev.disk, e.code = .io)
      (hs : s.Contained) : (s.step ev).Contained ↔ s.Orderly ev :=
    ⟨orderly_of_contained h.1 (h.2 hs),
      fun horderly => contained_of_fits (stands_step h.1 hdisk (h.2 hs) horderly)⟩
  have hstart : (start statefile wallNs).Stands := ⟨Nat.zero_lt_two, rfl, rfl⟩
  exact Run.throughout_iff_along hinvariant hexact
    ⟨sound_start statefile wallNs, fun _ => hstart⟩ (contained_of_fits hstart)
    (Run.along_of_forall_mem fun ev hev _ => hdisk ev hev)

/-- The two contribute to the first round and complete it, and the next one
begins. -/
def completes : List Event :=
  contributes ++ takes 0 [Worker.complete] ++ takes 1 [Worker.complete]

/-- Two honest workers join, pass the barrier and end a round. -/
theorem contained_completes : Run.Throughout step Contained (start "state" 0)
    (accepts ++ [.turn calm] ++ completes) := by
  have hbefore : Run.Throughout step Contained (start "state" 0) accepts := by decide +kernel
  have hafter : Run.Throughout step Contained (paired (Run.run step (start "state" 0) accepts))
      completes := by decide +kernel
  rw [← run_accepts] at hafter
  exact Run.throughout_append.2 ⟨Run.throughout_concat.2 ⟨hbefore, hafter.first⟩, hafter⟩

/-- What the two sent is in order. -/
theorem contained_iff_orderly_completes :
    Run.Along step Orderly (start "state" 0) (accepts ++ [.turn calm] ++ completes) :=
  (contained_iff_orderly "state" 0 _ (by decide)).1 contained_completes

/-- Two workers say `HELLO` with one boot, up to the turn that takes the
second `JOIN_GROUP`. -/
def twins : List Event :=
  .turn calm :: takes 0 [Worker.hello 1 ∅, Worker.joinGroup 1] ++
  .turn calm :: takes 1 [Worker.hello 1 ∅] ++ [.arrive 1 (Protocol.encode (Worker.joinGroup 1)),
    .turn calm]

/-- A contribution of no bytes. -/
def emptyContribution : Frame where
  kind := .of .contribution
  payload := encBlob ⟨1, 2, 1, 1, 1, 1⟩ ∅

/-- The second worker's contribution to the first round is empty, up to the
turn that takes it. -/
def shortens : List Event :=
  takes 0 [Worker.barrier 1 1] ++ takes 1 [Worker.barrier 2 1] ++
    takes 0 [Worker.contribution 1 0 Site.first.request] ++
    [.arrive 1 (Protocol.encode emptyContribution), .turn calm]

theorem twins_eq :
    let s := Run.run step (start "state" 0) twins
    (s.phase = .join 1 1 ∅ ∧ s.workers = [⟨0, 1, ∅⟩] ∧ s.head 1 = some (Worker.joinGroup 1)) ∧
      s.first.isNone = true ∧ s.second.isNone = true := by
  decide +kernel

/-- The round the empty contribution completes. -/
def halfRound : Round where
  site := .first
  request := Site.first.request
  contributions := [⟨1, ⟨1, 1, 1, 1, 1, 1⟩,
    .ofList ((Worker.values 0).flatMap fun v => (BigEndian.digits 4 v.toNat).reverse)⟩]

theorem shortens_eq :
    let s := Run.run step (paired (Run.run step (start "state" 0) accepts)) shortens
    (s.phase = .contribution halfRound ∧ s.head 1 = some emptyContribution) ∧
      s.workers = [⟨0, 1, ∅⟩, ⟨1, 2, ∅⟩] ∧ s.second.isNone = true := by
  decide +kernel

/-- The first worker is gone past the barrier, and a fresh one says `HELLO`
with an empty payload, up to the turn that takes its `JOIN_GROUP`. -/
def empties : List Event :=
  takes 0 [Worker.barrier 1 1] ++ takes 1 [Worker.barrier 2 1] ++
    [.hangUp 0 true, .turn calm, .turn calm, .turn calm] ++ takes 2 [{ kind := .of .hello }] ++
    [.arrive 2 (Protocol.encode (Worker.joinGroup 3)), .turn calm]

theorem empties_eq :
    let s := Run.run step (paired (Run.run step (start "state" 0) accepts)) empties
    s.phase = .joinFresh 2 none ∅ ∧
      s.connections[2]? = some ⟨{}, Protocol.encode (Worker.joinGroup 3)⟩ := by
  decide +kernel

/-- **Two workers of one boot** end the run in the builder's exception, a
contribution of no bytes ends it in the engine's, and a fresh worker whose
`HELLO` is empty in undefined behaviour. -/
theorem not_contained_malformed :
    ¬Run.Throughout step Contained (start "state" 0) (twins ++ [.turn calm]) ∧
      ¬Run.Throughout step Contained (start "state" 0)
        (accepts ++ [.turn calm] ++ shortens ++ [.turn calm]) ∧
      ¬Run.Throughout step Contained (start "state" 0)
        (accepts ++ [.turn calm] ++ empties ++ [.turn calm]) := by
  have hrun (s : Coordinator) : Run.run step s [.turn calm] = s.turn calm := rfl
  refine ⟨?_, ?_, ?_⟩
  · intro h
    have hlast := h.last
    rw [Run.run_append, hrun] at hlast
    have hsound := (sound_run "state" 0 twins).last
    have htwins := twins_eq
    generalize Run.run step (start "state" 0) twins = s at hlast hsound htwins
    obtain ⟨⟨hphase, hworkers, hhead⟩, hfirst, hsecond⟩ := htwins
    have hpair : s.Pairing ⟨0, 1, ∅⟩ ⟨1, 1, ∅⟩ (Worker.joinGroup 1) :=
      ⟨hphase, hworkers, hhead, rfl⟩
    have hstands : s.Stands := by
      rw [Stands, hphase]
      refine ⟨?_, Option.isNone_iff_eq_none.1 hfirst, Option.isNone_iff_eq_none.1 hsecond⟩
      rw [hworkers]
      exact Nat.one_lt_two
    exact (formable_of_contained hsound hstands hpair hlast).apart rfl
  · intro h
    have hlast := h.last
    rw [Run.run_append, hrun, Run.run_append, run_accepts] at hlast
    have hsound := (sound_run "state" 0 (accepts ++ [.turn calm] ++ shortens)).last
    rw [Run.run_append, run_accepts] at hsound
    have hshortens := shortens_eq
    generalize Run.run step (paired (Run.run step (start "state" 0) accepts)) shortens = s
      at hlast hsound hshortens
    obtain ⟨⟨hphase, hhead⟩, hworkers, hsecond⟩ := hshortens
    have hcompleting : s.Completing halfRound ⟨1, 2, ∅⟩ emptyContribution :=
      ⟨hphase, by decide, by rw [hworkers]; rfl, hhead, rfl, by decide +kernel⟩
    have hstands : s.Stands := by
      rw [Stands, hphase]
      refine ⟨⟨hsound.base.live, ⟨⟨0, 1, ∅⟩, ⟨1, 2, ∅⟩, ?_, ?_, by decide⟩,
        fun _ => Option.isNone_iff_eq_none.1 hsecond⟩, by decide⟩
      all_goals
        rw [hworkers]
        rfl
    have hdecode : Fields.blob.decode emptyContribution.payload =
        some (⟨1, 2, 1, 1, 1, 1⟩, ∅) := by decide +kernel
    exact absurd (sizes_of_contained hstands hcompleting hdecode hlast).2 (by decide)
  · intro h
    have hlast := h.last
    rw [Run.run_append, hrun, Run.run_append, run_accepts] at hlast
    have hempties := empties_eq
    generalize Run.run step (paired (Run.run step (start "state" 0) accepts)) empties = s
      at hlast hempties
    obtain ⟨hphase, hchannel⟩ := hempties
    exact boot_of_contained hphase ⟨_, hchannel, by decide +kernel⟩ hlast rfl

end Coordinator

end CollectiveFabric
