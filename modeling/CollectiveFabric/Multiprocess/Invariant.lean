import CollectiveFabric.Multiprocess.Forming

/-!
# The coordinator before its second group

In every run each worker's handle is open. Until the second group is
registered there are at most two workers, as many as the phase has them,
and every loss that is logged is of one of them.
-/

namespace CollectiveFabric

open Common

/-- The channel of a worker that is being accepted. -/
def Phase.joining : Phase → Option ℕ
  | .hello ch => some ch
  | .join ch _ _ => some ch
  | .helloFresh ch => some ch
  | .joinFresh ch _ _ => some ch
  | _ => none

/-- The number of workers at a phase, before the second group. -/
def Phase.Early : Phase → ℕ → Prop
  | .accept, n => n < 2
  | .hello _, n => n < 2
  | .join _ _ _, n => n < 2
  | .barrier _, n => n = 2
  | .contribution r, n => r.site ≠ .second ∧ n = 2
  | .complete r _ _, n => r.site ≠ .second ∧ n = 2
  | .acceptFresh, n => n = 2
  | .helloFresh _, n => n = 2
  | .joinFresh _ _ _, n => n = 2
  | _, _ => True

/-- The round complete with a frame from `w`, when the frame is its last
contribution. -/
def Round.completed (r : Round) (w : WorkerState) (f : Frame) : Option Round :=
  if f.kind ≠ .of .contribution then none
  else
    match decAuth f.payload, Fields.blob.decode f.payload with
    | some auth, some (_, bytes) =>
      if r.contributions.length + 1 < 2 then none
      else some { r with contributions := r.contributions ++ [⟨w.boot, auth, bytes⟩] }
    | _, _ => none

namespace Coordinator

variable {s s' : Coordinator} {env : Surroundings} {E : List Round}
variable {G : Option CollectiveGroup}

/-- The round the next turn hands to the engine. -/
def handed (s : Coordinator) : Option Round :=
  match s.phase with
  | .contribution r =>
    (s.workers[r.contributions.length]?).bind fun w => (s.head w.ch).bind (r.completed w)
  | _ => none

/-- The second group, once it is registered. -/
def second (s : Coordinator) : Option CollectiveGroup := s.runtime.findGroup groupId ⟨2⟩

/-- What is invariant of the workers and the logged losses, where the
rounds handed to the engine are `E` and the second group is `G`. -/
structure Base (E : List Round) (G : Option CollectiveGroup) (s : Coordinator) : Prop where
  executed : s.executed = E
  second : s.second = G
  live : ∀ w ∈ s.workers, s.Live w.ch
  lost : G = none → ∀ boot ∈ s.lost, boot ∈ s.workers.map (·.boot)

/-- What is invariant of the phase. -/
structure Placed (G : Option CollectiveGroup) (s : Coordinator) (p : Phase) : Prop where
  joining : ∀ ch, p.joining = some ch → s.Live ch
  early : G = none → p.Early s.workers.length

/-- **The invariant.** -/
structure Inv (E : List Round) (G : Option CollectiveGroup) (s : Coordinator) : Prop where
  base : Base E G s
  placed : Placed G s s.phase

theorem Base.keeps (hb : Base E G s) (h : Keeps s s') : Base E G s' where
  executed := h.executed.trans hb.executed
  second := (h.findGroup _ _).trans hb.second
  live w hw := h.live _ (hb.live w (h.workers ▸ hw))
  lost hs boot hboot := by
    rw [h.lost] at hboot
    rw [h.workers]
    exact hb.lost hs boot hboot

theorem Placed.keeps {p : Phase} (hp : Placed G s p) (h : Keeps s s') : Placed G s' p where
  joining ch hch := h.live ch (hp.joining ch hch)
  early hs := by
    rw [h.workers]
    exact hp.early hs

/-- What is kept in the same phase. -/
theorem Inv.keeps (h : Inv E G s) (hk : Keeps s s') (hphase : s'.phase = s.phase) : Inv E G s' :=
  ⟨h.base.keeps hk, hphase ▸ h.placed.keeps hk⟩

/-- A runtime with the same second group. -/
theorem Base.runtime (hb : Base E G s) {rt : Runtime}
    (h : rt.findGroup groupId ⟨2⟩ = s.runtime.findGroup groupId ⟨2⟩) :
    Base E G { s with runtime := rt } :=
  ⟨hb.executed, h.trans hb.second, hb.live, hb.lost⟩

/-- A logged loss of one of the workers. -/
theorem Base.say (hb : Base E G s) {line : Line} {w : WorkerState} (hw : w ∈ s.workers)
    (hline : line.lost = some w.boot) : Base E G (s.say line) where
  executed := hb.executed
  second := hb.second
  live := hb.live
  lost hs boot hboot := by
    simp only [Coordinator.lost, Coordinator.say, List.filterMap_append, List.filterMap_cons, hline,
      List.filterMap_nil, List.mem_append, List.mem_singleton] at hboot
    rcases hboot with hboot | rfl
    · exact hb.lost hs boot hboot
    · exact List.mem_map_of_mem hw

/-- One more worker, over an open handle. -/
theorem Base.join (hb : Base E G s) {w : WorkerState} (hw : s.Live w.ch) : Base E G (s.join w) where
  executed := hb.executed
  second := hb.second
  live v hv := by
    rcases List.mem_append.1 hv with hv | hv
    · exact hb.live v hv
    · exact List.mem_singleton.1 hv ▸ hw
  lost hs boot hboot := by
    have hmem := hb.lost hs boot hboot
    change boot ∈ (s.workers ++ [w]).map (·.boot)
    rw [List.map_append]
    exact List.mem_append_left _ hmem

/-! ## Where a turn ends -/

theorem inv_goto (hb : Base E G s) {p : Phase} (hp : Placed G s p) : Inv E G (s.goto p) :=
  ⟨hb.keeps (.goto s p), hp.keeps (.goto s p)⟩

/-- A phase in which no worker is being accepted. -/
theorem inv_await (hb : Base E G s) {p : Phase} (hjoin : p.joining = none)
    (hp : G = none → p.Early s.workers.length) : Inv E G (s.goto p) := by
  refine inv_goto hb ⟨fun ch hch => ?_, hp⟩
  rw [hjoin] at hch
  cases hch

theorem inv_quit (hb : Base E G s) (line : String) : Inv E G (s.quit line) :=
  inv_await (hb.keeps (.text s line)) rfl fun _ => trivial

theorem inv_save (hb : Base E G s) {path : String} {k : Coordinator → Coordinator}
    (hk : ∀ s', Keeps s s' → Inv E G (k s')) : Inv E G (s.save env path k) := by
  unfold save
  split
  · exact inv_await hb rfl fun _ => trivial
  · exact hk _ (.saved s _)

/-! ## Rounds -/

/-- Before the second group a round is not on it, and two workers are
there. -/
def Rounds (G : Option CollectiveGroup) (s : Coordinator) (site : Site) : Prop :=
  G = none → site ≠ .second ∧ s.workers.length = 2

theorem Rounds.keeps {site : Site} (hr : Rounds G s site) (h : Keeps s s') : Rounds G s' site := by
  intro hs
  rw [h.workers]
  exact hr hs

theorem inv_beginAllreduce (hb : Base E G s) {site : Site} (hr : Rounds G s site) :
    Inv E G (s.beginAllreduce site) := by
  let req : Frame := { kind := .of .requestCollective, payload := encDesc site.request }
  have hkeeps : Keeps s (s.sendEach fun _ => req) := .sendEach s _
  exact inv_await (hb.keeps hkeeps) rfl (hr.keeps hkeeps)

theorem inv_afterAllreduce (hb : Base E G s) {site : Site} (hr : Rounds G s site) :
    Inv E G (s.afterAllreduce env site) := by
  cases site with
  | first =>
    have hsay := Keeps.text s "PHASE_ALLREDUCE_DONE gen=1"
    rw [afterAllreduce]
    refine inv_save (hb.keeps hsay) fun s₁ h₁ => ?_
    have hsaved := (Keeps.text s₁ ("PHASE_SAVED path=" ++ s₁.statefile)).trans
      (.text _ "PHASE_BEGIN_LIVE_COLLECTIVE")
    have hkeeps := (hsay.trans h₁).trans hsaved
    refine inv_beginAllreduce (hb.keeps hkeeps) fun hs => ⟨by decide, ?_⟩
    exact (hr.keeps hkeeps hs).2
  | loss =>
    -- no handle is closed, so the erasing keeps every worker
    have hepoch := (Keeps.text s "PHASE_LOSS_DETECTED").trans
      (@Keeps.runtime _ s.runtime.advanceEpoch rfl)
    have hkeeps := (hepoch.trans (.prune (hb.keeps hepoch).live)).trans
      (.text _ "PHASE_RECONFIGURE epoch=2")
    exact inv_await (hb.keeps hkeeps) rfl fun hs => (hr.keeps hkeeps hs).2
  | second =>
    have hsay := Keeps.text s "PHASE_ALLREDUCE_DONE gen=2"
    rw [afterAllreduce]
    refine inv_save (hb.keeps hsay) fun s₁ h₁ => ?_
    have hdone := (Keeps.text s₁ "PHASE_SAVED_FINAL").trans (.text _ "PHASE_DONE")
    have hkeeps := (hsay.trans h₁).trans hdone
    exact inv_await (hb.keeps hkeeps) rfl fun _ => trivial

theorem inv_finishAllreduce (hb : Base E G s) {r : Round} (hr : Rounds G s r.site)
    (output : List UInt8) : Inv E G (s.finishAllreduce env r output) := by
  let sum := UInt32.ofNat (ReferenceEngine.loadLe (output.take 4))
  have hkeeps : Keeps s { s.say (.allreduceDone r.site.label sum) with
      runtime := s.runtime.ingestMeasurement (measurement env r.site.gen) } :=
    (Keeps.say s rfl).trans (.runtime _ rfl)
  exact inv_afterAllreduce (hb.keeps hkeeps) (hr.keeps hkeeps)

theorem inv_awaitComplete (hb : Base E G s) {r : Round} (hr : Rounds G s r.site)
    (outputs : List (List UInt8)) (i : ℕ) : Inv E G (s.awaitComplete env r outputs i) := by
  unfold awaitComplete
  split_ifs with hi
  · exact inv_await hb rfl hr
  · split
    · exact inv_await hb rfl fun _ => trivial
    · exact inv_finishAllreduce hb hr _

theorem inv_execute (hb : Base E G s) {r : Round} (hr : Rounds G s r.site) :
    Inv (E ++ [r]) G (s.execute env r) := by
  have hb' : Base (E ++ [r]) G { s with executed := s.executed ++ [r] } :=
    ⟨by rw [hb.executed], hb.second, hb.live, hb.lost⟩
  have hr' : Rounds G { s with executed := s.executed ++ [r] } r.site := hr
  unfold execute
  split
  · exact inv_await hb' rfl fun _ => trivial
  · exact inv_await hb' rfl fun _ => trivial
  · split
    · exact inv_await hb' rfl fun _ => trivial
    · exact inv_awaitComplete (hb'.keeps (.sendEach _ _)) (hr'.keeps (.sendEach _ _)) _ _

theorem inv_onContribution (hb : Base E G s) {r : Round} (hr : Rounds G s r.site) (w : WorkerState)
    (f : Frame) : Inv (E ++ (r.completed w f).toList) G (s.onContribution env r w f) := by
  have habandon (line : String) :
      Inv E G ((s.say (.text (r.site.label ++ line))).afterAllreduce env r.site) :=
    inv_afterAllreduce (hb.keeps (.text s _)) (hr.keeps (.text s _))
  unfold onContribution Round.completed
  by_cases hkind : f.kind ≠ .of .contribution
  · rw [if_pos hkind, if_pos hkind, Option.toList_none, List.append_nil]
    exact habandon _
  · rw [if_neg hkind, if_neg hkind]
    cases hauth : decAuth f.payload with
    | none => simpa using habandon _
    | some auth =>
      cases hblob : Fields.blob.decode f.payload with
      | none => simpa using habandon _
      | some blob =>
        obtain ⟨_, bytes⟩ := blob
        have hsay : Keeps s (s.say (.contribution r.site.label r.contributions.length
          bytes.toList.length)) := .say s rfl
        by_cases hlast : r.contributions.length + 1 < 2
        · simp only [if_pos hlast, Option.toList_none, List.append_nil]
          exact inv_await (hb.keeps hsay) rfl (hr.keeps hsay)
        · simp only [if_neg hlast]
          exact inv_execute (hb.keeps hsay) (hr.keeps hsay)

theorem inv_onContributionLoss (hb : Base E G s) {r : Round} (hr : Rounds G s r.site)
    {w : WorkerState} (hw : w ∈ s.workers) (reason : String) :
    Inv E G (s.onContributionLoss env r w reason) :=
  inv_afterAllreduce (hb.say hw rfl) hr

theorem inv_onCompleteLoss (hb : Base E G s) {r : Round} (hr : Rounds G s r.site) {w : WorkerState}
    (hw : w ∈ s.workers) (reason : String) : Inv E G (s.onCompleteLoss env r w reason) :=
  inv_afterAllreduce (hb.say hw rfl) hr

/-! ## Groups -/

theorem inv_awaitBarrier (hb : Base E G s) (hn : G = none → s.workers.length = 2) (i : ℕ) :
    Inv E G (s.awaitBarrier i) := by
  unfold awaitBarrier
  split_ifs
  · exact inv_await hb rfl hn
  · let ack : Frame := { kind := .of .complete, payload := encSimple 1 1 }
    have hkeeps := (Keeps.sendEach s fun _ => ack).trans (.text _ "PHASE_BARRIER_DONE")
    refine inv_beginAllreduce (hb.keeps hkeeps) fun hs => ⟨by decide, ?_⟩
    rw [hkeeps.workers]
    exact hn hs

theorem inv_groupReady (hb : Base E G s) (hn : G = none → s.workers.length = 2) :
    Inv E G (s.groupReady env) := by
  unfold groupReady
  split
  · split
    · next hform =>
      exact inv_await (hb.runtime (findGroup_formGroup hform (by decide))) rfl fun _ => trivial
    · next rt hform =>
      have hb' : Base E G { s with runtime := rt } :=
        hb.runtime (findGroup_formGroup hform (by decide))
      split
      · exact inv_await hb rfl fun _ => trivial
      · next g _ =>
        have hannounce := @Keeps.announce { s with runtime := rt } g 1 .groupAccept fun _ _ => rfl
        have hkeeps := hannounce.trans (.text _ "PHASE_GROUP_READY gen=1 ranks=2")
        refine inv_awaitBarrier (hb'.keeps hkeeps) (fun hs => ?_) 0
        rw [hkeeps.workers]
        exact hn hs
  · exact inv_await hb rfl fun _ => trivial

/-- **What the second group can become**: it stays, or it is formed of the
workers in places 0 and 1. -/
def Forms (workers : List WorkerState) (G G' : Option CollectiveGroup) : Prop :=
  G' = G ∨ ∃ w₀ w₁ g, workers[0]? = some w₀ ∧ workers[1]? = some w₁ ∧ G' = some g ∧
    g.boots.Perm [⟨w₀.boot⟩, ⟨w₁.boot⟩]

/-- The second group is formed: what follows keeps it. -/
theorem inv_regroup_ok (hb : Base E G s) {w₀ w₁ : WorkerState} {g : CollectiveGroup} {rt : Runtime}
    (hw₀ : s.workers[0]? = some w₀) (hw₁ : s.workers[1]? = some w₁)
    (hform : formGroup s.runtime (env.clocks 0) w₀ w₁ 2 topoGeneration = (.ok g, rt)) :
    Inv E (some g) (s.regroup env) := by
  have hfind := (formGroup_ok hform).2
  -- from here on the losses may be of any worker
  have hb' : Base E (some g) { s with runtime := rt } :=
    ⟨hb.executed, hfind, hb.live, fun hnone => (nomatch hnone)⟩
  have hkeeps := Keeps.regrouped { s with runtime := rt } g ⟨w₀.boot⟩
  simp only [regroup, hw₀, hw₁, hform, hfind]
  exact inv_save (hb'.keeps hkeeps) fun s₁ h₁ =>
    inv_beginAllreduce (hb'.keeps (hkeeps.trans h₁)) fun hnone => (nomatch hnone)

theorem inv_regroup (hb : Base E G s) :
    ∃ G', Inv E G' (s.regroup env) ∧ Forms s.workers G G' := by
  cases hw₀ : s.workers[0]? with
  | none =>
    simp only [regroup, hw₀]
    exact ⟨G, inv_await hb rfl fun _ => trivial, .inl rfl⟩
  | some w₀ =>
    cases hw₁ : s.workers[1]? with
    | none =>
      simp only [regroup, hw₀, hw₁]
      exact ⟨G, inv_await hb rfl fun _ => trivial, .inl rfl⟩
    | some w₁ =>
      rcases hform : formGroup s.runtime (env.clocks 0) w₀ w₁ 2 topoGeneration with ⟨_ | g, rt⟩
      · obtain rfl := formGroup_error hform
        simp only [regroup, hw₀, hw₁, hform]
        exact ⟨G, inv_await (hb.runtime rfl) rfl fun _ => trivial, .inl rfl⟩
      · exact ⟨some g, inv_regroup_ok hb hw₀ hw₁ hform,
          .inr ⟨w₀, w₁, g, hw₀, hw₁, rfl, (formGroup_ok hform).1⟩⟩

/-! ## Accepting workers -/

theorem inv_onAccept (hb : Base E G s) (phase : ℕ → Phase)
    (hjoin : ∀ ch, (phase ch).joining = some ch)
    (hn : G = none → ∀ ch, (phase ch).Early s.workers.length) (failure : String) :
    Inv E G (s.onAccept env failure phase) := by
  unfold onAccept
  split_ifs
  · have hkeeps : Keeps s { s with connections := s.connections ++ [({} : FrameChannel)] } := by
      refine .connections s fun ch c hc hv => ⟨c, ?_, hv⟩
      obtain ⟨hlt, -⟩ := List.getElem?_eq_some_iff.1 hc
      rw [List.getElem?_append_left hlt, hc]
    refine inv_goto (hb.keeps hkeeps) ⟨fun ch hch => ?_, fun hs => hn hs _⟩
    obtain rfl : s.connections.length = ch := Option.some.inj ((hjoin _).symm.trans hch)
    exact ⟨{}, List.getElem?_concat_length, rfl⟩
  · exact inv_quit hb _

theorem inv_onHello (hb : Base E G s) {ch : ℕ} (hch : s.Live ch)
    (hn : G = none → s.workers.length < 2) (f : Frame) : Inv E G (s.onHello ch f) := by
  unfold onHello
  split_ifs
  · exact inv_quit hb _
  · split
    · exact inv_quit hb _
    · refine inv_goto hb ⟨fun k hk => ?_, hn⟩
      exact Option.some.inj hk ▸ hch

theorem inv_onJoin (hb : Base E G s) {ch : ℕ} (hch : s.Live ch)
    (hn : G = none → s.workers.length < 2) (boot : UInt64) (name : Bytes) (f : Frame) :
    Inv E G (s.onJoin env ch boot name f) := by
  have hb' : Base E G ((s.join ⟨ch, boot, name⟩).say (.acceptedWorker name boot)) :=
    (Base.join hb hch).keeps (.say _ rfl)
  have hlen : ((s.join ⟨ch, boot, name⟩).say (.acceptedWorker name boot)).workers.length =
      s.workers.length + 1 := List.length_append
  unfold onJoin
  split_ifs with hkind
  · exact inv_quit hb _
  · simp only
    split_ifs with hlt
    · exact inv_goto hb' ⟨fun _ hk => (nomatch hk), fun _ => hlt⟩
    · -- there was at most one worker before this one, and now there are two
      refine inv_groupReady hb' fun hs => ?_
      have hold := hn hs
      omega

theorem inv_onBarrier (hb : Base E G s) (hn : G = none → s.workers.length = 2) (i : ℕ) (f : Frame) :
    Inv E G (s.onBarrier i f) := by
  unfold onBarrier
  split_ifs
  · exact inv_quit hb _
  · split
    · exact inv_quit hb _
    · split_ifs
      · exact inv_quit hb _
      · exact inv_awaitBarrier hb hn _

theorem inv_onHelloFresh (hb : Base E G s) {ch : ℕ} (hch : s.Live ch)
    (hn : G = none → s.workers.length = 2) (f : Frame) : Inv E G (s.onHelloFresh ch f) := by
  unfold onHelloFresh
  split_ifs
  · exact inv_quit hb _
  · refine inv_goto hb ⟨fun k hk => ?_, hn⟩
    exact Option.some.inj hk ▸ hch

theorem inv_onJoinFresh (hb : Base E G s) {ch : ℕ} (hch : s.Live ch) (boot : UInt64)
    (name : Bytes) :
    ∃ G', Inv E G' (s.onJoinFresh env ch (some boot) name) ∧
      Forms (s.workers ++ [⟨ch, boot, name⟩]) G G' := by
  have hb' : Base E G ((s.join ⟨ch, boot, name⟩).say (.newWorker boot)) :=
    (Base.join hb hch).keeps (.say _ rfl)
  exact inv_regroup hb'

/-! ## Turns -/

/-- A turn of `recv`, when what follows it keeps the invariant. -/
theorem inv_recv {F : List Round} (h : Inv E G s) {ch : ℕ}
    {onFrame : Frame → Coordinator → Coordinator} {onLoss : String → Coordinator → Coordinator}
    (hnone : s.head ch = none → E = F)
    (hframe : ∀ s₁ f, s.head ch = some f → Keeps s s₁ → Inv F G (onFrame f s₁))
    (hloss : ∀ s₁ reason, E = F → Keeps s s₁ → Inv F G (onLoss reason s₁)) :
    Inv F G (s.recv env ch onFrame onLoss) := by
  have hread := read_recv s env ch onFrame onLoss
  generalize s.recv env ch onFrame onLoss = s₂ at hread
  cases hread with
  | missing hhead =>
    obtain rfl := hnone hhead
    exact inv_await h.base rfl fun _ => trivial
  | frame hhead _ hkeeps => exact hframe _ _ hhead hkeeps
  | loss hhead _ hkeeps => exact hloss _ _ (hnone hhead) hkeeps
  | pending hhead hphase hkeeps =>
    obtain rfl := hnone hhead
    exact h.keeps hkeeps hphase

/-- A turn at a phase in which neither a contribution nor the fresh worker's
last frame is awaited. -/
theorem inv_turn_of_ne (h : Inv E G s) (env : Surroundings)
    (hne : ∀ r, s.phase ≠ .contribution r)
    (hfresh : ∀ ch boot name, s.phase ≠ .joinFresh ch boot name) : Inv E G (s.turn env) := by
  obtain ⟨hb, hp⟩ := h
  -- nothing is handed over here, so a read keeps the rounds as they are
  have hread {ch : ℕ} {onFrame : Frame → Coordinator → Coordinator}
      {onLoss : String → Coordinator → Coordinator}
      (hframe : ∀ s₁ f, Keeps s s₁ → Inv E G (onFrame f s₁))
      (hloss : ∀ s₁ reason, Keeps s s₁ → Inv E G (onLoss reason s₁)) :
      Inv E G (s.recv env ch onFrame onLoss) :=
    inv_recv ⟨hb, hp⟩ (fun _ => rfl) (fun s₁ f _ h₁ => hframe s₁ f h₁)
      fun s₁ reason _ h₁ => hloss s₁ reason h₁
  have hquit (line : String) (s₁ : Coordinator) (reason : String) (h₁ : Keeps s s₁) :
      Inv E G (s₁.quit (line ++ reason)) := inv_quit (hb.keeps h₁) _
  unfold turn
  cases hphase : s.phase with
  | accept =>
    rw [hphase] at hp
    exact inv_onAccept hb .hello (fun _ => rfl) (fun hs _ => hp.early hs) _
  | hello ch =>
    refine hread (fun s₁ f h₁ => ?_) (hquit _)
    rw [hphase] at hp
    exact inv_onHello (hb.keeps h₁) (h₁.live ch (hp.joining ch rfl)) (hp.keeps h₁).early f
  | join ch boot name =>
    refine hread (fun s₁ f h₁ => ?_) (hquit _)
    rw [hphase] at hp
    exact inv_onJoin (hb.keeps h₁) (h₁.live ch (hp.joining ch rfl)) (hp.keeps h₁).early _ _ f
  | barrier i =>
    simp only
    split
    · exact inv_await hb rfl fun _ => trivial
    · refine hread (fun s₁ f h₁ => ?_) (hquit _)
      rw [hphase] at hp
      exact inv_onBarrier (hb.keeps h₁) (hp.keeps h₁).early _ f
  | contribution r => exact absurd hphase (hne r)
  | complete r outputs i =>
    simp only
    split
    · exact inv_await hb rfl fun _ => trivial
    · next w hw =>
      have hr : Rounds G s r.site := by
        rw [hphase] at hp
        exact hp.early
      refine hread (fun s₁ f h₁ => ?_) fun s₁ reason h₁ => ?_
      · exact inv_awaitComplete (hb.keeps h₁) (hr.keeps h₁) _ _
      · have hmem : w ∈ s₁.workers := h₁.workers ▸ List.mem_of_getElem? hw
        exact inv_onCompleteLoss (hb.keeps h₁) (hr.keeps h₁) hmem reason
  | acceptFresh =>
    rw [hphase] at hp
    exact inv_onAccept hb .helloFresh (fun _ => rfl) (fun hs _ => hp.early hs) _
  | helloFresh ch =>
    -- a failed read goes on with the default frame
    have hhello (s₁ : Coordinator) (f : Frame) (h₁ : Keeps s s₁) :
        Inv E G (s₁.onHelloFresh ch f) := by
      rw [hphase] at hp
      exact inv_onHelloFresh (hb.keeps h₁) (h₁.live ch (hp.joining ch rfl)) (hp.keeps h₁).early f
    exact hread hhello fun s₁ _ h₁ => hhello s₁ {} h₁
  | joinFresh ch boot name => exact absurd hphase (hfresh ch boot name)
  | returned code => exact ⟨hb, hp⟩
  | threw e => exact ⟨hb, hp⟩
  | undefined => exact ⟨hb, hp⟩

/-- A turn that awaits a contribution. -/
theorem inv_turn_contribution (h : Inv E G s) (env : Surroundings) {r : Round}
    (hphase : s.phase = .contribution r) : Inv (E ++ s.handed.toList) G (s.turn env) := by
  obtain ⟨hb, hp⟩ := h
  have hr : Rounds G s r.site := by
    rw [hphase] at hp
    exact hp.early
  simp only [turn, handed, hphase]
  cases hw : s.workers[r.contributions.length]? with
  | none => simpa using inv_await hb (p := .undefined) rfl fun _ => trivial
  | some w =>
    refine inv_recv ⟨hb, hp⟩ (fun hhead => by simp [hhead]) (fun s₁ f hhead h₁ => ?_)
      fun s₁ reason hnone h₁ => ?_
    · simp only [Option.bind_some, hhead]
      exact inv_onContribution (hb.keeps h₁) (hr.keeps h₁) w f
    · have hmem : w ∈ s₁.workers := h₁.workers ▸ List.mem_of_getElem? hw
      rw [← hnone]
      exact inv_onContributionLoss (hb.keeps h₁) (hr.keeps h₁) hmem reason

/-- A turn that awaits the fresh worker's last frame. -/
theorem inv_turn_joinFresh (h : Inv E G s) (env : Surroundings) {ch : ℕ} {boot : Option UInt64}
    {name : Bytes} (hphase : s.phase = .joinFresh ch boot name) :
    ∃ G', Inv E G' (s.turn env) ∧
      (G' = G ∨ ∃ v, boot = some v ∧ Forms (s.workers ++ [⟨ch, v, name⟩]) G G') := by
  obtain ⟨hb, hp⟩ := h
  have hlive : s.Live ch := hp.joining ch (by rw [hphase]; rfl)
  have hjoin (s₁ : Coordinator) (h₁ : Keeps s s₁) :
      ∃ G', Inv E G' (s₁.onJoinFresh env ch boot name) ∧
        (G' = G ∨ ∃ v, boot = some v ∧ Forms (s.workers ++ [⟨ch, v, name⟩]) G G') := by
    cases boot with
    | none => exact ⟨G, inv_await (hb.keeps h₁) rfl fun _ => trivial, .inl rfl⟩
    | some v =>
      obtain ⟨G', hinv, hforms⟩ :=
        @inv_onJoinFresh s₁ env E G (hb.keeps h₁) ch (h₁.live ch hlive) v name
      rw [h₁.workers] at hforms
      exact ⟨G', hinv, .inr ⟨v, rfl, hforms⟩⟩
  have hread := read_recv s env ch (fun _ => onJoinFresh env ch boot name)
    fun _ => onJoinFresh env ch boot name
  simp only [turn, hphase]
  generalize s.recv env ch _ _ = s₂ at hread
  cases hread with
  | missing => exact ⟨G, inv_await hb rfl fun _ => trivial, .inl rfl⟩
  | frame _ _ hkeeps => exact hjoin _ hkeeps
  | loss _ _ hkeeps => exact hjoin _ hkeeps
  | pending _ hsame hkeeps => exact ⟨G, Inv.keeps ⟨hb, hp⟩ hkeeps hsame, .inl rfl⟩

/-- Only the turn that takes the fresh worker in can form the second
group. -/
def Grows (s : Coordinator) (G G' : Option CollectiveGroup) : Prop :=
  G' = G ∨ ∃ ch boot name, s.phase = .joinFresh ch (some boot) name ∧
    Forms (s.workers ++ [⟨ch, boot, name⟩]) G G'

/-- **One turn**: the invariant is kept, the engine is handed the round the
turn completes and no other, and the second group is formed at most once
the fresh worker is there. -/
theorem inv_turn (h : Inv E G s) (env : Surroundings) :
    ∃ G', Inv (E ++ s.handed.toList) G' (s.turn env) ∧ Grows s G G' := by
  by_cases hne : ∀ r, s.phase ≠ .contribution r
  · have hnone : s.handed = none := by
      unfold handed
      split
      · next r hphase => exact absurd hphase (hne r)
      · rfl
    rw [hnone, Option.toList_none, List.append_nil]
    by_cases hfresh : ∀ ch boot name, s.phase ≠ .joinFresh ch boot name
    · exact ⟨G, inv_turn_of_ne h env hne hfresh, .inl rfl⟩
    · simp only [not_forall, not_not] at hfresh
      obtain ⟨ch, boot, name, hphase⟩ := hfresh
      obtain ⟨G', hinv, hsame | ⟨v, rfl, hforms⟩⟩ := inv_turn_joinFresh h env hphase
      · exact ⟨G', hinv, .inl hsame⟩
      · exact ⟨G', hinv, .inr ⟨ch, v, name, hphase, hforms⟩⟩
  · obtain ⟨r, hphase⟩ := not_forall_not.1 hne
    exact ⟨G, inv_turn_contribution h env hphase, .inl rfl⟩

/-- The round a step hands to the engine. -/
def handedBy (s : Coordinator) : Event → Option Round
  | .turn _ => s.handed
  | _ => none

/-- **Every step keeps the invariant.** -/
theorem inv_step (h : Inv E G s) (ev : Event) :
    ∃ G', Inv (E ++ (s.handedBy ev).toList) G' (s.step ev) ∧ Grows s G G' := by
  cases ev with
  | arrive ch bs =>
    have hvalid (c : FrameChannel) :
        ({ c with conn := c.conn.arrive bs } : FrameChannel).valid = c.valid := by
      unfold FrameChannel.valid TcpConnection.arrive
      split_ifs <;> rfl
    have hkeeps := Keeps.modify s ch hvalid
    have hnone : (s.handedBy (.arrive ch bs)).toList = [] := rfl
    rw [hnone, List.append_nil]
    exact ⟨G, h.keeps hkeeps rfl, .inl rfl⟩
  | hangUp ch reset =>
    have hkeeps := @Keeps.modify s ch (fun c => { c with conn := c.conn.hangUp reset }) fun _ => rfl
    have hnone : (s.handedBy (.hangUp ch reset)).toList = [] := rfl
    rw [hnone, List.append_nil]
    exact ⟨G, h.keeps hkeeps rfl, .inl rfl⟩
  | turn env => exact inv_turn h env

/-- The invariant, whatever was handed over and registered. -/
def Sound (s : Coordinator) : Prop := Inv s.executed s.second s

theorem Inv.sound (h : Inv E G s) : s.Sound := by
  rw [Sound, h.base.executed, h.base.second]
  exact h

theorem sound_step (h : s.Sound) (ev : Event) : (s.step ev).Sound := by
  obtain ⟨G', hinv, -⟩ := inv_step h ev
  exact hinv.sound

theorem sound_start (statefile : String) (wallNs : UInt64) : (start statefile wallNs).Sound where
  base := ⟨rfl, rfl, fun _ hw => (List.not_mem_nil hw).elim,
    fun _ _ hb => (List.not_mem_nil hb).elim⟩
  placed := ⟨fun _ hch => (nomatch hch), fun _ => Nat.zero_lt_two⟩

/-- **The invariant holds throughout every run.** -/
theorem sound_run (statefile : String) (wallNs : UInt64) (evs : List Event) :
    Run.Throughout step Sound (start statefile wallNs) evs := by
  have hstep (s : Coordinator) (ev : Event) (h : s.Sound) (_ : True) : (s.step ev).Sound :=
    sound_step h ev
  exact Run.throughout_of_step hstep (sound_start statefile wallNs)
    (Run.along_of_forall (fun _ _ => trivial) evs)

end Coordinator

end CollectiveFabric
