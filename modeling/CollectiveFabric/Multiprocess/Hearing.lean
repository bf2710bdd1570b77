import CollectiveFabric.Multiprocess.Wiring

/-!
# What a worker does with the frames it hears

Between two reads a worker looks at nothing but the frame it read and its
own phase, so what it sends and prints is a function of the frames it has
heard. A read that fails, a kill and a long sleep only end it early.
-/

namespace CollectiveFabric

open Common

namespace Worker

variable {w v : Worker} {f : Frame} {fs gs : List Frame}

/-- The worker that hears these frames, where it awaits them. -/
def hear (w : Worker) (fs : List Frame) : Worker := fs.foldl (fun w f => w.onFrame f) w

@[simp] theorem hear_nil (w : Worker) : w.hear [] = w := rfl

@[simp] theorem hear_cons (w : Worker) (f : Frame) (fs : List Frame) :
    w.hear (f :: fs) = (w.onFrame f).hear fs := rfl

theorem hear_append (w : Worker) (fs gs : List Frame) :
    w.hear (fs ++ gs) = (w.hear fs).hear gs := List.foldl_append

/-! ## What is sent -/

/-- The worker has sent `fs`, and read nothing. -/
structure Sends (w w' : Worker) (fs : List Frame) : Prop where
  args : w'.args = w.args
  sent : w'.sent = w.sent ++ fs
  outgoing : w'.channel.conn.outgoing = w.channel.conn.outgoing ++ fs.flatMap Protocol.encode
  decoder : w'.channel.decoder = w.channel.decoder
  incoming : w'.channel.conn.incoming = w.channel.conn.incoming
  ended : w'.channel.conn.ended = w.channel.conn.ended

namespace Sends

variable {w' w'' : Worker}

theorem refl (w : Worker) : Sends w w [] := ⟨rfl, by simp, by simp, rfl, rfl, rfl⟩

theorem trans (h : Sends w w' fs) (h' : Sends w' w'' gs) : Sends w w'' (fs ++ gs) where
  args := h'.args.trans h.args
  sent := by rw [h'.sent, h.sent, List.append_assoc]
  outgoing := by rw [h'.outgoing, h.outgoing, List.flatMap_append, List.append_assoc]
  decoder := h'.decoder.trans h.decoder
  incoming := h'.incoming.trans h.incoming
  ended := h'.ended.trans h.ended

theorem held (h : Sends w w' fs) : w'.channel.held = w.channel.held :=
  congrArg₂ (· ++ ·) h.decoder h.incoming

theorem say (h : Sends w w' fs) (line : Line) : Sends w (w'.say line) fs :=
  ⟨h.args, h.sent, h.outgoing, h.decoder, h.incoming, h.ended⟩

theorem goto (h : Sends w w' fs) (phase : Phase) : Sends w (w'.goto phase) fs :=
  ⟨h.args, h.sent, h.outgoing, h.decoder, h.incoming, h.ended⟩

theorem quit (h : Sends w w' fs) (line : Line) : Sends w (w'.quit line) fs := (h.say line).goto _

theorem send (h : Sends w w' fs) (f : Frame) : Sends w (w'.send f) (fs ++ [f]) := by
  refine h.trans ⟨rfl, rfl, ?_, rfl, rfl, rfl⟩
  show _ = w'.channel.conn.outgoing ++ List.flatMap Protocol.encode [f]
  rw [List.flatMap_singleton]
  rfl

end Sends

theorem exists_sends_onRequest (w : Worker) (rank : UInt64) (index : ℕ) (f : Frame) :
    ∃ fs, Sends w (w.onRequest rank index f) fs := by
  have h := Sends.refl w
  unfold onRequest
  split
  · exact ⟨_, h.quit _⟩
  · split_ifs
    · exact ⟨_, (h.say _).goto _⟩
    · exact ⟨_, h.goto _⟩
    · exact ⟨_, ((h.send _).say _).goto _⟩

theorem exists_sends_onResult (w : Worker) (rank : UInt64) (index : ℕ) (f : Frame) :
    ∃ fs, Sends w (w.onResult rank index f) fs := by
  have h := Sends.refl w
  unfold onResult
  split
  · exact ⟨_, h.quit _⟩
  · split
    · exact ⟨_, h.quit _⟩
    · simp only
      split_ifs
      · exact ⟨_, h.goto _⟩
      · exact ⟨_, ((h.say _).send _).goto _⟩

/-- **A frame makes the worker send**, and leaves what it holds. -/
theorem exists_sends_onFrame (w : Worker) (f : Frame) : ∃ fs, Sends w (w.onFrame f) fs := by
  have h := Sends.refl w
  unfold onFrame
  split
  · unfold onAccept
    split
    · exact ⟨_, h.quit _⟩
    · exact ⟨_, ((h.say _).send _).goto _⟩
  · unfold onBarrier
    split_ifs
    · exact ⟨_, (h.say _).goto _⟩
    · exact ⟨_, h.goto _⟩
  · unfold onServe
    split_ifs
    · exact exists_sends_onRequest w _ _ f
    · exact ⟨_, h.say _⟩
    · exact ⟨_, h.quit _⟩
    · exact ⟨_, h⟩
  · exact exists_sends_onResult w _ _ f
  all_goals exact ⟨_, h⟩

/-- A read that failed makes it send nothing. -/
theorem sends_onLoss (w : Worker) (reason : String) : Sends w (w.onLoss reason) [] := by
  have h := Sends.refl w
  unfold onLoss
  split
  · exact h.quit _
  · exact h.goto _
  · unfold onServeLoss
    split_ifs
    · exact (h.say _).goto _
    · exact h.quit _
  · exact h.quit _
  all_goals exact h

theorem exists_sends_hear (w : Worker) (fs : List Frame) : ∃ gs, Sends w (w.hear fs) gs := by
  induction fs generalizing w with
  | nil => exact ⟨[], .refl w⟩
  | cons f fs ih =>
    obtain ⟨gs, h⟩ := exists_sends_onFrame w f
    obtain ⟨gs', h'⟩ := ih (w.onFrame f)
    exact ⟨gs ++ gs', h.trans h'⟩

/-- **More heard, more sent.** -/
theorem sent_hear_mono (w : Worker) (h : fs <+: gs) : (w.hear fs).sent <+: (w.hear gs).sent := by
  obtain ⟨t, rfl⟩ := h
  obtain ⟨more, hmore⟩ := exists_sends_hear (w.hear fs) t
  rw [hear_append, hmore.sent]
  exact List.prefix_append ..

/-! ## Two workers that hear the same -/

/-- A line a failed read prints. -/
def Line.Loss : Line → Prop
  | .acceptFailed _ | .coordinatorClosed | .recvFailed _ | .resultRecvFailed _ => True
  | _ => False

/-- The workers have sent the same, and what the first printed the second
did, but for failed reads. -/
structure Alike (w v : Worker) : Prop where
  args : w.args = v.args
  sent : w.sent = v.sent
  log : ∀ line ∈ w.log, line ∈ v.log ∨ line.Loss

namespace Alike

theorem say (h : Alike w v) (line : Line) : Alike (w.say line) (v.say line) := by
  refine ⟨h.args, h.sent, fun l hl => ?_⟩
  rcases List.mem_append.1 hl with hl | hl
  · exact (h.log l hl).imp_left (List.mem_append_left _)
  · exact .inl (List.mem_append_right _ hl)

theorem goto (h : Alike w v) (p q : Phase) : Alike (w.goto p) (v.goto q) := ⟨h.args, h.sent, h.log⟩

theorem quit (h : Alike w v) (line : Line) : Alike (w.quit line) (v.quit line) :=
  (h.say line).goto _ _

theorem send (h : Alike w v) (f : Frame) : Alike (w.send f) (v.send f) :=
  ⟨h.args, congrArg (· ++ [f]) h.sent, h.log⟩

/-- The first alone prints that a read failed. -/
theorem loss (h : Alike w v) (line : Line) (hline : line.Loss) : Alike (w.say line) v := by
  refine ⟨h.args, h.sent, fun l hl => ?_⟩
  rcases List.mem_append.1 hl with hl | hl
  · exact h.log l hl
  · exact .inr (List.mem_singleton.1 hl ▸ hline)

theorem onRequest (h : Alike w v) (rank : UInt64) (index : ℕ) (f : Frame) :
    Alike (w.onRequest rank index f) (v.onRequest rank index f) ∧
      ((w.onRequest rank index f).phase = (v.onRequest rank index f).phase) := by
  simp only [Worker.onRequest, h.args]
  split
  · exact ⟨h.quit _, rfl⟩
  · split_ifs
    · exact ⟨(h.say _).goto _ _, rfl⟩
    · exact ⟨h.goto _ _, rfl⟩
    · exact ⟨((h.send _).say _).goto _ _, rfl⟩

theorem onResult (h : Alike w v) (rank : UInt64) (index : ℕ) (f : Frame) :
    Alike (w.onResult rank index f) (v.onResult rank index f) ∧
      ((w.onResult rank index f).phase = (v.onResult rank index f).phase) := by
  unfold Worker.onResult
  split
  · exact ⟨h.quit _, rfl⟩
  · split
    · exact ⟨h.quit _, rfl⟩
    · simp only
      split_ifs
      · exact ⟨h.goto _ _, rfl⟩
      · exact ⟨((h.say _).send _).goto _ _, rfl⟩

/-- **They do the same with a frame**, when they await it at the same
place. -/
theorem onFrame (h : Alike w v) (hphase : w.phase = v.phase) (f : Frame) :
    Alike (w.onFrame f) (v.onFrame f) ∧ (w.onFrame f).phase = (v.onFrame f).phase := by
  unfold Worker.onFrame
  rw [← hphase]
  cases hp : w.phase with
  | accept =>
    simp only [Worker.onAccept, h.args]
    split
    · exact ⟨h.quit _, rfl⟩
    · exact ⟨((h.say _).send _).goto _ _, rfl⟩
  | barrier rank =>
    simp only [Worker.onBarrier]
    split_ifs
    · exact ⟨(h.say _).goto _ _, rfl⟩
    · exact ⟨h.goto _ _, rfl⟩
  | serve rank index =>
    simp only [Worker.onServe]
    split_ifs
    · exact h.onRequest rank index f
    · exact ⟨h.say _, hphase⟩
    · exact ⟨h.quit _, rfl⟩
    · exact ⟨h, hphase⟩
  | result rank index => exact h.onResult rank index f
  | stalled | returned code | killed | undefined => exact ⟨h, hphase⟩

end Alike

/-! ## Following the frames heard -/

/-- The worker no longer stands where its script does: it has woken from
its sleep, was killed, or hears nothing any more and has noticed. -/
def Idle (w : Worker) (stand : Phase) : Prop :=
  (stand = .stalled ∧ w.phase = .returned 0) ∨ w.phase = .killed ∨
    w.channel.Deaf ∧ w.phase ≠ .stalled ∧ w.phase ≠ .undefined

/-- The worker that reads `heard` off a stream and does nothing else. -/
def scripted (args : Args) (heard : List Frame) : Worker := (start args).hear heard

/-- **What a worker has done is what the frames it heard make it do**, and
it stands where they leave it unless it hears nothing any more. -/
structure Follows (w : Worker) (heard : List Frame) : Prop where
  alike : Alike w (scripted w.args heard)
  phase : w.phase = (scripted w.args heard).phase ∨ w.Idle (scripted w.args heard).phase

theorem follows_start (args : Args) : (start args).Follows [] :=
  ⟨⟨rfl, rfl, fun _ h => .inl h⟩, .inl rfl⟩

/-- The reads of a channel change, and neither what was sent nor where the
worker stands. -/
theorem Follows.reads {heard : List Frame} (h : w.Follows heard) {c : FrameChannel}
    (hdeaf : w.channel.Deaf → c.Deaf) : ({ w with channel := c } : Worker).Follows heard :=
  ⟨⟨h.alike.args, h.alike.sent, h.alike.log⟩,
    h.phase.imp id (Or.imp id (Or.imp id (And.imp hdeaf id)))⟩

theorem Follows.kill {heard : List Frame} (h : w.Follows heard) :
    (w.goto .killed).Follows heard :=
  ⟨⟨h.alike.args, h.alike.sent, h.alike.log⟩, .inr (.inr (.inl rfl))⟩

/-- A sleeping worker wakes, and ends. -/
theorem Follows.wake {heard : List Frame} (h : w.Follows heard) (hstalled : w.phase = .stalled) :
    (w.goto (.returned 0)).Follows heard := by
  refine ⟨⟨h.alike.args, h.alike.sent, h.alike.log⟩, .inr ?_⟩
  rcases h.phase with hstand | ⟨-, hreturned⟩ | hkilled | ⟨-, hawake, -⟩
  · exact .inl ⟨hstand.symm.trans hstalled, rfl⟩
  · rw [hstalled] at hreturned
    cases hreturned
  · rw [hstalled] at hkilled
    cases hkilled
  · exact absurd hstalled hawake

/-- A read that failed. -/
theorem Follows.onLoss {heard : List Frame} (h : w.Follows heard) (hdeaf : w.channel.Deaf)
    (reason : String) : (w.onLoss reason).Follows heard := by
  have hidle (w' : Worker) (halike : Alike w' (scripted w.args heard))
      (hargs : w'.args = w.args) (hchannel : w'.channel = w.channel)
      (hphase : w'.phase ≠ .stalled ∧ w'.phase ≠ .undefined) : w'.Follows heard :=
    ⟨hargs ▸ halike, .inr (.inr (.inr ⟨hchannel ▸ hdeaf, hphase⟩))⟩
  have hended (w' : Worker) (code : ℕ) :
      (w'.goto (.returned code)).phase ≠ .stalled ∧ (w'.goto (.returned code)).phase ≠ .undefined :=
    ⟨nofun, nofun⟩
  have hsame := h.alike
  let stand := (scripted w.args heard).phase
  unfold Worker.onLoss
  split
  · exact hidle _ ((hsame.loss (.acceptFailed reason) trivial).goto _ stand) rfl rfl (hended _ 1)
  · exact hidle _ (hsame.goto _ stand) rfl rfl ⟨nofun, nofun⟩
  · unfold onServeLoss
    split_ifs
    · exact hidle _ ((hsame.loss .coordinatorClosed trivial).goto _ stand) rfl rfl (hended _ 0)
    · exact hidle _ ((hsame.loss (.recvFailed reason) trivial).goto _ stand) rfl rfl (hended _ 1)
  · exact hidle _ ((hsame.loss (.resultRecvFailed reason) trivial).goto _ stand) rfl rfl
      (hended _ 1)
  all_goals exact h

/-- A frame that was read. -/
theorem Follows.onFrame {heard : List Frame} (h : w.Follows heard)
    (hphase : w.phase = (scripted w.args heard).phase) (f : Frame) :
    (w.onFrame f).Follows (heard ++ [f]) := by
  obtain ⟨halike, hstand⟩ := h.alike.onFrame hphase f
  obtain ⟨_, hsends⟩ := exists_sends_onFrame w f
  have hscript : scripted (w.onFrame f).args (heard ++ [f]) =
      (scripted w.args heard).onFrame f := by
    rw [hsends.args, scripted, hear_append]
    rfl
  exact ⟨hscript ▸ halike, .inl (hscript ▸ hstand)⟩

end Worker

end CollectiveFabric
