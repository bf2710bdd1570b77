import CollectiveFabric.Multiprocess.Turning

/-!
# What any deployment comes to

However the processes take their turns, whatever is lost, killed or
started and in whatever pieces the bytes arrive: the coordinator reads the
frames it expects, a round that is given up is the last, and every sum
that anyone prints is the sum of the two ranks' values.
-/

namespace CollectiveFabric

open Common

/-- The coordinator is started, and nobody else yet. -/
def Coordinator.deploy (statefile : String) (wallNs : UInt64) : Deployment Coordinator.host where
  state := Coordinator.start statefile wallNs

namespace Deployment

open Coordinator

variable {d : Deployment Coordinator.host} {β : ℕ → UInt64} {b : Book} {k : ℕ} {f : Frame}

/-- Everything stands where the coordinator's phase has it. -/
def Sees (d : Deployment Coordinator.host) : Prop := ∃ β b, Acts β d.state d.links b

theorem sees_deploy (statefile : String) (wallNs : UInt64) : (deploy statefile wallNs).Sees := by
  refine ⟨fun k => UInt64.ofNat k, {}, ⟨⟨wired_nil, ?_, ?_, ?_, ?_, List.nil_prefix, ?_, ?_,
    by decide⟩, ⟨⟨rfl, rfl, Nat.zero_lt_two, fun _ => rfl, ?_⟩, rfl⟩⟩⟩
  · intro c hc
    cases hc
  · intro k w hw
    cases hw
  · intro k f hf
    cases hf
  · intro r hr
    cases hr
  · intro x hx
    cases hx
  · exact fun k _ => ⟨0, 0, [], List.nil_prefix⟩
  · intro k hk
    exact absurd hk (Nat.not_lt_zero k)

/-- What the network does leaves the stage as it is. -/
theorem acts_networked {d' : Deployment Coordinator.host} {b' : Book}
    (h : Acts β d.state d.links b) (hn : Networked d d' b b') : Acts β d'.state d'.links b' := by
  have hstate : d'.state.workers = d.state.workers ∧ d'.state.executed = d.state.executed ∧
      d'.state.totals = d.state.totals ∧ d'.state.phase = d.state.phase := by
    rcases hn.state with hsame | hset
    · rw [hsame]
      exact ⟨rfl, rfl, rfl, rfl⟩
    · rw [hset]
      exact ⟨rfl, rfl, rfl, rfl⟩
  obtain ⟨hworkers, hexecuted, htotals, hphase⟩ := hstate
  have hlater : Later d.state d'.state d.links d'.links b b' :=
    ⟨hworkers, hexecuted, htotals, hn.passed, hn.workers, hn.told, hn.taken⟩
  refine ⟨⟨hn.wired, hn.passed.valid h.scene.valid, ?_, ?_, ?_, ?_, ?_, ?_, h.scene.apart⟩, ?_⟩
  · intro k w hw
    exact h.scene.inPlace k w (hworkers ▸ hw)
  · rw [hn.told, hexecuted]
    exact h.scene.telling
  · rw [hexecuted]
    exact h.scene.shared
  · rw [hexecuted]
    exact h.scene.sites
  · rw [htotals]
    exact h.scene.totals
  · rw [hn.told]
    exact h.scene.late
  · rw [hphase]
    exact hlater.stage h.stage

/-- **Every step keeps it.** -/
theorem sees_step (h : d.Sees) (ev : Event) : (d.step ev).Sees := by
  obtain ⟨β, b, h⟩ := h
  by_cases hev : ∃ env, ev = .host env
  · obtain ⟨env, rfl⟩ := hev
    show (if d.waits env then d else { d with state := d.state.turn env }).Sees
    split_ifs with hwaits
    · exact ⟨β, b, h⟩
    · refine acts_turn h env fun hphase haccepts => ?_
      -- who is accepted is there
      have haccepting : Coordinator.host.accepting d.state = true := decide_eq_true hphase
      rw [waits, haccepting, haccepts, Bool.and_self, Bool.true_and, decide_eq_true_eq] at hwaits
      exact Nat.lt_of_not_le hwaits
  · obtain ⟨b', hn⟩ := networked_step (d := d) h.scene.wired ev fun env he => hev ⟨env, he⟩
    exact ⟨β, b', acts_networked h hn⟩

/-- **And so does every run.** -/
theorem sees_run (statefile : String) (wallNs : UInt64) (evs : List Event) :
    (Run.run step (deploy statefile wallNs) evs).Sees :=
  (Run.throughout_of_step (I := Sees) (fun _ ev h _ => sees_step h ev)
    (sees_deploy statefile wallNs) (Run.along_of_forall (fun _ _ => trivial) evs)).last

/-! ## A round given up is the last -/

/-- **The rounds handed to the engine** are the first ones of the scenario:
once a round has been given up, none is handed over again. -/
theorem executed_prefix (statefile : String) (wallNs : UInt64) (evs : List Event) :
    (Run.run step (deploy statefile wallNs) evs).state.executed.map (·.site) <+:
      [.first, .loss, .second] := by
  obtain ⟨β, b, h⟩ := sees_run statefile wallNs evs
  exact h.scene.sites

/-! ## Everyone prints the same sum -/

end Deployment

namespace Worker

variable {w : Worker} {x : UInt32}

theorem mem_say {line line' : Line} (h : line' ∈ (w.say line).log) (hne : line' ≠ line) :
    line' ∈ w.log := by
  rcases List.mem_append.1 h with h | h
  · exact h
  · exact absurd (List.mem_singleton.1 h) hne

theorem result_onRequest {rank : UInt64} {index : ℕ} {f : Frame}
    (h : Line.result x ∈ (w.onRequest rank index f).log) : Line.result x ∈ w.log := by
  unfold onRequest at h
  cases hdesc : decDesc f.payload with
  | none =>
    simp only [hdesc] at h
    exact mem_say h (by simp)
  | some d =>
    simp only [hdesc] at h
    split_ifs at h
    · exact mem_say h (by simp)
    · exact h
    · exact mem_say (w := w.send _) h (by simp)

theorem result_onResult {rank : UInt64} {index : ℕ} {f : Frame}
    (h : Line.result x ∈ (w.onResult rank index f).log) :
    Line.result x ∈ w.log ∨ f.kind = .of .result ∧
      x = UInt32.ofNat (ReferenceEngine.loadLe ((f.payload.toList.drop 56).take 4)) := by
  unfold onResult at h
  split_ifs at h with hkind
  · exact .inl (mem_say h (by simp))
  · split at h
    · exact .inl (mem_say h (by simp))
    · simp only at h
      split_ifs at h
      · exact .inl h
      · rcases List.mem_append.1 h with hmem | hmem
        · exact .inl hmem
        · exact .inr ⟨not_not.1 hkind, Line.result.inj (List.mem_singleton.1 hmem)⟩

/-- A result is printed of a frame that brought one. -/
theorem result_onFrame {f : Frame} (h : Line.result x ∈ (w.onFrame f).log) :
    Line.result x ∈ w.log ∨ f.kind = .of .result ∧
      x = UInt32.ofNat (ReferenceEngine.loadLe ((f.payload.toList.drop 56).take 4)) := by
  unfold onFrame at h
  split at h
  · unfold onAccept at h
    split at h
    all_goals exact .inl (mem_say h (by simp))
  · unfold onBarrier at h
    split_ifs at h
    · exact .inl (mem_say h (by simp))
    · exact .inl h
  · unfold onServe at h
    split_ifs at h
    · exact .inl (result_onRequest h)
    · exact .inl (mem_say h (by simp))
    · exact .inl (mem_say h (by simp))
    · exact .inl h
  · exact result_onResult h
  all_goals exact .inl h

theorem result_hear {fs : List Frame} (h : Line.result x ∈ (w.hear fs).log) :
    Line.result x ∈ w.log ∨ ∃ f ∈ fs, f.kind = .of .result ∧
      x = UInt32.ofNat (ReferenceEngine.loadLe ((f.payload.toList.drop 56).take 4)) := by
  induction fs generalizing w with
  | nil => exact .inl h
  | cons f fs ih =>
    rcases ih h with hmem | ⟨g, hg, hresult⟩
    · exact (result_onFrame hmem).imp_right fun hresult => ⟨f, List.mem_cons_self, hresult⟩
    · exact .inr ⟨g, List.mem_cons_of_mem f hg, hresult⟩

end Worker

namespace Deployment

open Coordinator

variable {d : Deployment Coordinator.host} {β : ℕ → UInt64} {b : Book} {k : ℕ} {f : Frame}

/-- What a worker prints of a result is the sum. -/
theorem result_eq (h : Scene β d.state d.links b) {l : Link} (hl : l ∈ d.links) {x : UInt32}
    (hx : Worker.Line.result x ∈ l.worker.log) : x = firstSum (rankIn β 0) (rankIn β 1) := by
  obtain ⟨k, hlt, rfl⟩ := List.mem_iff_getElem.1 hl
  have hanswers := h.wired.worker k _ (List.getElem?_eq_getElem hlt)
  have hscript : Worker.Line.result x ∈
      (Worker.scripted d.links[k].worker.args (b.heard k)).log := by
    rcases hanswers.follows.alike.log _ hx with hmem | hloss
    · exact hmem
    · cases hloss
  rcases Worker.result_hear hscript with hmem | ⟨f, hf, hkind, rfl⟩
  · cases hmem
  · have htold := hanswers.down.taken_prefix.subset hf
    obtain ⟨r, hr, boot, rfl⟩ := h.telling k f htold hkind
    rw [first_resultFrame _ _ (h.output_length r hr)]
    exact Round.first_output (h.shared r hr)

/-- **Agreement.** Every result that a worker prints, and every sum the
coordinator logs, is the first float of the sum of the values of two
different ranks, the same for everyone. -/
theorem results_agree (statefile : String) (wallNs : UInt64) (evs : List Event) :
    ∃ a b : UInt64, ((a = 0 ∧ b = 1) ∨ (a = 1 ∧ b = 0)) ∧
      (∀ l ∈ (Run.run step (deploy statefile wallNs) evs).links, ∀ x,
        Worker.Line.result x ∈ l.worker.log → x = firstSum a b) ∧
      ∀ label x, Line.allreduceDone label x ∈
        (Run.run step (deploy statefile wallNs) evs).state.log → x = firstSum a b := by
  obtain ⟨β, b, h⟩ := sees_run statefile wallNs evs
  refine ⟨rankIn β 0, rankIn β 1, seats h.scene.apart, fun l hl x hx => ?_, fun label x hx => ?_⟩
  · exact result_eq h.scene hl hx
  · exact h.scene.totals x (List.mem_filterMap.2 ⟨_, hx, rfl⟩)

end Deployment

end CollectiveFabric
