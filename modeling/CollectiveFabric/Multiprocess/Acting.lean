import CollectiveFabric.Multiprocess.Scenario

/-!
# What a round comes to

Each handler of a round ends where its stage says, with everything it told
written down: the request, the contributions, the result, the completions
and what follows them, and the losses on the way.
-/

namespace CollectiveFabric

open Common

namespace Coordinator

variable {β : ℕ → UInt64} {s s' : Coordinator} {links : List Link} {b b' : Book}
variable {fs : ℕ → List Frame} {site : Site} {f : Frame} {k : ℕ} {env : Surroundings}

/-! ## One frame told -/

theorem PoisedAt.ask (h : PoisedAt β s b site k) (ht : Tells s s' b b' fs)
    (hfs : fs k = [requestFrame site]) : AskedAt β s' b' site k := by
  unfold AskedAt
  rw [ht.executed, ht.told, ht.taken, hfs]
  exact Poised.ask h

theorem RestedAt.regen (h : RestedAt β s b k) (ht : Tells s s' b b' fs)
    (hfs : fs k = [acceptFrame (rankIn β k) 2]) : PoisedAt β s' b' .second k := by
  unfold PoisedAt
  rw [ht.executed, ht.told, ht.taken, hfs]
  exact Rested.regen h

theorem SpentAt.tell (h : SpentAt links b k) (ht : Tells s s' b b' fs) (hfs : fs k = [f]) :
    SpentAt links b' k := by
  obtain ⟨l, hl, hspent⟩ := h
  refine ⟨l, hl, ?_⟩
  rw [ht.told, ht.taken, hfs]
  exact hspent.tell f

theorem HeardAt.spend (h : HeardAt β s b site k) (hscene : Scene β s links b)
    (hk : k < s.connections.length) (ht : Tells s s' b b' fs) (hfs : fs k = [f])
    (hkind : f.kind ≠ .of .result) : SpentAt links b' k := by
  obtain ⟨l, hl⟩ := hscene.exists_link hk
  have hfew := hscene.few
  refine ⟨l, hl, ?_⟩
  rw [ht.told, ht.taken, hfs]
  exact Heard.spend h (by omega) hscene.output_length _ hkind

theorem RestedAt.poised (h : RestedAt β s b k) (hsite : site ≠ .second) :
    PoisedAt β s b site k := (Poised.rested hsite).2 h

theorem Lost.passed {j : ℕ} (h : s.Lost j) (hp : Passed s.connections s'.connections) :
    s'.Lost j := by
  obtain ⟨hj, c, hc, hdeaf⟩ := h
  exact ⟨hj, hp.deaf j c hc hdeaf⟩

theorem Cast.tells {n m : ℕ} (h : Cast β s n m) (ht : Tells s s' b b' fs) : Cast β s' n m where
  boots k hk := by
    rw [ht.workers]
    exact h.boots k hk
  workers := by rw [ht.workers, h.workers]
  connections := by rw [ht.passed.length, h.connections]

theorem Cast.connected {n m : ℕ} (h : Cast β s n m) (hle : n ≤ m) : s.Connected := by
  rw [Connected, h.workers, h.connections]
  exact hle

/-- There are no other workers yet. -/
theorem Cast.rest {m : ℕ} {l : UInt64 → List Frame} (h : Cast β s 2 m)
    (hbeyond : ∀ k, 2 ≤ k → s.workers.length ≤ k → b.told k = []) : Rest s b l := by
  refine ⟨fun k hk hlt => ?_, fun k hk hlt => ?_, hbeyond⟩
  all_goals
    rw [h.workers] at hlt
    omega

/-- What is told to each of the pair when each worker is told something. -/
theorem Cast.toList_map {n m : ℕ} (h : Cast β s n m) (g : WorkerState → Frame) (hk : k < 2) :
    ∃ w, s.workers[k]? = some w ∧ w.boot = β k ∧ (s.workers[k]?.map g).toList = [g w] := by
  obtain ⟨w, hw, hboot⟩ := h.boots k hk
  exact ⟨w, hw, hboot, by rw [hw]; rfl⟩

theorem Greeted.tells (h : Greeted s b k) (ht : Tells s s' b b' fs) : Greeted s' b' k := by
  unfold Greeted at h ⊢
  rw [ht.taken]
  exact h.imp_right fun ⟨c, hc, hdeaf⟩ => ht.passed.deaf k c hc hdeaf

/-- The later workers are told one more frame. -/
theorem Rest.tell {l : List Frame} (h : Rest s b fun _ => l) {g : WorkerState → Frame}
    (ht : Tells s s' b b' fun k => (s.workers[k]?.map g).toList) (g' : UInt64 → Frame)
    (hg : ∀ w, g w = g' w.boot) : Rest s' b' fun boot => l ++ [g' boot] where
  later k hk hlt := by
    rw [ht.workers] at hlt
    obtain ⟨rank, boot, htold⟩ := h.later k hk hlt
    refine ⟨rank, s.workers[k].boot, ?_⟩
    rw [ht.told, htold, List.getElem?_eq_getElem hlt, Option.map_some, hg]
    rfl
  greeted k hk hlt := (h.greeted k hk (ht.workers ▸ hlt)).tells ht
  beyond k hk hle := by
    rw [ht.workers] at hle
    rw [ht.told, h.beyond k hk hle, List.getElem?_eq_none hle]
    rfl

/-! ## Where a turn ends -/

theorem acts_goto (h : Scene β s links b) {p : Phase} (hstage : Stage β s links b p) :
    Acts β (s.goto p) links b :=
  ⟨h.silent (.goto s b p), ((Tells.goto s b p).later links).stage hstage⟩

theorem acts_quit (h : Scene β s links b) (line : String) : Acts β (s.quit line) links b :=
  acts_goto (h.silent (.text s b line)) trivial

theorem acts_save (h : Scene β s links b) {path : String} {act : Coordinator → Coordinator}
    (hact : ∀ s', Tells s s' b b (fun _ => []) → ∃ b', Acts β (act s') links b') :
    ∃ b', Acts β (s.save env path act) links b' := by
  unfold save
  split
  · exact ⟨b, acts_goto h trivial⟩
  · exact hact _ (.saved s b _)

/-! ## Rounds -/

theorem eq_second_of_crowd (h : 2 < site.crowd) : site = .second := by
  cases site with
  | first | loss => exact absurd h (Nat.lt_irrefl 2)
  | second => rfl

variable (site) in
theorem acts_beginAllreduce (h : Scene β s links b) (hc : Cast β s site.crowd site.crowd)
    (hready : Ready β s links b site) (hrest : Rest s b fun _ => []) :
    ∃ b', Acts β (s.beginAllreduce site) links b' := by
  obtain ⟨b', htells⟩ := exists_tells_sendEach h.inPlace (hc.connected le_rfl) b
    fun _ => requestFrame site
  have htold {k : ℕ} (hk : k < 2) :
      (s.workers[k]?.map fun _ => requestFrame site).toList = [requestFrame site] := by
    obtain ⟨w, -, -, hlist⟩ := hc.toList_map (fun _ => requestFrame site) hk
    exact hlist
  have hrest' := hrest.tell htells (fun _ => requestFrame site) fun _ => rfl
  have hscene := h.tells htells (fun k f hf hkind => by
    obtain ⟨w, -, rfl⟩ : ∃ w, s.workers[k]? = some w ∧ requestFrame site = f := by simpa using hf
    rw [kind_requestFrame] at hkind
    cases hkind) (hrest'.late fun hlt _ => by
      rw [(hc.tells htells).workers] at hlt
      obtain rfl := eq_second_of_crowd hlt
      exact ⟨0, [], _, rfl⟩)
  have hplaying : Playing β (s.sendEach fun _ => requestFrame site) links b'
      ⟨site, site.request, []⟩ := by
    rcases hready with ⟨hsites, hpoised⟩ | ⟨j, hlost, hj⟩
    · refine .inl ⟨by rw [htells.executed, hsites], rfl, Nat.zero_lt_two, fun k hk => ?_⟩
      exact (if_neg (Nat.not_lt_zero k)).mpr ((hpoised k hk).ask htells (htold hk))
    · refine .inr ⟨j, hlost.passed htells.passed, Nat.zero_le _, fun hone => ?_⟩
      refine (if_pos rfl).mpr ?_
      -- a worker that waited for the result has ended
      rcases hj hone with hpoised | ⟨σ, hheard⟩ | hspent
      · exact .inl (hpoised.ask htells (htold Nat.zero_lt_two))
      · refine .inr (hheard.spend h ?_ htells (htold Nat.zero_lt_two) (by
          rw [kind_requestFrame]; decide))
        have hcount : 2 ≤ site.crowd := by cases site <;> decide
        rw [hc.connections]
        omega
      · exact .inr (hspent.tell htells (htold Nat.zero_lt_two))
  exact ⟨b', acts_goto hscene ⟨hc.tells htells, hplaying, hrest'⟩⟩

theorem tells_prune (hvalid : ∀ c ∈ s.connections, c.valid = true) (hplace : s.InPlace)
    (hconnected : s.Connected) (b : Book) : Tells s s.prune b b fun _ => [] := by
  have hdead : ∀ w ∈ s.workers, s.dead w = false := by
    intro w hw
    have hlt := hplace.ch_lt hconnected w hw
    have hc : s.connections[w.ch]? = some s.connections[w.ch] := List.getElem?_eq_getElem hlt
    rw [dead, hc]
    simp only [hvalid _ (List.getElem_mem hlt), Bool.not_true]
  have hnone : s.workers.filter s.dead = [] := by
    rw [List.filter_eq_nil_iff]
    exact fun w hw => by rw [hdead w hw]; exact Bool.false_ne_true
  have hall : (s.workers.filter fun w => !s.dead w) = s.workers := by
    rw [List.filter_eq_self]
    exact fun w hw => by rw [hdead w hw]; rfl
  rw [prune, hnone, hall]
  exact .silent rfl rfl rfl rfl

/-- After a round of the pair alone, the next one can begin. -/
theorem Between.ready {next : Site} (h : Between β s links b site) (hnext : next ≠ .second)
    (hbefore : next.before = site.before ++ [site]) : Ready β s links b next := by
  rcases h with ⟨hsites, hrested⟩ | ⟨j, hlost, hj⟩
  · exact .inl ⟨by rw [hsites, hbefore], fun k hk => (hrested k hk).poised hnext⟩
  · exact .inr ⟨j, hlost, fun hone => (hj hone).imp_left fun hrested => hrested.poised hnext⟩

/-- **What follows a round**, however it ended. -/
theorem acts_afterAllreduce (h : Scene β s links b) (hc : Cast β s site.crowd site.crowd)
    (hbetween : Between β s links b site)
    (hbeyond : ∀ k, 2 ≤ k → s.workers.length ≤ k → b.told k = []) :
    ∃ b', Acts β (s.afterAllreduce env site) links b' := by
  cases site with
  | first =>
    rw [afterAllreduce]
    have hrest : Rest s b fun _ => [] := hc.rest hbeyond
    have hsay := Tells.text s b "PHASE_ALLREDUCE_DONE gen=1"
    refine acts_save (h.silent hsay) fun s₁ h₁ => ?_
    have hsaved := (Tells.text s₁ b ("PHASE_SAVED path=" ++ s₁.statefile)).before
      (.text _ b "PHASE_BEGIN_LIVE_COLLECTIVE")
    have htells := (hsay.before h₁).before hsaved
    have hlater := htells.later links
    refine acts_beginAllreduce _ (h.silent htells) (hlater.cast hc) ?_ (hlater.rest hrest)
    exact hlater.ready (hbetween.ready (by decide) rfl)
  | loss =>
    have hrest : Rest s b fun _ => [] := hc.rest hbeyond
    -- no handle is closed, so the erasing keeps every worker
    have hepoch := (Tells.text s b "PHASE_LOSS_DETECTED").before
      (.runtime _ b s.runtime.advanceEpoch)
    have hscene := h.silent hepoch
    have hprune := tells_prune hscene.valid hscene.inPlace
      (Cast.connected (hc.tells hepoch) le_rfl) b
    have htells := (hepoch.before hprune).before (.text _ b "PHASE_RECONFIGURE epoch=2")
    have hlater := htells.later links
    exact ⟨b, acts_goto (h.silent htells) ⟨hlater.cast hc, hlater.between hbetween,
      hlater.rest hrest⟩⟩
  | second =>
    rw [afterAllreduce]
    have hsay := Tells.text s b "PHASE_ALLREDUCE_DONE gen=2"
    refine acts_save (h.silent hsay) fun s₁ h₁ => ?_
    have hdone := (Tells.text s₁ b "PHASE_SAVED_FINAL").before (.text _ b "PHASE_DONE")
    exact ⟨b, acts_goto (h.silent ((hsay.before h₁).before hdone)) trivial⟩

/-- The sum of the pair's shares is logged. -/
theorem Scene.total (h : Scene β s links b) {line : Line}
    (hline : line.total = some (firstSum (rankIn β 0) (rankIn β 1))) :
    Scene β (s.say line) links b where
  wired := h.wired
  valid := h.valid
  inPlace := h.inPlace
  telling := h.telling
  shared := h.shared
  sites := h.sites
  totals x hx := by
    have hx : x ∈ (s.log ++ [line]).filterMap Line.total := hx
    rw [List.filterMap_append, List.filterMap_cons, hline] at hx
    rcases List.mem_append.1 hx with hx | hx
    · exact h.totals x hx
    · exact List.mem_singleton.1 hx
  late := h.late
  apart := h.apart

theorem acts_finishAllreduce {r : Round} (h : Scene β s links b)
    (hc : Cast β s r.site.crowd r.site.crowd) (hr : r.Shared (rankIn β 0) (rankIn β 1))
    (hbetween : Between β s links b r.site)
    (hbeyond : ∀ k, 2 ≤ k → s.workers.length ≤ k → b.told k = []) :
    ∃ b', Acts β (s.finishAllreduce env r r.output) links b' := by
  rw [finishAllreduce]
  let line : Line :=
    .allreduceDone r.site.label (UInt32.ofNat (ReferenceEngine.loadLe (r.output.take 4)))
  have htotal : line.total = some (firstSum (rankIn β 0) (rankIn β 1)) :=
    congrArg some (Round.first_output hr)
  have hscene : Scene β (s.say line) links b := h.total htotal
  have htells := Tells.runtime (s.say line) b
    (s.runtime.ingestMeasurement (measurement env r.site.gen))
  have hlater := htells.later links
  -- the line changes nothing that the stage looks at
  exact acts_afterAllreduce (hscene.silent htells) (hlater.cast ⟨hc.boots, hc.workers,
    hc.connections⟩) (hlater.between hbetween) hbeyond

variable (env) in
theorem acts_awaitComplete {r : Round} {outputs : List (List UInt8)} {i : ℕ}
    (h : Scene β s links b) (hc : Cast β s r.site.crowd r.site.crowd)
    (hf : Finishing β s b r outputs i)
    (hrest : i < s.workers.length →
      Rest s b fun boot => [requestFrame r.site, resultFrame r.site boot r.output])
    (hbeyond : ∀ k, 2 ≤ k → s.workers.length ≤ k → b.told k = []) :
    ∃ b', Acts β (s.awaitComplete env r outputs i) links b' := by
  unfold awaitComplete
  split_ifs with hi
  · exact ⟨b, acts_goto h ⟨hc, hf, hi, hrest hi⟩⟩
  · have htwo : 2 ≤ s.workers.length := by
      rw [hc.workers]
      cases r.site <;> decide
    rw [hf.outputs]
    refine acts_finishAllreduce h hc (h.shared r hf.mem) (.inl ⟨hf.sites, fun k hk => ?_⟩)
      hbeyond
    have hstands := hf.stands k hk
    rwa [if_pos (by omega)] at hstands

/-- The round is handed to the engine. -/
theorem Scene.executed {r : Round} (h : Scene β s links b)
    (hsites : s.executed.map (·.site) = r.site.before)
    (hr : r.Shared (rankIn β 0) (rankIn β 1)) :
    Scene β { s with executed := s.executed ++ [r] } links b where
  wired := h.wired
  valid := h.valid
  inPlace := h.inPlace
  telling k f hf hkind := by
    obtain ⟨r', hr', hframe⟩ := h.telling k f hf hkind
    exact ⟨r', List.mem_append_left _ hr', hframe⟩
  shared r' hr' := by
    rcases List.mem_append.1 hr' with hr' | hr'
    · exact h.shared r' hr'
    · exact List.mem_singleton.1 hr' ▸ hr
  sites := by
    rw [List.map_append, hsites]
    show r.site.before ++ [r.site] <+: _
    cases r.site <;> decide
  totals := h.totals
  late := h.late
  apart := h.apart

/-- **The round is handed over**, and its result told. -/
theorem acts_execute {r : Round} (h : Scene β s links b)
    (hc : Cast β s r.site.crowd r.site.crowd) (hsites : s.executed.map (·.site) = r.site.before)
    (hr : r.Shared (rankIn β 0) (rankIn β 1)) (hheard : ∀ k < 2, HeardAt β s b r.site k)
    (hrest : Rest s b fun _ => [requestFrame r.site]) :
    ∃ b', Acts β (s.execute env r) links b' := by
  have hexecute : ReferenceEngine.execute (.of .allReduce) (.of .sum) (.of .float32) 4 0 2
      (r.contributions.map (·.bytes.toList)) = .returns [r.output, r.output] := by
    rw [hr, execute_shares, Round.output_of_shared hr]
  unfold execute
  simp only [hexecute, List.getElem?_cons_zero]
  have hscene := h.executed hsites hr
  let s₁ : Coordinator := { s with executed := s.executed ++ [r] }
  let g (w : WorkerState) : Frame := resultFrame r.site w.boot r.output
  have hc₁ : Cast β s₁ r.site.crowd r.site.crowd := ⟨hc.boots, hc.workers, hc.connections⟩
  obtain ⟨b', htells⟩ := exists_tells_sendEach hscene.inPlace (hc₁.connected le_rfl) b g
  have hmem : r ∈ s₁.executed := List.mem_append_right _ List.mem_cons_self
  have hexecuted : (s₁.sendEach g).executed = s.executed ++ [r] := htells.executed
  have hrest' : Rest (s₁.sendEach g) b' fun boot =>
      [requestFrame r.site, resultFrame r.site boot r.output] :=
    Rest.tell (s := s₁) ⟨hrest.later, hrest.greeted, hrest.beyond⟩ htells
      (fun boot => resultFrame r.site boot r.output) fun _ => rfl
  have hscene' := hscene.tells htells (fun k f hf _ => by
    obtain ⟨w, -, rfl⟩ : ∃ w, s₁.workers[k]? = some w ∧ g w = f := by simpa using hf
    exact ⟨r, hmem, w.boot, rfl⟩) (hrest'.late fun hlt boot => by
      rw [(hc₁.tells htells).workers] at hlt
      rw [eq_second_of_crowd hlt]
      exact ⟨boot, r.output, List.prefix_rfl⟩)
  have hfinishing : Finishing β (s₁.sendEach g) b' r [r.output, r.output] 0 := by
    refine ⟨?_, htells.executed ▸ hmem, rfl, fun k hk => ?_⟩
    · rw [hexecuted, List.map_append, hsites]
      rfl
    · rw [if_neg (Nat.not_lt_zero k)]
      obtain ⟨w, -, hboot, hlist⟩ := hc₁.toList_map g hk
      have hresult : g w = resultFrame r.site (β k) r.output := by rw [← hboot]
      unfold OwingAt
      rw [hexecuted, htells.told, htells.taken, hlist, hresult]
      exact Heard.result (hheard k hk)
  exact acts_awaitComplete _ hscene' (hc₁.tells htells) hfinishing (fun _ => hrest') hrest'.beyond

/-! ## One frame taken -/

theorem Cast.takes {n m : ℕ} (h : Cast β s n m) (ht : Takes s s' b k f) : Cast β s' n m where
  boots j hj := by
    rw [ht.workers]
    exact h.boots j hj
  workers := by rw [ht.workers, h.workers]
  connections := by rw [ht.passed.length, h.connections]

theorem taken_take (b : Book) (k : ℕ) (f : Frame) : (b.take k f).taken k = b.taken k ++ [f] := by
  simp [Book.take]

theorem taken_take_of_ne (b : Book) {j k : ℕ} (f : Frame) (hj : j ≠ k) :
    (b.take k f).taken j = b.taken j := by
  simp [Book.take, hj]

/-- The frame is none of the later workers'. -/
theorem Rest.takes {l : UInt64 → List Frame} (h : Rest s b l) (ht : Takes s s' b k f)
    (hk : ∀ j, 2 ≤ j → j < s.workers.length → j ≠ k) : Rest s' (b.take k f) l where
  later j hj hlt := h.later j hj (ht.workers ▸ hlt)
  greeted j hj hlt := by
    rw [ht.workers] at hlt
    unfold Greeted
    rw [taken_take_of_ne b f (hk j hj hlt)]
    exact (h.greeted j hj hlt).imp_right fun ⟨c, hc, hdeaf⟩ => ht.passed.deaf j c hc hdeaf
  beyond j hj hle := h.beyond j hj (ht.workers ▸ hle)

theorem AskedAt.take (h : AskedAt β s b site k) (ht : Takes s s' b k f) :
    HeardAt β s' (b.take k f) site k := by
  unfold HeardAt
  rw [ht.executed, taken_take]
  exact Asked.take h f

theorem OwingAt.take (h : OwingAt β s b k) (ht : Takes s s' b k f) :
    RestedAt β s' (b.take k f) k := by
  unfold RestedAt
  rw [ht.executed, taken_take]
  exact Owing.take h f

section

variable {j : ℕ}

theorem AskedAt.other (h : AskedAt β s b site j) (ht : Takes s s' b k f) (hj : j ≠ k) :
    AskedAt β s' (b.take k f) site j := by
  unfold AskedAt
  rw [ht.executed, taken_take_of_ne b f hj]
  exact h

theorem HeardAt.other (h : HeardAt β s b site j) (ht : Takes s s' b k f) (hj : j ≠ k) :
    HeardAt β s' (b.take k f) site j := by
  unfold HeardAt
  rw [ht.executed, taken_take_of_ne b f hj]
  exact h

theorem OwingAt.other (h : OwingAt β s b j) (ht : Takes s s' b k f) (hj : j ≠ k) :
    OwingAt β s' (b.take k f) j := by
  unfold OwingAt
  rw [ht.executed, taken_take_of_ne b f hj]
  exact h

theorem RestedAt.other (h : RestedAt β s b j) (ht : Takes s s' b k f) (hj : j ≠ k) :
    RestedAt β s' (b.take k f) j := by
  unfold RestedAt
  rw [ht.executed, taken_take_of_ne b f hj]
  exact h

theorem SpentAt.other (h : SpentAt links b j) (hj : j ≠ k) : SpentAt links (b.take k f) j := by
  obtain ⟨l, hl, hspent⟩ := h
  refine ⟨l, hl, ?_⟩
  rw [taken_take_of_ne b f hj]
  exact hspent

end

/-- A frame of a later worker leaves the pair where it is. -/
theorem Between.other (h : Between β s links b site) (ht : Takes s s' b k f) (hk : 2 ≤ k) :
    Between β s' links (b.take k f) site := by
  rcases h with ⟨hsites, hrested⟩ | ⟨j, hlost, hj⟩
  · exact .inl ⟨by rw [ht.executed, hsites], fun j hj => (hrested j hj).other ht (by omega)⟩
  · refine .inr ⟨j, hlost.passed ht.passed, fun hone => ?_⟩
    rcases hj hone with hrested | ⟨σ, hheard⟩ | hspent
    · exact .inl (hrested.other ht (by omega))
    · exact .inr (.inl ⟨σ, hheard.other ht (by omega)⟩)
    · exact .inr (.inr (hspent.other (by omega)))

/-! ## Contributions -/

/-- The round after one more contribution. -/
def contributed (r : Round) (w : WorkerState) (rank : UInt64) (boot : UInt64) : Round :=
  { r with contributions := r.contributions ++
      [⟨w.boot, Worker.claim boot r.site, .ofList (share rank)⟩] }

theorem onContribution_contribution (s : Coordinator) (r : Round) (w : WorkerState)
    (boot rank : UInt64) :
    s.onContribution env r w (Worker.contribution boot rank r.site.request) =
      let s₁ := s.say (.contribution r.site.label r.contributions.length
        (Vec.ofList (share rank)).toList.length)
      if r.contributions.length + 1 < 2 then s₁.goto (.contribution (contributed r w rank boot))
      else s₁.execute env (contributed r w rank boot) := by
  have hkind : (Worker.contribution boot rank r.site.request).kind = .of .contribution := rfl
  unfold onContribution
  rw [if_neg (not_not.2 hkind)]
  simp only [Worker.decAuth_contribution, Worker.decode_contribution]
  rfl

variable (env) in
/-- **A contribution has been taken.** -/
theorem acts_onContribution {r : Round} (h : Scene β s links b)
    (hc : Cast β s r.site.crowd r.site.crowd) (hrest : Rest s b fun _ => [requestFrame r.site])
    (w : WorkerState) (boot rank : UInt64)
    (hplay : (s.executed.map (·.site) = r.site.before ∧
        r.contributions.map (·.bytes.toList) ++ [share rank] =
          [share (rankIn β 0), share (rankIn β 1)].take (r.contributions.length + 1) ∧
        r.contributions.length < 2 ∧
        ∀ k < 2, if k < r.contributions.length + 1 then HeardAt β s b r.site k
          else AskedAt β s b r.site k) ∨
      ∃ j, s.Lost j ∧ r.contributions.length + 1 ≤ j ∧ HeardAt β s b r.site 0) :
    ∃ b', Acts β (s.onContribution env r w (Worker.contribution boot rank r.site.request))
      links b' := by
  have htells := Tells.say s b (.contribution r.site.label r.contributions.length
    (Vec.ofList (share rank)).toList.length) rfl
  have hlater := htells.later links
  have hlength : (contributed r w rank boot).contributions.length =
      r.contributions.length + 1 := by
    rw [contributed, List.length_append, List.length_singleton]
  have hbytes : (contributed r w rank boot).contributions.map (·.bytes.toList) =
      r.contributions.map (·.bytes.toList) ++ [share rank] := by
    rw [contributed, List.map_append, List.map_singleton, Worker.toList_share]
  rw [onContribution_contribution]
  simp only
  split_ifs with hlast
  · -- the second contribution is still to come
    have hplaying : Playing β s links b (contributed r w rank boot) := by
      unfold Playing
      rw [hlength, hbytes]
      refine hplay.imp (fun ⟨hsites, hshares, _, hstands⟩ => ⟨hsites, hshares, hlast, hstands⟩)
        fun ⟨j, hlost, hle, hheard⟩ => ⟨j, hlost, hle, fun _ => ?_⟩
      exact (if_neg (Nat.succ_ne_zero _)).mpr hheard
    exact ⟨b, acts_goto (h.silent htells) ⟨hlater.cast hc, hlater.playing hplaying,
      hlater.rest hrest⟩⟩
  · rcases hplay with ⟨hsites, hshares, hlt, hstands⟩ | ⟨j, hlost, hle, -⟩
    · have htwo : r.contributions.length = 1 := by omega
      rw [htwo] at hshares hstands
      refine acts_execute (r := contributed r w rank boot) (h.silent htells) (hlater.cast hc)
        hsites (hbytes.trans hshares) (fun k hk => ?_) (hlater.rest hrest)
      exact (if_pos hk).mp (hstands k hk)
    · -- both places have been heard, and one of them is lost
      have hj := hlost.1
      omega

/-- A contribution that could not be read: the worker in its place is
lost. -/
theorem acts_onContributionLoss {r : Round} (h : Scene β s links b)
    (hc : Cast β s r.site.crowd r.site.crowd) (hplaying : Playing β s links b r)
    (hrest : Rest s b fun _ => [requestFrame r.site]) {c : FrameChannel}
    (hchannel : s.connections[r.contributions.length]? = some c) (hdeaf : c.Deaf) (w : WorkerState)
    (reason : String) : ∃ b', Acts β (s.onContributionLoss env r w reason) links b' := by
  have htells := Tells.say s b (.lossDetected r.site.label w.boot reason) rfl
  have hlater := htells.later links
  have hlost (hlt : r.contributions.length < 2) : s.Lost r.contributions.length :=
    ⟨hlt, c, hchannel, hdeaf⟩
  have hbetween : Between β s links b r.site := by
    rcases hplaying with ⟨-, -, hlt, hstands⟩ | ⟨j, hj, hle, hheard⟩
    · refine .inr ⟨_, hlost hlt, fun hone => .inr (.inl ⟨r.site, ?_⟩)⟩
      have hstands₀ := hstands 0 Nat.zero_lt_two
      rwa [if_pos (by omega)] at hstands₀
    · have hlt := hj.1
      refine .inr ⟨_, hlost (by omega), fun hone => .inr (.inl ⟨r.site, ?_⟩)⟩
      have hheard₀ := hheard (by omega)
      rwa [if_neg (by omega)] at hheard₀
  exact acts_afterAllreduce (h.silent htells) (hlater.cast hc) (hlater.between hbetween)
    (hlater.rest hrest).beyond

/-! ## Completions -/

theorem Finishing.take {r : Round} {outputs : List (List UInt8)} {i : ℕ}
    (h : Finishing β s b r outputs i) (ht : Takes s s' b i f) :
    Finishing β s' (b.take i f) r outputs (i + 1) where
  sites := by rw [ht.executed, h.sites]
  mem := ht.executed ▸ h.mem
  outputs := h.outputs
  stands k hk := by
    have hstands := h.stands k hk
    rcases Nat.lt_trichotomy k i with hlt | rfl | hgt
    · rw [if_pos hlt] at hstands
      rw [if_pos (by omega)]
      exact hstands.other ht (by omega)
    · rw [if_neg (Nat.lt_irrefl k)] at hstands
      rw [if_pos (Nat.lt_succ_self k)]
      exact hstands.take ht
    · rw [if_neg (by omega)] at hstands ⊢
      exact hstands.other ht (by omega)

variable (env) in
/-- A completion that could not be read. -/
theorem acts_onCompleteLoss {r : Round} {outputs : List (List UInt8)} {i : ℕ}
    (h : Scene β s links b) (hc : Cast β s r.site.crowd r.site.crowd)
    (hf : Finishing β s b r outputs i) {l : UInt64 → List Frame} (hrest : Rest s b l)
    {c : FrameChannel} (hchannel : s.connections[i]? = some c) (hdeaf : c.Deaf) (w : WorkerState)
    (reason : String) : ∃ b', Acts β (s.onCompleteLoss env r w reason) links b' := by
  have htells := Tells.say s b (.completeLost r.site.label w.boot reason) rfl
  have hlater := htells.later links
  have hbetween : Between β s links b r.site := by
    by_cases hi : i < 2
    · refine .inr ⟨i, ⟨hi, c, hchannel, hdeaf⟩, fun hone => .inl ?_⟩
      have hstands := hf.stands 0 Nat.zero_lt_two
      rwa [if_pos (by omega)] at hstands
    · -- it is a later worker, and the pair is done
      refine .inl ⟨hf.sites, fun k hk => ?_⟩
      have hstands := hf.stands k hk
      rwa [if_pos (by omega)] at hstands
  exact acts_afterAllreduce (h.silent htells) (hlater.cast hc) (hlater.between hbetween)
    (hlater.rest hrest).beyond

end Coordinator

end CollectiveFabric
