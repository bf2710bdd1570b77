import CollectiveFabric.Multiprocess.Acting

/-!
# What a turn comes to

The two acceptances, with the group that follows each, and the turn of the
coordinator: whatever it reads, it ends where its stage says.
-/

namespace CollectiveFabric

open Common

namespace Coordinator

variable {β : ℕ → UInt64} {s s' : Coordinator} {links : List Link} {b b' : Book}
variable {fs : ℕ → List Frame} {site : Site} {f : Frame} {k : ℕ} {env : Surroundings}

/-! ## The first acceptance -/

theorem acts_awaitBarrier (h : Scene β s links b) (hc : Cast β s 2 2) (he : s.executed = [])
    {i : ℕ} (hi : i ≤ 2) (hstands : ∀ k < 2, Reached (b.told k) (b.taken k)
      [acceptFrame (rankIn β k) 1] (if k < i then 3 else 2)) (hrest : Rest s b fun _ => []) :
    ∃ b', Acts β (s.awaitBarrier i) links b' := by
  unfold awaitBarrier
  rw [hc.workers]
  split_ifs with hlt
  · exact ⟨b, acts_goto h ⟨hc, he, hlt, hstands, hrest⟩⟩
  · obtain ⟨b₁, hack⟩ := exists_tells_sendEach h.inPlace (hc.connected le_rfl) b fun _ => barrierAck
    have hready : Ready β (s.sendEach fun _ => barrierAck) links b₁ .first := by
      refine .inl ⟨by rw [hack.executed, he]; rfl, fun k hk => ?_⟩
      have hat := hstands k hk
      rw [if_pos (by omega)] at hat
      obtain ⟨w, -, -, hlist⟩ := hc.toList_map (fun _ => barrierAck) hk
      unfold PoisedAt
      rw [hack.executed, he, hack.told, hack.taken, hlist]
      exact ⟨by rw [hat.told]; rfl, hat.count⟩
    have hrest₁ : Rest (s.sendEach fun _ => barrierAck) b₁ fun _ => [] := by
      refine (hc.tells hack).rest fun k hk hle => ?_
      rw [hack.workers] at hle
      rw [hack.told, hrest.beyond k hk hle, List.getElem?_eq_none hle]
      rfl
    have hscene := h.tells hack (fun k f hf hkind => by
      obtain ⟨w, -, rfl⟩ : ∃ w, s.workers[k]? = some w ∧ barrierAck = f := by simpa using hf
      cases hkind) (hrest₁.late fun _ _ => ⟨0, [], List.nil_prefix⟩)
    have hdone := Tells.text (s.sendEach fun _ => barrierAck) b₁ "PHASE_BARRIER_DONE"
    have hlater := hdone.later links
    exact acts_beginAllreduce .first (hscene.silent hdone) (hlater.cast (hc.tells hack))
      (hlater.ready hready) (hlater.rest hrest₁)

/-- The pair of two workers. -/
def bootsOf (w₀ w₁ : WorkerState) (k : ℕ) : UInt64 := if k = 0 then w₀.boot else w₁.boot

/-- Before a round, any pair will do. -/
theorem Scene.pair (h : Scene β s links b) (ho : s.executed = []) (ht : s.totals = [])
    {β' : ℕ → UInt64} (happart : β' 0 ≠ β' 1) : Scene β' s links b where
  wired := h.wired
  valid := h.valid
  inPlace := h.inPlace
  telling := h.telling
  shared r hr := by
    rw [ho] at hr
    cases hr
  sites := h.sites
  totals x hx := by
    rw [ht] at hx
    cases hx
  late := h.late
  apart := happart

/-- What a group of two tells its workers. -/
theorem announced_formGroup {rt rt' : Runtime} {amb : Ambient} {w₀ w₁ : WorkerState}
    {gen : UInt64} {g : CollectiveGroup} (hgen : gen ≠ 0)
    (hform : formGroup rt amb w₀ w₁ gen topoGeneration = (.ok g, rt')) (w : WorkerState) :
    (∃ rank, announced g gen w = acceptFrame rank gen) ∧
      (w.boot = w₀.boot → announced g gen w = acceptFrame (seat w₀.boot w₁.boot) gen) ∧
      (w.boot = w₁.boot → announced g gen w = acceptFrame (seat w₁.boot w₀.boot) gen) := by
  obtain ⟨h₀, h₁, hcount⟩ := rankOfBoot_formGroup hgen hform
  have hframe : announced g gen w = acceptFrame (rankOfBoot g w.boot).raw gen := by
    rw [announced, hcount]
    rfl
  refine ⟨⟨_, hframe⟩, fun hboot => ?_, fun hboot => ?_⟩
  · rw [hframe, hboot, h₀]
  · rw [hframe, hboot, h₁]

/-- What the pair is told of its group. -/
theorem announced_pair {rt rt' : Runtime} {amb : Ambient} {w₀ w₁ : WorkerState} {gen : UInt64}
    {g : CollectiveGroup} (hgen : gen ≠ 0)
    (hform : formGroup rt amb w₀ w₁ gen topoGeneration = (.ok g, rt')) (h₀ : w₀.boot = β 0)
    (h₁ : w₁.boot = β 1) {w : WorkerState} (hk : k < 2) (hw : w.boot = β k) :
    announced g gen w = acceptFrame (rankIn β k) gen := by
  obtain ⟨-, hfirst, hsecond⟩ := announced_formGroup hgen hform w
  rw [h₀, h₁] at hfirst hsecond
  match k, hk with
  | 0, _ => exact hfirst hw
  | 1, _ => exact hsecond hw

theorem acts_groupReady (h : Scene β s links b) (ho : s.executed = []) (ht : s.totals = [])
    (hworkers : s.workers.length = 2) (hconnections : s.connections.length = 2)
    (htold : ∀ k, b.told k = []) (htaken : ∀ k < 2, (b.taken k).length = 2) :
    ∃ β' b', Acts β' (s.groupReady env) links b' := by
  obtain ⟨w₀, w₁, hpair⟩ := List.length_eq_two.1 hworkers
  have hw₀ : s.workers[0]? = some w₀ := by rw [hpair]; rfl
  have hw₁ : s.workers[1]? = some w₁ := by rw [hpair]; rfl
  unfold groupReady
  simp only [hw₀, hw₁]
  cases hform : formGroup s.runtime (env.clocks 0) w₀ w₁ 1 topoGeneration with
  | mk res rt =>
  cases res with
  | error err => exact ⟨β, b, acts_goto (h.silent (.runtime s b rt)) trivial⟩
  | ok g =>
    have hgen : (1 : UInt64) ≠ 0 := by decide
    simp only [(formGroup_ok hform).2]
    let s₁ : Coordinator := { s with runtime := rt }
    have hscene : Scene (bootsOf w₀ w₁) s₁ links b :=
      (h.pair ho ht (formable_of_formGroup hgen hform).apart).silent (.runtime s b rt)
    have hc : Cast (bootsOf w₀ w₁) s₁ 2 2 := by
      refine ⟨fun k hk => ?_, hworkers, hconnections⟩
      match k, hk with
      | 0, _ => exact ⟨w₀, hw₀, rfl⟩
      | 1, _ => exact ⟨w₁, hw₁, rfl⟩
    obtain ⟨b₁, htells⟩ := exists_tells_announce hscene.inPlace (hc.connected le_rfl) b g 1
      .groupAccept fun _ _ => rfl
    have hready := htells.before (.text _ b₁ "PHASE_GROUP_READY gen=1 ranks=2")
    have hrest : Rest ((s₁.announce g 1 .groupAccept).say
        (.text "PHASE_GROUP_READY gen=1 ranks=2")) b₁ fun _ => [] := by
      refine (hc.tells hready).rest fun k hk hle => ?_
      rw [hready.workers] at hle
      rw [hready.told, htold, List.getElem?_eq_none hle]
      rfl
    have hscene₁ := hscene.tells hready (fun k f hf hkind => by
      obtain ⟨w, -, rfl⟩ : ∃ w, s.workers[k]? = some w ∧ announced g 1 w = f := by simpa using hf
      cases hkind) (hrest.late fun _ _ => ⟨0, [], List.nil_prefix⟩)
    refine ⟨_, acts_awaitBarrier hscene₁ (hc.tells hready) (htells.executed.trans ho)
      (Nat.zero_le 2) (fun k hk => ?_) hrest⟩
    · obtain ⟨w, -, hboot, hlist⟩ := hc.toList_map (announced g 1) hk
      have hframe := announced_pair (β := bootsOf w₀ w₁) hgen hform rfl rfl hk hboot
      rw [if_neg (Nat.not_lt_zero k), hready.told, hready.taken, htold, hlist, hframe]
      exact ⟨rfl, htaken k hk⟩

/-- A worker joins. -/
theorem Scene.join (h : Scene β s links b) {w : WorkerState} (hw : w.ch = s.workers.length) :
    Scene β (s.join w) links b where
  wired := h.wired
  valid := h.valid
  inPlace k v hv := by
    have hv : (s.workers ++ [w])[k]? = some v := hv
    rcases Nat.lt_trichotomy k s.workers.length with hk | rfl | hk
    · rw [List.getElem?_append_left hk] at hv
      exact h.inPlace k v hv
    · rw [List.getElem?_concat_length] at hv
      exact Option.some.inj hv ▸ hw
    · rw [List.getElem?_eq_none (by rw [List.length_append, List.length_singleton]; omega)] at hv
      cases hv
  telling := h.telling
  shared := h.shared
  sites := h.sites
  totals := h.totals
  late := h.late
  apart := h.apart

theorem acts_onJoin {ch : ℕ} {boot : UInt64} {name : Bytes} (h : Scene β s links b)
    (ho : Opening s b) (hch : ch = s.workers.length)
    (hconnections : s.connections.length = s.workers.length + 1)
    (htaken : (b.taken ch).length = 2) (f : Frame) :
    ∃ β' b', Acts β' (s.onJoin env ch boot name f) links b' := by
  unfold onJoin
  split_ifs
  · exact ⟨β, b, acts_quit h _⟩
  · let w : WorkerState := ⟨ch, boot, name⟩
    have hsay := Tells.say (s.join w) b (.acceptedWorker name boot) rfl
    have hscene := (h.join (w := w) hch).silent hsay
    have hlength : (s.workers ++ [w]).length = s.workers.length + 1 := by
      rw [List.length_append, List.length_singleton]
    have htaken' : ∀ k < s.workers.length + 1, (b.taken k).length = 2 := by
      intro k hk
      rcases Nat.lt_succ_iff_lt_or_eq.1 hk with hlt | rfl
      · exact ho.taken k hlt
      · exact hch ▸ htaken
    simp only
    split_ifs with hfew
    · have hfew : (s.workers ++ [w]).length < 2 := hfew
      refine ⟨β, b, acts_goto hscene ⟨⟨ho.executed, hsay.totals.trans ho.totals, hfew, ho.told,
        fun k hk => ?_⟩, ?_⟩⟩
      · have hk : k < (s.workers ++ [w]).length := hk
        exact htaken' k (hlength ▸ hk)
      · show s.connections.length = (s.workers ++ [w]).length
        rw [hlength, hconnections]
    · have hfew : ¬(s.workers ++ [w]).length < 2 := hfew
      have hone := ho.few
      have htwo : (s.workers ++ [w]).length = 2 := by omega
      refine acts_groupReady hscene ho.executed (hsay.totals.trans ho.totals) htwo ?_ ho.told
        fun k hk => htaken' k (by omega)
      show s.connections.length = 2
      rw [hconnections]
      omega

/-- The barrier a worker sends passes. -/
theorem acts_onBarrier (h : Scene β s links b) (hc : Cast β s 2 2) (he : s.executed = [])
    {i : ℕ} (hi : i < 2) (hstands : ∀ k < 2, Reached (b.told k) (b.taken k)
      [acceptFrame (rankIn β k) 1] (if k < i + 1 then 3 else 2)) (hrest : Rest s b fun _ => [])
    (f : Frame) : ∃ b', Acts β (s.onBarrier i f) links b' := by
  unfold onBarrier
  split_ifs
  · exact ⟨b, acts_quit h _⟩
  · split
    · exact ⟨b, acts_quit h _⟩
    · split_ifs
      · exact ⟨b, acts_quit h _⟩
      · exact acts_awaitBarrier h hc he hi hstands hrest

theorem acts_onHello {ch : ℕ} (h : Scene β s links b) (ho : Opening s b)
    (hch : ch = s.workers.length) (hconnections : s.connections.length = s.workers.length + 1)
    (htaken : (b.taken ch).length = 1) (f : Frame) : Acts β (s.onHello ch f) links b := by
  unfold onHello
  split_ifs
  · exact acts_quit h _
  · split
    · exact acts_quit h _
    · exact acts_goto h ⟨ho, hch, hconnections, htaken⟩

/-! ## The second acceptance -/

theorem tells_staleReplay (s : Coordinator) (live : WorkerBootId) (b : Book) :
    Tells s (s.staleReplay live) b b fun _ => [] := by
  rw [staleReplay]
  exact (Tells.foldl_say _ (fun _ => rfl) _ s b).before (.say _ b _ rfl)

/-- The second group, told to everyone. -/
theorem exists_tells_regrouped (h : s.InPlace) (hconnected : s.Connected) (b : Book)
    (g : CollectiveGroup) (live : WorkerBootId) :
    ∃ b', Tells s (s.regrouped g live) b b' fun k =>
      (s.workers[k]?.map (announced g 2)).toList := by
  obtain ⟨b', htells⟩ := exists_tells_announce h hconnected b g 2 .regenGroupAccept fun _ _ => rfl
  let s₁ := s.announce g 2 .regenGroupAccept
  let rt := s₁.runtime.setLiveBoot live
  let authority := { rt.authority with
    groupGeneration := ⟨2⟩
    collectiveGeneration := ⟨1⟩
    attemptGeneration := ⟨2⟩
    dispatchGeneration := ⟨2⟩ }
  have hruntime := htells.before (.runtime s₁ b' { rt with authority := authority })
  exact ⟨b', (hruntime.before (.text _ b' "PHASE_REGROUP gen=2")).before
    (tells_staleReplay _ live b')⟩

theorem acts_regroup (h : Scene β s links b) (hc : Cast β s 3 3)
    (hbetween : Between β s links b .loss) (hgreeted : Greeted s b 2)
    (htold : ∀ k, 2 ≤ k → b.told k = []) :
    ∃ b', Acts β (s.regroup env) links b' := by
  obtain ⟨w₀, hw₀, hboot₀⟩ := hc.boots 0 Nat.zero_lt_two
  obtain ⟨w₁, hw₁, hboot₁⟩ := hc.boots 1 Nat.one_lt_two
  unfold regroup
  simp only [hw₀, hw₁]
  cases hform : formGroup s.runtime (env.clocks 0) w₀ w₁ 2 topoGeneration with
  | mk res rt =>
  cases res with
  | error err => exact ⟨b, acts_goto (h.silent (.runtime s b rt)) trivial⟩
  | ok g =>
    have hgen : (2 : UInt64) ≠ 0 := by decide
    simp only [(formGroup_ok hform).2]
    let s₁ : Coordinator := { s with runtime := rt }
    have hlater := (Tells.runtime s b rt).later links
    have hscene := h.silent (.runtime s b rt)
    have hc₁ : Cast β s₁ 3 3 := hlater.cast hc
    obtain ⟨b₁, htells⟩ :=
      exists_tells_regrouped hscene.inPlace (hc₁.connected le_rfl) b g ⟨w₀.boot⟩
    have htoldPair {k : ℕ} (hk : k < 2) : (s₁.workers[k]?.map (announced g 2)).toList =
        [acceptFrame (rankIn β k) 2] := by
      obtain ⟨w, -, hboot, hlist⟩ := hc₁.toList_map (announced g 2) hk
      rw [hlist, announced_pair hgen hform hboot₀ hboot₁ hk hboot]
    have hready : Ready β (s₁.regrouped g ⟨w₀.boot⟩) links b₁ .second := by
      rcases hbetween with ⟨hsites, hrested⟩ | ⟨j, hlost, hj⟩
      · refine .inl ⟨by rw [htells.executed]; exact hsites, fun k hk => ?_⟩
        exact RestedAt.regen (s := s₁) (hrested k hk) htells (htoldPair hk)
      · refine .inr ⟨j, Lost.passed (s := s₁) hlost htells.passed, fun hone => ?_⟩
        -- a worker that waited for the result has ended
        rcases hj hone with hrested | ⟨σ, hheard⟩ | hspent
        · exact .inl (RestedAt.regen (s := s₁) hrested htells (htoldPair Nat.zero_lt_two))
        · refine .inr (.inr (HeardAt.spend (s := s₁) hheard hscene ?_ htells
            (htoldPair Nat.zero_lt_two) (by rw [kind_acceptFrame]; decide)))
          rw [hc₁.connections]
          omega
        · exact .inr (.inr (hspent.tell htells (htoldPair Nat.zero_lt_two)))
    have hrest : Rest (s₁.regrouped g ⟨w₀.boot⟩) b₁ fun _ => [] := by
      refine ⟨fun k hk hlt => ?_, fun k hk hlt => ?_, fun k hk hle => ?_⟩
      · rw [htells.workers] at hlt
        obtain ⟨⟨rank, hframe⟩, -⟩ := announced_formGroup hgen hform s₁.workers[k]
        refine ⟨rank, 0, ?_⟩
        rw [htells.told, htold k hk, List.getElem?_eq_getElem hlt, Option.map_some, hframe]
        rfl
      · rw [htells.workers, hc₁.workers] at hlt
        obtain rfl : k = 2 := by omega
        exact Greeted.tells (s := s₁) hgreeted htells
      · rw [htells.workers] at hle
        rw [htells.told, htold k hk, List.getElem?_eq_none hle]
        rfl
    have hscene₁ := hscene.tells htells (fun k f hf hkind => by
      obtain ⟨w, -, rfl⟩ : ∃ w, s.workers[k]? = some w ∧ announced g 2 w = f := by simpa using hf
      cases hkind) (hrest.late fun _ _ => ⟨0, [], List.nil_prefix⟩)
    refine acts_save hscene₁ fun s₂ h₂ => ?_
    have hlater₂ := h₂.later links
    exact acts_beginAllreduce .second (hscene₁.silent h₂)
      (hlater₂.cast (hc₁.tells htells)) (hlater₂.ready hready) (hlater₂.rest hrest)

theorem acts_onHelloFresh (h : Scene β s links b) (hc : Cast β s 2 3)
    (hbetween : Between β s links b .loss) (htaken : (b.taken 2).length = 1)
    (hrest : Rest s b fun _ => []) (f : Frame) : Acts β (s.onHelloFresh 2 f) links b := by
  unfold onHelloFresh
  split_ifs
  · exact acts_quit h _
  · exact acts_goto h ⟨hc, rfl, hbetween, htaken, hrest⟩

variable (env) in
theorem acts_onJoinFresh (h : Scene β s links b) (hc : Cast β s 2 3)
    (hbetween : Between β s links b .loss) (hgreeted : Greeted s b 2)
    (hrest : Rest s b fun _ => []) (boot : Option UInt64) (name : Bytes) :
    ∃ b', Acts β (s.onJoinFresh env 2 boot name) links b' := by
  cases boot with
  | none => exact ⟨b, acts_goto h trivial⟩
  | some boot => ?_
  let w : WorkerState := ⟨2, boot, name⟩
  have hsay := Tells.say (s.join w) b (.newWorker boot) rfl
  have hlater := hsay.later links
  have hscene := (h.join (w := w) hc.workers.symm).silent hsay
  have hc' : Cast β (s.join w) 3 3 := by
    refine ⟨fun k hk => ?_, ?_, hc.connections⟩
    · obtain ⟨v, hv, hboot⟩ := hc.boots k hk
      obtain ⟨hlt, -⟩ := List.getElem?_eq_some_iff.1 hv
      refine ⟨v, ?_, hboot⟩
      show (s.workers ++ [w])[k]? = some v
      rw [List.getElem?_append_left hlt, hv]
    · show (s.workers ++ [w]).length = 3
      rw [List.length_append, hc.workers]
      rfl
  refine acts_regroup hscene (hlater.cast hc') (hlater.between hbetween)
    (hlater.greeted hgreeted) fun k hk => ?_
  exact hrest.beyond k hk (hc.workers ▸ hk)

/-! ## The turn -/

/-- **A turn of `recv`**: a frame is taken, and it is the next the worker
sends; or the connection is deaf; or the read goes on. -/
theorem acts_recv (h : Acts β s links b) {c : FrameChannel} (hc : s.connections[k]? = some c)
    {onFrame : Frame → Coordinator → Coordinator} {onLoss : String → Coordinator → Coordinator}
    (hframe : ∀ f s', Takes s s' b k f → ¬c.Deaf →
      (∀ l, links[k]? = some l → Next l.worker.args (b.told k) (b.taken k) f) →
      ∃ β' b', Acts β' (onFrame f s') links b')
    (hloss : ∀ reason, c.Deaf → ∃ β' b', Acts β' (onLoss reason s) links b') :
    ∃ β' b', Acts β' (s.recv env k onFrame onLoss) links b' := by
  have hvalid := valid_recv c env.received
  unfold recv
  simp only [hc]
  split
  · next f c' hread =>
    have hnot : ¬c.Deaf := fun hdeaf => hdeaf.not_frame hread
    rw [hread] at hvalid
    refine hframe f _ ⟨rfl, rfl, rfl, .set hc hvalid fun hdeaf => absurd hdeaf hnot,
      fun links hw => hw.frame hc hread⟩ hnot fun l hl => ?_
    have hprefix := (h.scene.wired.frame hc hread).taken_prefix_scripted hl
    rw [taken_take] at hprefix
    exact hprefix
  · next reason c' hread =>
    obtain ⟨rfl, hdeaf, -⟩ := FrameChannel.recv_failed hread
    obtain ⟨hlt, hget⟩ := List.getElem?_eq_some_iff.1 hc
    have hsame : s.setChannel k c' = s := by
      rw [setChannel, ← hget, List.set_getElem_self]
    rw [hsame]
    exact hloss reason hdeaf
  · next c' hread =>
    rw [hread] at hvalid
    have htells : Tells s (s.setChannel k c') b b fun _ => [] := by
      refine ⟨rfl, rfl, rfl, .set hc hvalid fun hdeaf => ?_, fun links hw => hw.pending hc hread,
        fun _ => (List.append_nil _).symm, rfl⟩
      have hsame := hdeaf.recv_snd env.received
      rw [hread] at hsame
      exact (show c' = c from hsame) ▸ hdeaf
    exact ⟨β, b, h.scene.silent htells, (htells.later links).stage h.stage⟩

theorem exists_connection (h : s.InPlace) {w : WorkerState} (hw : s.workers[k]? = some w)
    (hconnected : s.Connected) : w.ch = k ∧ ∃ c, s.connections[k]? = some c := by
  obtain ⟨hlt, -⟩ := List.getElem?_eq_some_iff.1 hw
  exact ⟨h k w hw, _, List.getElem?_eq_getElem (Nat.lt_of_lt_of_le hlt hconnected)⟩

/-- The place whose contribution is awaited is one of the pair's. -/
theorem Playing.length_lt {r : Round} (h : Playing β s links b r) : r.contributions.length < 2 := by
  rcases h with ⟨-, -, hlt, -⟩ | ⟨j, hj, hle, -⟩
  · exact hlt
  · have hlt := hj.1
    omega

/-- Where a contribution is awaited and more frames come, the worker has
been asked for it. -/
theorem Playing.asked {r : Round} (h : Playing β s links b r)
    {c : FrameChannel} (hc : s.connections[r.contributions.length]? = some c) (hdeaf : ¬c.Deaf)
    {l : Link} (hl : links[r.contributions.length]? = some l)
    (hnext : Next l.worker.args (b.told r.contributions.length) (b.taken r.contributions.length)
      f) : AskedAt β s b r.site r.contributions.length := by
  rcases h with ⟨-, -, hlt, hstands⟩ | ⟨j, ⟨hj, d, hd, hddeaf⟩, hle, hheard⟩
  · have hasked := hstands _ hlt
    rwa [if_neg (Nat.lt_irrefl _)] at hasked
  · rcases Nat.lt_or_ge r.contributions.length j with hlt | hge
    · -- the second of the pair is lost, and the first is awaited
      have hzero : r.contributions.length = 0 := by omega
      have hheard := hheard (by omega)
      rw [if_pos hzero] at hheard
      rw [hzero] at hl hnext ⊢
      rcases hheard with hasked | ⟨l', hl', hspent⟩
      · exact hasked
      · obtain rfl : l' = l := Option.some.inj (hl'.symm.trans hl)
        exact absurd hnext hspent.not_next
    · obtain rfl : j = r.contributions.length := by omega
      obtain rfl : d = c := Option.some.inj (hd.symm.trans hc)
      exact absurd hddeaf hdeaf

/-- **The next frame where a contribution is awaited is one**, and the pair
goes on from there. -/
theorem Playing.next {r : Round} (h : Playing β s links b r) (hscene : Scene β s links b)
    {c : FrameChannel} (hc : s.connections[r.contributions.length]? = some c) (hdeaf : ¬c.Deaf)
    {l : Link} (hl : links[r.contributions.length]? = some l)
    (hnext : Next l.worker.args (b.told r.contributions.length) (b.taken r.contributions.length)
      f) :
    f = Worker.contribution l.worker.args.boot (rankIn β r.contributions.length)
      r.site.request := by
  have hfew := hscene.few
  exact Asked.next (h.asked hc hdeaf hl hnext) (by omega) hscene.output_length hnext

theorem acts_contribution {r : Round} (h : Acts β s links b) (hphase : s.phase = .contribution r) :
    ∃ β' b', Acts β' (s.turn env) links b' := by
  have hstage := h.stage
  rw [hphase] at hstage
  obtain ⟨hcast, hplaying, hrest⟩ := hstage
  have hlt := hplaying.length_lt
  obtain ⟨w, hw, -⟩ := hcast.boots _ hlt
  obtain ⟨hch, c, hc⟩ := exists_connection h.scene.inPlace hw (hcast.connected le_rfl)
  have hturn : s.turn env = s.recv env r.contributions.length (onContribution env r w)
      (onContributionLoss env r w) := by
    simp only [turn, hphase, hw, hch]
  rw [hturn]
  refine acts_recv h hc (fun f s' ht hdeaf hnext => ?_) fun reason hdeaf => ?_
  swap
  · obtain ⟨b', hacts⟩ := acts_onContributionLoss h.scene hcast hplaying hrest hc hdeaf w reason
    exact ⟨β, b', hacts⟩
  obtain ⟨hclt, -⟩ := List.getElem?_eq_some_iff.1 hc
  obtain ⟨l, hl⟩ := h.scene.exists_link hclt
  obtain rfl := hplaying.next h.scene hc hdeaf hl (hnext l hl)
  obtain ⟨b', hacts⟩ := acts_onContribution env (h.scene.takes ht) (hcast.takes ht)
    (hrest.takes ht fun j hj _ => by omega) w l.worker.args.boot
    (rankIn β r.contributions.length) (by
      rcases hplaying with ⟨hsites, hshares, -, hstands⟩ | ⟨j, hlost, hle, hheard⟩
      · refine .inl ⟨by rw [ht.executed, hsites], ?_, hlt, fun k hk => ?_⟩
        · rw [hshares]
          match r.contributions.length, hlt with
          | 0, _ => rfl
          | 1, _ => rfl
        · have hat := hstands k hk
          rcases Nat.lt_trichotomy k r.contributions.length with hlt' | rfl | hgt
          · rw [if_pos hlt'] at hat
            rw [if_pos (by omega)]
            exact hat.other ht (by omega)
          · rw [if_neg (Nat.lt_irrefl _)] at hat
            rw [if_pos (Nat.lt_succ_self _)]
            exact hat.take ht
          · rw [if_neg (by omega)] at hat ⊢
            exact hat.other ht (by omega)
      · rcases Nat.lt_or_ge r.contributions.length j with hlt' | hge
        · have hj := hlost.1
          have hzero : r.contributions.length = 0 := by omega
          have hheard := hheard (by omega)
          rw [if_pos hzero] at hheard
          rw [hzero] at ht hnext hl ⊢
          rcases hheard with hasked | ⟨l', hl', hspent⟩
          · exact .inr ⟨j, hlost.passed ht.passed, by omega, hasked.take ht⟩
          · obtain rfl : l' = l := Option.some.inj (hl'.symm.trans hl)
            exact absurd (hnext l' hl') hspent.not_next
        · obtain ⟨hj, d, hd, hddeaf⟩ := hlost
          obtain rfl : j = r.contributions.length := by omega
          obtain rfl : d = c := Option.some.inj (hd.symm.trans hc)
          exact absurd hddeaf hdeaf)
  exact ⟨β, b', hacts⟩

theorem acts_complete {r : Round} {outputs : List (List UInt8)} {i : ℕ} (h : Acts β s links b)
    (hphase : s.phase = .complete r outputs i) : ∃ β' b', Acts β' (s.turn env) links b' := by
  have hstage := h.stage
  rw [hphase] at hstage
  obtain ⟨hcast, hfinishing, hi, hrest⟩ := hstage
  have hw : s.workers[i]? = some s.workers[i] := List.getElem?_eq_getElem hi
  obtain ⟨hch, c, hc⟩ := exists_connection h.scene.inPlace hw (hcast.connected le_rfl)
  have hturn : s.turn env = s.recv env i (fun _ => onComplete env r outputs i)
      (onCompleteLoss env r s.workers[i]) := by
    simp only [turn, hphase, hw, hch]
  rw [hturn]
  refine acts_recv h hc (fun f s' ht _ _ => ?_) fun reason hdeaf => ?_
  · -- the last of three workers has nobody after it
    have hmost : s.workers.length ≤ 3 := by
      rw [hcast.workers]
      cases r.site <;> decide
    obtain ⟨b', hacts⟩ := acts_awaitComplete env (h.scene.takes ht) (hcast.takes ht)
      (hfinishing.take ht) (fun hlt => hrest.takes ht fun j hj hjlt => by
        rw [ht.workers] at hlt
        omega) fun j hj hle => hrest.beyond j hj (ht.workers ▸ hle)
    exact ⟨β, b', hacts⟩
  · obtain ⟨b', hacts⟩ := acts_onCompleteLoss env h.scene hcast hfinishing hrest hc hdeaf
      s.workers[i] reason
    exact ⟨β, b', hacts⟩

theorem Opening.takes (h : Opening s b) (ht : Takes s s' b k f) (hk : k = s.workers.length) :
    Opening s' (b.take k f) where
  executed := ht.executed.trans h.executed
  totals := ht.totals.trans h.totals
  few := ht.workers ▸ h.few
  told := h.told
  taken j hj := by
    rw [ht.workers] at hj
    rw [taken_take_of_ne b f (by omega)]
    exact h.taken j hj

theorem acts_hello {ch : ℕ} (h : Acts β s links b) (hphase : s.phase = .hello ch) :
    ∃ β' b', Acts β' (s.turn env) links b' := by
  have hstage := h.stage
  rw [hphase] at hstage
  obtain ⟨ho, hch, hlength, htaken⟩ := hstage
  have hc : s.connections[ch]? = some s.connections[ch] := List.getElem?_eq_getElem (by omega)
  unfold turn
  simp only [hphase]
  refine acts_recv h hc (fun f s' ht _ _ => ?_) fun reason _ => ⟨β, b, acts_quit h.scene _⟩
  refine ⟨β, _, acts_onHello (h.scene.takes ht) (ho.takes ht hch) ?_ ?_ ?_ f⟩
  · rw [ht.workers, hch]
  · rw [ht.passed.length, ht.workers, hlength]
  · rw [taken_take, List.length_append, htaken]
    rfl

theorem acts_join {ch : ℕ} {boot : UInt64} {name : Bytes} (h : Acts β s links b)
    (hphase : s.phase = .join ch boot name) : ∃ β' b', Acts β' (s.turn env) links b' := by
  have hstage := h.stage
  rw [hphase] at hstage
  obtain ⟨ho, hch, hlength, htaken⟩ := hstage
  have hc : s.connections[ch]? = some s.connections[ch] := List.getElem?_eq_getElem (by omega)
  unfold turn
  simp only [hphase]
  refine acts_recv h hc (fun f s' ht _ _ => ?_) fun reason _ => ⟨β, b, acts_quit h.scene _⟩
  refine acts_onJoin (h.scene.takes ht) (ho.takes ht hch) ?_ ?_ ?_ f
  · rw [ht.workers, hch]
  · rw [ht.passed.length, ht.workers, hlength]
  · rw [taken_take, List.length_append, htaken]
    rfl

theorem acts_barrier {i : ℕ} (h : Acts β s links b) (hphase : s.phase = .barrier i) :
    ∃ β' b', Acts β' (s.turn env) links b' := by
  have hstage := h.stage
  rw [hphase] at hstage
  obtain ⟨hcast, he, hi, hstands, hrest⟩ := hstage
  obtain ⟨w, hw, -⟩ := hcast.boots i hi
  obtain ⟨hch, c, hc⟩ := exists_connection h.scene.inPlace hw (hcast.connected le_rfl)
  unfold turn
  simp only [hphase, hw, hch]
  refine acts_recv h hc (fun f s' ht _ _ => ?_) fun reason _ => ⟨β, b, acts_quit h.scene _⟩
  have hnext : ∀ k < 2, Reached ((b.take i f).told k) ((b.take i f).taken k)
      [acceptFrame (rankIn β k) 1] (if k < i + 1 then 3 else 2) := by
    intro k hk
    have hat := hstands k hk
    rcases Nat.lt_trichotomy k i with hlt | rfl | hgt
    · rw [if_pos hlt] at hat
      rw [if_pos (by omega), taken_take_of_ne b f (by omega)]
      exact hat
    · rw [if_neg (Nat.lt_irrefl k)] at hat
      rw [if_pos (Nat.lt_succ_self k), taken_take]
      exact ⟨hat.told, by rw [List.length_append, hat.count]; rfl⟩
    · rw [if_neg (by omega)] at hat ⊢
      rw [taken_take_of_ne b f (by omega)]
      exact hat
  obtain ⟨b', hacts⟩ := acts_onBarrier (h.scene.takes ht) (hcast.takes ht)
    (ht.executed.trans he) hi hnext (hrest.takes ht fun j hj _ => by omega) f
  exact ⟨β, b', hacts⟩

/-- The fresh worker's connection is there. -/
theorem Cast.connection_two (h : Cast β s 2 3) : ∃ c, s.connections[2]? = some c :=
  have hlt : 2 < s.connections.length := by rw [h.connections]; omega
  ⟨_, List.getElem?_eq_getElem hlt⟩

theorem acts_helloFresh {ch : ℕ} (h : Acts β s links b) (hphase : s.phase = .helloFresh ch) :
    ∃ β' b', Acts β' (s.turn env) links b' := by
  have hstage := h.stage
  rw [hphase] at hstage
  obtain ⟨hcast, rfl, hbetween, htaken, hrest⟩ := hstage
  obtain ⟨c, hc⟩ := hcast.connection_two
  unfold turn
  simp only [hphase]
  refine acts_recv h hc (fun f s' ht _ _ => ?_) fun reason _ => ?_
  · refine ⟨β, _, acts_onHelloFresh (h.scene.takes ht) (hcast.takes ht) (hbetween.other ht le_rfl)
      ?_ (hrest.takes ht fun j hj hlt => by rw [hcast.workers] at hlt; omega) f⟩
    rw [taken_take, List.length_append, htaken]
    rfl
  · -- the default frame is no `HELLO`
    refine ⟨β, b, ?_⟩
    have hquit : s.onHelloFresh 2 {} = s.quit "COORD expected HELLO from A'" := rfl
    rw [hquit]
    exact acts_quit h.scene _

theorem acts_joinFresh {ch : ℕ} {boot : Option UInt64} {name : Bytes} (h : Acts β s links b)
    (hphase : s.phase = .joinFresh ch boot name) : ∃ β' b', Acts β' (s.turn env) links b' := by
  have hstage := h.stage
  rw [hphase] at hstage
  obtain ⟨hcast, rfl, hbetween, htaken, hrest⟩ := hstage
  obtain ⟨c, hc⟩ := hcast.connection_two
  unfold turn
  simp only [hphase]
  refine acts_recv h hc (fun f s' ht _ _ => ?_) fun reason hdeaf => ?_
  · have hgreeted : Greeted s' (b.take 2 f) 2 := by
      refine .inl ?_
      rw [taken_take, List.length_append, htaken]
      rfl
    obtain ⟨b', hacts⟩ := acts_onJoinFresh env (h.scene.takes ht) (hcast.takes ht)
      (hbetween.other ht le_rfl) hgreeted
      (hrest.takes ht fun j hj hlt => by rw [hcast.workers] at hlt; omega) boot name
    exact ⟨β, b', hacts⟩
  · obtain ⟨b', hacts⟩ :=
      acts_onJoinFresh env h.scene hcast hbetween (.inr ⟨c, hc, hdeaf⟩) hrest boot name
    exact ⟨β, b', hacts⟩

/-- One more connection. -/
theorem Scene.accept (h : Scene β s links b) (hlt : s.connections.length < links.length) :
    Scene β { s with connections := s.connections ++ [({} : FrameChannel)] } links b where
  wired := h.wired.accept hlt
  valid c hc := by
    rcases List.mem_append.1 hc with hc | hc
    · exact h.valid c hc
    · exact List.mem_singleton.1 hc ▸ rfl
  inPlace := h.inPlace
  telling := h.telling
  shared := h.shared
  sites := h.sites
  totals := h.totals
  late := h.late
  apart := h.apart

/-- Nothing has been taken from a connection that is new. -/
theorem Scene.taken_new (h : Scene β s links b) (hlt : s.connections.length < links.length) :
    b.taken s.connections.length = [] :=
  (h.wired.ahead _ _ le_rfl (List.getElem?_eq_getElem hlt)).2.1

theorem Between.accept (h : Between β s links b site) :
    Between β { s with connections := s.connections ++ [({} : FrameChannel)] } links b site := by
  refine h.imp_right fun ⟨j, ⟨hj, c, hc, hdeaf⟩, hstands⟩ => ⟨j, ⟨hj, c, ?_, hdeaf⟩, hstands⟩
  obtain ⟨hlt, -⟩ := List.getElem?_eq_some_iff.1 hc
  show (s.connections ++ [({} : FrameChannel)])[j]? = _
  rw [List.getElem?_append_left hlt, hc]

theorem length_accept (s : Coordinator) :
    (s.connections ++ [({} : FrameChannel)]).length = s.connections.length + 1 := by
  rw [List.length_append, List.length_singleton]

/-- **Every turn ends where its stage says**, when whoever is accepted is
there. -/
theorem acts_turn (h : Acts β s links b) (env : Surroundings)
    (hlinks : s.phase = .accept ∨ s.phase = .acceptFresh → env.accepts = true →
      s.connections.length < links.length) : ∃ β' b', Acts β' (s.turn env) links b' := by
  have hstage := h.stage
  cases hphase : s.phase with
  | accept =>
    rw [hphase] at hstage
    obtain ⟨ho, hlength⟩ := hstage
    unfold turn onAccept
    simp only [hphase]
    split_ifs with haccepts
    · have hlt := hlinks (.inl hphase) haccepts
      refine ⟨β, b, acts_goto (h.scene.accept hlt) ⟨⟨ho.executed, ho.totals, ho.few, ho.told,
        ho.taken⟩, hlength, ?_, ?_⟩⟩
      · exact (length_accept s).trans (congrArg (· + 1) hlength)
      · rw [h.scene.taken_new hlt]
        rfl
    · exact ⟨β, b, acts_quit h.scene _⟩
  | hello ch => exact acts_hello h hphase
  | join ch boot name => exact acts_join h hphase
  | barrier i => exact acts_barrier h hphase
  | contribution r => exact acts_contribution h hphase
  | complete r outputs i => exact acts_complete h hphase
  | acceptFresh =>
    rw [hphase] at hstage
    obtain ⟨hcast, hbetween, hrest⟩ := hstage
    unfold turn onAccept
    simp only [hphase]
    split_ifs with haccepts
    · have hlt := hlinks (.inr hphase) haccepts
      have hcast' : Cast β { s with connections := s.connections ++ [({} : FrameChannel)] } 2 3 :=
        ⟨hcast.boots, hcast.workers, (length_accept s).trans (congrArg (· + 1) hcast.connections)⟩
      refine ⟨β, b, acts_goto (h.scene.accept hlt) ⟨hcast', hcast.connections, hbetween.accept, ?_,
        hcast'.rest hrest.beyond⟩⟩
      have htaken := h.scene.taken_new hlt
      rw [hcast.connections] at htaken
      rw [htaken]
      rfl
    · exact ⟨β, b, acts_quit h.scene _⟩
  | helloFresh ch => exact acts_helloFresh h hphase
  | joinFresh ch boot name => exact acts_joinFresh h hphase
  | returned code | threw e | undefined =>
    unfold turn
    simp only [hphase]
    exact ⟨β, b, h⟩

end Coordinator

end CollectiveFabric
