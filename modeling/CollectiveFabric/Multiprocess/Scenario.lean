import CollectiveFabric.Multiprocess.Scene

/-!
# The scenario, phase by phase

Until a worker of the pair is lost, both stand where the coordinator's
phase has them. Once one is lost its connection stays deaf, and every
round ends at its place or before: then only the first of the two can
still be heard, and only where the second is the one that is lost.
-/

namespace CollectiveFabric

open Common

/-- The sites before this one. -/
def Site.before : Site → List Site
  | .first => []
  | .loss => [.first]
  | .second => [.first, .loss]

/-- The number of workers at a site's round. -/
def Site.crowd : Site → ℕ
  | .second => 3
  | _ => 2

namespace Coordinator

/-- The rank of the worker in place `k` of a pair with these boots. -/
def rankIn (β : ℕ → UInt64) (k : ℕ) : UInt64 := seat (β k) (β (1 - k))

/-- What a worker accepted after the pair is told: at most its acceptance
and a round on the second group. -/
def Late (told : List Frame) : Prop :=
  ∃ rank boot output, told <+:
    [acceptFrame rank 2, requestFrame .second, resultFrame .second boot output]

/-- **What holds at every phase.** The results told are those of rounds
that the engine was handed, and these rounds had the shares of the
pair. -/
structure Scene (β : ℕ → UInt64) (s : Coordinator) (links : List Link) (b : Book) : Prop where
  wired : Wired s.connections links b
  valid : ∀ c ∈ s.connections, c.valid = true
  inPlace : s.InPlace
  telling : ∀ (k : ℕ) (f : Frame), f ∈ b.told k → f.kind = .of .result →
    ∃ r ∈ s.executed, ∃ boot, f = resultFrame r.site boot r.output
  shared : ∀ r ∈ s.executed, r.Shared (rankIn β 0) (rankIn β 1)
  sites : s.executed.map (·.site) <+: [.first, .loss, .second]
  totals : ∀ x ∈ s.totals, x = firstSum (rankIn β 0) (rankIn β 1)
  late : ∀ k, 2 ≤ k → Late (b.told k)
  apart : β 0 ≠ β 1

section

variable (β : ℕ → UInt64) (s : Coordinator) (links : List Link) (b : Book)

/-! ## Where the pair stands -/

def PoisedAt (site : Site) (k : ℕ) : Prop :=
  Poised (rankIn β k) (β k) s.executed (b.told k) (b.taken k) site

def AskedAt (site : Site) (k : ℕ) : Prop :=
  Asked (rankIn β k) (β k) s.executed (b.told k) (b.taken k) site

def HeardAt (site : Site) (k : ℕ) : Prop :=
  Heard (rankIn β k) (β k) s.executed (b.told k) (b.taken k) site

def OwingAt (k : ℕ) : Prop := Owing (rankIn β k) (β k) s.executed (b.told k) (b.taken k)

def RestedAt (k : ℕ) : Prop := Rested (rankIn β k) (β k) s.executed (b.told k) (b.taken k)

def SpentAt (k : ℕ) : Prop :=
  ∃ l, links[k]? = some l ∧ Spent l.worker.args (b.told k) (b.taken k)

/-- The worker in place `j` of the pair is lost. -/
def Lost (j : ℕ) : Prop := j < 2 ∧ ∃ c, s.connections[j]? = some c ∧ c.Deaf

/-- The pair before a round. -/
def Ready (site : Site) : Prop :=
  (s.executed.map (·.site) = site.before ∧ ∀ k < 2, PoisedAt β s b site k) ∨
    ∃ j, s.Lost j ∧
      (j = 1 → PoisedAt β s b site 0 ∨ (∃ σ, HeardAt β s b σ 0) ∨ SpentAt links b 0)

/-- The pair where a contribution to `r` is awaited. -/
def Playing (r : Round) : Prop :=
  (s.executed.map (·.site) = r.site.before ∧
    r.contributions.map (·.bytes.toList) =
      [share (rankIn β 0), share (rankIn β 1)].take r.contributions.length ∧
    r.contributions.length < 2 ∧
    ∀ k < 2, if k < r.contributions.length then HeardAt β s b r.site k
      else AskedAt β s b r.site k) ∨
    ∃ j, s.Lost j ∧ r.contributions.length ≤ j ∧
      (j = 1 → if r.contributions.length = 0 then AskedAt β s b r.site 0 ∨ SpentAt links b 0
        else HeardAt β s b r.site 0)

/-- The pair where the completion of the worker in place `i` is awaited. -/
structure Finishing (r : Round) (outputs : List (List UInt8)) (i : ℕ) : Prop where
  sites : s.executed.map (·.site) = r.site.before ++ [r.site]
  mem : r ∈ s.executed
  outputs : outputs = [r.output, r.output]
  stands : ∀ k < 2, if k < i then RestedAt β s b k else OwingAt β s b k

/-- The pair after a round. -/
def Between (site : Site) : Prop :=
  (s.executed.map (·.site) = site.before ++ [site] ∧ ∀ k < 2, RestedAt β s b k) ∨
    ∃ j, s.Lost j ∧
      (j = 1 → RestedAt β s b 0 ∨ (∃ σ, HeardAt β s b σ 0) ∨ SpentAt links b 0)

/-! ## The workers -/

/-- The workers of the group. -/
structure Cast (n m : ℕ) : Prop where
  boots : ∀ k < 2, ∃ w, s.workers[k]? = some w ∧ w.boot = β k
  workers : s.workers.length = n
  connections : s.connections.length = m

/-- The two greetings of a worker have been taken, or nothing more comes
from it. -/
def Greeted (k : ℕ) : Prop :=
  (b.taken k).length = 2 ∨ ∃ c, s.connections[k]? = some c ∧ c.Deaf

/-- The workers after the pair have greeted and been told `fs` after their
acceptance, and nobody else has been told anything. -/
structure Rest (fs : UInt64 → List Frame) : Prop where
  later : ∀ k, 2 ≤ k → k < s.workers.length →
    ∃ rank boot, b.told k = acceptFrame rank 2 :: fs boot
  greeted : ∀ k, 2 ≤ k → k < s.workers.length → Greeted s b k
  beyond : ∀ k, 2 ≤ k → s.workers.length ≤ k → b.told k = []

/-- Before the group is formed. -/
structure Opening : Prop where
  executed : s.executed = []
  totals : s.totals = []
  few : s.workers.length < 2
  told : ∀ k, b.told k = []
  taken : ∀ k < s.workers.length, (b.taken k).length = 2

/-! ## The phases -/

/-- **Where everything stands at a phase.** -/
def Stage : Phase → Prop
  | .accept => Opening s b ∧ s.connections.length = s.workers.length
  | .hello ch => Opening s b ∧ ch = s.workers.length ∧
      s.connections.length = s.workers.length + 1 ∧ (b.taken ch).length = 0
  | .join ch _ _ => Opening s b ∧ ch = s.workers.length ∧
      s.connections.length = s.workers.length + 1 ∧ (b.taken ch).length = 1
  | .barrier i => Cast β s 2 2 ∧ s.executed = [] ∧ i < 2 ∧
      (∀ k < 2, Reached (b.told k) (b.taken k) [acceptFrame (rankIn β k) 1]
        (if k < i then 3 else 2)) ∧ Rest s b fun _ => []
  | .contribution r => Cast β s r.site.crowd r.site.crowd ∧ Playing β s links b r ∧
      Rest s b fun _ => [requestFrame r.site]
  | .complete r outputs i => Cast β s r.site.crowd r.site.crowd ∧
      Finishing β s b r outputs i ∧ i < s.workers.length ∧
      Rest s b fun boot => [requestFrame r.site, resultFrame r.site boot r.output]
  | .acceptFresh => Cast β s 2 2 ∧ Between β s links b .loss ∧ Rest s b fun _ => []
  | .helloFresh ch => Cast β s 2 3 ∧ ch = 2 ∧ Between β s links b .loss ∧
      (b.taken 2).length = 0 ∧ Rest s b fun _ => []
  | .joinFresh ch _ _ => Cast β s 2 3 ∧ ch = 2 ∧ Between β s links b .loss ∧
      (b.taken 2).length = 1 ∧ Rest s b fun _ => []
  | .returned _ | .threw _ | .undefined => True

/-- The whole of it. -/
structure Acts : Prop where
  scene : Scene β s links b
  stage : Stage β s links b s.phase

end

variable {β : ℕ → UInt64} {s s' : Coordinator} {links links' : List Link} {b b' : Book}
variable {fs : ℕ → List Frame} {site : Site}

/-! ## Later on -/

/-- Nothing was told or taken, and the connections are later ones. -/
structure Later (s s' : Coordinator) (links links' : List Link) (b b' : Book) : Prop where
  workers : s'.workers = s.workers
  executed : s'.executed = s.executed
  totals : s'.totals = s.totals
  passed : Passed s.connections s'.connections
  same : SameWorkers links links'
  told : b'.told = b.told
  taken : b'.taken = b.taken

namespace Later

theorem spentAt (h : Later s s' links links' b b') {k : ℕ} (hs : SpentAt links b k) :
    SpentAt links' b' k := by
  obtain ⟨l, hl, hspent⟩ := hs
  obtain ⟨l', hl', hargs⟩ := h.same k l hl
  refine ⟨l', hl', ?_⟩
  rw [hargs, h.told, h.taken]
  exact hspent

theorem lost (h : Later s s' links links' b b') {j : ℕ} (hl : s.Lost j) : s'.Lost j := by
  obtain ⟨hj, c, hc, hdeaf⟩ := hl
  exact ⟨hj, h.passed.deaf j c hc hdeaf⟩

theorem cast (h : Later s s' links links' b b') {n m : ℕ} (hc : Cast β s n m) : Cast β s' n m where
  boots k hk := by
    rw [h.workers]
    exact hc.boots k hk
  workers := by rw [h.workers, hc.workers]
  connections := by rw [h.passed.length, hc.connections]

theorem greeted (h : Later s s' links links' b b') {k : ℕ} (hg : Greeted s b k) :
    Greeted s' b' k := by
  unfold Greeted at hg ⊢
  rw [h.taken]
  exact hg.imp_right fun ⟨c, hc, hdeaf⟩ => h.passed.deaf k c hc hdeaf

theorem rest (h : Later s s' links links' b b') {fs : UInt64 → List Frame} (hr : Rest s b fs) :
    Rest s' b' fs where
  later k hk hlt := by
    rw [h.told]
    exact hr.later k hk (h.workers ▸ hlt)
  greeted k hk hlt := h.greeted (hr.greeted k hk (h.workers ▸ hlt))
  beyond k hk hle := by
    rw [h.told]
    exact hr.beyond k hk (h.workers ▸ hle)

theorem opening (h : Later s s' links links' b b') (ho : Opening s b) : Opening s' b' where
  executed := h.executed.trans ho.executed
  totals := h.totals.trans ho.totals
  few := h.workers ▸ ho.few
  told k := by rw [h.told, ho.told]
  taken k hk := by
    rw [h.taken]
    exact ho.taken k (h.workers ▸ hk)

theorem between (h : Later s s' links links' b b') (hb : Between β s links b site) :
    Between β s' links' b' site := by
  unfold Between RestedAt HeardAt at hb ⊢
  rw [h.executed, h.told, h.taken]
  refine hb.imp_right fun ⟨j, hlost, hj⟩ => ⟨j, h.lost hlost, fun hone => ?_⟩
  exact (hj hone).imp_right (Or.imp_right h.spentAt)

theorem ready (h : Later s s' links links' b b') (hr : Ready β s links b site) :
    Ready β s' links' b' site := by
  unfold Ready PoisedAt HeardAt at hr ⊢
  rw [h.executed, h.told, h.taken]
  refine hr.imp_right fun ⟨j, hlost, hj⟩ => ⟨j, h.lost hlost, fun hone => ?_⟩
  exact (hj hone).imp_right (Or.imp_right h.spentAt)

theorem playing (h : Later s s' links links' b b') {r : Round} (hp : Playing β s links b r) :
    Playing β s' links' b' r := by
  unfold Playing HeardAt AskedAt at hp ⊢
  rw [h.executed, h.told, h.taken]
  refine hp.imp_right fun ⟨j, hlost, hle, hj⟩ => ⟨j, h.lost hlost, hle, fun hone => ?_⟩
  have hj' := hj hone
  split_ifs at hj' ⊢
  · exact hj'.imp_right h.spentAt
  · exact hj'

theorem finishing (h : Later s s' links links' b b') {r : Round} {outputs : List (List UInt8)}
    {i : ℕ} (hc : Finishing β s b r outputs i) : Finishing β s' b' r outputs i where
  sites := by rw [h.executed, hc.sites]
  mem := h.executed ▸ hc.mem
  outputs := hc.outputs
  stands := by
    unfold RestedAt OwingAt
    rw [h.executed, h.told, h.taken]
    exact hc.stands

/-- **The stage stays as it is.** -/
theorem stage (h : Later s s' links links' b b') {p : Phase} (hs : Stage β s links b p) :
    Stage β s' links' b' p := by
  cases p with
  | accept => exact ⟨h.opening hs.1, by rw [h.passed.length, h.workers, hs.2]⟩
  | hello ch =>
    obtain ⟨ho, hch, hlength, htaken⟩ := hs
    exact ⟨h.opening ho, by rw [h.workers, hch], by rw [h.passed.length, h.workers, hlength],
      by rw [h.taken, htaken]⟩
  | join ch boot name =>
    obtain ⟨ho, hch, hlength, htaken⟩ := hs
    exact ⟨h.opening ho, by rw [h.workers, hch], by rw [h.passed.length, h.workers, hlength],
      by rw [h.taken, htaken]⟩
  | barrier i =>
    obtain ⟨hc, he, hi, hstands, hr⟩ := hs
    refine ⟨h.cast hc, h.executed.trans he, hi, ?_, h.rest hr⟩
    rw [h.told, h.taken]
    exact hstands
  | contribution r => exact ⟨h.cast hs.1, h.playing hs.2.1, h.rest hs.2.2⟩
  | complete r outputs i =>
    obtain ⟨hc, hfinishing, hi, hr⟩ := hs
    exact ⟨h.cast hc, h.finishing hfinishing, h.workers ▸ hi, h.rest hr⟩
  | acceptFresh => exact ⟨h.cast hs.1, h.between hs.2.1, h.rest hs.2.2⟩
  | helloFresh ch =>
    obtain ⟨hc, hch, hb, htaken, hr⟩ := hs
    exact ⟨h.cast hc, hch, h.between hb, by rw [h.taken, htaken], h.rest hr⟩
  | joinFresh ch boot name =>
    obtain ⟨hc, hch, hb, htaken, hr⟩ := hs
    exact ⟨h.cast hc, hch, h.between hb, by rw [h.taken, htaken], h.rest hr⟩
  | returned code | threw e | undefined => trivial

end Later

/-- What tells nothing is later. -/
theorem Tells.later (h : Tells s s' b b fun _ => []) (links : List Link) :
    Later s s' links links b b :=
  ⟨h.workers, h.executed, h.totals, h.passed, fun _ l hl => ⟨l, hl, rfl⟩, rfl, rfl⟩

/-- **Telling keeps the scene**, if the results told are those of rounds
handed to the engine. -/
theorem Scene.tells (h : Scene β s links b) (ht : Tells s s' b b' fs)
    (hfs : ∀ k, ∀ f ∈ fs k, f.kind = .of .result →
      ∃ r ∈ s.executed, ∃ boot, f = resultFrame r.site boot r.output)
    (hlate : ∀ k, 2 ≤ k → Late (b'.told k)) : Scene β s' links b' where
  wired := ht.wired links h.wired
  valid := ht.passed.valid h.valid
  inPlace k w hw := h.inPlace k w (ht.workers ▸ hw)
  telling k f hf hkind := by
    rw [ht.executed]
    rw [ht.told] at hf
    rcases List.mem_append.1 hf with hf | hf
    · exact h.telling k f hf hkind
    · exact hfs k f hf hkind
  shared r hr := h.shared r (ht.executed ▸ hr)
  sites := ht.executed ▸ h.sites
  totals x hx := h.totals x (ht.totals ▸ hx)
  late := hlate
  apart := h.apart

theorem Scene.silent (h : Scene β s links b) (ht : Tells s s' b b fun _ => []) :
    Scene β s' links b :=
  h.tells ht (fun _ _ hf => (List.not_mem_nil hf).elim) h.late

/-- **A frame has been taken** from a connection. -/
structure Takes (s s' : Coordinator) (b : Book) (k : ℕ) (f : Frame) : Prop where
  workers : s'.workers = s.workers
  executed : s'.executed = s.executed
  totals : s'.totals = s.totals
  passed : Passed s.connections s'.connections
  wired : ∀ links, Wired s.connections links b → Wired s'.connections links (b.take k f)

theorem Scene.takes (h : Scene β s links b) {k : ℕ} {f : Frame} (ht : Takes s s' b k f) :
    Scene β s' links (b.take k f) where
  wired := ht.wired links h.wired
  valid := ht.passed.valid h.valid
  inPlace k w hw := h.inPlace k w (ht.workers ▸ hw)
  telling k f hf hkind := by
    rw [ht.executed]
    exact h.telling k f hf hkind
  shared r hr := h.shared r (ht.executed ▸ hr)
  sites := ht.executed ▸ h.sites
  totals x hx := h.totals x (ht.totals ▸ hx)
  late := h.late
  apart := h.apart

/-! ## Facts of the scene -/

theorem Rest.late {l : UInt64 → List Frame} (h : Rest s b l)
    (hl : 2 < s.workers.length → ∀ boot, ∃ boot' output,
      l boot <+: [requestFrame .second, resultFrame .second boot' output]) :
    ∀ k, 2 ≤ k → Late (b.told k) := by
  intro k hk
  rcases Nat.lt_or_ge k s.workers.length with hlt | hge
  · obtain ⟨rank, boot, htold⟩ := h.later k hk hlt
    obtain ⟨boot', output, hprefix⟩ := hl (by omega) boot
    refine ⟨rank, boot', output, ?_⟩
    rw [htold]
    exact List.cons_prefix_cons.2 ⟨rfl, hprefix⟩
  · refine ⟨0, 0, [], ?_⟩
    rw [h.beyond k hk hge]
    exact List.nil_prefix

/-- At most three rounds are handed to the engine. -/
theorem Scene.few (h : Scene β s links b) : s.executed.length ≤ 3 := by
  have hle := h.sites.length_le
  rwa [List.length_map] at hle

theorem Scene.output_length (h : Scene β s links b) : ∀ r ∈ s.executed, r.output.length = 16 :=
  fun r hr => Round.output_length (h.shared r hr)

/-- A worker's link is there. -/
theorem Scene.exists_link (h : Scene β s links b) {k : ℕ} (hk : k < s.connections.length) :
    ∃ l, links[k]? = some l := by
  have hle := h.wired.length_le
  exact ⟨_, List.getElem?_eq_getElem (by omega)⟩

end Coordinator

end CollectiveFabric
