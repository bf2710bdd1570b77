import CollectiveFabric.Multiprocess.Seats

/-!
# Where a worker stands with the coordinator

What the coordinator told a worker and how many frames it took from it say
which frame of the worker's comes next, if any comes: a worker that waits
for a result and is told something else ends, and sends nothing more.
-/

namespace CollectiveFabric

open Coordinator

/-! ## The frames that come next -/

namespace Worker

/-- The claim of a contribution. -/
def claim (boot : UInt64) (site : Site) : AuthClaim :=
  ⟨1, boot, site.request.groupGen, site.request.collectiveGen, site.request.attemptGen,
    site.request.dispatchGen⟩

theorem payload_contribution (boot rank : UInt64) (site : Site) :
    (contribution boot rank site.request).payload =
      encBlob (claim boot site) (.ofList (share rank)) := by
  have hshare : (values rank).take site.request.elementCount.toNat = values rank := by
    unfold values
    split_ifs <;> rfl
  simp only [contribution, hshare]
  rfl

theorem toList_share (rank : UInt64) : (Vec.ofList (share rank)).toList = share rank :=
  toList_ofList (by rw [share_length]; decide)

theorem share_lt (rank : UInt64) : (Vec.ofList (share rank)).toList.length < 2 ^ 63 := by
  rw [toList_share, share_length]
  decide

/-- A contribution is read back: first its claim, then its bytes. -/
theorem decAuth_contribution (boot rank : UInt64) (site : Site) :
    decAuth (contribution boot rank site.request).payload = some (claim boot site) := by
  rw [decAuth_eq_some, payload_contribution, toList_encBlob _ (share_lt rank)]
  have hauth : (encAuth (claim boot site)).toList = (claim boot site).bytes := toList_encAuth _
  rw [hauth]
  exact List.prefix_append ..

theorem decode_contribution (boot rank : UInt64) (site : Site) :
    Fields.blob.decode (contribution boot rank site.request).payload =
      some (claim boot site, .ofList (share rank)) := by
  rw [payload_contribution]
  exact decode_encBlob _ (share_lt rank)

end Worker

/-- The frame after the first `n`, where what is there is a prefix. -/
theorem next_of_prefix {fs gs : List Frame} {f g : Frame} (h : fs ++ [f] <+: gs ++ [g])
    (hlength : fs.length = gs.length) : f = g := by
  obtain ⟨t, ht⟩ := h
  rw [List.append_assoc] at ht
  obtain ⟨-, hrest⟩ := List.append_inj ht hlength
  exact (List.cons.inj hrest).1

/-! ## Standings -/

/-- The frames told to a worker whose rounds so far are over. -/
def toldScript (rank boot : UInt64) (rs : List Round) : List Frame :=
  openingFrames rank ++ rs.flatMap (roundFrames rank boot)

/-- What was told and how many frames were taken. -/
structure Reached (told taken : List Frame) (script : List Frame) (n : ℕ) : Prop where
  told : told = script
  count : taken.length = n

section

variable (rank boot : UInt64) (rs : List Round) (told taken : List Frame)

/-- The rounds so far are over, and the worker can be asked for the next. -/
def Poised (site : Site) : Prop :=
  Reached told taken (toldScript rank boot rs ++ regenFrames rank site) (3 + 2 * rs.length)

/-- The worker has been asked for a contribution. -/
def Asked (site : Site) : Prop :=
  Reached told taken
    (toldScript rank boot rs ++ regenFrames rank site ++ [requestFrame site]) (3 + 2 * rs.length)

/-- Its contribution has been taken. -/
def Heard (site : Site) : Prop :=
  Reached told taken
    (toldScript rank boot rs ++ regenFrames rank site ++ [requestFrame site]) (4 + 2 * rs.length)

/-- It has been told the result of the last round, and its completion is
yet to be taken. -/
def Owing : Prop := Reached told taken (toldScript rank boot rs) (2 + 2 * rs.length)

/-- The rounds so far are over. -/
def Rested : Prop := Reached told taken (toldScript rank boot rs) (3 + 2 * rs.length)

end

/-- The worker sends no more than was taken, and has ended or, if it was to
stall so soon, stalled. -/
structure Spent (args : Worker.Args) (told taken : List Frame) : Prop where
  ended : (Worker.scripted args.tireless told).phase = .returned 1
  all : (Worker.scripted args.tireless told).sent.length ≤ taken.length
  stalls : (Worker.scripted args told).phase = .stalled → args.stallAfter.toNat ≤ 3

/-- What the next frame a worker sends is taken from. -/
def Next (args : Worker.Args) (told taken : List Frame) (f : Frame) : Prop :=
  taken ++ [f] <+: (Worker.scripted args told).sent

variable {rank boot : UInt64} {rs : List Round} {told taken : List Frame} {args : Worker.Args}
variable {site : Site} {f : Frame}

namespace Poised

theorem rested (hsite : site ≠ .second) :
    Poised rank boot rs told taken site ↔ Rested rank boot rs told taken := by
  have hregen : regenFrames rank site = [] := by
    cases site with
    | first | loss => rfl
    | second => exact absurd rfl hsite
  rw [Poised, hregen, List.append_nil, Rested]

theorem ask (h : Poised rank boot rs told taken site) :
    Asked rank boot rs (told ++ [requestFrame site]) taken site :=
  ⟨by rw [h.told], h.count⟩

end Poised

/-- The worker is accepted again. -/
theorem Rested.regen (h : Rested rank boot rs told taken) :
    Poised rank boot rs (told ++ [acceptFrame rank 2]) taken .second :=
  ⟨by rw [h.told]; rfl, h.count⟩

theorem length_replies (boot rank : UInt64) (rs : List Round) :
    (rs.flatMap (Worker.replies boot rank)).length = 2 * rs.length := by
  have htwo : ∀ r ∈ rs, (Worker.replies boot rank r).length = 2 := fun _ _ => rfl
  rw [List.length_flatMap, List.map_congr_left htwo, List.map_const',
    List.sum_replicate_nat, Nat.mul_comm]

namespace Asked

/-- The first frame it was told is its acceptance. -/
theorem accepted (h : Asked rank boot rs told taken site) : [acceptFrame rank 1] <+: told := by
  refine ⟨barrierAck :: (rs.flatMap (roundFrames rank boot) ++
    (regenFrames rank site ++ [requestFrame site])), ?_⟩
  rw [h.told, toldScript, openingFrames, List.append_assoc, List.append_assoc]
  rfl

/-- **What it sends next is its contribution.** -/
theorem next (h : Asked rank boot rs told taken site) (hfew : rs.length < 2 ^ 31 - 1)
    (houtput : ∀ r ∈ rs, r.output.length = 16) (hnext : Next args told taken f) :
    f = Worker.contribution args.boot rank site.request := by
  have hsent := Worker.sent_scripted_request args rank boot site hfew houtput
  have htold : told = openingFrames rank ++ rs.flatMap (roundFrames rank boot) ++
      (regenFrames rank site ++ [requestFrame site]) := by
    rw [h.told, toldScript, List.append_assoc (_ ++ _)]
  rw [← htold] at hsent
  refine next_of_prefix (hnext.trans hsent) ?_
  rw [h.count, List.length_append, List.length_append, length_replies]
  rfl

/-- Its contribution is taken. -/
theorem take (h : Asked rank boot rs told taken site) (f : Frame) :
    Heard rank boot rs told (taken ++ [f]) site :=
  ⟨h.told, by rw [List.length_append, h.count, List.length_singleton]; omega⟩

end Asked

namespace Heard

/-- It is told the result of the round. -/
theorem result {r : Round} (h : Heard rank boot rs told taken r.site) :
    Owing rank boot (rs ++ [r]) (told ++ [resultFrame r.site boot r.output]) taken := by
  refine ⟨?_, ?_⟩
  · rw [h.told, toldScript, toldScript, List.flatMap_append, List.flatMap_singleton, roundFrames]
    simp only [List.append_assoc, List.singleton_append]
  · rw [h.count, List.length_append, List.length_singleton]
    omega

end Heard

/-- A worker that has been asked for a contribution and stalled was to stall
so soon. -/
theorem stalls_of_asked (htold : told = toldScript rank boot rs ++ regenFrames rank site ++
      [requestFrame site]) (hfew : rs.length ≤ 3) (houtput : ∀ r ∈ rs, r.output.length = 16)
    (args : Worker.Args) (hstalled : (Worker.scripted args told).phase = .stalled) :
    args.stallAfter.toNat ≤ 3 := by
  by_contra hlate
  have hmin : args.rounds = min args.stallAfter.toNat (2 ^ 31 - 1) := rfl
  obtain ⟨-, hphase⟩ :=
    Worker.requested_scripted args rank boot site (by omega : rs.length < args.rounds) houtput
  rw [← List.append_assoc, ← toldScript, ← htold, hstalled] at hphase
  cases hphase

/-- A worker that waits for the result and is told something else has
ended. -/
theorem Heard.spend (h : Heard rank boot rs told taken site) (hfew : rs.length ≤ 3)
    (houtput : ∀ r ∈ rs, r.output.length = 16) (args : Worker.Args) (hkind : f.kind ≠ .of .result) :
    Spent args (told ++ [f]) taken := by
  obtain ⟨hsent, hphase⟩ :=
    Worker.requested_scripted args.tireless rank boot site
      (by rw [Worker.rounds_tireless]; omega) houtput
  rw [← List.append_assoc, ← toldScript, ← h.told] at hsent hphase
  have hquit (args : Worker.Args)
      (hphase : (Worker.scripted args told).phase = .result rank (rs.length + 1)) :
      Worker.scripted args (told ++ [f]) = (Worker.scripted args told).quit .expectedResult := by
    rw [Worker.scripted, Worker.hear_append, ← Worker.scripted, Worker.hear_cons, Worker.hear_nil,
      Worker.onFrame, hphase]
    exact Worker.onResult_of_ne hkind
  refine ⟨by rw [hquit _ hphase]; rfl, ?_, fun hstalled => ?_⟩
  · rw [hquit _ hphase]
    show (Worker.scripted args.tireless told).sent.length ≤ taken.length
    rw [hsent, h.count, List.length_append, List.length_append, length_replies]
    show 3 + 2 * rs.length + 1 ≤ _
    omega
  · rcases (Worker.lags_scripted args told).stands with ⟨hsame, -⟩ | hbefore
    · rw [hquit args (hsame.trans hphase)] at hstalled
      cases hstalled
    · exact stalls_of_asked h.told hfew houtput args hbefore

namespace Spent

theorem tell (h : Spent args told taken) (f : Frame) : Spent args (told ++ [f]) taken := by
  have hstay {args : Worker.Args} (hended : (Worker.scripted args told).phase = .returned 1) :
      Worker.scripted args (told ++ [f]) = Worker.scripted args told := by
    rw [Worker.scripted, Worker.hear_append, ← Worker.scripted, Worker.hear_cons, Worker.hear_nil,
      Worker.onFrame, hended]
  refine ⟨hstay h.ended ▸ h.ended, hstay h.ended ▸ h.all, fun hstalled => h.stalls ?_⟩
  rcases (Worker.lags_scripted args told).stands with ⟨hsame, -⟩ | hbefore
  · rwa [hstay (hsame.trans h.ended)] at hstalled
  · exact hbefore

/-- **Nothing comes from it any more.** -/
theorem not_next (h : Spent args told taken) : ¬Next args told taken f := by
  intro hnext
  have hlength := (hnext.trans (Worker.sent_scripted_upto args told)).length_le
  rw [List.length_append, List.length_singleton] at hlength
  have hall := h.all
  omega

end Spent

/-- **What it sends next is its completion.** -/
theorem Owing.next (h : Owing rank boot rs told taken) (hne : rs ≠ []) (hfew : rs.length < 2 ^ 31)
    (houtput : ∀ r ∈ rs, r.output.length = 16) (hnext : Next args told taken f) :
    f = Worker.complete := by
  obtain ⟨init, r, rfl⟩ := (List.eq_nil_or_concat' rs).resolve_left hne
  have hsent := Worker.sent_scripted_rounds args rank boot (by omega) houtput
  have htold : told = openingFrames rank ++ (init ++ [r]).flatMap (roundFrames rank boot) := h.told
  have hreplies : (init ++ [r]).flatMap (Worker.replies args.boot rank) =
      init.flatMap (Worker.replies args.boot rank) ++
        [Worker.contribution args.boot rank r.site.request] ++ [Worker.complete] := by
    rw [List.flatMap_append, List.flatMap_singleton, Worker.replies, List.append_assoc]
    rfl
  rw [← htold, hreplies, ← List.append_assoc] at hsent
  refine next_of_prefix (hnext.trans hsent) ?_
  have hgreeting : (Worker.greeting args).length = 2 := rfl
  rw [h.count]
  simp only [List.length_append, List.length_singleton, length_replies, hgreeting]
  omega

/-- Whatever is taken is its completion. -/
theorem Owing.take (h : Owing rank boot rs told taken) (f : Frame) :
    Rested rank boot rs told (taken ++ [f]) :=
  ⟨h.told, by rw [List.length_append, h.count, List.length_singleton]; omega⟩

end CollectiveFabric
