import CollectiveFabric.Multiprocess.Hearing
import CollectiveFabric.Multiprocess.Trailing

/-!
# What a worker replies to the coordinator

The frames the coordinator sends are read back as they were written, so
what a worker sends for them can be written down: a barrier for its
acceptance, and for each round a contribution and then a completion. A
worker that stalls sends the first of these frames and no others.
-/

namespace CollectiveFabric

open Common Common.Reader CanonicalReader

/-! ## Payloads read back -/

theorem toList_ofList {α : Type} {l : List α} (h : l.length < 2 ^ 64) : (Vec.ofList l).toList = l :=
  List.take_of_length_le (by omega)

namespace Fields

variable {α : Type}

/-- A chain reads back what its payload begins with. -/
theorem decode_of_decides {p : Fields α} {bs : List UInt8} {a : α}
    (h : Decides rest (fun _ : Unit => True) p bs True a) {payload : Bytes}
    (hpayload : payload.toList = bs) : p.decode payload = some a := by
  have hstart : (CanonicalReader.ofData payload.toList).rest = bs ++ [] := by
    rw [List.append_nil]
    exact hpayload
  obtain ⟨r, hr, -⟩ := h.reads trivial _ [] hstart
  rw [decode, hr]

theorem decides_rankAccept (rank rankCount groupId groupGen : UInt64) :
    Decides rest (fun _ : Unit => True) rankAccept
      ([rank, rankCount, groupId, groupGen].flatMap fun v => CanonicalWriter.beBytes v 8) True
      (rank, rankCount, groupId, groupGen) := by
  have hbytes : ([rank, rankCount, groupId, groupGen].flatMap fun v =>
      CanonicalWriter.beBytes v 8) = CanonicalWriter.beBytes rank 8 ++
        (CanonicalWriter.beBytes rankCount 8 ++ (CanonicalWriter.beBytes groupId 8 ++
        (CanonicalWriter.beBytes groupGen 8 ++ []))) := by simp
  rw [hbytes]
  exact Decides.of_iff (Decides.bind (decides_field (takes_u64 rank)) fun _ =>
    Decides.bind (decides_field (takes_u64 rankCount)) fun _ =>
    Decides.bind (decides_field (takes_u64 groupId)) fun _ =>
    Decides.bind (decides_field (takes_u64 groupGen)) fun _ => Decides.pure _) (by simp)

theorem decides_blob (a : AuthClaim) (bytes : Bytes) :
    Decides rest (fun _ : Unit => True) blob
      (a.bytes ++ (CanonicalWriter.beBytes bytes.size 8 ++ bytes.toList)) True (a, bytes) := by
  rw [← List.append_nil (_ ++ bytes.toList)]
  exact Decides.of_iff (Decides.bind (decides_auth a) fun _ =>
    Decides.bind (decides_field (takes_bytes bytes)) fun _ => Decides.pure _) (by simp)

theorem decides_bootName (boot : UInt64) (name : Bytes) :
    Decides rest (fun _ : Unit => True) bootName
      (CanonicalWriter.beBytes boot 8 ++ (CanonicalWriter.beBytes name.size 8 ++ name.toList)) True
      (boot, name) := by
  rw [← List.append_nil (_ ++ name.toList)]
  exact Decides.of_iff (Decides.bind (decides_field (takes_u64 boot)) fun _ =>
    Decides.bind (decides_field (takes_string name)) fun _ => Decides.pure _) (by simp)

end Fields

theorem toList_encRankAccept (rank rankCount groupId groupGen : UInt64) :
    (encRankAccept rank rankCount groupId groupGen).toList =
      [rank, rankCount, groupId, groupGen].flatMap fun v => CanonicalWriter.beBytes v 8 := by
  have hbuf : ((((({} : CanonicalWriter).u64 rank).u64 rankCount).u64 groupId).u64 groupGen).buf =
      [rank, rankCount, groupId, groupGen].flatMap fun v => CanonicalWriter.beBytes v 8 := by
    simp [CanonicalWriter.u64, CanonicalWriter.pushBe]
  rw [encRankAccept, hbuf]
  refine toList_ofList ?_
  simp [beBytes_length]

theorem decode_encRankAccept (rank rankCount groupId groupGen : UInt64) :
    Fields.rankAccept.decode (encRankAccept rank rankCount groupId groupGen) =
      some (rank, rankCount, groupId, groupGen) :=
  Fields.decode_of_decides (Fields.decides_rankAccept ..) (toList_encRankAccept ..)

theorem decode_encDesc (d : Desc) : decDesc (encDesc d) = some d :=
  decDesc_eq_some.2 List.prefix_rfl

theorem decode_encAuth (a : AuthClaim) : decAuth (encAuth a) = some a :=
  decAuth_eq_some.2 List.prefix_rfl

theorem toList_encBlob (a : AuthClaim) {bytes : Bytes} (h : bytes.toList.length < 2 ^ 63) :
    (encBlob a bytes).toList =
      a.bytes ++ (CanonicalWriter.beBytes bytes.size 8 ++ bytes.toList) := by
  have hbuf : ((a.write {}).bytes bytes).buf =
      a.bytes ++ (CanonicalWriter.beBytes bytes.size 8 ++ bytes.toList) := by
    simp [AuthClaim.write, AuthClaim.bytes, CanonicalWriter.u64, CanonicalWriter.pushBe,
      CanonicalWriter.bytes]
  rw [encBlob, hbuf]
  refine toList_ofList ?_
  rw [List.length_append, List.length_append, a.bytes_length, beBytes_length _ le_rfl]
  omega

theorem decode_encBlob (a : AuthClaim) {bytes : Bytes} (h : bytes.toList.length < 2 ^ 63) :
    Fields.blob.decode (encBlob a bytes) = some (a, bytes) :=
  Fields.decode_of_decides (Fields.decides_blob a bytes) (toList_encBlob a h)

theorem toList_encBootName (boot : UInt64) {name : Bytes} (h : name.toList.length < 2 ^ 63) :
    (encBootName boot name).toList =
      CanonicalWriter.beBytes boot 8 ++ (CanonicalWriter.beBytes name.size 8 ++ name.toList) := by
  have hbuf : ((({} : CanonicalWriter).u64 boot).string name).buf =
      CanonicalWriter.beBytes boot 8 ++ (CanonicalWriter.beBytes name.size 8 ++ name.toList) := by
    rw [CanonicalWriter.string_buf]
    simp [CanonicalWriter.u64, CanonicalWriter.pushBe]
  rw [encBootName, hbuf]
  refine toList_ofList ?_
  rw [List.length_append, List.length_append, beBytes_length _ le_rfl, beBytes_length _ le_rfl]
  omega

theorem decode_encBootName (boot : UInt64) {name : Bytes} (h : name.toList.length < 2 ^ 63) :
    Fields.bootName.decode (encBootName boot name) = some (boot, name) :=
  Fields.decode_of_decides (Fields.decides_bootName boot name) (toList_encBootName boot h)

/-! ## What the coordinator sends -/

namespace Coordinator

/-- The `GROUP_ACCEPT` of a generation, for a group of two. -/
def acceptFrame (rank gen : UInt64) : Frame where
  kind := .of .groupAccept
  payload := encRankAccept rank 2 groupId.raw gen

def barrierAck : Frame where
  kind := .of .complete
  payload := encSimple 1 1

def requestFrame (site : Site) : Frame where
  kind := .of .requestCollective
  payload := encDesc site.request

def resultFrame (site : Site) (boot : UInt64) (output : List UInt8) : Frame where
  kind := .of .result
  payload := encBlob (resultAuth site.gen boot) (.ofList output)

theorem kind_acceptFrame (rank gen : UInt64) : (acceptFrame rank gen).kind = .of .groupAccept := rfl

theorem kind_requestFrame (site : Site) : (requestFrame site).kind = .of .requestCollective := rfl

theorem kind_resultFrame (site : Site) (boot : UInt64) (output : List UInt8) :
    (resultFrame site boot output).kind = .of .result := rfl

/-- The bytes a worker reads of a result. -/
theorem first_resultFrame (site : Site) (boot : UInt64) {output : List UInt8}
    (h : output.length = 16) :
    ((resultFrame site boot output).payload.toList.drop 56).take 4 = output.take 4 := by
  have hbytes : (Vec.ofList output).toList = output := toList_ofList (by omega)
  have hblob : (Vec.ofList output).toList.length < 2 ^ 63 := by
    rw [hbytes]
    omega
  rw [resultFrame, toList_encBlob _ hblob, ← List.append_assoc, hbytes, List.drop_left']
  rw [List.length_append, AuthClaim.bytes_length, beBytes_length _ le_rfl]

end Coordinator

open Coordinator

namespace Worker

variable {w v : Worker} {rank : UInt64} {index : ℕ} {f : Frame} {site : Site}

/-! ## The replies -/

theorem sent_say (w : Worker) (line : Line) : (w.say line).sent = w.sent := rfl

theorem sent_goto (w : Worker) (phase : Phase) : (w.goto phase).sent = w.sent := rfl

theorem sent_quit (w : Worker) (line : Line) : (w.quit line).sent = w.sent := rfl

theorem sent_send (w : Worker) (f : Frame) : (w.send f).sent = w.sent ++ [f] := rfl

theorem phase_goto (w : Worker) (phase : Phase) : (w.goto phase).phase = phase := rfl

theorem onAccept_acceptFrame (w : Worker) (rank gen : UInt64) :
    w.onAccept (acceptFrame rank gen) =
      ((w.say (.accepted w.args.boot rank 2 gen)).send (barrier w.args.boot gen)).goto
        (.barrier rank) := by
  simp only [onAccept, acceptFrame, decode_encRankAccept]

theorem onServe_acceptFrame (w : Worker) (rank' gen : UInt64) :
    w.onServe rank index (acceptFrame rank' gen) = w := by
  rw [onServe, kind_acceptFrame, if_neg (by decide), if_neg (by decide), if_neg (by decide)]

theorem onServe_requestFrame (hawake : ¬w.args.stallAfter ≤ UInt64.ofNat index)
    (hindex : index ≠ 2 ^ 31 - 1) :
    w.onServe rank index (requestFrame site) =
      ((w.send (contribution w.args.boot rank site.request)).say (.contributed rank 16)).goto
        (.result rank (index + 1)) := by
  have hcount : site.request.elementCount = 4 := rfl
  have hfew : ¬((4 : UInt64) < 4 ∨ index = 2 ^ 31 - 1) := fun h => h.elim (by decide) hindex
  rw [onServe, kind_requestFrame, if_pos rfl, onRequest]
  simp only [requestFrame, decode_encDesc, if_neg hawake, hcount, if_neg hfew]
  rfl

/-- A result of four floats. -/
theorem onResult_resultFrame {boot : UInt64} {output : List UInt8} (h : output.length = 16) :
    w.onResult rank index (resultFrame site boot output) =
      ((w.say (.result (UInt32.ofNat (ReferenceEngine.loadLe (output.take 4))))).send
        complete).goto (.serve rank index) := by
  have hblob : (Vec.ofList output).toList.length < 2 ^ 63 := by
    rw [toList_ofList (by omega)]
    omega
  rw [onResult, kind_resultFrame, if_neg (not_not.2 rfl)]
  simp only [first_resultFrame site boot h]
  rw [resultFrame, decode_encBlob _ hblob]
  simp only
  rw [if_neg (by rw [List.length_take]; omega)]

/-- A worker that awaits a result ends with any other frame. -/
theorem onResult_of_ne (hkind : f.kind ≠ .of .result) :
    w.onResult rank index f = w.quit .expectedResult := if_pos hkind

/-! ## Workers that do not stall -/

/-- The same worker, told to stall after more rounds than it can count. -/
def Args.tireless (args : Args) : Args := { args with stallAfter := 0xffffffffffffffff }

/-- The worker is where the tireless one is, or has stalled on the way. -/
structure Lags (w v : Worker) : Prop where
  boot : w.args.boot = v.args.boot
  tireless : v.args.stallAfter = 0xffffffffffffffff
  sent : w.sent <+: v.sent
  stands : (w.phase = v.phase ∧ w.sent = v.sent) ∨ w.phase = .stalled

namespace Lags

/-- They go on together. -/
theorem together (h : Lags w v) {w' v' : Worker} {fs gs : List Frame} (hw : Sends w w' fs)
    (hv : Sends v v' gs) (hsent : w'.sent = v'.sent) (hphase : w'.phase = v'.phase) :
    Lags w' v' :=
  ⟨by rw [hw.args, hv.args, h.boot], by rw [hv.args, h.tireless], hsent ▸ List.prefix_rfl,
    .inl ⟨hphase, hsent⟩⟩

/-- The worker has stalled, and the tireless one goes on. -/
theorem stalled (h : Lags w v) (hphase : w.phase = .stalled) (f : Frame) :
    Lags (w.onFrame f) (v.onFrame f) := by
  have hstay : w.onFrame f = w := by
    unfold onFrame
    rw [hphase]
  obtain ⟨fs, hsends⟩ := exists_sends_onFrame v f
  rw [hstay]
  refine ⟨by rw [hsends.args, h.boot], by rw [hsends.args, h.tireless], ?_, .inr hphase⟩
  rw [hsends.sent]
  exact h.sent.trans (List.prefix_append ..)

/-- A request: the worker stalls, or both contribute. -/
theorem onRequest (h : Lags w v) (hsent : w.sent = v.sent) (rank : UInt64) (index : ℕ)
    (f : Frame) : Lags (w.onRequest rank index f) (v.onRequest rank index f) := by
  obtain ⟨fs, hv⟩ := exists_sends_onRequest v rank index f
  obtain ⟨gs, hw⟩ := exists_sends_onRequest w rank index f
  by_cases hstall : w.args.stallAfter ≤ UInt64.ofNat index
  · cases hdesc : decDesc f.payload with
    | none =>
      refine h.together hw hv ?_ ?_
      · simp only [Worker.onRequest, hdesc]
        exact hsent
      · simp only [Worker.onRequest, hdesc]
        rfl
    | some d =>
      have hstop : w.onRequest rank index f =
          (w.say (.stall w.args.boot index)).goto .stalled := by
        simp only [Worker.onRequest, hdesc, if_pos hstall]
      refine ⟨by rw [hw.args, hv.args, h.boot], by rw [hv.args, h.tireless], ?_, .inr ?_⟩
      · rw [hstop, hv.sent]
        exact h.sent.trans (List.prefix_append ..)
      · rw [hstop]
        rfl
  · have hawake : ¬v.args.stallAfter ≤ UInt64.ofNat index := by
      intro hle
      have hmost : w.args.stallAfter ≤ v.args.stallAfter := by
        have hlt := w.args.stallAfter.toNat_lt
        rw [h.tireless, UInt64.le_iff_toNat_le]
        show _ ≤ 2 ^ 64 - 1
        omega
      exact hstall (UInt64.le_trans hmost hle)
    refine h.together hw hv ?_ ?_
    · simp only [Worker.onRequest, if_neg hstall, if_neg hawake]
      cases decDesc f.payload with
      | none => exact hsent
      | some d =>
        simp only
        split_ifs
        · rw [sent_goto, sent_goto, hsent]
        · rw [sent_goto, sent_say, sent_send, sent_goto, sent_say, sent_send, hsent, h.boot]
    · simp only [Worker.onRequest, if_neg hstall, if_neg hawake]
      cases decDesc f.payload with
      | none => rfl
      | some d =>
        simp only
        split_ifs
        · rw [phase_goto, phase_goto]
        · rw [phase_goto, phase_goto]

theorem onFrame (h : Lags w v) (f : Frame) : Lags (w.onFrame f) (v.onFrame f) := by
  rcases h.stands with ⟨hphase, hsent⟩ | hstalled
  swap
  · exact h.stalled hstalled f
  obtain ⟨fs, hw⟩ := exists_sends_onFrame w f
  obtain ⟨gs, hv⟩ := exists_sends_onFrame v f
  unfold Worker.onFrame at hw hv ⊢
  rw [← hphase] at hv ⊢
  cases hp : w.phase with
  | accept =>
    simp only [hp] at hw hv ⊢
    refine h.together hw hv ?_ ?_
    · unfold Worker.onAccept
      split
      · rw [sent_quit, sent_quit, hsent]
      · rw [sent_goto, sent_send, sent_say, sent_goto, sent_send, sent_say, hsent, h.boot]
    · unfold Worker.onAccept
      split
      · rfl
      · rw [phase_goto, phase_goto]
  | barrier rank =>
    simp only [hp] at hw hv ⊢
    refine h.together hw hv ?_ ?_
    · unfold Worker.onBarrier
      split_ifs <;> exact hsent
    · rfl
  | serve rank index =>
    simp only [hp] at hw hv ⊢
    unfold Worker.onServe at hw hv ⊢
    split_ifs at hw hv ⊢
    · exact h.onRequest hsent rank index f
    · exact h.together hw hv hsent hphase
    · exact h.together hw hv hsent rfl
    · exact h
  | result rank index =>
    simp only [hp] at hw hv ⊢
    refine h.together hw hv ?_ ?_
    · unfold Worker.onResult
      split
      · rw [sent_quit, sent_quit, hsent]
      · split
        · rw [sent_quit, sent_quit, hsent]
        · simp only
          split_ifs
          · rw [sent_goto, sent_goto, hsent]
          · rw [sent_goto, sent_send, sent_say, sent_goto, sent_send, sent_say, hsent]
    · unfold Worker.onResult
      split
      · rfl
      · split
        · rfl
        · simp only
          split_ifs
          · rw [phase_goto, phase_goto]
          · rw [phase_goto, phase_goto]
  | stalled | returned code | killed | undefined => exact h

theorem hear (h : Lags w v) (fs : List Frame) : Lags (w.hear fs) (v.hear fs) := by
  induction fs generalizing w v with
  | nil => exact h
  | cons f fs ih => exact ih (h.onFrame f)

end Lags

theorem lags_scripted (args : Args) (heard : List Frame) :
    Lags (scripted args heard) (scripted args.tireless heard) :=
  Lags.hear (w := start args) (v := start args.tireless)
    ⟨rfl, rfl, List.prefix_rfl, .inl ⟨rfl, rfl⟩⟩ heard

/-- **A worker sends at most what the tireless one sends.** -/
theorem sent_scripted_upto (args : Args) (heard : List Frame) :
    (scripted args heard).sent <+: (scripted args.tireless heard).sent :=
  (lags_scripted args heard).sent

end Worker

/-! ## The whole conversation -/

/-- The first output of the engine for a round. -/
def Round.output (r : Round) : List UInt8 :=
  match ReferenceEngine.execute (.of .allReduce) (.of .sum) (.of .float32) 4 0 2
    (r.contributions.map (·.bytes.toList)) with
  | .returns (output :: _) => output
  | _ => []

namespace Coordinator

/-- Before the second group's round a worker of the first is accepted
again. -/
def regenFrames (rank : UInt64) : Site → List Frame
  | .second => [acceptFrame rank 2]
  | _ => []

/-- What a worker is told of a round that the engine was handed. -/
def roundFrames (rank boot : UInt64) (r : Round) : List Frame :=
  regenFrames rank r.site ++ [requestFrame r.site, resultFrame r.site boot r.output]

def openingFrames (rank : UInt64) : List Frame := [acceptFrame rank 1, barrierAck]

end Coordinator

namespace Worker

variable {args : Args} {rank : UInt64} {index : ℕ} {w : Worker} {rs : List Round}

def greeting (args : Args) : List Frame := [hello args.boot args.name, joinGroup args.boot]

/-- What a worker replies to a round. -/
def replies (boot rank : UInt64) (r : Round) : List Frame :=
  [contribution boot rank r.site.request, complete]

/-- The number of rounds a worker takes part in, if it is asked so often. -/
def Args.rounds (args : Args) : ℕ := min args.stallAfter.toNat (2 ^ 31 - 1)

theorem rounds_tireless (args : Args) : args.tireless.rounds = 2 ^ 31 - 1 := by
  have hmost : args.tireless.stallAfter.toNat = 2 ^ 64 - 1 := rfl
  rw [Args.rounds, hmost]
  omega

/-- The worker stands at the head of its loop. -/
structure Serving (w : Worker) (args : Args) (rank : UInt64) (index : ℕ) (sent : List Frame) :
    Prop where
  args : w.args = args
  phase : w.phase = .serve rank index
  sent : w.sent = sent

theorem Serving.awake {sent : List Frame} (h : Serving w args rank index sent)
    (hindex : index < args.rounds) : ¬w.args.stallAfter ≤ UInt64.ofNat index := by
  have hmin : args.rounds = min args.stallAfter.toNat (2 ^ 31 - 1) := rfl
  have hsize : index < UInt64.size := by
    show index < 2 ^ 64
    omega
  rw [h.args, UInt64.le_iff_toNat_le, UInt64.toNat_ofNat_of_lt' hsize]
  omega

theorem Serving.regen {sent : List Frame} (h : Serving w args rank index sent) (rank' : UInt64)
    (site : Site) : w.hear (regenFrames rank' site) = w := by
  cases site with
  | first | loss => rfl
  | second =>
    rw [regenFrames, hear_cons, hear_nil, onFrame, h.phase]
    exact onServe_acceptFrame w _ _

/-- A request makes it contribute. -/
theorem Serving.request {sent : List Frame} (h : Serving w args rank index sent)
    (hindex : index < args.rounds) (rank' : UInt64) (site : Site) :
    (w.hear (regenFrames rank' site ++ [requestFrame site])).sent =
        sent ++ [contribution args.boot rank site.request] ∧
      (w.hear (regenFrames rank' site ++ [requestFrame site])).phase =
        .result rank (index + 1) ∧
      (w.hear (regenFrames rank' site ++ [requestFrame site])).args = w.args := by
  have hfew : index < 2 ^ 31 - 1 := Nat.lt_of_lt_of_le hindex (Nat.min_le_right ..)
  rw [hear_append, h.regen, hear_cons, hear_nil, onFrame, h.phase]
  simp only
  rw [onServe_requestFrame (h.awake hindex) (by omega), h.args, ← h.sent]
  exact ⟨rfl, rfl, h.args⟩

/-- **A round is answered** with a contribution and a completion. -/
theorem Serving.round {sent : List Frame} (h : Serving w args rank index sent)
    (hindex : index < args.rounds) (rank' boot' : UInt64) {r : Round}
    (houtput : r.output.length = 16) :
    Serving (w.hear (roundFrames rank' boot' r)) args rank (index + 1)
      (sent ++ replies args.boot rank r) := by
  obtain ⟨hsent, hphase, hargs⟩ := h.request hindex rank' r.site
  have hframes : roundFrames rank' boot' r = (regenFrames rank' r.site ++ [requestFrame r.site]) ++
      [resultFrame r.site boot' r.output] := by simp [roundFrames]
  rw [hframes, hear_append]
  generalize w.hear (regenFrames rank' r.site ++ [requestFrame r.site]) = v at hsent hphase hargs
  rw [hear_cons, hear_nil, onFrame, hphase]
  simp only
  rw [onResult_resultFrame houtput]
  refine ⟨hargs.trans h.args, rfl, ?_⟩
  show v.sent ++ [complete] = _
  rw [hsent, replies, List.append_assoc]
  rfl

/-- **And so are all of them.** -/
theorem Serving.rounds {sent : List Frame} (h : Serving w args rank index sent)
    (hindex : index + rs.length ≤ args.rounds) (rank' boot' : UInt64)
    (houtput : ∀ r ∈ rs, r.output.length = 16) :
    Serving (w.hear (rs.flatMap (roundFrames rank' boot'))) args rank (index + rs.length)
      (sent ++ rs.flatMap (replies args.boot rank)) := by
  induction rs generalizing w index sent with
  | nil => simpa using h
  | cons r rs ih =>
    rw [List.length_cons] at hindex
    have hround := h.round (by omega) rank' boot' (houtput r List.mem_cons_self)
    have hrest := ih hround (by omega) fun r' hr' => houtput r' (List.mem_cons_of_mem r hr')
    rw [List.flatMap_cons, List.flatMap_cons, hear_append, ← List.append_assoc, List.length_cons,
      ← Nat.add_assoc, Nat.add_right_comm]
    exact hrest

/-! ## What a worker has sent -/

theorem sent_scripted_nil (args : Args) : (scripted args []).sent = greeting args := rfl

theorem sent_scripted_accept (args : Args) (rank : UInt64) :
    (scripted args [acceptFrame rank 1]).sent = greeting args ++ [barrier args.boot 1] := by
  show ((start args).onAccept (acceptFrame rank 1)).sent = _
  rw [onAccept_acceptFrame]
  rfl

theorem serving_opening (args : Args) (rank : UInt64) :
    Serving (scripted args (openingFrames rank)) args rank 0
      (greeting args ++ [barrier args.boot 1]) := by
  have hhear : scripted args (openingFrames rank) =
      ((start args).onAccept (acceptFrame rank 1)).onFrame barrierAck := rfl
  rw [hhear, onAccept_acceptFrame]
  exact ⟨rfl, rfl, rfl⟩

/-- When all rounds so far are over. -/
theorem serving_scripted (args : Args) (rank boot' : UInt64) (hfew : rs.length ≤ args.rounds)
    (houtput : ∀ r ∈ rs, r.output.length = 16) :
    Serving (scripted args (openingFrames rank ++ rs.flatMap (roundFrames rank boot'))) args rank
      rs.length (greeting args ++ [barrier args.boot 1] ++ rs.flatMap (replies args.boot rank)) := by
  have hserving := (serving_opening args rank).rounds (by omega) rank boot' houtput
  rw [Nat.zero_add] at hserving
  rw [scripted, hear_append]
  exact hserving

/-- When the next round is asked for. -/
theorem requested_scripted (args : Args) (rank boot' : UInt64) (site : Site)
    (hfew : rs.length < args.rounds) (houtput : ∀ r ∈ rs, r.output.length = 16) :
    let w := scripted args (openingFrames rank ++ rs.flatMap (roundFrames rank boot') ++
      (regenFrames rank site ++ [requestFrame site]))
    w.sent = greeting args ++ [barrier args.boot 1] ++ rs.flatMap (replies args.boot rank) ++
        [contribution args.boot rank site.request] ∧
      w.phase = .result rank (rs.length + 1) := by
  have hserving := serving_scripted args rank boot' (by omega) houtput
  obtain ⟨hsent, hphase, -⟩ := hserving.request hfew rank site
  rw [scripted, hear_append, ← scripted]
  exact ⟨hsent, hphase⟩

/-- What is sent at most when all rounds so far are over. -/
theorem sent_scripted_rounds (args : Args) (rank boot' : UInt64) (hfew : rs.length ≤ 2 ^ 31 - 1)
    (houtput : ∀ r ∈ rs, r.output.length = 16) :
    (scripted args (openingFrames rank ++ rs.flatMap (roundFrames rank boot'))).sent <+:
      greeting args ++ [barrier args.boot 1] ++ rs.flatMap (replies args.boot rank) := by
  have hserving := serving_scripted args.tireless rank boot' (by rwa [rounds_tireless]) houtput
  refine (sent_scripted_upto args _).trans ?_
  rw [hserving.sent]
  exact List.prefix_rfl

/-- What is sent at most when the next round is asked for. -/
theorem sent_scripted_request (args : Args) (rank boot' : UInt64) (site : Site)
    (hfew : rs.length < 2 ^ 31 - 1) (houtput : ∀ r ∈ rs, r.output.length = 16) :
    (scripted args (openingFrames rank ++ rs.flatMap (roundFrames rank boot') ++
      (regenFrames rank site ++ [requestFrame site]))).sent <+:
      greeting args ++ [barrier args.boot 1] ++ rs.flatMap (replies args.boot rank) ++
        [contribution args.boot rank site.request] := by
  refine (sent_scripted_upto args _).trans ?_
  rw [(requested_scripted args.tireless rank boot' site (by rwa [rounds_tireless]) houtput).1]
  exact List.prefix_rfl

end Worker

end CollectiveFabric
