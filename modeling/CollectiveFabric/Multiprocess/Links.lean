import CollectiveFabric.Multiprocess.Hearing
import Mathlib.Logic.Function.Basic

/-!
# The links of a deployment

Whatever is started, delivered, killed or lost, each worker has done what
the frames it took make it do, and each process takes the other's frames
in their order. `Wired` says so for frames written down in a `Book`; what
the server tells and takes is the server's to say.
-/

namespace CollectiveFabric

open Common

/-- For each connection the frames the server sent, those of them the
worker took, and those of the worker's that the server took. -/
structure Book where
  told : ℕ → List Frame := fun _ => []
  heard : ℕ → List Frame := fun _ => []
  taken : ℕ → List Frame := fun _ => []

namespace Book

def tell (b : Book) (k : ℕ) (fs : List Frame) : Book :=
  { b with told := Function.update b.told k (b.told k ++ fs) }

def hear (b : Book) (k : ℕ) (fs : List Frame) : Book :=
  { b with heard := Function.update b.heard k fs }

def take (b : Book) (k : ℕ) (f : Frame) : Book :=
  { b with taken := Function.update b.taken k (b.taken k ++ [f]) }

end Book

/-- The worker's end of a link. -/
structure Answers (l : Link) (told heard : List Frame) : Prop where
  outgoing : l.worker.channel.conn.outgoing = l.worker.sent.flatMap Protocol.encode
  down : Pipe Protocol.encode told heard l.worker.channel.held l.down
    (l.worker.channel.conn.ended = true)
  follows : l.worker.Follows heard

/-- The server's end of a link. -/
structure Serves (c : FrameChannel) (l : Link) (told taken : List Frame) : Prop where
  outgoing : c.conn.outgoing = told.flatMap Protocol.encode
  up : Pipe Protocol.encode l.worker.sent taken c.held l.up (c.conn.ended = true)

/-- **The links carry what the book says.** -/
structure Wired (cs : List FrameChannel) (links : List Link) (b : Book) : Prop where
  length_le : cs.length ≤ links.length
  worker : ∀ k l, links[k]? = some l → Answers l (b.told k) (b.heard k)
  server : ∀ k c l, cs[k]? = some c → links[k]? = some l → Serves c l (b.told k) (b.taken k)
  ahead : ∀ k l, cs.length ≤ k → links[k]? = some l → b.told k = [] ∧ b.taken k = [] ∧ l.up = 0
  beyond : ∀ k, links.length ≤ k → b.told k = [] ∧ b.heard k = [] ∧ b.taken k = []

theorem wired_nil : Wired [] [] {} where
  length_le := le_rfl
  worker _ _ h := by cases h
  server _ _ _ h := by cases h
  ahead _ _ _ h := by cases h
  beyond _ _ := ⟨rfl, rfl, rfl⟩

/-! ## One end -/

namespace Answers

variable {l : Link} {told heard : List Frame}

theorem start (args : Worker.Args) : Answers { worker := Worker.start args } [] [] where
  outgoing := by
    show (([] ++ Protocol.encode _) ++ Protocol.encode _ : List UInt8) = _
    simp [Worker.start, Worker.send]
  down := Pipe.start _ _
  follows := Worker.follows_start args

/-- The server sends more. -/
theorem tell (h : Answers l told heard) (fs : List Frame) : Answers l (told ++ fs) heard :=
  ⟨h.outgoing, h.down.write fs, h.follows⟩

/-- The worker is killed. -/
theorem kill (h : Answers l told heard) :
    Answers { l with worker := l.worker.goto .killed } told heard :=
  ⟨h.outgoing, h.down, h.follows.kill⟩

/-- The worker's end is lost. -/
theorem close (h : Answers l told heard) (reset : Bool) :
    Answers { l with worker := { l.worker with channel := { l.worker.channel with
      conn := l.worker.channel.conn.hangUp reset } } } told heard := by
  exact ⟨h.outgoing, h.down.sever (FrameChannel.held_hangUp _ reset) rfl,
    h.follows.reads fun hdeaf => hdeaf.hangUp reset⟩

/-- Some of the server's bytes arrive. -/
theorem deliver (h : Answers l told heard) (n : ℕ) :
    let bs := ((told.flatMap Protocol.encode).drop l.down).take n
    Answers { l with
      worker := { l.worker with channel := { l.worker.channel with
        conn := l.worker.channel.conn.arrive bs } }
      down := l.down + bs.length } told heard := by
  intro bs
  by_cases hended : l.worker.channel.conn.ended = true
  · have hsame : l.worker.channel.conn.arrive bs = l.worker.channel.conn := if_pos hended
    rw [hsame]
    exact ⟨h.outgoing, h.down.pass hended n, h.follows⟩
  · refine ⟨(FrameChannel.outgoing_arrive bs).trans h.outgoing, ?_,
      h.follows.reads fun hdeaf => hdeaf.arrive bs⟩
    rw [FrameChannel.held_arrive hended, FrameChannel.ended_arrive]
    exact h.down.arrive hended n

/-- **A turn of the worker**: it may take a frame, and then it does what
the frame makes it do. -/
theorem turn (h : Answers l told heard) (env : Worker.Surroundings) :
    ∃ heard' fs, Answers { l with worker := l.worker.turn env } told heard' ∧
      (l.worker.turn env).sent = l.worker.sent ++ fs := by
  have hrecv (hawaits : (∀ code, l.worker.phase ≠ .returned code) ∧ l.worker.phase ≠ .killed) :
      ∃ heard' fs, Answers { l with worker := l.worker.recv env } told heard' ∧
        (l.worker.recv env).sent = l.worker.sent ++ fs := by
    unfold Worker.recv
    split
    · next f c hread =>
      obtain ⟨m, hdecode, rfl⟩ := FrameChannel.recv_frame hread
      -- a worker that takes a frame stands where its script does
      have hphase : l.worker.phase = (Worker.scripted l.worker.args heard).phase := by
        refine h.follows.phase.resolve_right ?_
        rintro (⟨-, hcode⟩ | hkilled | ⟨hdeaf, -⟩)
        · exact hawaits.1 0 hcode
        · exact hawaits.2 hkilled
        · exact hdeaf.not_frame hread
      let w : Worker := { l.worker with channel :=
        { l.worker.channel with decoder := l.worker.channel.decoder.drop m } }
      obtain ⟨fs, hsends⟩ := Worker.exists_sends_onFrame w f
      have hw : w.Follows heard :=
        ⟨⟨h.follows.alike.args, h.follows.alike.sent, h.follows.alike.log⟩, .inl hphase⟩
      have hfollows : (w.onFrame f).Follows (heard ++ [f]) := hw.onFrame hphase f
      refine ⟨heard ++ [f], fs, ⟨?_, ?_, hfollows⟩, hsends.sent⟩
      · rw [hsends.outgoing, hsends.sent, List.flatMap_append]
        exact congrArg (· ++ _) h.outgoing
      · rw [hsends.held, hsends.ended]
        exact h.down.take Protocol.faithful_encode hdecode
    · next reason c hread =>
      obtain ⟨rfl, hdeaf, -⟩ := FrameChannel.recv_failed hread
      have hsends := Worker.sends_onLoss l.worker reason
      refine ⟨heard, [], ⟨?_, ?_, h.follows.onLoss hdeaf reason⟩, hsends.sent⟩
      · rw [hsends.outgoing, hsends.sent, List.flatMap_append]
        exact congrArg (· ++ _) h.outgoing
      · rw [hsends.held, hsends.ended]
        exact h.down
    · next c hread =>
      obtain ⟨hheld, hreads⟩ := FrameChannel.recv_pending hread
      refine ⟨heard, [], ⟨hreads.outgoing.trans h.outgoing, ?_, ?_⟩, (List.append_nil _).symm⟩
      · rw [hheld, hreads.ended]
        exact h.down
      · refine h.follows.reads fun hdeaf => ?_
        have hsame : c = l.worker.channel := by
          rw [← hdeaf.recv_snd env.received, hread]
        rwa [hsame]
  unfold Worker.turn
  cases hphase : l.worker.phase with
  | accept | barrier _ | serve _ _ | result _ _ =>
    exact hrecv ⟨fun code hcode => (by rw [hphase] at hcode; cases hcode), fun hkilled =>
      (by rw [hphase] at hkilled; cases hkilled)⟩
  | stalled =>
    simp only
    split_ifs
    · exact ⟨heard, [], ⟨h.outgoing, h.down, h.follows.wake hphase⟩, (List.append_nil _).symm⟩
    · exact ⟨heard, [], h, (List.append_nil _).symm⟩
  | returned code | killed | undefined => exact ⟨heard, [], h, (List.append_nil _).symm⟩

end Answers

namespace Serves

variable {c : FrameChannel} {l : Link} {told taken : List Frame}

/-- The worker sends more. -/
theorem worker (h : Serves c l told taken) {w : Worker} {fs : List Frame}
    (hsent : w.sent = l.worker.sent ++ fs) : Serves c { l with worker := w } told taken := by
  refine ⟨h.outgoing, ?_⟩
  show Pipe Protocol.encode w.sent taken c.held l.up _
  rw [hsent]
  exact h.up.write fs

/-- The server's end is lost. -/
theorem lose (h : Serves c l told taken) (reset : Bool) :
    Serves { c with conn := c.conn.hangUp reset } l told taken := by
  exact ⟨h.outgoing, h.up.sever (FrameChannel.held_hangUp c reset) rfl⟩

/-- Some of the worker's bytes arrive. -/
theorem deliver (h : Serves c l told taken) (n : ℕ) :
    let bs := ((l.worker.sent.flatMap Protocol.encode).drop l.up).take n
    Serves { c with conn := c.conn.arrive bs } { l with up := l.up + bs.length } told taken := by
  intro bs
  by_cases hended : c.conn.ended = true
  · have hsame : c.conn.arrive bs = c.conn := if_pos hended
    rw [hsame]
    exact ⟨h.outgoing, h.up.pass hended n⟩
  · refine ⟨(FrameChannel.outgoing_arrive bs).trans h.outgoing, ?_⟩
    rw [FrameChannel.held_arrive hended, FrameChannel.ended_arrive]
    exact h.up.arrive hended n

/-- The server sends a frame. -/
theorem send (h : Serves c l told taken) (f : Frame) : Serves (c.send f) l (told ++ [f]) taken := by
  refine ⟨?_, h.up⟩
  show c.conn.outgoing ++ Protocol.encode f = _
  rw [h.outgoing, List.flatMap_append, List.flatMap_singleton]

/-- The server takes a frame. -/
theorem frame (h : Serves c l told taken) {n : ℕ} {f : Frame} {c' : FrameChannel}
    (hread : c.recv n = (.frame f, c')) : Serves c' l told (taken ++ [f]) := by
  obtain ⟨m, hdecode, rfl⟩ := FrameChannel.recv_frame hread
  exact ⟨h.outgoing, h.up.take Protocol.faithful_encode hdecode⟩

/-- A read that goes on. -/
theorem pending (h : Serves c l told taken) {n : ℕ} {c' : FrameChannel}
    (hread : c.recv n = (.pending, c')) : Serves c' l told taken := by
  obtain ⟨hheld, hreads⟩ := FrameChannel.recv_pending hread
  refine ⟨hreads.outgoing.trans h.outgoing, ?_⟩
  rw [hheld, hreads.ended]
  exact h.up

end Serves

/-! ## What is not the server's turn -/

/-- The same connections later on: one that was deaf is, and no handle has
been closed. -/
structure Passed (cs cs' : List FrameChannel) : Prop where
  length : cs'.length = cs.length
  valid : (∀ c ∈ cs, c.valid = true) → ∀ c ∈ cs', c.valid = true
  deaf : ∀ (k : ℕ) (c : FrameChannel), cs[k]? = some c → c.Deaf →
    ∃ c' : FrameChannel, cs'[k]? = some c' ∧ c'.Deaf

theorem Passed.refl (cs : List FrameChannel) : Passed cs cs :=
  ⟨rfl, id, fun _ c hc hd => ⟨c, hc, hd⟩⟩

theorem Passed.trans {cs cs' cs'' : List FrameChannel} (h : Passed cs cs') (h' : Passed cs' cs'') :
    Passed cs cs'' := by
  refine ⟨h'.length.trans h.length, fun hv => h'.valid (h.valid hv), fun k c hc hd => ?_⟩
  obtain ⟨c', hc', hd'⟩ := h.deaf k c hc hd
  exact h'.deaf k c' hc' hd'

theorem Passed.set {cs : List FrameChannel} {k : ℕ} {c c' : FrameChannel} (hc : cs[k]? = some c)
    (hvalid : c'.valid = c.valid) (hdeaf : c.Deaf → c'.Deaf) : Passed cs (cs.set k c') := by
  refine ⟨List.length_set, fun hall d hd => ?_, fun j d hd hddeaf => ?_⟩
  · rcases List.mem_or_eq_of_mem_set hd with hd | rfl
    · exact hall d hd
    · exact hvalid.trans (hall c (List.mem_of_getElem? hc))
  rw [List.getElem?_set]
  by_cases hj : k = j
  · subst hj
    obtain ⟨hlt, -⟩ := List.getElem?_eq_some_iff.1 hc
    obtain rfl : c = d := Option.some.inj (hc.symm.trans hd)
    exact ⟨c', by simp [hlt], hdeaf hddeaf⟩
  · exact ⟨d, by simp [hj, hd], hddeaf⟩

/-- Links to the same workers, and perhaps to more. -/
def SameWorkers (links links' : List Link) : Prop :=
  ∀ (k : ℕ) (l : Link), links[k]? = some l →
    ∃ l' : Link, links'[k]? = some l' ∧ l'.worker.args = l.worker.args

namespace Wired

variable {cs : List FrameChannel} {links : List Link} {b : Book} {k : ℕ}

/-- One worker's end changes, and what the worker has sent at most
grows. -/
theorem setWorker (h : Wired cs links b) {l l' : Link} (hl : links[k]? = some l)
    {heard : List Frame} (hanswers : Answers l' (b.told k) heard) (hup : l'.up = l.up)
    (hsent : ∃ fs, l'.worker.sent = l.worker.sent ++ fs) :
    Wired cs (links.set k l') (b.hear k heard) := by
  obtain ⟨hlt, -⟩ := List.getElem?_eq_some_iff.1 hl
  have hget (j : ℕ) (m : Link) (hm : (links.set k l')[j]? = some m) :
      (j = k ∧ m = l') ∨ (j ≠ k ∧ links[j]? = some m) := by
    rw [List.getElem?_set] at hm
    by_cases hj : k = j
    · subst hj
      simp only [if_true, hlt] at hm
      exact .inl ⟨rfl, (Option.some.inj hm).symm⟩
    · rw [if_neg hj] at hm
      exact .inr ⟨fun h => hj h.symm, hm⟩
  refine ⟨?_, fun j m hm => ?_, fun j c m hc hm => ?_, fun j m hj hm => ?_, fun j hj => ?_⟩
  · rw [List.length_set]
    exact h.length_le
  · rcases hget j m hm with ⟨rfl, rfl⟩ | ⟨hne, hm⟩
    · simpa [Book.hear] using hanswers
    · simpa [Book.hear, hne] using h.worker j m hm
  · rcases hget j m hm with ⟨rfl, rfl⟩ | ⟨hne, hm⟩
    · obtain ⟨fs, hfs⟩ := hsent
      have hserves := h.server j c l hc hl
      refine ⟨hserves.outgoing, ?_⟩
      rw [hfs, hup]
      exact hserves.up.write fs
    · exact h.server j c m hc hm
  · rcases hget j m hm with ⟨rfl, rfl⟩ | ⟨hne, hm⟩
    · rw [hup]
      exact h.ahead j l hj hl
    · exact h.ahead j m hj hm
  · rw [List.length_set] at hj
    have hne : j ≠ k := by omega
    simpa [Book.hear, hne] using h.beyond j hj

/-- One link's server end changes. -/
theorem setServer (h : Wired cs links b) {c c' : FrameChannel} {l l' : Link}
    (hc : cs[k]? = some c) (hl : links[k]? = some l)
    (hworker : l'.worker = l.worker ∧ l'.down = l.down)
    (hserves : Serves c' l' (b.told k) (b.taken k)) :
    Wired (cs.set k c') (links.set k l') b := by
  obtain ⟨hlt, -⟩ := List.getElem?_eq_some_iff.1 hl
  obtain ⟨hclt, -⟩ := List.getElem?_eq_some_iff.1 hc
  refine ⟨?_, fun j m hm => ?_, fun j d m hd hm => ?_, fun j m hj hm => ?_, fun j hj => ?_⟩
  · rw [List.length_set, List.length_set]
    exact h.length_le
  · by_cases hj : k = j
    · subst hj
      rw [List.getElem?_set_self hlt] at hm
      obtain rfl := Option.some.inj hm
      have hanswers := h.worker k l hl
      refine ⟨?_, ?_, ?_⟩
      · rw [hworker.1]
        exact hanswers.outgoing
      · rw [hworker.1, hworker.2]
        exact hanswers.down
      · rw [hworker.1]
        exact hanswers.follows
    · rw [List.getElem?_set_ne hj] at hm
      exact h.worker j m hm
  · by_cases hj : k = j
    · subst hj
      rw [List.getElem?_set_self hlt] at hm
      rw [List.getElem?_set_self hclt] at hd
      obtain rfl := Option.some.inj hm
      obtain rfl := Option.some.inj hd
      exact hserves
    · rw [List.getElem?_set_ne hj] at hm hd
      exact h.server j d m hd hm
  · rw [List.length_set] at hj
    have hne : k ≠ j := by omega
    rw [List.getElem?_set_ne hne] at hm
    exact h.ahead j m hj hm
  · rw [List.length_set] at hj
    exact h.beyond j hj

/-- One more worker is there. -/
theorem launch (h : Wired cs links b) (args : Worker.Args) :
    Wired cs (links ++ [{ worker := Worker.start args }]) b := by
  obtain ⟨htold, hheard, htaken⟩ := h.beyond links.length le_rfl
  have hget (j : ℕ) (m : Link) (hm : (links ++ [({ worker := Worker.start args } : Link)])[j]? =
      some m) : links[j]? = some m ∨ (j = links.length ∧ m = { worker := Worker.start args }) := by
    rcases lt_trichotomy j links.length with hj | rfl | hj
    · rw [List.getElem?_append_left hj] at hm
      exact .inl hm
    · rw [List.getElem?_concat_length] at hm
      exact .inr ⟨rfl, (Option.some.inj hm).symm⟩
    · have hlength : (links ++ [({ worker := Worker.start args } : Link)]).length ≤ j := by
        rw [List.length_append]
        exact hj
      rw [List.getElem?_eq_none hlength] at hm
      cases hm
  have hle := h.length_le
  refine ⟨?_, fun j m hm => ?_, fun j c m hc hm => ?_, fun j m hj hm => ?_, fun j hj => ?_⟩
  · rw [List.length_append]
    omega
  · rcases hget j m hm with hm | ⟨rfl, rfl⟩
    · exact h.worker j m hm
    · rw [htold, hheard]
      exact .start args
  · rcases hget j m hm with hm | ⟨rfl, rfl⟩
    · exact h.server j c m hc hm
    · rw [List.getElem?_eq_none hle] at hc
      cases hc
  · rcases hget j m hm with hm | ⟨rfl, rfl⟩
    · exact h.ahead j m hj hm
    · exact ⟨htold, htaken, rfl⟩
  · rw [List.length_append] at hj
    exact h.beyond j (by omega)

/-! ## What the server does -/

/-- The server's end of one link changes, with what it told and took. -/
theorem setConnection (h : Wired cs links b) {c c' : FrameChannel} (hc : cs[k]? = some c)
    {b' : Book} (hheard : b'.heard = b.heard)
    (hother : ∀ j, j ≠ k → b'.told j = b.told j ∧ b'.taken j = b.taken j)
    (htold : ∃ fs, b'.told k = b.told k ++ fs)
    (hserves : ∀ l, links[k]? = some l → Serves c l (b.told k) (b.taken k) →
      Serves c' l (b'.told k) (b'.taken k)) :
    Wired (cs.set k c') links b' := by
  obtain ⟨hclt, -⟩ := List.getElem?_eq_some_iff.1 hc
  have hle := h.length_le
  refine ⟨?_, fun j m hm => ?_, fun j d m hd hm => ?_, fun j m hj hm => ?_, fun j hj => ?_⟩
  · rw [List.length_set]
    exact hle
  · have hanswers := h.worker j m hm
    rw [hheard]
    by_cases hj : j = k
    · subst hj
      obtain ⟨fs, hfs⟩ := htold
      rw [hfs]
      exact hanswers.tell fs
    · rw [(hother j hj).1]
      exact hanswers
  · by_cases hj : k = j
    · subst hj
      rw [List.getElem?_set_self hclt] at hd
      obtain rfl := Option.some.inj hd
      exact hserves m hm (h.server k c m hc hm)
    · rw [List.getElem?_set_ne hj] at hd
      obtain ⟨htold, htaken⟩ := hother j (Ne.symm hj)
      rw [htold, htaken]
      exact h.server j d m hd hm
  · rw [List.length_set] at hj
    obtain ⟨htold, htaken⟩ := hother j (by omega)
    rw [htold, htaken]
    exact h.ahead j m hj hm
  · obtain ⟨htold, htaken⟩ := hother j (by omega)
    rw [htold, htaken, hheard]
    exact h.beyond j hj

/-- A frame is sent. -/
theorem send (h : Wired cs links b) (hk : k < cs.length) (f : Frame) :
    Wired (cs.modify k (·.send f)) links (b.tell k [f]) := by
  have hc : cs[k]? = some cs[k] := List.getElem?_eq_getElem hk
  have hmodify : cs.modify k (·.send f) = cs.set k (cs[k].send f) := by
    rw [List.modify_eq_set_getElem?, hc]
    rfl
  rw [hmodify]
  refine h.setConnection hc rfl (fun j hj => ?_) ⟨[f], by simp [Book.tell]⟩ fun l _ hserves => ?_
  · simp [Book.tell, hj]
  · simpa [Book.tell] using hserves.send f

/-- A frame is taken. -/
theorem frame (h : Wired cs links b) {c c' : FrameChannel} (hc : cs[k]? = some c) {n : ℕ}
    {f : Frame} (hread : c.recv n = (.frame f, c')) :
    Wired (cs.set k c') links (b.take k f) := by
  refine h.setConnection hc rfl (fun j hj => ?_) ⟨[], (List.append_nil _).symm⟩
    fun l _ hserves => ?_
  · simp [Book.take, hj]
  · simpa [Book.take] using hserves.frame hread

/-- A read goes on. -/
theorem pending (h : Wired cs links b) {c c' : FrameChannel} (hc : cs[k]? = some c) {n : ℕ}
    (hread : c.recv n = (.pending, c')) : Wired (cs.set k c') links b :=
  h.setConnection hc rfl (fun _ _ => ⟨rfl, rfl⟩) ⟨[], (List.append_nil _).symm⟩
    fun _ _ hserves => hserves.pending hread

/-- A client is accepted. -/
theorem accept (h : Wired cs links b) (hlt : cs.length < links.length) :
    Wired (cs ++ [({} : FrameChannel)]) links b := by
  refine ⟨?_, h.worker, fun j c m hc hm => ?_, fun j m hj hm => ?_, h.beyond⟩
  · rw [List.length_append]
    exact hlt
  · rcases lt_trichotomy j cs.length with hj | rfl | hj
    · rw [List.getElem?_append_left hj] at hc
      exact h.server j c m hc hm
    · -- nothing has come to the new connection yet
      rw [List.getElem?_concat_length] at hc
      obtain rfl := Option.some.inj hc
      obtain ⟨htold, htaken, hup⟩ := h.ahead cs.length m le_rfl hm
      rw [htold, htaken]
      refine ⟨rfl, ?_⟩
      rw [hup]
      exact (Pipe.start Protocol.encode _).write m.worker.sent
    · have hlength : (cs ++ [({} : FrameChannel)]).length ≤ j := by
        rw [List.length_append]
        exact hj
      rw [List.getElem?_eq_none hlength] at hc
      cases hc
  · rw [List.length_append, List.length_singleton] at hj
    exact h.ahead j m (by omega) hm

/-- **The frames taken from a connection are the first its worker sent.** -/
theorem taken_prefix (h : Wired cs links b) {l : Link} (hl : links[k]? = some l) :
    b.taken k <+: l.worker.sent := by
  cases hc : cs[k]? with
  | some c => exact (h.server k c l hc hl).up.taken_prefix
  | none =>
    rw [(h.ahead k l (List.getElem?_eq_none_iff.1 hc) hl).2.1]
    exact List.nil_prefix

/-- **They are the first of what its script sends** for what it was told. -/
theorem taken_prefix_scripted (h : Wired cs links b) {l : Link} (hl : links[k]? = some l) :
    b.taken k <+: (Worker.scripted l.worker.args (b.told k)).sent := by
  have hanswers := h.worker k l hl
  have hsent := hanswers.follows.alike.sent
  rw [Worker.scripted] at hsent ⊢
  exact (h.taken_prefix hl).trans (hsent ▸ Worker.sent_hear_mono _ hanswers.down.taken_prefix)

end Wired

namespace Deployment

variable {H : Host} {d : Deployment H} {b : Book}

/-- **What an event other than the server's turn does**: the links stay
wired, nothing is told and nothing is taken, and the server's state
changes in its connections alone. -/
structure Networked (d d' : Deployment H) (b b' : Book) : Prop where
  wired : Wired (H.connections d'.state) d'.links b'
  told : b'.told = b.told
  taken : b'.taken = b.taken
  state : d'.state = d.state ∨ d'.state = H.setConnections d.state (H.connections d'.state)
  passed : Passed (H.connections d.state) (H.connections d'.state)
  workers : SameWorkers d.links d'.links

theorem networked_refl (h : Wired (H.connections d.state) d.links b) : Networked d d b b :=
  ⟨h, rfl, rfl, .inl rfl, .refl _, fun _ l hl => ⟨l, hl, rfl⟩⟩

theorem sameWorkers_set {links : List Link} {k : ℕ} {l l' : Link} (hl : links[k]? = some l)
    (hargs : l'.worker.args = l.worker.args) : SameWorkers links (links.set k l') := by
  intro j m hm
  obtain ⟨hlt, -⟩ := List.getElem?_eq_some_iff.1 hl
  rw [List.getElem?_set]
  by_cases hj : k = j
  · subst hj
    obtain rfl : l = m := Option.some.inj (hl.symm.trans hm)
    exact ⟨l', by simp [hlt], hargs⟩
  · exact ⟨m, by simp [hj, hm], rfl⟩

/-- One worker's end changes. -/
theorem networked_worker (h : Wired (H.connections d.state) d.links b) {k : ℕ} {l l' : Link}
    {heard : List Frame} (hl : d.links[k]? = some l) (hanswers : Answers l' (b.told k) heard)
    (hup : l'.up = l.up) (hsent : ∃ fs, l'.worker.sent = l.worker.sent ++ fs)
    (hargs : l'.worker.args = l.worker.args) :
    ∃ b', Networked d { d with links := d.links.set k l' } b b' :=
  ⟨b.hear k heard, h.setWorker hl hanswers hup hsent, rfl, rfl, .inl rfl, .refl _,
    sameWorkers_set hl hargs⟩

/-- One server's end changes. -/
theorem networked_server (h : Wired (H.connections d.state) d.links b) {k : ℕ} {l l' : Link}
    {c c' : FrameChannel} (hc : d.connection k = some c) (hl : d.links[k]? = some l)
    (hworker : l'.worker = l.worker ∧ l'.down = l.down)
    (hserves : Serves c' l' (b.told k) (b.taken k)) (hvalid : c'.valid = c.valid)
    (hdeaf : c.Deaf → c'.Deaf) : Networked d (d.setLink k c' l') b b := by
  have hconnections : H.connections (d.setLink k c' l').state = (H.connections d.state).set k c' :=
    H.connections_setConnections _ _
  refine ⟨?_, rfl, rfl, .inr ?_, ?_, sameWorkers_set hl (congrArg Worker.args hworker.1)⟩
  · rw [hconnections]
    exact h.setServer hc hl hworker hserves
  · rw [hconnections]
    rfl
  · rw [hconnections]
    exact .set hc hvalid hdeaf

theorem modify_eq_set {α : Type} {xs : List α} {k : ℕ} {x : α} (f : α → α) (hx : xs[k]? = some x) :
    xs.modify k f = xs.set k (f x) := by
  rw [List.modify_eq_set_getElem?, hx]
  rfl

/-- The links change in place `k`, if there is one. -/
theorem networked_modify (h : Wired (H.connections d.state) d.links b) (k : ℕ) {f : Link → Link}
    (hf : ∀ l, d.links[k]? = some l → ∃ heard, Answers (f l) (b.told k) heard ∧
      (f l).up = l.up ∧ (∃ fs, (f l).worker.sent = l.worker.sent ++ fs) ∧
      (f l).worker.args = l.worker.args) :
    ∃ b', Networked d { d with links := d.links.modify k f } b b' := by
  cases hl : d.links[k]? with
  | none =>
    have hsame : d.links.modify k f = d.links := by
      rw [List.modify_eq_set_getElem?, hl]
      rfl
    rw [hsame]
    exact ⟨b, networked_refl h⟩
  | some l =>
    obtain ⟨heard, hanswers, hup, hsent, hargs⟩ := hf l hl
    rw [modify_eq_set f hl]
    exact networked_worker h hl hanswers hup hsent hargs

theorem args_turn (w : Worker) (env : Worker.Surroundings) : (w.turn env).args = w.args := by
  have hrecv : (w.recv env).args = w.args := by
    unfold Worker.recv
    split
    · next f c _ =>
      obtain ⟨_, hsends⟩ := Worker.exists_sends_onFrame { w with channel := c } f
      exact hsends.args
    · exact (Worker.sends_onLoss _ _).args
    · rfl
  unfold Worker.turn
  split
  any_goals exact hrecv
  · split_ifs <;> rfl
  all_goals rfl

/-- **Every event but the server's turn.** -/
theorem networked_step (h : Wired (H.connections d.state) d.links b) (ev : Event)
    (hev : ∀ env, ev ≠ .host env) : ∃ b', Networked d (d.step ev) b b' := by
  cases ev with
  | host env => exact absurd rfl (hev env)
  | launch args =>
    refine ⟨b, h.launch args, rfl, rfl, .inl rfl, .refl _, fun k l hl => ⟨l, ?_, rfl⟩⟩
    obtain ⟨hlt, -⟩ := List.getElem?_eq_some_iff.1 hl
    show (d.links ++ _)[k]? = _
    rw [List.getElem?_append_left hlt, hl]
  | worker k env =>
    refine networked_modify h k fun l hl => ?_
    obtain ⟨heard, fs, hanswers, hsent⟩ := (h.worker k l hl).turn env
    exact ⟨heard, hanswers, rfl, ⟨fs, hsent⟩, args_turn _ env⟩
  | up k n =>
    simp only [step]
    split
    · next c l hc hl =>
      have hserves := h.server k c l hc hl
      have hworker := h.worker k l hl
      refine ⟨b, networked_server h hc hl ⟨rfl, rfl⟩ ?_ (FrameChannel.valid_arrive c _)
        fun hdeaf => hdeaf.arrive _⟩
      rw [hworker.outgoing]
      exact hserves.deliver n
    · exact ⟨b, networked_refl h⟩
  | down k n =>
    simp only [step]
    split
    · next c l hc hl =>
      -- the server's end stays as it is
      have hset : (H.connections d.state).set k c = H.connections d.state := by
        obtain ⟨hlt, rfl⟩ := List.getElem?_eq_some_iff.1 hc
        exact List.set_getElem_self hlt
      have hserves := h.server k c l hc hl
      have hanswers := (h.worker k l hl).deliver n
      rw [← hserves.outgoing] at hanswers
      have hconnections (l' : Link) :
          H.connections (d.setLink k c l').state = H.connections d.state :=
        (H.connections_setConnections _ _).trans hset
      refine ⟨b.hear k (b.heard k), ?_, rfl, rfl, .inr ?_, ?_, sameWorkers_set hl rfl⟩
      · rw [hconnections]
        exact h.setWorker hl hanswers rfl ⟨[], (List.append_nil _).symm⟩
      · rw [hconnections, ← hset]
        rfl
      · rw [hconnections]
        exact .refl _
    · exact ⟨b, networked_refl h⟩
  | lose k reset =>
    simp only [step]
    split
    · next c l hc hl =>
      exact ⟨b, networked_server h hc hl ⟨rfl, rfl⟩ ((h.server k c l hc hl).lose reset) rfl
        fun hdeaf => hdeaf.hangUp reset⟩
    · exact ⟨b, networked_refl h⟩
  | close k reset =>
    refine networked_modify h k fun l hl => ?_
    exact ⟨b.heard k, (h.worker k l hl).close reset, rfl, ⟨[], (List.append_nil _).symm⟩, rfl⟩
  | kill k =>
    refine networked_modify h k fun l hl => ?_
    exact ⟨b.heard k, (h.worker k l hl).kill, rfl, ⟨[], (List.append_nil _).symm⟩, rfl⟩

end Deployment

end CollectiveFabric
