import CollectiveFabric.Multiprocess.Quiescence
import Mathlib.Algebra.BigOperators.Group.Finset.Basic
import Mathlib.Algebra.Order.BigOperators.Group.Finset
import Mathlib.Data.Prod.Lex

/-!
# Deployments come to rest

When nothing more goes wrong, no deployment goes on for ever. The
coordinator makes its calls, and each leads on; between two of them the
workers use up what they were sent, and between two of their frames bytes
only move towards the coordinator.
-/

namespace CollectiveFabric

open Common

namespace Worker

/-- How far a phase is from the end of the worker, counting only what a
lost connection leads to. -/
def Phase.rank : Phase → ℕ
  | .accept | .barrier _ => 2
  | .serve _ _ | .result _ _ | .stalled => 1
  | .returned _ | .killed | .undefined => 0

variable {w : Worker}

theorem rank_onFrame_le (w : Worker) (f : Frame) : (w.onFrame f).phase.rank ≤ w.phase.rank := by
  unfold onFrame
  cases hphase : w.phase with
  | accept =>
    simp only [onAccept]
    split
    · exact Nat.zero_le _
    · exact le_rfl
  | barrier rank => exact Nat.le_succ 1
  | serve rank index =>
    simp only [onServe]
    split_ifs
    · unfold onRequest
      split
      · exact Nat.zero_le _
      · split_ifs
        · exact le_rfl
        · exact Nat.zero_le _
        · exact le_rfl
    · exact (congrArg Phase.rank hphase).le
    · exact Nat.zero_le _
    · exact (congrArg Phase.rank hphase).le
  | result rank index =>
    simp only [onResult]
    by_cases hkind : f.kind ≠ .of .result
    · rw [if_pos hkind]
      exact Nat.zero_le _
    rw [if_neg hkind]
    split
    · exact Nat.zero_le _
    · split_ifs
      · exact Nat.zero_le _
      · exact le_rfl
  | stalled | returned code | killed | undefined => exact (congrArg Phase.rank hphase).le

theorem rank_onLoss_lt (h : w.Awaits) (reason : String) :
    (w.onLoss reason).phase.rank < w.phase.rank := by
  unfold Awaits at h
  unfold onLoss
  cases hphase : w.phase with
  | accept => exact Nat.zero_lt_two
  | barrier rank => exact Nat.lt_succ_self 1
  | serve rank index =>
    simp only [onServeLoss]
    split_ifs
    · exact Nat.zero_lt_one
    · exact Nat.zero_lt_one
  | result rank index => exact Nat.zero_lt_one
  | stalled | returned code | killed | undefined =>
    rw [hphase] at h
    exact h.elim

end Worker

/-! ## Channels -/

namespace TcpConnection

/-- Whether the end of the connection is still to come. -/
def fuse (c : TcpConnection) : ℕ := if c.ended then 0 else 1

theorem length_arrive_le (c : TcpConnection) (bs : List UInt8) :
    (c.arrive bs).incoming.length ≤ c.incoming.length + bs.length := by
  unfold arrive
  split_ifs
  · exact Nat.le_add_right ..
  · exact List.length_append.le

theorem arrive_nil (c : TcpConnection) : c.arrive [] = c := by
  unfold arrive
  split_ifs
  · rfl
  · rw [List.append_nil]

/-- A connection that ends loses its end, bytes or nothing. -/
theorem hangUp_lower (c : TcpConnection) (reset : Bool) :
    c.hangUp reset = c ∨
      (c.hangUp reset).incoming.length ≤ c.incoming.length ∧
        (c.hangUp reset).incoming.length + (c.hangUp reset).fuse <
          c.incoming.length + c.fuse := by
  have hfuse : (c.hangUp reset).fuse = 0 := rfl
  rw [hfuse]
  by_cases hended : c.ended = true
  · have hzero : c.fuse = 0 := if_pos hended
    rw [hzero]
    by_cases hsame : (c.hangUp reset).incoming = c.incoming
    · refine .inl ?_
      have hends : (c.hangUp reset).ended = c.ended := hended.symm
      calc c.hangUp reset
          = { c with ended := (c.hangUp reset).ended, incoming := (c.hangUp reset).incoming } := rfl
        _ = c := by rw [hsame, hends]
    · refine .inr ?_
      cases reset with
      | false => exact absurd rfl hsame
      | true =>
        have hpos := List.length_pos_iff.2 (Ne.symm hsame)
        exact ⟨Nat.zero_le _, hpos⟩
  · have hone : c.fuse = 1 := if_neg hended
    rw [hone]
    have hle : (c.hangUp reset).incoming.length ≤ c.incoming.length := by
      show (if reset then [] else c.incoming).length ≤ _
      split_ifs
      · exact Nat.zero_le _
      · exact le_rfl
    exact .inr ⟨hle, by omega⟩

end TcpConnection

/-- A read that goes on moves bytes to the decoder, or changes nothing. -/
theorem FrameChannel.recv_lower {c c' : FrameChannel} {n : ℕ} (h : c.recv n = (.pending, c')) :
    c' = c ∨ c'.conn.incoming.length < c.conn.incoming.length ∧
      2 * c'.conn.incoming.length + c'.decoder.length <
        2 * c.conn.incoming.length + c.decoder.length := by
  have hheld := congrArg List.length (recv_pending h).1
  simp only [held, List.length_append] at hheld
  unfold recv at h
  rw [next_eq] at h
  cases hdecode : Protocol.decode c.decoder with
  | frame g m =>
    simp only [hdecode] at h
    cases h
  | reject why =>
    simp only [hdecode] at h
    cases h
  | needMore =>
    simp only [hdecode] at h
    unfold TcpConnection.recvSome at h
    split_ifs at h with hempty hended
    · cases h
    · exact .inl (congrArg Prod.snd h).symm
    · have hdrop : c'.conn.incoming = c.conn.incoming.drop (max 1 (min n 8192)) :=
        (congrArg (fun p : Received × FrameChannel => p.2.conn.incoming) h).symm
      have hlength := congrArg List.length hdrop
      have hpos := List.length_pos_iff.2 hempty
      rw [List.length_drop] at hlength
      exact .inr ⟨by omega, by omega⟩

/-! ## What is still to come on a link -/

namespace Link

/-- What is still to come to the worker: bytes that the server sent, and
the ends of its connection and of itself. -/
def toWorker (c : FrameChannel) (l : Link) : ℕ :=
  3 * (c.conn.outgoing.length - l.down) + (2 * l.worker.channel.conn.incoming.length +
    l.worker.channel.decoder.length) + l.worker.phase.rank + l.worker.channel.conn.fuse

/-- What is still to come from it. -/
def toServer (c : FrameChannel) (l : Link) : ℕ :=
  2 * (l.worker.channel.conn.outgoing.length - l.up) + c.conn.incoming.length + c.conn.fuse

/-- Less is still to come, on the way back where as much is on the way
there. -/
def Lower (c' : FrameChannel) (l' : Link) (c : FrameChannel) (l : Link) : Prop :=
  l'.toWorker c' < l.toWorker c ∨ l'.toWorker c' = l.toWorker c ∧ l'.toServer c' < l.toServer c

variable (c : FrameChannel) (l : Link)

/-- **A turn of a worker** that nobody wakes. -/
theorem lower_turn {env : Worker.Surroundings} (hwakes : env.wakes = false) :
    l.worker.turn env = l.worker ∨ Lower c { l with worker := l.worker.turn env } c l := by
  by_cases hawaits : l.worker.Awaits
  swap
  · refine .inl ?_
    unfold Worker.Awaits at hawaits
    unfold Worker.turn
    cases hphase : l.worker.phase with
    | accept | barrier _ | serve _ _ | result _ _ =>
      rw [hphase] at hawaits
      exact absurd trivial hawaits
    | stalled => exact if_neg (hwakes ▸ Bool.false_ne_true)
    | returned code | killed | undefined => rfl
  rw [Worker.turn_of_awaits hawaits, Worker.recv]
  split
  · next f c' hread =>
    -- the bytes of a frame are used up
    obtain ⟨m, hdecode, rfl⟩ := FrameChannel.recv_frame hread
    let w : Worker := { l.worker with channel :=
      { l.worker.channel with decoder := l.worker.channel.decoder.drop m } }
    obtain ⟨_, hsends⟩ := Worker.exists_sends_onFrame w f
    have hrank : (w.onFrame f).phase.rank ≤ l.worker.phase.rank := w.rank_onFrame_le f
    have hincoming : (w.onFrame f).channel.conn.incoming = l.worker.channel.conn.incoming :=
      hsends.incoming
    have hfuse : (w.onFrame f).channel.conn.fuse = l.worker.channel.conn.fuse := by
      unfold TcpConnection.fuse
      rw [hsends.ended]
    have hdecoder : (w.onFrame f).channel.decoder.length = l.worker.channel.decoder.length - m := by
      rw [hsends.decoder]
      exact List.length_drop
    have hpos := Protocol.framer.consumed_pos hdecode
    have hle := Protocol.framer.consumed_le hdecode
    refine .inr (.inl ?_)
    show 3 * (c.conn.outgoing.length - l.down) + (2 * (w.onFrame f).channel.conn.incoming.length +
      (w.onFrame f).channel.decoder.length) + (w.onFrame f).phase.rank +
        (w.onFrame f).channel.conn.fuse < l.toWorker c
    rw [hincoming, hdecoder, hfuse, toWorker]
    omega
  · next reason c' hread =>
    obtain ⟨rfl, -⟩ := FrameChannel.recv_failed hread
    have hsends := Worker.sends_onLoss l.worker reason
    have hrank := Worker.rank_onLoss_lt hawaits reason
    have hfuse : (l.worker.onLoss reason).channel.conn.fuse = l.worker.channel.conn.fuse := by
      unfold TcpConnection.fuse
      rw [hsends.ended]
    refine .inr (.inl ?_)
    show 3 * (c.conn.outgoing.length - l.down) +
      (2 * (l.worker.onLoss reason).channel.conn.incoming.length +
        (l.worker.onLoss reason).channel.decoder.length) + (l.worker.onLoss reason).phase.rank +
          (l.worker.onLoss reason).channel.conn.fuse < l.toWorker c
    rw [hsends.incoming, hsends.decoder, hfuse, toWorker]
    omega
  · next c' hread =>
    rcases FrameChannel.recv_lower hread with rfl | ⟨-, hlower⟩
    · exact .inl rfl
    · have hfuse : c'.conn.fuse = l.worker.channel.conn.fuse := by
        unfold TcpConnection.fuse
        rw [(FrameChannel.recv_pending hread).2.ended]
      refine .inr (.inl ?_)
      show 3 * (c.conn.outgoing.length - l.down) +
        (2 * c'.conn.incoming.length + c'.decoder.length) + l.worker.phase.rank + c'.conn.fuse <
          l.toWorker c
      rw [hfuse, toWorker]
      omega

/-- Bytes that the worker sent arrive. -/
theorem lower_up (n : ℕ) :
    let bs := (l.worker.channel.conn.outgoing.drop l.up).take n
    let c' : FrameChannel := { c with conn := c.conn.arrive bs }
    let l' : Link := { l with up := l.up + bs.length }
    (c' = c ∧ l' = l) ∨ Lower c' l' c l := by
  intro bs c' l'
  rcases bs.length.eq_zero_or_pos with hzero | hpos
  · refine .inl ⟨?_, ?_⟩
    · show { c with conn := c.conn.arrive bs } = c
      rw [List.eq_nil_of_length_eq_zero hzero, TcpConnection.arrive_nil]
    · show { l with up := l.up + bs.length } = l
      rw [hzero]
      rfl
  · have hlength : bs.length = min n (l.worker.channel.conn.outgoing.length - l.up) := by
      rw [List.length_take, List.length_drop]
    have harrive := c.conn.length_arrive_le bs
    refine .inr (.inr ⟨?_, ?_⟩)
    · show 3 * ((c.conn.arrive bs).outgoing.length - l.down) + _ + _ + _ = _
      rw [FrameChannel.outgoing_arrive]
      rfl
    · have hfuse : (c.conn.arrive bs).fuse = c.conn.fuse := by
        unfold TcpConnection.fuse
        rw [FrameChannel.ended_arrive]
      show 2 * (l.worker.channel.conn.outgoing.length - (l.up + bs.length)) +
        (c.conn.arrive bs).incoming.length + (c.conn.arrive bs).fuse < l.toServer c
      rw [hfuse, toServer]
      omega

/-- Bytes that the server sent arrive. -/
theorem lower_down (n : ℕ) :
    let bs := (c.conn.outgoing.drop l.down).take n
    let channel : FrameChannel :=
      { l.worker.channel with conn := l.worker.channel.conn.arrive bs }
    let l' : Link := { l with
      worker := { l.worker with channel := channel }
      down := l.down + bs.length }
    l' = l ∨ Lower c l' c l := by
  intro bs channel l'
  rcases bs.length.eq_zero_or_pos with hzero | hpos
  · refine .inl ?_
    have hchannel : channel = l.worker.channel := by
      show { l.worker.channel with conn := l.worker.channel.conn.arrive bs } = l.worker.channel
      rw [List.eq_nil_of_length_eq_zero hzero, TcpConnection.arrive_nil]
    show ({ l with worker := { l.worker with channel := channel }, down := l.down + bs.length } :
      Link) = l
    rw [hchannel, hzero]
    rfl
  · have hlength : bs.length = min n (c.conn.outgoing.length - l.down) := by
      rw [List.length_take, List.length_drop]
    have harrive := l.worker.channel.conn.length_arrive_le bs
    have hfuse : (l.worker.channel.conn.arrive bs).fuse = l.worker.channel.conn.fuse := by
      unfold TcpConnection.fuse
      rw [FrameChannel.ended_arrive]
    refine .inr (.inl ?_)
    show 3 * (c.conn.outgoing.length - (l.down + bs.length)) +
      (2 * (l.worker.channel.conn.arrive bs).incoming.length + l.worker.channel.decoder.length) +
        l.worker.phase.rank + (l.worker.channel.conn.arrive bs).fuse < l.toWorker c
    rw [hfuse, toWorker]
    omega

/-- The server's end of the connection ends. -/
theorem lower_lose (reset : Bool) :
    let c' : FrameChannel := { c with conn := c.conn.hangUp reset }
    c' = c ∨ Lower c' l c l := by
  intro c'
  rcases c.conn.hangUp_lower reset with hsame | ⟨-, hlower⟩
  · refine .inl ?_
    show { c with conn := c.conn.hangUp reset } = c
    rw [hsame]
  · refine .inr (.inr ⟨rfl, ?_⟩)
    show 2 * (l.worker.channel.conn.outgoing.length - l.up) + (c.conn.hangUp reset).incoming.length +
      (c.conn.hangUp reset).fuse < l.toServer c
    rw [toServer]
    omega

/-- The worker's end ends. -/
theorem lower_close (reset : Bool) :
    let channel : FrameChannel :=
      { l.worker.channel with conn := l.worker.channel.conn.hangUp reset }
    let l' : Link := { l with worker := { l.worker with channel := channel } }
    l' = l ∨ Lower c l' c l := by
  intro channel l'
  rcases l.worker.channel.conn.hangUp_lower reset with hsame | ⟨hle, hlower⟩
  · refine .inl ?_
    have hchannel : channel = l.worker.channel := by
      show { l.worker.channel with conn := l.worker.channel.conn.hangUp reset } = l.worker.channel
      rw [hsame]
    show ({ l with worker := { l.worker with channel := channel } } : Link) = l
    rw [hchannel]
  · refine .inr (.inl ?_)
    show 3 * (c.conn.outgoing.length - l.down) +
      (2 * (l.worker.channel.conn.hangUp reset).incoming.length + l.worker.channel.decoder.length) +
        l.worker.phase.rank + (l.worker.channel.conn.hangUp reset).fuse < l.toWorker c
    rw [toWorker]
    omega

/-- A read of the server's that goes on. -/
theorem lower_pending {c' : FrameChannel} {n : ℕ} (hread : c.recv n = (.pending, c')) :
    c' = c ∨ Lower c' l c l := by
  rcases FrameChannel.recv_lower hread with hsame | ⟨hlower, -⟩
  · exact .inl hsame
  · have hreads := (FrameChannel.recv_pending hread).2
    refine .inr (.inr ⟨?_, ?_⟩)
    · rw [toWorker, toWorker, hreads.outgoing]
    · have hfuse : c'.conn.fuse = c.conn.fuse := by
        unfold TcpConnection.fuse
        rw [hreads.ended]
      rw [toServer, toServer, hfuse]
      omega

end Link

/-! ## What is still to come in a deployment -/

namespace Deployment

open Coordinator

variable (d : Deployment Coordinator.host)

/-- The sum of what is still to come on each link. -/
def total (f : Link → FrameChannel → ℕ) : ℕ :=
  ∑ k ∈ Finset.range d.links.length, (d.links[k]?.elim 0 fun l => f l ((d.connection k).getD {}))

/-- **What is still to come**: calls of the coordinator, and what is on the
way between two of them. -/
def toCome : ℕ ×ₗ ℕ ×ₗ ℕ :=
  toLex (d.state.left, toLex (d.total fun l c => l.toWorker c, d.total fun l c => l.toServer c))

variable {d} {d' : Deployment Coordinator.host} {k : ℕ} {c c' : FrameChannel} {l l' : Link}

theorem total_le {f : Link → FrameChannel → ℕ} (hlength : d'.links.length = d.links.length)
    (hother : ∀ j, j ≠ k → d'.links[j]? = d.links[j]? ∧ d'.connection j = d.connection j)
    (hl : d.links[k]? = some l) (hl' : d'.links[k]? = some l')
    (hle : f l' ((d'.connection k).getD {}) ≤ f l ((d.connection k).getD {})) :
    d'.total f ≤ d.total f ∧
      (f l' ((d'.connection k).getD {}) < f l ((d.connection k).getD {}) → d'.total f < d.total f) := by
  have hterms (j : ℕ) : (d'.links[j]?.elim 0 fun l => f l ((d'.connection j).getD {})) ≤
      d.links[j]?.elim 0 fun l => f l ((d.connection j).getD {}) := by
    by_cases hj : j = k
    · subst hj
      rw [hl, hl']
      exact hle
    · rw [(hother j hj).1, (hother j hj).2]
  unfold total
  rw [hlength]
  refine ⟨Finset.sum_le_sum fun j _ => hterms j, fun hlt => ?_⟩
  obtain ⟨hk, -⟩ := List.getElem?_eq_some_iff.1 hl
  refine Finset.sum_lt_sum (fun j _ => hterms j) ⟨k, Finset.mem_range.2 hk, ?_⟩
  rw [hl, hl']
  exact hlt

/-- **One link with less to come** is less to come. -/
theorem toCome_lt_of_lower (hleft : d'.state.left = d.state.left)
    (hlength : d'.links.length = d.links.length)
    (hother : ∀ j, j ≠ k → d'.links[j]? = d.links[j]? ∧ d'.connection j = d.connection j)
    (hl : d.links[k]? = some l) (hl' : d'.links[k]? = some l')
    (hlower : Link.Lower ((d'.connection k).getD {}) l' ((d.connection k).getD {}) l) :
    d'.toCome < d.toCome := by
  unfold toCome
  rw [hleft, Prod.Lex.toLex_lt_toLex]
  refine .inr ⟨rfl, ?_⟩
  rw [Prod.Lex.toLex_lt_toLex]
  rcases hlower with hlt | ⟨heq, hlt⟩
  · exact .inl ((total_le (f := fun l c => l.toWorker c) hlength hother hl hl' hlt.le).2 hlt)
  · have hsame : (d'.total fun l c => l.toWorker c) ≤ d.total fun l c => l.toWorker c :=
      (total_le (f := fun l c => l.toWorker c) hlength hother hl hl' heq.le).1
    have hless := (total_le (f := fun l c => l.toServer c) hlength hother hl hl' hlt.le).2 hlt
    rcases hsame.lt_or_eq with hlt' | heq'
    · exact .inl hlt'
    · exact .inr ⟨heq', hless⟩

/-- A connection and its link change to less. -/
theorem setLink_lower (hc : d.connection k = some c) (hl : d.links[k]? = some l)
    (h : (c' = c ∧ l' = l) ∨ Link.Lower c' l' c l) :
    d.setLink k c' l' = d ∨ (d.setLink k c' l').toCome < d.toCome := by
  obtain ⟨hclt, hcget⟩ := List.getElem?_eq_some_iff.1 hc
  obtain ⟨hlt, hlget⟩ := List.getElem?_eq_some_iff.1 hl
  rcases h with ⟨rfl, rfl⟩ | hlower
  · refine .inl ?_
    have hconnections : (Coordinator.host.connections d.state).set k c' =
        Coordinator.host.connections d.state := by
      rw [← hcget]
      exact List.set_getElem_self hclt
    have hlinks : d.links.set k l' = d.links := by
      rw [← hlget]
      exact List.set_getElem_self hlt
    rw [setLink, hconnections, hlinks]
    rfl
  · refine .inr (toCome_lt_of_lower (k := k) rfl List.length_set (fun j hj => ⟨?_, ?_⟩) hl
      (List.getElem?_set_self hlt) ?_)
    · exact List.getElem?_set_ne hj.symm
    · exact List.getElem?_set_ne hj.symm
    · have hconnection : (d.setLink k c' l').connection k = some c' := List.getElem?_set_self hclt
      rw [hconnection, hc]
      exact hlower

/-- A link changes to less, if it is there. -/
theorem modify_lower (k : ℕ) {f : Link → Link}
    (h : ∀ l, d.links[k]? = some l →
      f l = l ∨ Link.Lower ((d.connection k).getD {}) (f l) ((d.connection k).getD {}) l) :
    ({ d with links := d.links.modify k f } : Deployment Coordinator.host) = d ∨
      ({ d with links := d.links.modify k f } : Deployment Coordinator.host).toCome < d.toCome := by
  cases hl : d.links[k]? with
  | none =>
    have hsame : d.links.modify k f = d.links := by
      rw [List.modify_eq_set_getElem?, hl]
      rfl
    exact .inl (by rw [hsame])
  | some l =>
    obtain ⟨hlt, hget⟩ := List.getElem?_eq_some_iff.1 hl
    rw [modify_eq_set f hl]
    rcases h l hl with hsame | hlower
    · refine .inl ?_
      have hlinks : d.links.set k (f l) = d.links := by
        rw [hsame, ← hget]
        exact List.set_getElem_self hlt
      rw [hlinks]
    · exact .inr (toCome_lt_of_lower (k := k) rfl List.length_set
        (fun j hj => ⟨List.getElem?_set_ne hj.symm, rfl⟩) hl (List.getElem?_set_self hlt) hlower)

/-- A turn of the coordinator. -/
theorem turn_lower (h : d.Sees) (env : Surroundings) :
    ({ d with state := d.state.turn env } : Deployment Coordinator.host) = d ∨
      ({ d with state := d.state.turn env } : Deployment Coordinator.host).toCome < d.toCome := by
  obtain ⟨β, b, h⟩ := h
  rcases ahead_or_waits h.within env with hahead | hwaits
  · refine .inr ?_
    unfold toCome
    rw [Prod.Lex.toLex_lt_toLex]
    exact .inl hahead.lt
  · rcases hwaits.eq with hsame | ⟨k, c, c', hc, hread, hset⟩
    · rw [hsame]
      exact .inl rfl
    · rw [hset]
      obtain ⟨hclt, hcget⟩ := List.getElem?_eq_some_iff.1 hc
      obtain ⟨l, hl⟩ := h.scene.exists_link hclt
      rcases l.lower_pending c hread with rfl | hlower
      · refine .inl ?_
        have hconnections : d.state.connections.set k c' = d.state.connections := by
          rw [← hcget]
          exact List.set_getElem_self hclt
        show ({ d with state := { d.state with connections := d.state.connections.set k c' } } :
          Deployment Coordinator.host) = d
        rw [hconnections]
        rfl
      · refine .inr (toCome_lt_of_lower (k := k) rfl rfl (fun j hj => ⟨rfl, ?_⟩) hl hl ?_)
        · exact List.getElem?_set_ne hj.symm
        · have hconnection : (d.state.connections.set k c')[k]? = some c' :=
            List.getElem?_set_self hclt
          show Link.Lower ((d.state.connections.set k c')[k]?.getD {}) l
            (d.state.connections[k]?.getD {}) l
          rw [hconnection, hc]
          exact hlower

/-- **What is due changes nothing or leaves less to come.** -/
theorem due_lower (h : d.Sees) {ev : Event} (hdue : d.Due ev) :
    d.step ev = d ∨ (d.step ev).toCome < d.toCome := by
  cases ev with
  | launch args => exact hdue.elim
  | kill k => exact hdue.elim
  | host env =>
    simp only [step]
    split_ifs
    · exact .inl rfl
    · exact turn_lower h env
  | worker k env =>
    refine modify_lower k fun l _ => ?_
    rcases l.lower_turn ((d.connection k).getD {}) hdue with hsame | hlower
    · refine .inl ?_
      rw [hsame]
    · exact .inr hlower
  | up k n =>
    simp only [step]
    split
    · next c l hc hl => exact setLink_lower hc hl (l.lower_up c n)
    · exact .inl rfl
  | down k n =>
    simp only [step]
    split
    · next c l hc hl =>
      exact setLink_lower hc hl ((l.lower_down c n).imp_left fun hsame => ⟨rfl, hsame⟩)
    · exact .inl rfl
  | lose k reset =>
    simp only [step]
    split
    · next c l hc hl =>
      exact setLink_lower hc hl ((l.lower_lose c reset).imp_left fun hsame => ⟨hsame, rfl⟩)
    · exact .inl rfl
  | close k reset => exact modify_lower k fun l _ => l.lower_close _ reset

/-- **Every deployment comes to rest.** From any state that is reached,
whatever has happened before, due events cannot go on changing things for
ever, in any order; so some of them lead to a state in which none changes
anything. -/
theorem comes_to_rest (statefile : String) (wallNs : UInt64) (evs : List Event) :
    Acc (Run.Progress step Due) (Run.run step (deploy statefile wallNs) evs) ∧
      ∃ later, Run.Along step Due (Run.run step (deploy statefile wallNs) evs) later ∧
        Run.Quiet step Due (Run.run step (deploy statefile wallNs) (evs ++ later)) := by
  have hacc : Acc (Run.Progress step Due) (Run.run step (deploy statefile wallNs) evs) :=
    Run.acc_progress toCome (fun _ ev h _ => sees_step h ev) (fun _ _ h hdue => due_lower h hdue)
      (sees_run statefile wallNs evs)
  obtain ⟨later, halong, hquiet⟩ := Run.exists_quiet hacc
  refine ⟨hacc, later, halong, ?_⟩
  rw [Run.run_append]
  exact hquiet

end Deployment

end CollectiveFabric
