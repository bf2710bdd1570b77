import CollectiveFabric.Common.Pipe
import CollectiveFabric.Multiprocess.Model.Deployment
import CollectiveFabric.Protocol.Stream

/-!
# What the connections carry

Each direction of a connection is a pipe of frames: whatever the pieces
its bytes arrive in, the reader takes the frames the writer sent, in their
order. A read that failed has failed for good.
-/

namespace CollectiveFabric

open Common

namespace Protocol

/-- `decode` takes the encoding of an admitted frame off the front, and
nothing else off one that it does not admit. -/
theorem faithful_encode : Pipe.Faithful framer encode := by
  intro f t g n h
  by_cases hf : Valid f
  · have hdecode := decode_encode hf t
    rw [show decode (encode f ++ t) = .frame g n from h] at hdecode
    cases hdecode
    exact ⟨rfl, (encode_length f).symm⟩
  · obtain ⟨r, hr⟩ := decode_encode_of_not_valid hf t
    rw [show decode (encode f ++ t) = .frame g n from h] at hr
    cases hr

end Protocol

namespace FrameChannel

variable {c c' : FrameChannel} {n : ℕ} {f : Frame} {reason : String}

/-- The bytes that have arrived and are in no frame yet. -/
def held (c : FrameChannel) : List UInt8 := c.decoder ++ c.conn.incoming

/-- A read from the channel fails, now and later. -/
def Deaf (c : FrameChannel) : Prop :=
  (∃ why, Protocol.decode c.decoder = .reject why) ∨
    Protocol.decode c.decoder = .needMore ∧ c.conn.incoming = [] ∧ c.conn.ended = true

/-- A channel that changed in nothing but what it holds. -/
structure Reads (c c' : FrameChannel) : Prop where
  outgoing : c'.conn.outgoing = c.conn.outgoing
  ended : c'.conn.ended = c.conn.ended

theorem next_eq (c : FrameChannel) :
    c.decoder.next = match Protocol.decode c.decoder with
      | .frame f n => (.frame f n, c.decoder.drop n)
      | r => (r, c.decoder) := by
  rw [FrameDecoder.next, Framing.next]
  cases Protocol.decode c.decoder <;> rfl

/-- **A frame read** is one off the front of what is held. -/
theorem recv_frame (h : c.recv n = (.frame f, c')) :
    ∃ m, Protocol.decode c.decoder = .frame f m ∧ c' = { c with decoder := c.decoder.drop m } := by
  unfold recv at h
  rw [next_eq] at h
  cases hdecode : Protocol.decode c.decoder with
  | frame g m =>
    simp only [hdecode] at h
    cases h
    exact ⟨m, rfl, rfl⟩
  | reject why =>
    simp only [hdecode] at h
    cases h
  | needMore =>
    simp only [hdecode] at h
    cases hrecv : (c.conn.recvSome n).1 with
    | bytes bs | closed | nothing =>
      rw [← Prod.eta (c.conn.recvSome n), hrecv] at h
      cases h

/-- **A read that failed** left the channel as it was, and every later one
fails. -/
theorem recv_failed (h : c.recv n = (.failed reason, c')) :
    c' = c ∧ c.Deaf ∧
      (reason = "connection closed" ∨ Protocol.decode c.decoder = .reject reason) := by
  unfold recv at h
  rw [next_eq] at h
  cases hdecode : Protocol.decode c.decoder with
  | frame g m =>
    simp only [hdecode] at h
    cases h
  | reject why =>
    simp only [hdecode] at h
    cases h
    exact ⟨rfl, .inl ⟨_, hdecode⟩, .inr rfl⟩
  | needMore =>
    simp only [hdecode] at h
    unfold TcpConnection.recvSome at h
    split_ifs at h with hempty hended
    · cases h
      exact ⟨rfl, .inr ⟨hdecode, hempty, hended⟩, .inl rfl⟩
    · cases h
    · cases h

/-- A read that goes on moves bytes from the socket to the decoder. -/
theorem recv_pending (h : c.recv n = (.pending, c')) : c'.held = c.held ∧ Reads c c' := by
  unfold recv at h
  rw [next_eq] at h
  cases hdecode : Protocol.decode c.decoder with
  | frame g m =>
    simp only [hdecode] at h
    cases h
  | reject why =>
    simp only [hdecode] at h
    cases h
  | needMore =>
    simp only [hdecode] at h
    unfold TcpConnection.recvSome at h
    split_ifs at h with hempty hended
    · cases h
    · cases h
      exact ⟨rfl, rfl, rfl⟩
    · cases h
      refine ⟨?_, rfl, rfl⟩
      simp only [held, FrameDecoder.feed, List.append_assoc, List.take_append_drop]

/-! ## Bytes that arrive -/

theorem held_arrive (h : ¬c.conn.ended = true) (bs : List UInt8) :
    ({ c with conn := c.conn.arrive bs } : FrameChannel).held = c.held ++ bs := by
  simp only [held, TcpConnection.arrive, if_neg h, List.append_assoc]

theorem ended_arrive (bs : List UInt8) : (c.conn.arrive bs).ended = c.conn.ended := by
  unfold TcpConnection.arrive
  split_ifs <;> rfl

theorem outgoing_arrive (bs : List UInt8) : (c.conn.arrive bs).outgoing = c.conn.outgoing := by
  unfold TcpConnection.arrive
  split_ifs <;> rfl

theorem valid_arrive (c : FrameChannel) (bs : List UInt8) :
    ({ c with conn := c.conn.arrive bs } : FrameChannel).valid = c.valid := by
  unfold valid TcpConnection.arrive
  split_ifs <;> rfl

/-- A connection that ends keeps some of the bytes that have arrived. -/
theorem held_hangUp (c : FrameChannel) (reset : Bool) :
    ({ c with conn := c.conn.hangUp reset } : FrameChannel).held <+: c.held := by
  refine (List.prefix_append_right_inj _).2 ?_
  show (if reset then [] else c.conn.incoming) <+: _
  split_ifs
  · exact List.nil_prefix
  · exact List.prefix_rfl

/-! ## Deaf channels -/

theorem Deaf.not_frame (h : c.Deaf) (hframe : c.recv n = (.frame f, c')) : False := by
  obtain ⟨m, hdecode, -⟩ := recv_frame hframe
  rcases h with ⟨why, hwhy⟩ | ⟨hmore, -⟩
  · rw [hdecode] at hwhy
    cases hwhy
  · rw [hdecode] at hmore
    cases hmore

/-- The next read from a deaf channel leaves it as it is. -/
theorem Deaf.recv_snd (h : c.Deaf) (n : ℕ) : (c.recv n).2 = c := by
  unfold recv
  rw [next_eq]
  rcases h with ⟨why, hwhy⟩ | ⟨hmore, hempty, hended⟩
  · rw [hwhy]
  · rw [hmore]
    simp only [TcpConnection.recvSome, hempty, if_true, hended]

theorem Deaf.arrive (h : c.Deaf) (bs : List UInt8) :
    ({ c with conn := c.conn.arrive bs } : FrameChannel).Deaf := by
  rcases h with hreject | ⟨hmore, hempty, hended⟩
  · exact .inl hreject
  · refine .inr ⟨hmore, ?_, ?_⟩
    · simp only [TcpConnection.arrive, hended, if_true, hempty]
    · simp only [TcpConnection.arrive, hended, if_true]

theorem Deaf.hangUp (h : c.Deaf) (reset : Bool) :
    ({ c with conn := c.conn.hangUp reset } : FrameChannel).Deaf := by
  rcases h with hreject | ⟨hmore, hempty, -⟩
  · exact .inl hreject
  · exact .inr ⟨hmore, by simp [TcpConnection.hangUp, hempty], rfl⟩

theorem Deaf.send (h : c.Deaf) (f : Frame) : (c.send f).Deaf := h

end FrameChannel

end CollectiveFabric
