import CollectiveFabric.Protocol.Codec

/-!
# The frame stream

Every early exit of `decode` reads only bytes that are there, so a frame
stays that frame and a rejection stays that rejection when more of the
stream arrives: `decode` is a framer, and how a connection's bytes are
cut into reads does not matter.
-/

namespace CollectiveFabric

open Common

namespace Protocol

/-! ## More input -/

section

variable {p : List UInt8} (t : List UInt8)

theorem getU16_append (h : 2 ≤ p.length) : getU16 (p ++ t) = getU16 p := by
  apply UInt16.toNat_inj.1
  rw [getU16_toNat h, getU16_toNat (by rw [List.length_append]; omega),
    List.take_append_of_le_length h]

theorem getU32_append (h : 4 ≤ p.length) : getU32 (p ++ t) = getU32 p := by
  apply UInt32.toNat_inj.1
  rw [getU32_toNat h, getU32_toNat (by rw [List.length_append]; omega),
    List.take_append_of_le_length h]

theorem getU64_append (h : 8 ≤ p.length) : getU64 (p ++ t) = getU64 p := by
  apply UInt64.toNat_inj.1
  rw [getU64_toNat h, getU64_toNat (by rw [List.length_append]; omega),
    List.take_append_of_le_length h]

/-- The header fields before the checksum are read from the first sixteen
bytes. -/
theorem fields_append (h : 16 ≤ p.length) :
    getU32 (p ++ t) = getU32 p ∧ getU16 ((p ++ t).drop 4) = getU16 (p.drop 4) ∧
      getU16 ((p ++ t).drop 6) = getU16 (p.drop 6) ∧
      getU64 ((p ++ t).drop 8) = getU64 (p.drop 8) := by
  refine ⟨getU32_append t (by omega), ?_, ?_, ?_⟩
  · rw [List.drop_append_of_le_length (by omega)]
    exact getU16_append t (by rw [List.length_drop]; omega)
  · rw [List.drop_append_of_le_length (by omega)]
    exact getU16_append t (by rw [List.length_drop]; omega)
  · rw [List.drop_append_of_le_length (by omega)]
    exact getU64_append t (by rw [List.length_drop]; omega)

end

theorem decode_frame_append {b : List UInt8} {f : Frame} {n : ℕ} (h : decode b = .frame f n)
    (t : List UInt8) : decode (b ++ t) = .frame f n := by
  obtain ⟨hvalid, hn, u, rfl⟩ := decode_eq_frame_iff.1 h
  exact decode_eq_frame_iff.2 ⟨hvalid, hn, u ++ t, List.append_assoc ..⟩

theorem decode_reject_append {b : List UInt8} {r : String} (h : decode b = .reject r)
    (t : List UInt8) : decode (b ++ t) = .reject r := by
  have hshort : ¬ b.length < 16 := by
    intro hlt
    rw [decode, if_pos hlt] at h
    cases h
  have hlen : (b ++ t).length = b.length + t.length := List.length_append
  obtain ⟨hmagic, hversion, hkind, hsize⟩ := fields_append t (not_lt.1 hshort)
  simp only [decode, hmagic, hversion, hkind, hsize] at h ⊢
  rw [if_neg hshort] at h
  rw [if_neg (by omega)]
  -- the rejections by the header alone
  by_cases h₁ : getU32 b ≠ magic
  · rwa [if_pos h₁] at h ⊢
  by_cases h₂ : getU16 (b.drop 4) ≠ version
  · rwa [if_neg h₁, if_pos h₂] at h ⊢
  by_cases h₃ : getU16 (b.drop 6) = 0 ∨
      getU16 (b.drop 6) > Enumeration.toRaw ProtocolMessageKind.errorMsg
  · rwa [if_neg h₁, if_neg h₂, if_pos h₃] at h ⊢
  by_cases h₄ : getU64 (b.drop 8) > maxPayload
  · rwa [if_neg h₁, if_neg h₂, if_neg h₃, if_pos h₄] at h ⊢
  -- the rejection by the checksum, for which the whole frame is there
  rw [if_neg h₁, if_neg h₂, if_neg h₃, if_neg h₄] at h ⊢
  simp only [total_toNat h₄] at h ⊢
  have h₅ : ¬ b.length < 20 := by
    intro hlt
    rw [if_pos hlt] at h
    cases h
  have h₆ : ¬ b.length < 20 + (getU64 (b.drop 8)).toNat := by
    intro hlt
    rw [if_neg h₅, if_pos hlt] at h
    cases h
  have hcrc : getU32 ((b ++ t).drop 16) = getU32 (b.drop 16) := by
    rw [List.drop_append_of_le_length (by omega)]
    exact getU32_append t (by rw [List.length_drop]; omega)
  have hpayload : ((b ++ t).drop 20).take (getU64 (b.drop 8)).toNat =
      (b.drop 20).take (getU64 (b.drop 8)).toNat := by
    rw [List.drop_append_of_le_length (by omega),
      List.take_append_of_le_length (by rw [List.length_drop]; omega)]
  rw [if_neg h₅, if_neg h₆] at h
  rw [if_neg (by omega), if_neg (by omega)]
  simp only [hpayload, hcrc, List.take_append_of_le_length (not_lt.1 hshort)]
  split_ifs at h ⊢
  exact h

/-- `decode` as the framer of a stream. -/
def framer : Framing.Framer UInt8 Frame String where
  decode := decode
  consumed_pos h := by
    obtain ⟨-, hc, -⟩ := decode_eq_frame_iff.1 h
    omega
  consumed_le h := (encode_of_decode h).2.2.1
  frame_append := decode_frame_append
  reject_append := decode_reject_append

end Protocol

/-! ## The stream decoder -/

namespace FrameDecoder

open Framing

/-- The frames a sequence of calls yields, and the buffer it leaves. -/
def serve : FrameDecoder → List (Call UInt8) → List Frame × FrameDecoder
  | buffer, [] => ([], buffer)
  | buffer, .feed data :: calls => serve (buffer.feed data) calls
  | buffer, .next :: calls =>
    match buffer.next with
    | (.frame out _, buffer') => (out :: (serve buffer' calls).1, (serve buffer' calls).2)
    | (_, buffer') => serve buffer' calls

/-- Calls on the stream decoder are the framer's. -/
theorem serve_eq (buffer : FrameDecoder) (calls : List (Call UInt8)) :
    serve buffer calls = Framing.serve Protocol.decode buffer calls := by
  induction calls generalizing buffer with
  | nil => rfl
  | cons call calls ih =>
    cases call with
    | feed data => exact ih (buffer ++ data)
    | next =>
      simp only [serve, Framing.serve, FrameDecoder.next, ih]
      rcases Framing.next Protocol.decode buffer with ⟨_ | _ | _, _⟩ <;> rfl

/-- Calling `next` until it no longer returns a frame. -/
def drain (buffer : FrameDecoder) : Ending UInt8 Frame String := Protocol.framer.drain buffer

/-- **`drain` is the loop on `next`.** -/
theorem drain_eq (buffer : FrameDecoder) :
    drain buffer = match buffer.next with
      | (.frame out _, buffer') =>
        { drain buffer' with frames := out :: (drain buffer').frames }
      | (r, buffer') => ⟨[], r, buffer'⟩ := by
  have hdrain := Framer.drain_eq (D := Protocol.framer) buffer
  have hnext : Framing.next Protocol.framer.decode buffer = buffer.next := rfl
  rw [hnext] at hdrain
  rw [drain, hdrain]
  rcases buffer.next with ⟨_ | _ | _, _⟩ <;> rfl

/-- A session on a fresh decoder: the calls, then draining. -/
def session (calls : List (Call UInt8)) : Ending UInt8 Frame String :=
  { drain (serve [] calls).2 with
    frames := (serve [] calls).1 ++ (drain (serve [] calls).2).frames }

theorem session_eq (calls : List (Call UInt8)) :
    session calls = drain (fed calls) := by
  rw [session, serve_eq]
  exact Framer.session_eq_drain (D := Protocol.framer) calls

/-- A rejection met on the way ends the stream: whatever is called later,
no frame follows and the reason stays. -/
theorem session_of_reject {calls : List (Call UInt8)} {reason : String}
    (h : (serve [] calls).2.next.1 = .reject reason) (later : List (Call UInt8)) :
    (session (calls ++ later)).outcome = .reject reason ∧
      (session (calls ++ later)).frames = (serve [] calls).1 := by
  rw [serve_eq] at h
  have hend := Framer.session_of_reject (D := Protocol.framer) h later
  rw [Framer.session_eq_drain] at hend
  rw [session_eq, serve_eq]
  exact hend

/-- **Chunking independence.** Two sessions that feed the same bytes end
alike: the same frames in the same order, the same verdict and the same
bytes left over. Fed a concatenation of encodings of admitted frames, a
session yields these frames and ends with an empty buffer. -/
theorem session_chunking {calls : List (Call UInt8)} :
    (∀ calls', fed calls = fed calls' → session calls = session calls') ∧
      ∀ frames : List Frame, (∀ f ∈ frames, Protocol.Valid f) →
        fed calls = frames.flatMap Protocol.encode →
        session calls = ⟨frames, .needMore, []⟩ := by
  refine ⟨fun calls' h => by rw [session_eq, session_eq, h], fun frames hvalid h => ?_⟩
  rw [session_eq, h]
  refine Framer.drain_flatMap (D := Protocol.framer) fun f hf t => ?_
  rw [Protocol.encode_length]
  exact Protocol.decode_encode (hvalid f hf) t

/-- Two frames fed in three pieces cut inside their headers, with calls of
`next` between, and fed at once. -/
theorem session_chunking_two_frames :
    let barrier := Protocol.encode { kind := .of .barrier }
    let hello := Protocol.encode { kind := .of .hello }
    let calls : List (Call UInt8) := [.feed (barrier.take 7), .next,
      .feed (barrier.drop 7 ++ hello.take 3), .next, .feed (hello.drop 3)]
    session calls = session [.feed (barrier ++ hello)] ∧
      session calls = ⟨[{ kind := .of .barrier }, { kind := .of .hello }], .needMore, []⟩ := by
  intro barrier hello calls
  have hfed : fed calls = barrier ++ hello := by
    simp only [calls, fed, List.append_assoc, List.append_nil, List.take_append_drop]
    rw [← List.append_assoc, List.take_append_drop]
  refine ⟨session_chunking.1 _ ?_, session_chunking.2 _ ?_ ?_⟩
  · rw [hfed, fed, fed, List.append_nil]
  · intro f hf
    simp only [List.mem_cons, List.not_mem_nil, or_false] at hf
    rcases hf with rfl | rfl <;> exact ⟨rfl, by decide, by decide, by decide⟩
  · rw [hfed]
    simp only [List.flatMap_cons, List.flatMap_nil, List.append_nil, barrier, hello]

end FrameDecoder

end CollectiveFabric
