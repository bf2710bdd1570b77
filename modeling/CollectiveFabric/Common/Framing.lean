import Mathlib.Data.List.Basic

/-!
# Framing a byte stream

A decoder that recognises one frame at the front of a buffer, and the
stream decoder built on it: `feed` appends to the buffer and `next`
decodes, dropping what a frame consumed. A `Framer` is a decoder whose
verdicts survive more input: a frame stays that frame and a rejection
stays that rejection. Its stream decoder then yields the same frames and
ends the same way however the stream is cut into calls of `feed` and
wherever calls of `next` stand between them.
-/

namespace Common

namespace Framing

variable {β F R : Type}

/-- What decoding the front of a buffer gives. -/
inductive Decoded (F R : Type) where
  | needMore
  | frame (out : F) (consumed : ℕ)
  | reject (reason : R)

/-- A call on the stream decoder. -/
inductive Call (β : Type) where
  | feed (data : List β)
  | next

/-- The bytes a sequence of calls feeds. -/
def fed : List (Call β) → List β
  | [] => []
  | .feed data :: calls => data ++ fed calls
  | .next :: calls => fed calls

theorem fed_append (calls later : List (Call β)) :
    fed (calls ++ later) = fed calls ++ fed later := by
  induction calls with
  | nil => rfl
  | cons call calls ih => cases call <;> simp [fed, ih]

/-- Decode the buffer and drop what a frame consumed. -/
def next (decode : List β → Decoded F R) (buffer : List β) : Decoded F R × List β :=
  match decode buffer with
  | .frame out consumed => (.frame out consumed, buffer.drop consumed)
  | r => (r, buffer)

/-- The frames a sequence of calls yields, and the buffer it leaves. -/
def serve (decode : List β → Decoded F R) : List β → List (Call β) → List F × List β
  | buffer, [] => ([], buffer)
  | buffer, .feed data :: calls => serve decode (buffer ++ data) calls
  | buffer, .next :: calls =>
    match next decode buffer with
    | (.frame out _, buffer') =>
      (out :: (serve decode buffer' calls).1, (serve decode buffer' calls).2)
    | (_, buffer') => serve decode buffer' calls

/-- **A decoder whose verdicts survive more input.** -/
structure Framer (β F R : Type) where
  decode : List β → Decoded F R
  consumed_pos : ∀ {b f n}, decode b = .frame f n → 0 < n
  consumed_le : ∀ {b f n}, decode b = .frame f n → n ≤ b.length
  frame_append : ∀ {b f n}, decode b = .frame f n → ∀ t, decode (b ++ t) = .frame f n
  reject_append : ∀ {b r}, decode b = .reject r → ∀ t, decode (b ++ t) = .reject r

/-- How a stream ends: its frames, the verdict that ended it and what the
buffer still holds. -/
@[ext] structure Ending (β F R : Type) where
  frames : List F
  outcome : Decoded F R
  buffer : List β

namespace Framer

variable (D : Framer β F R)

/-- Call `next` until it no longer returns a frame. -/
def drain (buffer : List β) : Ending β F R :=
  match _h : D.decode buffer with
  | .frame out consumed =>
    { drain (buffer.drop consumed) with
      frames := out :: (drain (buffer.drop consumed)).frames }
  | r => ⟨[], r, buffer⟩
termination_by buffer.length
decreasing_by
  all_goals
    have := D.consumed_pos _h
    have := D.consumed_le _h
    rw [List.length_drop]
    omega

/-- A whole session on a fresh stream decoder: the calls, then draining. -/
def session (calls : List (Call β)) : Ending β F R :=
  { D.drain (serve D.decode [] calls).2 with
    frames := (serve D.decode [] calls).1 ++ (D.drain (serve D.decode [] calls).2).frames }

variable {D}

theorem drain_of_frame {b : List β} {f : F} {n : ℕ} (h : D.decode b = .frame f n) :
    D.drain b = { D.drain (b.drop n) with frames := f :: (D.drain (b.drop n)).frames } := by
  rw [drain]
  split
  · next out consumed h' =>
    obtain ⟨rfl, rfl⟩ : out = f ∧ consumed = n := by
      rw [h] at h'
      injection h' with h₁ h₂
      exact ⟨h₁.symm, h₂.symm⟩
    rfl
  all_goals simp_all

theorem drain_of_not_frame {b : List β} (h : ∀ f n, D.decode b ≠ .frame f n) :
    D.drain b = ⟨[], D.decode b, b⟩ := by
  rw [drain]
  split
  · next out consumed h' => exact absurd h' (h out consumed)
  · rfl

/-- `drain` is the loop on `next`. -/
theorem drain_eq (b : List β) :
    D.drain b = match next D.decode b with
      | (.frame out _, b') => { D.drain b' with frames := out :: (D.drain b').frames }
      | (r, b') => ⟨[], r, b'⟩ := by
  cases h : D.decode b with
  | frame out consumed => simp only [drain_of_frame h, next, h]
  | needMore => simp only [drain_of_not_frame (D := D) (b := b) (by simp [h]), next, h]
  | reject r => simp only [drain_of_not_frame (D := D) (b := b) (by simp [h]), next, h]

/-- A frame at the front of a longer stream comes off alone. -/
theorem drain_append_of_frame {b : List β} {f : F} {n : ℕ} (h : D.decode b = .frame f n)
    (t : List β) :
    D.drain (b ++ t) =
      { D.drain (b.drop n ++ t) with frames := f :: (D.drain (b.drop n ++ t)).frames } := by
  rw [drain_of_frame (D.frame_append h t), List.drop_append_of_le_length (D.consumed_le h)]

/-- A stream that is rejected, or needs more, stays where it is. -/
theorem drain_append_of_reject {b : List β} {r : R} (h : D.decode b = .reject r) (t : List β) :
    D.drain (b ++ t) = ⟨[], .reject r, b ++ t⟩ := by
  have ht := D.reject_append h t
  have hnot : ∀ f n, D.decode (b ++ t) ≠ .frame f n := by
    intro f n hf
    rw [ht] at hf
    cases hf
  rw [drain_of_not_frame hnot, ht]

/-- **A call of `next` between two feeds changes nothing** in the end: the
calls from any buffer, then more bytes, then draining, come to draining
the buffer with everything fed. -/
theorem serve_drain (calls : List (Call β)) (buffer t : List β) :
    D.drain (buffer ++ fed calls ++ t) =
      { D.drain ((serve D.decode buffer calls).2 ++ t) with
        frames := (serve D.decode buffer calls).1 ++
          (D.drain ((serve D.decode buffer calls).2 ++ t)).frames } := by
  induction calls generalizing buffer with
  | nil => simp [serve, fed]
  | cons call calls ih =>
    cases call with
    | feed data =>
      rw [serve, fed, ← List.append_assoc buffer]
      exact ih (buffer ++ data)
    | next =>
      cases h : D.decode buffer with
      | frame out consumed =>
        have hnext : next D.decode buffer = (.frame out consumed, buffer.drop consumed) := by
          simp only [next, h]
        rw [fed, List.append_assoc, drain_append_of_frame h, ← List.append_assoc,
          ih (buffer.drop consumed)]
        simp only [serve, hnext, List.cons_append]
      | needMore =>
        have hnext : next D.decode buffer = (.needMore, buffer) := by simp only [next, h]
        simp only [serve, hnext, fed]
        exact ih buffer
      | reject r =>
        have hnext : next D.decode buffer = (.reject r, buffer) := by simp only [next, h]
        simp only [serve, hnext, fed]
        exact ih buffer

/-- **A session is decided by what it feeds.** -/
theorem session_eq_drain (calls : List (Call β)) : D.session calls = D.drain (fed calls) := by
  have h := serve_drain (D := D) calls [] []
  simp only [List.append_nil, List.nil_append] at h
  rw [h, session]

/-- **A rejection is for good**: no later call yields a frame, and nothing
is dropped. -/
theorem serve_of_reject {b : List β} {r : R} (h : D.decode b = .reject r)
    (calls : List (Call β)) : serve D.decode b calls = ([], b ++ fed calls) := by
  induction calls generalizing b with
  | nil => rw [serve, fed, List.append_nil]
  | cons call calls ih =>
    cases call with
    | feed data => rw [serve, fed, ih (D.reject_append h data), List.append_assoc]
    | next =>
      have hnext : next D.decode b = (.reject r, b) := by simp only [next, h]
      simp only [serve, hnext, fed]
      exact ih h

/-- **Draining ends**: when a frame takes at least `w` bytes, some number
of calls of `next`, at most one for every `w` bytes, all yield frames and
leave a buffer that does not begin with one. -/
theorem exists_drained {w : ℕ} (hw : ∀ {b f n}, D.decode b = .frame f n → w ≤ n) (b : List β) :
    ∃ n, w * n ≤ b.length ∧
      (serve D.decode b (List.replicate n .next)).1.length = n ∧
      ∀ f c, D.decode (serve D.decode b (List.replicate n .next)).2 ≠ .frame f c := by
  induction b using drain.induct (D := D) with
  | case1 b out consumed h ih =>
    obtain ⟨n, hle, hlength, hend⟩ := ih
    have hnext : next D.decode b = (.frame out consumed, b.drop consumed) := by
      simp only [next, h]
    refine ⟨n + 1, ?_, ?_, ?_⟩
    · rw [List.length_drop] at hle
      have := hw h
      have := D.consumed_le h
      rw [Nat.mul_succ]
      omega
    · simp only [List.replicate_succ, serve, hnext, List.length_cons, hlength]
    · simpa only [List.replicate_succ, serve, hnext] using hend
  | case2 b h =>
    exact ⟨0, Nat.zero_le _, rfl, fun f c hf => h f c hf⟩

/-- **A rejection met on the way is how the session ends**: no later call
yields a frame or another reason. -/
theorem session_of_reject {calls : List (Call β)} {r : R}
    (h : (next D.decode (serve D.decode [] calls).2).1 = .reject r) (later : List (Call β)) :
    (D.session (calls ++ later)).outcome = .reject r ∧
      (D.session (calls ++ later)).frames = (serve D.decode [] calls).1 := by
  have hdec : D.decode (serve D.decode [] calls).2 = .reject r := by
    unfold next at h
    split at h
    · cases h
    · exact h
  have hfed := serve_drain (D := D) calls [] (fed later)
  rw [List.nil_append, drain_append_of_reject hdec, List.append_nil] at hfed
  rw [session_eq_drain, fed_append, hfed]
  exact ⟨rfl, rfl⟩

/-- **A stream of encodings is decoded into what was encoded**, when each
encoding followed by anything decodes to its frame alone. -/
theorem drain_flatMap {encode : F → List β} {frames : List F}
    (h : ∀ f ∈ frames, ∀ t, D.decode (encode f ++ t) = .frame f (encode f).length) :
    D.drain (frames.flatMap encode) = ⟨frames, D.decode [], []⟩ := by
  induction frames with
  | nil =>
    rw [List.flatMap_nil, drain_of_not_frame fun f n hf => ?_]
    have := D.consumed_pos hf
    have := D.consumed_le hf
    simp only [List.length_nil] at this
    omega
  | cons f fs ih =>
    have hf := h f (List.mem_cons_self ..) (fs.flatMap encode)
    rw [List.flatMap_cons, drain_of_frame hf, List.drop_left,
      ih fun g hg => h g (List.mem_cons_of_mem _ hg)]

end Framer

end Framing

end Common
