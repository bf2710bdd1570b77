import CollectiveFabric.Common.Framing

/-!
# Frames through a pipe

A writer appends encodings of frames to a stream, the stream's bytes come
to a reader in order and in any pieces, and the reader takes frames off
the bytes it has with a framer's decoder. Whatever the pieces, the frames
it takes are the first ones written, in their order: `Pipe` says where the
two stand, and each thing that can happen keeps it.
-/

namespace Common

open Framing

variable {β F R : Type}

/-- The frames `sent` were written and the frames `taken` were read; the
reader holds the bytes `near` behind them, and `passed` bytes of the stream
came through before it was `cut`. -/
structure Pipe (enc : F → List β) (sent taken : List F) (near : List β) (passed : ℕ)
    (cut : Prop) : Prop where
  taken_prefix : taken <+: sent
  near_prefix : taken.flatMap enc ++ near <+: sent.flatMap enc
  passed_le : passed ≤ (sent.flatMap enc).length
  passed_eq : ¬cut → taken.flatMap enc ++ near = (sent.flatMap enc).take passed

namespace Pipe

variable {enc : F → List β} {sent taken : List F} {near : List β} {passed : ℕ} {cut : Prop}

/-- Nothing was written. -/
theorem start (enc : F → List β) (cut : Prop) : Pipe enc [] [] [] 0 cut :=
  ⟨List.prefix_rfl, List.prefix_rfl, Nat.le_refl _, fun _ => rfl⟩

/-- More frames are written. -/
theorem write (h : Pipe enc sent taken near passed cut) (fs : List F) :
    Pipe enc (sent ++ fs) taken near passed cut := by
  have hsent : sent.flatMap enc <+: (sent ++ fs).flatMap enc := by
    rw [List.flatMap_append]
    exact List.prefix_append ..
  refine ⟨h.taken_prefix.trans (List.prefix_append ..), h.near_prefix.trans hsent,
    Nat.le_trans h.passed_le hsent.length_le, fun hcut => ?_⟩
  rw [h.passed_eq hcut, List.flatMap_append, List.take_append_of_le_length h.passed_le]

/-- The next `n` bytes of the stream come through. -/
theorem arrive (h : Pipe enc sent taken near passed cut) (hcut : ¬cut) (n : ℕ) :
    let bs := ((sent.flatMap enc).drop passed).take n
    Pipe enc sent taken (near ++ bs) (passed + bs.length) cut := by
  intro bs
  have hlength : bs.length = min n ((sent.flatMap enc).length - passed) := by
    rw [List.length_take, List.length_drop]
  have hmore : taken.flatMap enc ++ (near ++ bs) =
      (sent.flatMap enc).take (passed + bs.length) := by
    rw [← List.append_assoc, h.passed_eq hcut, List.take_add]
    congr 1
    rw [hlength, List.take_eq_take_iff, List.length_drop]
    omega
  have hle := h.passed_le
  refine ⟨h.taken_prefix, ?_, by omega, fun _ => hmore⟩
  rw [hmore]
  exact List.take_prefix ..

/-- Bytes come to the end of a stream that is cut: nobody has them. -/
theorem pass (h : Pipe enc sent taken near passed cut) (hcut : cut) (n : ℕ) :
    Pipe enc sent taken near
      (passed + (((sent.flatMap enc).drop passed).take n).length) cut := by
  have hle := h.passed_le
  refine ⟨h.taken_prefix, h.near_prefix, ?_, fun hnot => (hnot hcut).elim⟩
  rw [List.length_take, List.length_drop]
  omega

/-- The stream is cut, and the reader keeps some of the bytes it had. -/
theorem sever (h : Pipe enc sent taken near passed cut) {kept : List β} (hkept : kept <+: near)
    {cut' : Prop} (hcut' : cut') : Pipe enc sent taken kept passed cut' :=
  ⟨h.taken_prefix, ((List.prefix_append_right_inj _).2 hkept).trans h.near_prefix, h.passed_le,
    fun hnot => (hnot hcut').elim⟩

/-! ## Taking a frame -/

/-- A decoder that takes an encoding off any stream that begins with it, or
takes nothing off any such stream. -/
def Faithful (D : Framer β F R) (enc : F → List β) : Prop :=
  ∀ f t g n, D.decode (enc f ++ t) = .frame g n → g = f ∧ n = (enc f).length

variable {D : Framer β F R}

/-- **The frame taken is the next one written.** -/
theorem take (hD : Faithful D enc) {buffer more : List β}
    (h : Pipe enc sent taken (buffer ++ more) passed cut) {f : F} {n : ℕ}
    (hdecode : D.decode buffer = .frame f n) :
    Pipe enc sent (taken ++ [f]) (buffer.drop n ++ more) passed cut := by
  obtain ⟨rest, rfl⟩ := h.taken_prefix
  have hnear : buffer ++ more <+: rest.flatMap enc := by
    have hall := h.near_prefix
    rw [List.flatMap_append] at hall
    exact (List.prefix_append_right_inj _).1 hall
  obtain ⟨later, hlater⟩ := (List.prefix_append buffer more).trans hnear
  have hfull : D.decode (rest.flatMap enc) = .frame f n := by
    rw [← hlater]
    exact D.frame_append hdecode later
  cases rest with
  | nil =>
    have := D.consumed_pos hfull
    have := D.consumed_le hfull
    simp at this
    omega
  | cons g rest =>
    obtain ⟨rfl, rfl⟩ := hD g (rest.flatMap enc) f n hfull
    -- what comes off the buffer is the encoding of the frame
    have hhead : enc f <+: buffer := by
      have hle := D.consumed_le hdecode
      rw [List.flatMap_cons] at hlater
      exact List.prefix_of_prefix_length_le (List.prefix_append ..) ⟨later, hlater⟩ hle
    obtain ⟨buffer', rfl⟩ := hhead
    have hsame : (taken ++ [f]).flatMap enc ++ (buffer' ++ more) =
        taken.flatMap enc ++ (enc f ++ buffer' ++ more) := by simp
    rw [List.drop_left]
    refine ⟨⟨rest, by simp⟩, ?_, h.passed_le, fun hcut => ?_⟩
    · rw [hsame]
      exact h.near_prefix
    · rw [hsame]
      exact h.passed_eq hcut

/-- **A reader that needs more than the whole stream has read it all.** -/
theorem drained (h : Pipe enc sent taken near passed cut) (hcut : ¬cut)
    (hpassed : passed = (sent.flatMap enc).length)
    (hD : ∀ f t, D.decode (enc f ++ t) ≠ .needMore) (hdecode : D.decode near = .needMore) :
    taken = sent := by
  obtain ⟨rest, rfl⟩ := h.taken_prefix
  have hnear : near = rest.flatMap enc := by
    have hall := h.passed_eq hcut
    rw [hpassed, List.take_length, List.flatMap_append] at hall
    exact List.append_cancel_left hall
  cases rest with
  | nil => exact (List.append_nil _).symm
  | cons g rest =>
    rw [hnear, List.flatMap_cons] at hdecode
    exact absurd hdecode (hD g _)

end Pipe

end Common
