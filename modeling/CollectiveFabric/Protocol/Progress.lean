import CollectiveFabric.Protocol.Stream

/-!
# Progress of the stream decoder

The receive loop of a connection calls `next` until it needs more, reads
from the socket and feeds what came. Every frame takes at least the
twenty bytes of a header off the buffer; the length field is compared
with its bound before the decoder waits for a payload, so what waits is
never longer than one frame; and a rejection stays.
-/

namespace CollectiveFabric

open Common

namespace Protocol

/-- **Waiting is bounded**: past the length check the whole frame is at
most a header and the largest payload. -/
theorem length_lt_of_needMore {b : List UInt8} (h : decode b = .needMore) :
    b.length < 20 + 64 * 1024 * 1024 := by
  by_cases hshort : b.length < 16
  · omega
  simp only [decode, if_neg hshort] at h
  -- the rejections by the header alone
  by_cases h₁ : getU32 b ≠ magic
  · rw [if_pos h₁] at h
    cases h
  by_cases h₂ : getU16 (b.drop 4) ≠ version
  · rw [if_neg h₁, if_pos h₂] at h
    cases h
  by_cases h₃ : getU16 (b.drop 6) = 0 ∨
      getU16 (b.drop 6) > Enumeration.toRaw ProtocolMessageKind.errorMsg
  · rw [if_neg h₁, if_neg h₂, if_pos h₃] at h
    cases h
  by_cases h₄ : getU64 (b.drop 8) > maxPayload
  · rw [if_neg h₁, if_neg h₂, if_neg h₃, if_pos h₄] at h
    cases h
  -- the length field is now at most the bound, so `20 + length` does not wrap
  have hbound : (getU64 (b.drop 8)).toNat ≤ maxPayload.toNat :=
    UInt64.le_iff_toNat_le.1 (UInt64.not_lt.1 h₄)
  have hmax : maxPayload.toNat = 64 * 1024 * 1024 := by decide
  rw [if_neg h₁, if_neg h₂, if_neg h₃, if_neg h₄] at h
  simp only [total_toNat h₄] at h
  by_contra hlong
  rw [if_neg (by omega), if_neg (by omega)] at h
  split at h <;> cases h

/-- A frame takes its header and its payload. -/
theorem consumed_eq {b : List UInt8} {f : Frame} {n : ℕ} (h : decode b = .frame f n) :
    n = 20 + f.payload.toList.length := (decode_eq_frame_iff.1 h).2.1

end Protocol

namespace FrameDecoder

open Framing Protocol

/-- What `next` returns is what `decode` says of the buffer. -/
theorem next_fst (s : FrameDecoder) : s.next.1 = Protocol.decode s := by
  rw [FrameDecoder.next, Framing.next]
  split
  · next h => exact h.symm
  · rfl

/-- **The stream decoder makes progress and stays bounded.** Whatever was
fed and decoded before, a frame takes exactly its header and payload off
the front of the buffer, so that draining ends; a decoder that needs more
holds less than the largest frame; and a rejection leaves the buffer and
is what every later call of `next` returns. -/
theorem next_progress (calls : List (Call UInt8)) :
    let s := (serve [] calls).2
    (match s.next with
      | (.frame f n, s') => n = 20 + f.payload.toList.length ∧ n ≤ s.length ∧ s' = s.drop n
      | (.needMore, s') => s' = s ∧ s.length < 20 + 64 * 1024 * 1024
      | (.reject reason, s') => s' = s ∧ ∀ later : List (Call UInt8),
          (serve s' later).1 = [] ∧ (serve s' later).2.next.1 = .reject reason) ∧
      ∃ n, 20 * n ≤ s.length ∧ (serve s (List.replicate n .next)).1.length = n ∧
        ∀ f c, (serve s (List.replicate n .next)).2.next.1 ≠ .frame f c := by
  intro s
  refine ⟨?_, ?_⟩
  · rw [FrameDecoder.next, Framing.next]
    cases h : Protocol.decode s with
    | frame f n => exact ⟨consumed_eq h, framer.consumed_le h, rfl⟩
    | needMore => exact ⟨rfl, length_lt_of_needMore h⟩
    | reject reason =>
      refine ⟨rfl, fun later => ?_⟩
      have hserve := Framer.serve_of_reject (D := framer) h later
      have hdecode := decode_reject_append h (fed later)
      rw [serve_eq, next_fst]
      refine ⟨congrArg Prod.fst hserve, ?_⟩
      exact (congrArg (fun x => Protocol.decode x.2) hserve).trans hdecode
  · obtain ⟨n, hn, hlength, hend⟩ := Framer.exists_drained (D := framer) (w := 20)
      (fun h => (consumed_eq h).symm ▸ Nat.le_add_right ..) s
    refine ⟨n, hn, ?_, fun f c hnext => hend f c ?_⟩
    · rw [serve_eq]
      exact hlength
    · rw [next_fst, serve_eq] at hnext
      exact hnext

end FrameDecoder

end CollectiveFabric
