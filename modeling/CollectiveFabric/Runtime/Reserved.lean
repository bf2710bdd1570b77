import CollectiveFabric.Runtime.Ends

/-!
# The reserved bytes

`reserve_collective` adds the byte count of a collective to
`reserved_bytes` and nothing ever takes it off: no operation of the
runtime releases a reservation. The bytes are those of the live
executions exactly until one with bytes reserved ends.
-/

namespace CollectiveFabric

open Common

/-- The byte count of an execution, if it does not overflow. -/
def Execution.byteCount (ex : Execution) : ℕ :=
  match ex.descriptor.elementByteCount with
  | .ok bytes => bytes.toNat
  | .error _ => 0

/-- The bytes an execution has reserved: those of a live execution with a
reservation. -/
def Execution.held (ex : Execution) : ℕ :=
  if ex.lifecycle.state.isLive = true ∧ ex.reservation.isNull = false then ex.byteCount else 0

/-- The bytes the live executions have reserved. -/
def Runtime.heldBytes (rt : Runtime) : ℕ := OrdMap.total Execution.held rt.executions

/-- The act reserves what the counter can hold, or ends nothing with bytes
reserved. -/
def Closing (rt : Runtime) (ex : Execution) : Act → Prop
  | .reserve => ex.lifecycle.state = .planned →
      rt.accounting.reservedBytes.toNat + ex.byteCount < 2 ^ 64
  | a => a.Ends rt ex → ex.held = 0

instance (rt : Runtime) (ex : Execution) : (a : Act) → Decidable (Closing rt ex a)
  | .reserve => inferInstanceAs (Decidable (_ = _ → _ < _))
  | .plan | .dispatch | .begin _ | .commitCaught _ | .commitReturned _ _ | .completeRank _
  | .fail _ | .abort | .cancel | .markStale =>
    inferInstanceAs (Decidable (Act.Ends rt ex _ → Execution.held ex = 0))

/-- **Only a reservation changes what is reserved.** -/
theorem Runtime.Moves.reserved_same {rt rt' : Runtime} {ex ex' : Execution} {a : Act}
    (h : Moves rt ex a ex' rt') (ha : a ≠ .reserve) :
    rt'.accounting.reservedBytes = rt.accounting.reservedBytes ∧
      ex'.reservation = ex.reservation := by
  cases h with
  | overflowed | doubled | reserved => exact absurd rfl ha
  | aborted _ _ _ hreserved => exact ⟨hreserved, rfl⟩
  | measured _ _ hreserved => exact ⟨hreserved, settle_reservation ..⟩
  | unmeasured _ hbooks | unpaired _ hbooks | counted _ _ hbooks =>
    exact ⟨hbooks.reserved, settle_reservation ..⟩
  | refused _ _ hbooks | withheld hbooks | planned _ hbooks | dispatched _ hbooks
  | begun _ hbooks | cancelled _ hbooks | staled _ hbooks | caught hbooks | repeated _ hbooks
  | uncounted _ _ hbooks | failed _ hbooks | unstarted _ _ hbooks => exact ⟨hbooks.reserved, rfl⟩

namespace System

variable {s : System} {ev : Event} {e : ExecutionId} {a : Act} {ex ex' : Execution}

/-- `reserved_bytes` is what the live executions have reserved. -/
def Covered (s : System) : Prop :=
  s.runtime.accounting.reservedBytes.toNat = s.runtime.heldBytes

/-- A step that reserves what fits and ends nothing with bytes reserved. -/
abbrev Closes : System → Event → Prop := OnAct Closing

theorem covered_init : init.Covered := rfl

theorem held_eq_zero (h : ¬ex.lifecycle.state.isLive = true) : ex.held = 0 :=
  if_neg fun h' => h h'.1

/-- What an act other than a reservation changes of what is held. -/
theorem held_step (hs : s.Sound) (hact : s.act ev = some (e, a))
    (hex : s.runtime.executions[e]? = some ex)
    (hmoves : Runtime.Moves s.runtime ex a ex' (s.step ev).runtime) (ha : a ≠ .reserve) :
    (a.Ends s.runtime ex ∧ ex'.held = 0) ∨ (¬a.Ends s.runtime ex ∧ ex'.held = ex.held) := by
  have hlive := hs.isLive hact hex hmoves
  rw [or_iff_left fun h => ha h.1] at hlive
  by_cases hends : a.Ends s.runtime ex
  · exact .inl ⟨hends, held_eq_zero fun h => (hlive.1 h).2 hends⟩
  · refine .inr ⟨hends, ?_⟩
    have hsame : ex'.lifecycle.state.isLive = ex.lifecycle.state.isLive :=
      Bool.eq_iff_iff.2 (hlive.trans (and_iff_left hends))
    rw [Execution.held, Execution.held, Execution.byteCount, Execution.byteCount, hsame,
      hmoves.descriptor, (hmoves.reserved_same ha).2]

/-- **What a reservation changes**: nothing, where it is refused or its
byte count overflows; else the execution, which held nothing, holds its
byte count, and the counter takes that on modulo 2^64. -/
theorem reserve_step (hs : s.Sound) (hid : (s.step ev).runtime.nextId ≤ 2 ^ 64)
    (hmoves : Runtime.Moves s.runtime ex .reserve ex' (s.step ev).runtime) :
    (Closing s.runtime ex .reserve ∧ ex'.held = ex.held ∧
      (s.step ev).runtime.accounting.reservedBytes = s.runtime.accounting.reservedBytes) ∨
    (ex.lifecycle.state = .planned ∧ ex.held = 0 ∧ ex'.held = ex.byteCount ∧
      (s.step ev).runtime.accounting.reservedBytes.toNat =
        (s.runtime.accounting.reservedBytes.toNat + ex.byteCount) % 2 ^ 64) := by
  cases hmoves with
  | refused hasks hnot hbooks =>
    cases hasks
    refine .inl ⟨fun hstate => ?_, rfl, hbooks.reserved⟩
    rw [hstate] at hnot
    cases hnot
  | @overflowed lc err _ ht hbytes hbooks =>
    obtain ⟨-, hnot, -⟩ := Runtime.planned_of_reserved ht
    have hbyteCount : ex.byteCount = 0 := by rw [Execution.byteCount, hbytes]
    have hafter : ({ ex with lifecycle := lc } : Execution).held = 0 := by
      rw [Execution.held]
      exact ite_eq_right_iff.2 fun _ => hbyteCount
    refine .inl ⟨fun _ => ?_, by rw [hafter, held_eq_zero hnot], hbooks.reserved⟩
    rw [hbyteCount]
    exact s.runtime.accounting.reservedBytes.toNat_lt
  | doubled _ _ hmem hnext _ => exact absurd hmem (hs.runtime.reservation_fresh (by omega))
  | @reserved lc bytes _ ht hbytes _ _ hreserved _ hnext =>
    obtain ⟨hstate, hnot, hlc⟩ := Runtime.planned_of_reserved ht
    have hbyteCount : ex.byteCount = bytes.toNat := by rw [Execution.byteCount, hbytes]
    refine .inr ⟨hstate, held_eq_zero hnot, ?_, by rw [hreserved, UInt64.toNat_add, hbyteCount]⟩
    rw [Execution.held, if_pos ⟨hlc, hs.runtime.fresh_ne_null (by omega)⟩]
    rfl

/-- **One step stays covered exactly if it closes** nothing that holds
bytes. -/
theorem covered_step (s : System) (ev : Event) (hs : s.Sound)
    (hid : (s.step ev).runtime.nextId ≤ 2 ^ 64) (h : s.Covered) :
    (s.step ev).Covered ↔ s.Closes ev := by
  unfold Covered Runtime.heldBytes at h ⊢
  refine iff_onAct (fun _ hquiet => ?_) (fun d _ hexecutions hbooks hnext => ?_)
    fun e a ex ex' hact hchange hmoves => ?_
  · rw [hquiet.books.reserved, hquiet.executions, h]
  · rw [hbooks.reserved, hexecutions,
      OrdMap.total_insert_of_none _ _ (hs.runtime.fresh (by omega)), h]
    rfl
  have htotal := hchange.total Execution.held
  have hle := OrdMap.weight_le_total Execution.held hchange.before
  by_cases ha : a = .reserve
  · subst ha
    rcases reserve_step hs hid hmoves with ⟨hcloses, hheld, hsame⟩ |
      ⟨hplanned, hbefore, hafter, hreserved⟩
    · exact iff_of_true (by rw [hsame]; omega) hcloses
    · have hlt := s.runtime.accounting.reservedBytes.toNat_lt
      have hcloses : Closing s.runtime ex .reserve ↔
          s.runtime.accounting.reservedBytes.toNat + ex.byteCount < 2 ^ 64 :=
        ⟨fun hfits => hfits hplanned, fun hfits _ => hfits⟩
      -- the counter is a remainder, and what is held is not
      have hmod := Nat.mod_eq_iff_lt (m := s.runtime.accounting.reservedBytes.toNat + ex.byteCount)
        (n := 2 ^ 64) (by decide)
      rw [hcloses, ← hmod, hreserved]
      omega
  · rw [(hmoves.reserved_same ha).1, h]
    have hclosing : Closing s.runtime ex a ↔ (a.Ends s.runtime ex → ex.held = 0) := by
      cases a <;> first | rfl | exact absurd rfl ha
    rw [hclosing]
    rcases held_step hs hact hchange.before hmoves ha with ⟨hends, hzero⟩ | ⟨hends, heq⟩
    · exact ⟨fun _ _ => by omega, fun hzero' => by have := hzero' hends; omega⟩
    · exact iff_of_true (by omega) fun h => absurd h hends

/-! ## Main results -/

/-- **Reserved bytes are covered exactly until one of the executions
holding them ends**, as long as fewer than 2^64 ids have been issued. -/
theorem covered_iff (evs : List Event)
    (hid : (Run.run step init evs).runtime.nextId ≤ 2 ^ 64) :
    Run.Throughout step Covered init evs ↔ Run.Along step Closes init evs :=
  Run.throughout_iff_along sound_step covered_step sound_init covered_init (along_ids hid)

/-- A broadcast up to its engine's answer. -/
theorem covered_broadcast :
    Run.Throughout step Covered init (dispatching (soloDescriptor .broadcast .none) ++
      [.begin 0 still ⟨1⟩ [[5]], .engine 0 still]) :=
  (covered_iff _ (by decide +kernel)).2 (by decide +kernel)

/-- **A broadcast that succeeds leaves its byte reserved.** -/
theorem not_covered_broadcast : ¬(Run.run step init soloBroadcast).Covered := by
  unfold Covered
  decide +kernel

end System

end CollectiveFabric
