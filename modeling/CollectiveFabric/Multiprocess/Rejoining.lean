import CollectiveFabric.Common.Settling
import CollectiveFabric.Multiprocess.Cleared
import CollectiveFabric.Multiprocess.Forming
import CollectiveFabric.Multiprocess.Model.Host
import CollectiveFabric.Multiprocess.Recovery
import CollectiveFabric.Multiprocess.Throwing

/-!
# What a recovered coordinator comes to

Nothing its two workers send is checked before it is used. A worker whose
first frame holds no boot joins with a variable that was never set, and
that is all that bytes can do: the recovered process brings no live
authority back, and adds one group at most to those it recovered. Nor can
it be kept going: at most twelve blocking calls come back.
-/

namespace CollectiveFabric

open Common

namespace Recover

/-- The blocking calls from a phase on, after `b` workers have joined. -/
def Phase.left (b : ℕ) : Phase → ℕ
  | .accept => 12 - 3 * b
  | .hello _ => 11 - 3 * b
  | .join _ _ => 10 - 3 * b
  | .barrier i => 4 + (2 - i)
  | .contribution held => 2 + (2 - held.length)
  | .complete _ i => 2 - i
  | .returned _ | .undefined => 0

namespace Host

variable {s₀ s s' : Host} {env : Surroundings} {ch k : ℕ}

/-- The blocking calls ahead. -/
def left (s : Host) : ℕ := s.phase.left s.boots.length

/-- **The fresh group is formed**: a group of the two boots read, ranked in
their order, beside the recovered ones. -/
def Grouped (s s₀ : Host) : Prop :=
  ∃ wall b₀ b₁ g, (freshBuilder wall [b₀, b₁]).build.1 = .ok g ∧ b₀ ≤ b₁ ∧
    [b₀, b₁].Perm s.boots ∧ s₀.runtime.findGroup freshGroup ⟨freshGeneration⟩ = none ∧
    s.runtime = { s₀.runtime with
      groups := s₀.runtime.groups.insert (freshGroup, ⟨freshGeneration⟩) g }

/-- No result is logged. -/
def Silent (s : Host) : Prop := ∀ sum, .allreduceDone sum ∉ s.log

/-- What holds where the process stands at a phase. -/
def Fits (s s₀ : Host) : Phase → Prop
  | .accept => s.Silent ∧ s.runtime = s₀.runtime ∧ s.connections.length = s.boots.length ∧
      s.boots.length < 2
  | .hello ch | .join ch _ => s.Silent ∧ s.runtime = s₀.runtime ∧ ch = s.boots.length ∧
      s.connections.length = ch + 1 ∧ ch < 2
  | .barrier i => s.Silent ∧ s.Grouped s₀ ∧ s.connections.length = 2 ∧ i < 2
  | .contribution held => s.Silent ∧ s.Grouped s₀ ∧ s.connections.length = 2 ∧ held.length < 2
  | .complete _ i => s.Silent ∧ s.Grouped s₀ ∧ s.connections.length = 2 ∧ i < 2
  | .returned code => code ≤ 1 ∧ (s.runtime = s₀.runtime ∨ s.Grouped s₀) ∧
      (s.Silent ∨ code = 0 ∧ s.Grouped s₀)
  | .undefined => s.Silent ∧ s.runtime = s₀.runtime

/-- The process stands where it can. -/
structure Stands (s s₀ : Host) : Prop where
  state : s.state = s₀.state
  fits : s.Fits s₀ s.phase

/-- The two differ in nothing but what the channels hold, where the process
stands and lines that tell no result. -/
structure Like (s s' : Host) : Prop where
  state : s'.state = s.state
  runtime : s'.runtime = s.runtime
  boots : s'.boots = s.boots
  channels : s'.connections.length = s.connections.length
  silent : s.Silent → s'.Silent

namespace Like

theorem refl (s : Host) : Like s s := ⟨rfl, rfl, rfl, rfl, id⟩

theorem trans {s'' : Host} (h : Like s s') (h' : Like s' s'') : Like s s'' where
  state := h'.state.trans h.state
  runtime := h'.runtime.trans h.runtime
  boots := h'.boots.trans h.boots
  channels := h'.channels.trans h.channels
  silent := h'.silent ∘ h.silent

theorem goto (s : Host) (p : Phase) : Like s (s.goto p) := ⟨rfl, rfl, rfl, rfl, id⟩

theorem say (s : Host) {e : Entry} (he : ∀ sum, e ≠ .allreduceDone sum) : Like s (s.say e) where
  state := rfl
  runtime := rfl
  boots := rfl
  channels := rfl
  silent := by
    intro h sum hmem
    rcases List.mem_append.1 hmem with hmem | hmem
    · exact h sum hmem
    · exact he sum (List.mem_singleton.1 hmem).symm

theorem connections (s : Host) {cs : List FrameChannel} (h : cs.length = s.connections.length) :
    Like s { s with connections := cs } := ⟨rfl, rfl, rfl, h, id⟩

theorem accepts (s : Host) (ch : ℕ) (rank : UInt64) : Like s (s.accepts ch rank) :=
  connections s (List.length_modify ..)

theorem sendEach (s : Host) (f : Frame) : Like s (s.sendEach f) :=
  connections s (List.length_map ..)

end Like

theorem Grouped.like (h : s.Grouped s₀) (hl : Like s s') : s'.Grouped s₀ := by
  unfold Grouped
  rw [hl.runtime, hl.boots]
  exact h

theorem Fits.like {p : Phase} (h : s.Fits s₀ p) (hl : Like s s') : s'.Fits s₀ p := by
  cases p with
  | accept =>
    obtain ⟨hsilent, hruntime, hlength, hlt⟩ := h
    refine ⟨hl.silent hsilent, hl.runtime.trans hruntime, ?_, ?_⟩
    · rw [hl.channels, hl.boots, hlength]
    · rwa [hl.boots]
  | hello ch | join ch boot =>
    obtain ⟨hsilent, hruntime, hch, hlength, hlt⟩ := h
    refine ⟨hl.silent hsilent, hl.runtime.trans hruntime, ?_, hl.channels.trans hlength, hlt⟩
    rw [hl.boots, hch]
  | barrier i | contribution held | complete output i =>
    obtain ⟨hsilent, hgrouped, hlength, hlt⟩ := h
    exact ⟨hl.silent hsilent, hgrouped.like hl, hl.channels.trans hlength, hlt⟩
  | returned code =>
    obtain ⟨hcode, hruntime, hlog⟩ := h
    refine ⟨hcode, ?_, ?_⟩
    · exact hruntime.imp hl.runtime.trans (·.like hl)
    · exact hlog.imp hl.silent fun hdone => ⟨hdone.1, hdone.2.like hl⟩
  | undefined => exact ⟨hl.silent h.1, hl.runtime.trans h.2⟩

/-- A worker that is being greeted has the last channel. -/
theorem Fits.greeting (h : s.Fits s₀ (.hello ch)) :
    ch < s.connections.length ∧ s.boots.length < 2 := by
  obtain ⟨-, -, rfl, hlength, hlt⟩ := h
  exact ⟨by omega, hlt⟩

/-! ## What follows a call that came back -/

/-- The process goes on where it can, with fewer than `k` calls ahead. -/
structure Leads (s₀ s : Host) (k : ℕ) : Prop where
  stands : s.Stands s₀
  lt : s.left < k
  defined : s.phase ≠ .undefined

theorem leads_goto {p : Phase} (hstate : s.state = s₀.state) (h : s.Fits s₀ p)
    (hlt : p.left s.boots.length < k) (hp : p ≠ .undefined) : Leads s₀ (s.goto p) k :=
  ⟨⟨hstate, h.like (.goto s p)⟩, hlt, hp⟩

/-- The process ends without a result. -/
theorem leads_returned {code : ℕ} (hstate : s.state = s₀.state) (hsilent : s.Silent)
    (hruntime : s.runtime = s₀.runtime ∨ s.Grouped s₀) (hcode : code ≤ 1) (hk : 0 < k) :
    Leads s₀ (s.goto (.returned code)) k :=
  leads_goto hstate ⟨hcode, hruntime, .inl hsilent⟩ hk nofun

theorem leads_quit (hstate : s.state = s₀.state) (hsilent : s.Silent)
    (hruntime : s.runtime = s₀.runtime ∨ s.Grouped s₀) {code : ℕ} (hcode : code ≤ 1) (hk : 0 < k)
    {e : Entry} (he : ∀ sum, e ≠ .allreduceDone sum) :
    Leads s₀ ((s.say e).goto (.returned code)) k :=
  leads_returned hstate ((Like.say s he).silent hsilent)
    (hruntime.imp id (·.like (.say s he))) hcode hk

theorem leads_caught (hstate : s.state = s₀.state) (hsilent : s.Silent)
    (hruntime : s.runtime = s₀.runtime ∨ s.Grouped s₀) (hk : 0 < k) (err : Error) :
    Leads s₀ (s.caught err) k :=
  leads_quit hstate hsilent hruntime (Nat.zero_le 1) hk fun _ h => by cases h

theorem leads_awaitComplete (hstate : s.state = s₀.state) (hsilent : s.Silent)
    (hgrouped : s.Grouped s₀) (hlength : s.connections.length = 2) (output : List UInt8) {i : ℕ}
    (hk : 2 - i < k) : Leads s₀ (s.awaitComplete output i) k := by
  unfold awaitComplete
  split_ifs with hi
  · exact leads_goto hstate ⟨hsilent, hgrouped, hlength, hlength ▸ hi⟩ hk nofun
  · refine leads_goto hstate ⟨Nat.zero_le 1, .inr ?_, .inr ⟨rfl, ?_⟩⟩ (by show 0 < k; omega) nofun
    · exact hgrouped
    · exact hgrouped

/-- **The engine** returns or throws, and what it throws is caught. -/
theorem leads_execute (hstate : s.state = s₀.state) (hsilent : s.Silent)
    (hgrouped : s.Grouped s₀) (hlength : s.connections.length = 2) {held : List Bytes}
    (hheld : held.length = 2) (hk : 2 < k) : Leads s₀ (s.execute held) k := by
  obtain ⟨x, y, rfl⟩ := List.length_eq_two.1 hheld
  unfold execute
  rcases ReferenceEngine.execute_pair x.toList y.toList with
    ⟨-, -, output, hreturns⟩ | ⟨-, message, hthrows⟩
  · simp only [List.map_cons, List.map_nil, hreturns, List.getElem?_cons_zero]
    have hl := Like.sendEach s { kind := .of .result, payload := encBlob {} (.ofList output) }
    exact leads_awaitComplete (hl.state.trans hstate) (hl.silent hsilent) (hgrouped.like hl)
      (hl.channels.trans hlength) output hk
  · simp only [List.map_cons, List.map_nil, hthrows]
    exact leads_caught hstate hsilent (.inr hgrouped) (by omega) _

theorem leads_onContribution (hstate : s.state = s₀.state) (hsilent : s.Silent)
    (hgrouped : s.Grouped s₀) (hlength : s.connections.length = 2) {held : List Bytes}
    (hheld : held.length < 2) (f : Frame) :
    Leads s₀ (s.onContribution held f) (2 + (2 - held.length)) := by
  have hmore : (held ++ [contributed f]).length = held.length + 1 := List.length_append
  unfold onContribution
  simp only [hmore, hlength]
  split_ifs with hlt
  · refine leads_goto hstate ⟨hsilent, hgrouped, hlength, hmore ▸ hlt⟩ ?_ nofun
    show 2 + (2 - (held ++ [contributed f]).length) < _
    omega
  · exact leads_execute hstate hsilent hgrouped hlength (by omega) (by omega)

theorem leads_awaitBarrier (hstate : s.state = s₀.state) (hsilent : s.Silent)
    (hgrouped : s.Grouped s₀) (hlength : s.connections.length = 2) {i : ℕ}
    (hk : 4 + (2 - i) < k) : Leads s₀ (s.awaitBarrier i) k := by
  unfold awaitBarrier
  split_ifs with hi
  · exact leads_goto hstate ⟨hsilent, hgrouped, hlength, hlength ▸ hi⟩ hk nofun
  · have hl := (Like.sendEach s { kind := .of .complete, payload := encSimple 1 1 }).trans
      (.sendEach _ { kind := .of .requestCollective, payload := encDesc (request s.state.epoch) })
    refine leads_goto hstate ⟨hl.silent hsilent, hgrouped.like hl, hl.channels.trans hlength,
      Nat.zero_lt_two⟩ ?_ nofun
    show 2 + (2 - 0) < k
    omega

/-- The key the fresh group is registered under. -/
theorem key_freshBuilder {wall : Ambient} {b₀ b₁ : UInt64} {g : CollectiveGroup}
    (h : (freshBuilder wall [b₀, b₁]).build.1 = .ok g) :
    g.id = freshGroup ∧ g.generation = ⟨freshGeneration⟩ := by
  obtain ⟨-, rfl⟩ := GroupBuilder.build_ok h
  exact ⟨rfl, rfl⟩

/-- **The registration** of the fresh group, if it is not refused. -/
theorem grouped_of_registerGroup (hruntime : s.runtime = s₀.runtime) {wall : Ambient}
    {b₀ b₁ : UInt64} {g g' : CollectiveGroup} {rt : Runtime}
    (hbuild : (freshBuilder wall [b₀, b₁]).build.1 = .ok g) (hle : b₀ ≤ b₁)
    (hboots : [b₀, b₁].Perm s.boots) (hregister : s.runtime.registerGroup g = (.ok g', rt)) :
    ({ s with runtime := rt }).Grouped s₀ := by
  obtain ⟨hid, hgeneration⟩ := key_freshBuilder hbuild
  unfold Runtime.registerGroup at hregister
  rw [hid, hgeneration, hruntime] at hregister
  split_ifs at hregister with hmem
  · cases hregister
  · cases hregister
    refine ⟨wall, b₀, b₁, g, hbuild, hle, hboots, ?_, rfl⟩
    exact Std.TreeMap.getElem?_eq_none hmem

/-- **Two workers have joined.** -/
theorem leads_form (hstate : s.state = s₀.state) (hsilent : s.Silent)
    (hruntime : s.runtime = s₀.runtime) (hboots : s.boots.length = 2)
    (hlength : s.connections.length = 2) (env : Surroundings) : Leads s₀ (s.form env) 7 := by
  obtain ⟨b₀, b₁, heq⟩ := List.length_eq_two.1 hboots
  -- the ranks go by boot, and so do the channels
  have hordered : ∃ ch₀ ch₁ lo hi, lo ≤ hi ∧ [lo, hi].Perm s.boots ∧
      (if b₁ < b₀ then (1, 0, [b₁, b₀]) else (0, 1, [b₀, b₁]) : ℕ × ℕ × List UInt64) =
        (ch₀, ch₁, [lo, hi]) := by
    rw [heq]
    split_ifs with hlt
    · exact ⟨1, 0, b₁, b₀, UInt64.le_of_lt hlt, .swap _ _ _, rfl⟩
    · exact ⟨0, 1, b₀, b₁, UInt64.not_lt.1 hlt, .refl _, rfl⟩
  obtain ⟨ch₀, ch₁, lo, hi, hle, hperm, hidx⟩ := hordered
  have hget₀ : s.boots[0]? = some b₀ := by rw [heq]; rfl
  have hget₁ : s.boots[1]? = some b₁ := by rw [heq]; rfl
  unfold form
  simp only [hget₀, hget₁, hidx]
  cases hbuild : (freshBuilder (env.clocks 0) [lo, hi]).build.1 with
  | error err => exact leads_caught hstate hsilent (.inl hruntime) (Nat.succ_pos 6) err
  | ok g =>
    rcases hregister : s.runtime.registerGroup g with ⟨err | g', rt⟩
    · obtain rfl := registerGroup_error hregister
      simp only [hregister]
      exact leads_caught hstate hsilent (.inl hruntime) (Nat.succ_pos 6) err
    · have hgrouped := grouped_of_registerGroup hruntime hbuild hle hperm hregister
      have hl := (Like.accepts { s with runtime := rt } ch₀ 0).trans (.accepts _ ch₁ 1)
      simp only [hregister]
      exact leads_awaitBarrier (hl.state.trans hstate) (hl.silent hsilent) (hgrouped.like hl)
        (hl.channels.trans hlength) (i := 0) (k := 7) (Nat.lt_succ_self 6)

theorem leads_onJoin (hstate : s.state = s₀.state) (boot : UInt64)
    (h : s.Fits s₀ (.join ch (some boot))) (env : Surroundings) :
    Leads s₀ (s.onJoin env (some boot)) (10 - 3 * s.boots.length) := by
  obtain ⟨hsilent, hruntime, rfl, hlength, hlt⟩ := h
  let s₁ : Host := { s with boots := s.boots ++ [boot] }
  have hl : Like s₁ (s₁.say (.worker boot)) := .say s₁ fun _ h => by cases h
  have hboots : (s₁.say (.worker boot)).boots.length = s.boots.length + 1 := List.length_append
  have hquiet : (s₁.say (.worker boot)).Silent := hl.silent hsilent
  show Leads s₀ (if (s₁.say (.worker boot)).boots.length < 2
    then (s₁.say (.worker boot)).goto .accept else (s₁.say (.worker boot)).form env) _
  split_ifs with hmore
  · refine leads_goto hstate ⟨hquiet, hruntime, hlength.trans hboots.symm, hmore⟩ ?_ nofun
    show 12 - 3 * (s₁.say (.worker boot)).boots.length < _
    omega
  · have htwo : s.boots.length + 1 = 2 := by omega
    have hform := leads_form (s := s₁.say (.worker boot)) hstate hquiet hruntime
      (hboots.trans htwo) (hlength.trans htwo) env
    exact ⟨hform.stands, by have hlt := hform.lt; omega, hform.defined⟩

/-! ## A turn -/

/-- **A read** leads on, or the process waits where it is. -/
theorem leads_or_like_recv {p : Phase} (hphase : s.phase = p) (hch : ch < s.connections.length)
    {onFrame : Frame → Host → Host} {onLoss : Host → Host}
    (hframe : ∀ f s', Like s s' → Leads s₀ (onFrame f s') k)
    (hloss : ∀ s', Like s s' → Leads s₀ (onLoss s') k) :
    Leads s₀ (s.recv env ch onFrame onLoss) k ∨
      (Like s (s.recv env ch onFrame onLoss) ∧ (s.recv env ch onFrame onLoss).phase = p) := by
  have hset (c : FrameChannel) : Like s { s with connections := s.connections.set ch c } :=
    .connections s List.length_set
  unfold recv
  rw [List.getElem?_eq_getElem hch]
  rcases hread : s.connections[ch].recv env.received with ⟨f | reason | _, c⟩
  · simp only [hread]
    exact .inl (hframe f _ (hset c))
  · simp only [hread]
    exact .inl (hloss _ (hset c))
  · simp only [hread]
    exact .inr ⟨hset c, hphase⟩

/-- The boot is there exactly where the first frame holds the eight bytes of
one. -/
theorem phase_onHello (f : Frame) (ch : ℕ) : ∃ boot,
    (s.onHello ch f).phase = .join ch boot ∧ (boot ≠ none ↔ 8 ≤ f.payload.toList.length) :=
  ⟨_, rfl, CanonicalReader.u64_ne_none⟩

/-- The turn takes a frame from the channel. -/
def Takes (s : Host) (env : Surroundings) (ch : ℕ) : Prop :=
  ∃ c f c', s.connections[ch]? = some c ∧ c.recv env.received = (.frame f, c')

/-- A worker whose first frame held no boot joins. -/
def Unread (s : Host) (env : Surroundings) : Prop := ∃ ch, s.phase = .join ch none ∧ s.Takes env ch

/-- **A boot that was not read is used.** -/
theorem turn_of_unread (h : s.Unread env) :
    Like s (s.turn env) ∧ (s.turn env).phase = .undefined := by
  obtain ⟨ch, hphase, c, f, c', hc, hrecv⟩ := h
  have hset : Like s { s with connections := s.connections.set ch c' } :=
    .connections s List.length_set
  unfold turn recv
  simp only [hphase, hc, hrecv]
  exact ⟨hset.trans (.goto _ _), rfl⟩

/-- A read that takes no frame fails, or the process waits where it is. -/
theorem recv_of_not_takes (hch : ch < s.connections.length) (h : ¬s.Takes env ch)
    (onFrame : Frame → Host → Host) (onLoss : Host → Host) :
    ∃ s', Like s s' ∧ s'.phase = s.phase ∧ (s.recv env ch onFrame onLoss = onLoss s' ∨
      s.recv env ch onFrame onLoss = s') := by
  have hc : s.connections[ch]? = some s.connections[ch] := List.getElem?_eq_getElem hch
  have hset (c : FrameChannel) : Like s { s with connections := s.connections.set ch c } :=
    .connections s List.length_set
  unfold recv
  rw [hc]
  rcases hread : s.connections[ch].recv env.received with ⟨f | reason | _, c⟩
  · exact absurd ⟨_, f, c, hc, hread⟩ h
  · simp only [hread]
    exact ⟨_, hset c, rfl, .inl rfl⟩
  · simp only [hread]
    exact ⟨_, hset c, rfl, .inr rfl⟩

/-- **A turn** that uses no unread boot leads on, or the process waits or
has ended. -/
theorem leads_or_like (h : s.Stands s₀) (env : Surroundings) (hread : ¬s.Unread env) :
    Leads s₀ (s.turn env) s.left ∨ (Like s (s.turn env) ∧ (s.turn env).phase = s.phase) := by
  obtain ⟨hstate, hfits⟩ := h
  unfold turn left
  cases hphase : s.phase with
  | accept =>
    rw [hphase] at hfits
    obtain ⟨hsilent, hruntime, hlength, hlt⟩ := hfits
    left
    refine ⟨⟨hstate, hsilent, hruntime, hlength, List.length_append, hlength ▸ hlt⟩, ?_, nofun⟩
    show 11 - 3 * s.boots.length < 12 - 3 * s.boots.length
    omega
  | hello ch =>
    rw [hphase] at hfits
    obtain ⟨hch, hlt⟩ := Fits.greeting hfits
    refine leads_or_like_recv hphase hch (fun f s' hl => ?_) fun s' hl => ?_
    · refine leads_goto (hl.state.trans hstate) (Fits.like hfits hl) ?_ nofun
      rw [hl.boots]
      show 10 - 3 * s.boots.length < 11 - 3 * s.boots.length
      omega
    · refine leads_quit (hl.state.trans hstate) (hl.silent hfits.1)
        (.inl (hl.runtime.trans hfits.2.1)) le_rfl ?_ fun _ h => by cases h
      show 0 < 11 - 3 * s.boots.length
      omega
  | join ch boot =>
    rw [hphase] at hfits
    obtain ⟨hch, hlt⟩ := Fits.greeting hfits
    have hquit (s' : Host) (hl : Like s s') :
        Leads s₀ (s'.goto (.returned 1)) (10 - 3 * s.boots.length) :=
      leads_returned (hl.state.trans hstate) (hl.silent hfits.1)
        (.inl (hl.runtime.trans hfits.2.1)) le_rfl (by omega)
    cases boot with
    | none =>
      -- no frame came, so the boot is not used
      have hnothing : ¬s.Takes env ch := fun htakes => hread ⟨ch, hphase, htakes⟩
      obtain ⟨s', hl, hsame, hrecv | hrecv⟩ :=
        recv_of_not_takes hch hnothing (fun _ => onJoin env none) (goto · (.returned 1))
      · simp only [hrecv]
        exact .inl (hquit s' hl)
      · simp only [hrecv]
        exact .inr ⟨hl, hsame.trans hphase⟩
    | some boot =>
      refine leads_or_like_recv hphase hch (fun f s' hl => ?_) hquit
      have hjoin := leads_onJoin (hl.state.trans hstate) boot (Fits.like hfits hl) env
      rwa [hl.boots] at hjoin
  | barrier i =>
    rw [hphase] at hfits
    obtain ⟨hsilent, hgrouped, hlength, hi⟩ := hfits
    have hnext (s' : Host) (hl : Like s s') :
        Leads s₀ (s'.awaitBarrier (i + 1)) ((Phase.barrier i).left s.boots.length) := by
      refine leads_awaitBarrier (hl.state.trans hstate) (hl.silent hsilent) (hgrouped.like hl)
        (hl.channels.trans hlength) ?_
      show 4 + (2 - (i + 1)) < 4 + (2 - i)
      omega
    exact leads_or_like_recv hphase (by rwa [hlength]) (fun _ => hnext) hnext
  | contribution held =>
    rw [hphase] at hfits
    obtain ⟨hsilent, hgrouped, hlength, hheld⟩ := hfits
    refine leads_or_like_recv hphase (by rwa [hlength]) (fun f s' hl => ?_) fun s' hl => ?_
    · exact leads_onContribution (hl.state.trans hstate) (hl.silent hsilent) (hgrouped.like hl)
        (hl.channels.trans hlength) hheld f
    · refine leads_quit (hl.state.trans hstate) (hl.silent hsilent) (.inr (hgrouped.like hl))
        le_rfl ?_ fun _ h => by cases h
      show 0 < 2 + (2 - held.length)
      omega
  | complete output i =>
    rw [hphase] at hfits
    obtain ⟨hsilent, hgrouped, hlength, hi⟩ := hfits
    have hnext (s' : Host) (hl : Like s s') :
        Leads s₀ (s'.awaitComplete output (i + 1)) ((Phase.complete output i).left s.boots.length) := by
      refine leads_awaitComplete (hl.state.trans hstate) (hl.silent hsilent) (hgrouped.like hl)
        (hl.channels.trans hlength) output ?_
      show 2 - (i + 1) < 2 - i
      omega
    exact leads_or_like_recv hphase (by rwa [hlength]) (fun _ => hnext) hnext
  | returned code => exact .inr ⟨.refl s, hphase⟩
  | undefined => exact .inr ⟨.refl s, hphase⟩

/-! ## Runs -/

theorem Stands.like (h : s.Stands s₀) (hl : Like s s') (hphase : s'.phase = s.phase) :
    s'.Stands s₀ ∧ s'.left = s.left := by
  refine ⟨⟨hl.state.trans h.state, ?_⟩, ?_⟩
  · rw [hphase]
    exact h.fits.like hl
  · unfold left
    rw [hphase, hl.boots]

theorem stands_of_unread (h : s.Stands s₀) (hread : s.Unread env) : (s.turn env).Stands s₀ := by
  obtain ⟨hl, hphase⟩ := turn_of_unread hread
  obtain ⟨ch, hjoin, -⟩ := hread
  have hfits := h.fits
  rw [hjoin] at hfits
  refine ⟨hl.state.trans h.state, ?_⟩
  rw [hphase]
  exact ⟨hl.silent hfits.1, hl.runtime.trans hfits.2.1⟩

theorem left_of_unread (h : s.Stands s₀) (hread : s.Unread env) : (s.turn env).left < s.left := by
  obtain ⟨-, hphase⟩ := turn_of_unread hread
  obtain ⟨ch, hjoin, -⟩ := hread
  have hfits := h.fits
  rw [hjoin] at hfits
  obtain ⟨-, hlt⟩ := Fits.greeting hfits
  unfold left
  rw [hphase, hjoin]
  show 0 < 10 - 3 * s.boots.length
  omega

/-- **One step**: the process stands where it can, and either the call it
stood at came back or it stands there still. -/
theorem stands_step (h : s.Stands s₀) (ev : Coordinator.Event) :
    (s.step ev).Stands s₀ ∧ ((s.step ev).left < s.left ∨
      (s.step ev).phase = s.phase ∧ (s.step ev).left = s.left) := by
  have hstays {s' : Host} (hl : Like s s') (hphase : s'.phase = s.phase) :
      s'.Stands s₀ ∧ (s'.left < s.left ∨ s'.phase = s.phase ∧ s'.left = s.left) := by
    obtain ⟨hstands, hleft⟩ := h.like hl hphase
    exact ⟨hstands, .inr ⟨hphase, hleft⟩⟩
  cases ev with
  | arrive ch bs => exact hstays (.connections s (List.length_modify ..)) rfl
  | hangUp ch reset => exact hstays (.connections s (List.length_modify ..)) rfl
  | turn env =>
    by_cases hread : s.Unread env
    · exact ⟨stands_of_unread h hread, .inl (left_of_unread h hread)⟩
    rcases leads_or_like h env hread with hleads | ⟨hl, hphase⟩
    · exact ⟨hleads.stands, .inl hleads.lt⟩
    · exact hstays hl hphase

/-- What the next worker's first frame held is a boot, if it comes to be
used. -/
def Greets (s : Host) : Coordinator.Event → Prop
  | .turn env => ¬s.Unread env
  | _ => True

/-- A step is defined exactly when the boot it uses was read. -/
theorem defined_step (h : s.Stands s₀) (hs : s.phase ≠ .undefined) (ev : Coordinator.Event) :
    (s.step ev).phase ≠ .undefined ↔ s.Greets ev := by
  cases ev with
  | arrive ch bs => exact iff_of_true hs trivial
  | hangUp ch reset => exact iff_of_true hs trivial
  | turn env =>
    refine ⟨fun hdefined hread => hdefined (turn_of_unread hread).2, fun hread => ?_⟩
    rcases leads_or_like h env hread with hleads | ⟨-, hphase⟩
    · exact hleads.defined
    · exact hphase ▸ hs

/-- The process when it begins to listen. -/
theorem start_eq {buf : List UInt8} {envs : ℕ → Ambient} (h : start buf envs = some s₀) :
    (∃ res, Store.load buf = .ok (s₀.state, res)) ∧
      (runRecover buf envs).2 = .listening s₀.runtime ∧
      s₀ = { state := s₀.state, runtime := s₀.runtime } := by
  unfold start at h
  split at h
  · next state res rt hload hlistens =>
    obtain rfl := Option.some.inj h
    exact ⟨⟨res, hload⟩, hlistens, rfl⟩
  · cases h

theorem stands_start {buf : List UInt8} {envs : ℕ → Ambient} (h : start buf envs = some s₀) :
    s₀.Stands s₀ := by
  obtain ⟨-, -, hnew⟩ := start_eq h
  refine ⟨rfl, ?_⟩
  have hphase : s₀.phase = .accept := by rw [hnew]
  rw [hphase]
  refine ⟨fun sum hmem => ?_, rfl, ?_, ?_⟩
  · rw [hnew] at hmem
    cases hmem
  · rw [hnew]
    rfl
  · rw [hnew]
    exact Nat.zero_lt_two

/-- Where the process stands, the runtime is the recovered one, or the fresh
group is formed beside it. -/
theorem Stands.runtime (h : s.Stands s₀) : s.runtime = s₀.runtime ∨ s.Grouped s₀ := by
  have hfits := h.fits
  cases hphase : s.phase with
  | accept | hello ch | join ch boot =>
    rw [hphase] at hfits
    exact .inl hfits.2.1
  | barrier i | contribution held | complete output i =>
    rw [hphase] at hfits
    exact .inr hfits.2.1
  | returned code =>
    rw [hphase] at hfits
    exact hfits.2.1
  | undefined =>
    rw [hphase] at hfits
    exact .inl hfits.2

/-- A result is logged at the end alone. -/
theorem Stands.done (h : s.Stands s₀) {sum : UInt32} (hmem : .allreduceDone sum ∈ s.log) :
    s.phase = .returned 0 ∧ s.Grouped s₀ := by
  have hfits := h.fits
  cases hphase : s.phase with
  | accept | hello ch | join ch boot | barrier i | contribution held | complete output i =>
    rw [hphase] at hfits
    exact absurd hmem (hfits.1 sum)
  | returned code =>
    rw [hphase] at hfits
    obtain ⟨-, -, hsilent | ⟨rfl, hgrouped⟩⟩ := hfits
    · exact absurd hmem (hsilent sum)
    · exact ⟨rfl, hgrouped⟩
  | undefined =>
    rw [hphase] at hfits
    exact absurd hmem (hfits.1 sum)

/-- A state saved in the second epoch, with a live boot and a group of two
participants. -/
def pairState : PersistentState where
  epoch := ⟨2⟩
  liveBoot := ⟨100⟩
  groups := .ofList [exportGroup (GroupBuilder.pairRanked.group GroupBuilder.pairRanked_validate)]

/-- The process comes to listen with it. -/
theorem exists_start_pair :
    ∃ s₀, start (Store.file pairState) (fun _ => ⟨0, 0, 0⟩) = some s₀ ∧
      s₀.state = pairState := by
  have hrest : Store.InDomain { pairState with groups := ∅ } := by
    constructor <;> decide
  have hfits : Store.Fits pairState := (Store.fits_iff _).2
    (inDomain_export GroupBuilder.pair_build (by decide) (by decide) rfl hrest)
  have hload := Store.load_file hfits (by decide +kernel)
  have hfree : (⟨7⟩, ⟨1⟩) ∉ (startRuntime pairState).groups := by decide
  obtain ⟨rt, hrebuild, -⟩ := rebuildRuntime_export (fun _ => ⟨0, 0, 0⟩)
    GroupBuilder.pair_assembled GroupBuilder.pair_build hfree
  refine ⟨{ state := pairState, runtime := rt }, ?_, rfl⟩
  have hsome : pairState.groups.toList ≠ [] := List.cons_ne_nil _ _
  have hlistens : (runRecover (Store.file pairState) fun _ => ⟨0, 0, 0⟩).2 = .listening rt := by
    unfold runRecover
    simp only [hload, if_neg hsome]
    rw [show pairState.groups.toList = [exportGroup _] from rfl, hrebuild]
  unfold start
  rw [hload, hlistens]

/-- **The recovered coordinator is contained**, whoever its workers are and
whatever they send. It reads what is not there exactly where a worker joins
whose first frame held no boot, and nothing it throws escapes; the
authority is the recovered epoch and nothing live, and there is no
measurement; the runtime is the recovered one, or has one group more,
formed of the two boots read; and a result is logged only at the end of a
round on that group. -/
theorem rejoining_contained {buf : List UInt8} {envs : ℕ → Ambient}
    (h : start buf envs = some s₀) (evs : List Coordinator.Event) :
    let s := Run.run step s₀ evs
    (Run.Throughout step (fun s => s.phase ≠ .undefined) s₀ evs ↔
        Run.Along step Greets s₀ evs) ∧
      (∀ code, s.phase = .returned code → code ≤ 1) ∧
      s.runtime.authority = { epoch := s₀.state.epoch } ∧ s.runtime.measurements = ∅ ∧
      (s.runtime = s₀.runtime ∨ s.Grouped s₀) ∧
      ∀ sum, .allreduceDone sum ∈ s.log → s.phase = .returned 0 ∧ s.Grouped s₀ := by
  intro s
  have hstands : s.Stands s₀ :=
    (Run.throughout_of_step (I := (Stands · s₀)) (H := fun _ _ => True)
      (fun s ev hs _ => (stands_step hs ev).1) (stands_start h)
      (Run.along_of_forall (fun _ _ => trivial) evs)).last
  obtain ⟨⟨res, hload⟩, hlistens, -⟩ := start_eq h
  obtain ⟨state, res', hload', hauthority, hmeasurements⟩ := runRecover_listening hlistens
  obtain ⟨rfl, -⟩ : state = s₀.state ∧ res' = res := by
    simpa using Except.ok.inj (hload'.symm.trans hload)
  have hfits := hstands.fits
  have hdefined : s₀.phase ≠ .undefined := by
    obtain ⟨-, -, hnew⟩ := start_eq h
    rw [hnew]
    exact nofun
  refine ⟨?_, fun code hphase => ?_, ?_, ?_, hstands.runtime, fun sum => hstands.done⟩
  · exact Run.throughout_iff_along (I := (Stands · s₀)) (H := fun _ _ => True)
      (fun s ev hs _ => (stands_step hs ev).1) (fun s ev hs _ hd => defined_step hs hd ev)
      (stands_start h) hdefined (Run.along_of_forall (fun _ _ => trivial) evs)
  · rw [hphase] at hfits
    exact hfits.1
  · rcases hstands.runtime with hsame | ⟨wall, b₀, b₁, g, -, -, -, -, hgroup⟩
    · rw [hsame, hauthority]
    · rw [hgroup]
      exact hauthority
  · rcases hstands.runtime with hsame | ⟨wall, b₀, b₁, g, -, -, -, -, hgroup⟩
    · rw [hsame, hmeasurements]
    · rw [hgroup]
      exact hmeasurements

/-- The saved boot is live in no state the process comes to, and it is the
boots that are read which keep it defined. -/
theorem rejoining_contained_pair :
    ∃ s₀, start (Store.file pairState) (fun _ => ⟨0, 0, 0⟩) = some s₀ ∧ ∀ evs,
      (Run.run step s₀ evs).runtime.authority = { epoch := ⟨2⟩ } ∧
      (Run.Throughout step (fun s => s.phase ≠ .undefined) s₀ evs ↔
        Run.Along step Greets s₀ evs) := by
  obtain ⟨s₀, hstart, hstate⟩ := exists_start_pair
  refine ⟨s₀, hstart, fun evs => ?_⟩
  obtain ⟨hdefined, -, hauthority, -⟩ := rejoining_contained hstart evs
  refine ⟨?_, hdefined⟩
  rw [hauthority, hstate]
  rfl

/-- **At most twelve blocking calls come back** to it. -/
theorem rejoining_bounded {buf : List UInt8} {envs : ℕ → Ambient} (h : start buf envs = some s₀)
    (evs : List Coordinator.Event) :
    Run.count step (fun s ev => (s.step ev).phase ≠ s.phase) s₀ evs ≤ 12 := by
  have hleft : s₀.left = 12 := by
    obtain ⟨-, -, hnew⟩ := start_eq h
    rw [hnew]
    rfl
  rw [← hleft]
  refine Run.count_le (I := (Stands · s₀)) left (fun s ev hs => (stands_step hs ev).1) ?_ ?_
    (stands_start h) evs
  · intro s ev hs
    rcases (stands_step hs ev).2 with hlt | ⟨-, heq⟩
    · exact hlt.le
    · exact heq.le
  · intro s ev hs hne
    exact (stands_step hs ev).2.resolve_right fun hsame => hne hsame.1

theorem rejoining_bounded_pair :
    ∃ s₀, start (Store.file pairState) (fun _ => ⟨0, 0, 0⟩) = some s₀ ∧
      ∀ evs, Run.count step (fun s ev => (s.step ev).phase ≠ s.phase) s₀ evs ≤ 12 := by
  obtain ⟨s₀, hstart, -⟩ := exists_start_pair
  exact ⟨s₀, hstart, rejoining_bounded hstart⟩

end Host

end Recover

end CollectiveFabric
