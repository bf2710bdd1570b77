import CollectiveFabric.Runtime.Locality
import CollectiveFabric.Runtime.Model.Serial

/-!
# Calls are made as if whole

While a call of `execute_collective` is in flight the lock is free, and
other calls come in between its steps. As long as none of them is on the
same execution, nobody can tell: the runtime is the one that whole calls
leave, each made where the code commits.
-/

namespace CollectiveFabric

open Common

namespace Runtime

variable {rt rt' : Runtime} {e : ExecutionId} {call : Call} {r : Request}

/-- What a call reads of the runtime before it commits. -/
def sees (rt : Runtime) (e : ExecutionId) : Option (Execution × Option CollectiveGroup) :=
  (rt.executions[e]?).map fun ex => (ex, rt.groupOf ex)

theorem executions_of_sees (h : rt'.sees e = rt.sees e) : rt'.executions[e]? = rt.executions[e]? := by
  have hmap := congrArg (Option.map Prod.fst) h
  simp only [sees, Option.map_map] at hmap
  simpa [Function.comp_def] using hmap

/-- **The begin of a call** does the same on runtimes it sees the same. -/
theorem executeBegin_congr (h : rt'.sees e = rt.sees e) (env : Ambient)
    (inputs : List (List UInt8)) :
    (rt'.executeBegin env e inputs).1 = (rt.executeBegin env e inputs).1 ∧
      (rt'.executeBegin env e inputs).2.executions[e]? =
        (rt.executeBegin env e inputs).2.executions[e]? := by
  have hsame := executions_of_sees h
  cases hex : rt.executions[e]? with
  | none =>
    rw [hex] at hsame
    simp only [executeBegin, hex, hsame]
    exact ⟨trivial, trivial⟩
  | some ex =>
    rw [hex] at hsame
    have hgroup : rt'.groupOf ex = rt.groupOf ex := by
      simp only [sees, hex, hsame, Option.map_some, Option.some.injEq, Prod.mk.injEq] at h
      exact h.2
    simp only [Runtime.groupOf] at hgroup
    simp only [executeBegin, hex, hsame, hgroup]
    split
    · exact ⟨rfl, hsame.trans hex.symm⟩
    · split
      · exact ⟨rfl, hsame.trans hex.symm⟩
      · refine ⟨rfl, ?_⟩
        simp only [setExecution, OrdMap.getElem?_insert_same]

/-- It writes the execution alone. -/
theorem executeBegin_rest (rt : Runtime) (env : Ambient) (e : ExecutionId)
    (inputs : List (List UInt8)) :
    (rt.executeBegin env e inputs).2 =
        rt.withExecutions (rt.executeBegin env e inputs).2.executions ∧
      ∀ a, a ≠ e → (rt.executeBegin env e inputs).2.executions[a]? = rt.executions[a]? := by
  rcases rt.executeBegin_cases env e inputs with ⟨-, hbegin⟩ | ⟨ex, -, ⟨f, hbegin⟩ | ⟨lc, bytes, -, -,
    hbegin⟩⟩
  · rw [hbegin]
    exact ⟨rfl, fun _ _ => rfl⟩
  · rw [hbegin]
    exact ⟨rfl, fun _ _ => rfl⟩
  · rw [hbegin]
    exact ⟨rfl, fun a ha => OrdMap.getElem?_insert_of_ne _ ha.symm _⟩

/-- Nor does the engine see more. -/
theorem executeEngine_congr (h : rt'.executions[call.execution]? = rt.executions[call.execution]?)
    (env : Ambient) : rt'.executeEngine env call = rt.executeEngine env call := by
  unfold executeEngine
  rw [h]

/-- The engine answers once. -/
theorem executeEngine_answered {env : Ambient} {call' : Call}
    (h : rt.executeEngine env call = some call') (rt' : Runtime) (env' : Ambient) :
    rt'.executeEngine env' call' = none ∧ call'.execution = call.execution := by
  unfold executeEngine at h
  split at h
  · split at h
    · obtain rfl := Option.some.inj h
      exact ⟨rfl, rfl⟩
    · obtain rfl := Option.some.inj h
      exact ⟨rfl, rfl⟩
    · cases h
  · cases h

/-- Whether it answers is not up to what surrounds the answer. -/
theorem executeEngine_eq_none {env : Ambient} (h : rt.executeEngine env call = none)
    (env' : Ambient) : rt.executeEngine env' call = none := by
  unfold executeEngine at h ⊢
  split at h
  · split at h
    · cases h
    · cases h
    · rfl
  · rfl

/-! ## The call up to its commit -/

theorem serve_snd (rt : Runtime) (r : Request) :
    (rt.serve r).2 = (rt.executeBegin r.begun r.execution r.inputs).2 := by
  unfold serve
  rcases rt.executeBegin r.begun r.execution r.inputs with ⟨_ | call, rt'⟩
  · rfl
  · rfl

/-- **On an execution there is**, the call comes to its commit. -/
theorem exists_served {ex : Execution} (h : rt.executions[r.execution]? = some ex) :
    ∃ call₀, (rt.executeBegin r.begun r.execution r.inputs).1 = some call₀ ∧
      call₀.execution = r.execution ∧
      (rt.serve r).1 = some ((r.answered.bind ((rt.serve r).2.executeEngine · call₀)).getD call₀) := by
  rw [serve_snd]
  unfold serve
  rcases rt.executeBegin_cases r.begun r.execution r.inputs with ⟨hnone, -⟩ | ⟨ex', -, ⟨f, hbegin⟩ |
    ⟨lc, bytes, -, -, hbegin⟩⟩
  · rw [h] at hnone
    cases hnone
  · rw [hbegin]
    exact ⟨_, rfl, rfl, rfl⟩
  · rw [hbegin]
    exact ⟨_, rfl, rfl, rfl⟩

theorem execution_getD {call : Call} {answer : Option Call}
    (h : ∀ call', answer = some call' → call'.execution = call.execution) :
    (answer.getD call).execution = call.execution := by
  cases answer with
  | none => rfl
  | some call' => exact h call' rfl

/-- On the execution it was begun on. -/
theorem execution_of_serve (h : (rt.serve r).1 = some call) : call.execution = r.execution := by
  cases hex : rt.executions[r.execution]? with
  | none =>
    have hnone : (rt.serve r).1 = none := by
      simp only [serve, executeBegin, hex]
    rw [hnone] at h
    cases h
  | some ex =>
    obtain ⟨call₀, -, hexecution, hserve⟩ := exists_served hex
    rw [h] at hserve
    rw [Option.some.inj hserve, ← hexecution]
    refine execution_getD fun call' hcall => ?_
    obtain ⟨env, -, hanswer⟩ := Option.bind_eq_some_iff.1 hcall
    exact (executeEngine_answered hanswer rt env).2

/-- **What a call comes to** is seen before it begins. -/
theorem serve_congr (h : rt'.sees r.execution = rt.sees r.execution) :
    (rt'.serve r).1 = (rt.serve r).1 ∧
      (rt'.serve r).2.executions[r.execution]? = (rt.serve r).2.executions[r.execution]? := by
  obtain ⟨hcall, hwritten⟩ := executeBegin_congr h r.begun r.inputs
  rw [← serve_snd, ← serve_snd] at hwritten
  refine ⟨?_, hwritten⟩
  have hsame := executions_of_sees h
  cases hex : rt.executions[r.execution]? with
  | none =>
    rw [hex] at hsame
    simp only [serve, executeBegin, hex, hsame]
  | some ex =>
    rw [hex] at hsame
    obtain ⟨call₀, hbegin, hexecution, hserve⟩ := exists_served hex
    obtain ⟨call₀', hbegin', -, hserve'⟩ := exists_served hsame
    rw [hbegin, hbegin'] at hcall
    obtain rfl := Option.some.inj hcall
    rw [hserve, hserve']
    have hanswer (env : Ambient) :
        (rt'.serve r).2.executeEngine env call₀' = (rt.serve r).2.executeEngine env call₀' :=
      executeEngine_congr (hexecution ▸ hwritten) env
    simp only [hanswer]

end Runtime

/-! ## Both systems -/

instance (s : System) (e : ExecutionId) : Decidable (s.InFlight e) :=
  decidable_of_iff (∃ kv ∈ s.calls.toList, kv.2.execution = e) <| by
    simp only [System.InFlight, Prod.exists, Std.TreeMap.mem_toList_iff_getElem?_eq_some]

/-- A section on an execution comes while no call on it is in flight, but
for that call's own commit. -/
def System.Alone (s : System) : Event → Prop
  | .commit _ _ => True
  | ev => ∀ on ∈ s.act ev, ¬s.InFlight on.1

instance (s : System) : (ev : Event) → Decidable (s.Alone ev)
  | .commit _ _ => isTrue trivial
  | .call _ | .begin _ _ _ _ | .engine _ _ => inferInstanceAs (Decidable (∀ on ∈ _, _))

/-- **What the code has done so far of the calls in flight**: the
executions they are on are as their begins left them, and everything else
is as if they were still to be made. -/
structure Serializes (s : System) (t : SerialSystem) : Prop where
  returned : s.returned = t.returned
  tables : s.runtime = t.runtime.withExecutions s.runtime.executions
  calls : ∀ c : ℕ, s.calls[c]? = (t.pending[c]?).bind fun r => (t.runtime.serve r).1
  known : ∀ (c : ℕ) (r : Request), t.pending[c]? = some r → ∃ ex grp,
    t.runtime.executions[r.execution]? = some ex ∧ t.runtime.groupOf ex = some grp
  single : ∀ (c c' : ℕ) (r r' : Request), t.pending[c]? = some r → t.pending[c']? = some r' →
    r.execution = r'.execution → c = c'
  flying : ∀ (c : ℕ) (r : Request), t.pending[c]? = some r →
    s.runtime.executions[r.execution]? = (t.runtime.serve r).2.executions[r.execution]?
  idle : ∀ e : ExecutionId, (∀ (c : ℕ) (r : Request), t.pending[c]? = some r → r.execution ≠ e) →
    s.runtime.executions[e]? = t.runtime.executions[e]?

namespace Serializes

variable {s : System} {t : SerialSystem} {c : ℕ} {r : Request} {e : ExecutionId}

theorem init : Serializes System.init SerialSystem.init where
  returned := rfl
  tables := rfl
  calls c := by simp [System.init, SerialSystem.init]
  known c r h := by simp [SerialSystem.init] at h
  single c c' r r' h := by simp [SerialSystem.init] at h
  flying c r h := by simp [SerialSystem.init] at h
  idle _ _ := rfl

/-- A request pending is a call in flight. -/
theorem exists_call (h : Serializes s t) (hr : t.pending[c]? = some r) :
    ∃ call, s.calls[c]? = some call ∧ (t.runtime.serve r).1 = some call ∧
      call.execution = r.execution := by
  obtain ⟨ex, grp, hex, -⟩ := h.known c r hr
  obtain ⟨call₀, -, -, hserve⟩ := Runtime.exists_served hex
  have hcall := h.calls c
  rw [hr, Option.bind_some, hserve] at hcall
  exact ⟨_, hcall, hserve, Runtime.execution_of_serve hserve⟩

theorem mem_iff (h : Serializes s t) : c ∈ s.calls ↔ c ∈ t.pending := by
  rw [Std.TreeMap.mem_iff_isSome_getElem?, Std.TreeMap.mem_iff_isSome_getElem?]
  cases hr : t.pending[c]? with
  | none =>
    have hcall := h.calls c
    rw [hr] at hcall
    rw [hcall]
    exact Iff.rfl
  | some r =>
    obtain ⟨call, hcall, -⟩ := h.exists_call hr
    rw [hcall]
    exact Iff.rfl

/-- And the other way round. -/
theorem inFlight (h : Serializes s t) (hr : t.pending[c]? = some r) : s.InFlight r.execution := by
  obtain ⟨call, hcall, -, hexecution⟩ := h.exists_call hr
  exact ⟨c, call, hcall, hexecution⟩

theorem groupOf (h : Serializes s t) (ex : Execution) :
    s.runtime.groupOf ex = t.runtime.groupOf ex := by
  rw [h.tables]
  rfl

/-- An execution that no call is on is seen the same. -/
theorem sees (h : Serializes s t) (hnone : ¬s.InFlight e) : s.runtime.sees e = t.runtime.sees e := by
  have hsame := h.idle e fun c r hr he => hnone (he ▸ h.inFlight hr)
  unfold Runtime.sees
  rw [hsame]
  congr 1
  funext ex
  rw [h.groupOf]

/-- **A call that is left alone** is as it was: nothing it sees has changed. -/
theorem alone (h : Serializes s t) (hr : t.pending[c]? = some r) (ev : Event) (rt : Runtime)
    (htables : (s.step ev).runtime = rt.withExecutions (s.step ev).runtime.executions)
    (hsame : rt.executions[r.execution]? = t.runtime.executions[r.execution]?) :
    rt.sees r.execution = t.runtime.sees r.execution ∧ ∃ ex grp,
      rt.executions[r.execution]? = some ex ∧ rt.groupOf ex = some grp := by
  obtain ⟨ex, grp, hex, hgrp⟩ := h.known c r hr
  have hkept : rt.groupOf ex = some grp := by
    rw [← h.groupOf] at hgrp
    have hlater := (s.effect_step ev).groupOf (.refl ex) hgrp
    rw [htables] at hlater
    exact hlater
  refine ⟨?_, ex, grp, hsame.trans hex, hkept⟩
  unfold Runtime.sees
  rw [hsame, hex, Option.map_some, Option.map_some, hkept, hgrp]

/-- **A call that is one section.** -/
theorem step_call (h : Serializes s t) (hs : s.Sound) {op : Operation}
    (hid : s.runtime.nextId < 2 ^ 64) (halone : s.Alone (.call op)) :
    Serializes (s.step (.call op)) (t.step (.call op)) := by
  have hfree (e : ExecutionId) (a : Act) (hact : op.act = some (e, a)) : ¬s.InFlight e :=
    halone (e, a) hact
  obtain ⟨e₀, hon, hfollows⟩ := Runtime.follows_apply op fun e a hact =>
      h.idle e fun c r hr he => hfree e a hact (he ▸ h.inFlight hr)
  rw [← h.tables] at hfollows
  obtain ⟨-, htables⟩ := hfollows.tables
  -- no call in flight is on what the section is on
  have hne {c : ℕ} {r : Request} (hr : t.pending[c]? = some r) : r.execution ≠ e₀ := by
    rintro rfl
    rcases hon with ⟨a, hact⟩ | hfresh
    · exact hfree _ a hact (h.inFlight hr)
    · obtain ⟨call, hcall, -, hexecution⟩ := h.exists_call hr
      obtain ⟨ex, hex, -⟩ := hs.calls c call hcall
      have hnone := hs.runtime.fresh hid
      have hsame : s.runtime.freshId = t.runtime.freshId := by
        rw [h.tables]
        rfl
      rw [hexecution, hfresh, ← hsame, hnone] at hex
      cases hex
  have hkept {c : ℕ} {r : Request} (hr : t.pending[c]? = some r) :=
    h.alone hr (.call op) (op.apply t.runtime) htables ((hfollows.read r.execution).2 (hne hr)).2
  refine ⟨h.returned, htables, fun c => ?_, fun c r hr => (hkept hr).2, h.single, fun c r hr => ?_,
    fun e he => (hfollows.read e).1 (h.idle e he)⟩
  · show s.calls[c]? = (t.pending[c]?).bind fun r => ((op.apply t.runtime).serve r).1
    rw [h.calls]
    cases hr : t.pending[c]? with
    | none => rfl
    | some r => exact (Runtime.serve_congr (hkept hr).1).1.symm
  · exact (((hfollows.read r.execution).2 (hne hr)).1.trans (h.flying c r hr)).trans
      (Runtime.serve_congr (hkept hr).1).2.symm

/-- **A call begins.** -/
theorem step_begin (h : Serializes s t) (hs : s.Sound) {env : Ambient}
    {inputs : List (List UInt8)} (halone : s.Alone (.begin c env e inputs)) :
    Serializes (s.step (.begin c env e inputs)) (t.step (.begin c env e inputs)) := by
  show Serializes (s.begin c env e inputs) (t.begin c env e inputs)
  by_cases hmem : c ∈ t.pending
  · rw [System.begin, SerialSystem.begin, if_pos hmem, if_pos (h.mem_iff.2 hmem)]
    exact h
  have hmem' : c ∉ s.calls := fun hc => hmem (h.mem_iff.1 hc)
  have hnone : ¬s.InFlight e := halone (e, .begin inputs) (if_neg hmem')
  have hsees := h.sees hnone
  have hsame := Runtime.executions_of_sees hsees
  have hfree {c' : ℕ} {r : Request} (hr : t.pending[c']? = some r) : r.execution ≠ e :=
    fun he => hnone (he ▸ h.inFlight hr)
  obtain ⟨hcall, hwritten⟩ := Runtime.executeBegin_congr hsees env inputs
  obtain ⟨htables, hothers⟩ := s.runtime.executeBegin_rest env e inputs
  cases hex : t.runtime.executions[e]? with
  | none =>
    -- the execution is not there, and the call is over
    have hbegin : s.runtime.executeBegin env e inputs = (none, s.runtime) := by
      simp only [Runtime.executeBegin, hsame, hex]
    simp only [System.begin, SerialSystem.begin, if_neg hmem, if_neg hmem', hbegin, hex]
    exact ⟨congrArg _ h.returned, h.tables, h.calls, h.known, h.single, h.flying, h.idle⟩
  | some ex =>
    let r : Request := { execution := e, inputs, begun := env }
    obtain ⟨call₀, hbegun, -, hserve⟩ := Runtime.exists_served (r := r) hex
    have hbegin : s.runtime.executeBegin env e inputs =
        (some call₀, (s.runtime.executeBegin env e inputs).2) := by
      rw [← hbegun, ← hcall]
    obtain ⟨grp, hgrp⟩ := hs.runtime.grouped e ex (hsame.trans hex)
    rw [h.groupOf] at hgrp
    simp only [System.begin, SerialSystem.begin, if_neg hmem, if_neg hmem', hex]
    rw [hbegin]
    have hpending {c' : ℕ} {r' : Request} (hr : (t.pending.insert c r)[c']? = some r') :
        (c' = c ∧ r' = r) ∨ (c' ≠ c ∧ t.pending[c']? = some r') := OrdMap.getElem?_insert_eq_some hr
    refine ⟨h.returned, ?_, fun c' => ?_, fun c' r' hr => ?_, fun c₁ c₂ r₁ r₂ hr₁ hr₂ he => ?_,
      fun c' r' hr => ?_, fun e' he => ?_⟩
    · rw [htables, h.tables]
      rfl
    · by_cases hc : c = c'
      · subst hc
        rw [OrdMap.getElem?_insert_same, OrdMap.getElem?_insert_same, Option.bind_some, hserve]
        rfl
      · rw [OrdMap.getElem?_insert_of_ne _ hc, OrdMap.getElem?_insert_of_ne _ hc]
        exact h.calls c'
    · rcases hpending hr with ⟨-, rfl⟩ | ⟨-, hr⟩
      · exact ⟨ex, grp, hex, hgrp⟩
      · exact h.known c' r' hr
    · rcases hpending hr₁ with ⟨hc₁, rfl⟩ | ⟨-, hr₁'⟩
      · rcases hpending hr₂ with ⟨hc₂, -⟩ | ⟨-, hr₂'⟩
        · exact hc₁.trans hc₂.symm
        · exact absurd he.symm (hfree hr₂')
      · rcases hpending hr₂ with ⟨-, rfl⟩ | ⟨-, hr₂'⟩
        · exact absurd he (hfree hr₁')
        · exact h.single c₁ c₂ r₁ r₂ hr₁' hr₂' he
    · rcases hpending hr with ⟨-, rfl⟩ | ⟨-, hr⟩
      · rw [Runtime.serve_snd]
        exact hwritten
      · exact (hothers _ (hfree hr)).trans (h.flying c' r' hr)
    · have hne : e' ≠ e := fun heq => he c r (OrdMap.getElem?_insert_same _ c r) heq.symm
      refine (hothers e' hne).trans (h.idle e' fun c' r' hr heq => ?_)
      have hc : c ≠ c' := by
        rintro rfl
        exact hmem (Std.TreeMap.mem_iff_isSome_getElem?.2 (by rw [hr]; rfl))
      exact he c' r' ((OrdMap.getElem?_insert_of_ne _ hc _).trans hr) heq

/-- What the engine's answer makes of the call. -/
theorem engine_calls (h : Serializes s t) (hr : t.pending[c]? = some r) (env : Ambient) :
    (s.engine c env).calls[c]? =
        (t.runtime.serve { r with answered := some (r.answered.getD env) }).1 ∧
      (∀ c', c ≠ c' → (s.engine c env).calls[c']? = s.calls[c']?) ∧
      (s.engine c env).runtime = s.runtime ∧ (s.engine c env).returned = s.returned := by
  let r' : Request := { r with answered := some (r.answered.getD env) }
  obtain ⟨ex, grp, hex, -⟩ := h.known c r hr
  obtain ⟨call, hcall, hserve, hexecution⟩ := h.exists_call hr
  obtain ⟨call₀, hbegun, hexecution₀, hserve₀⟩ := Runtime.exists_served hex
  obtain ⟨call₁, hbegun₁, -, hserve₁⟩ := Runtime.exists_served (r := r') hex
  obtain rfl : call₀ = call₁ := Option.some.inj (hbegun.symm.trans hbegun₁)
  have hbegin : (t.runtime.serve r').2 = (t.runtime.serve r).2 := by
    rw [Runtime.serve_snd, Runtime.serve_snd]
  have hanswer : s.runtime.executeEngine env call = (t.runtime.serve r).2.executeEngine env call :=
    Runtime.executeEngine_congr (hexecution ▸ h.flying c r hr) env
  show (s.engine c env).calls[c]? = (t.runtime.serve r').1 ∧ _
  rw [hserve₁, hbegin]
  simp only [System.engine, hcall, Option.bind_some, hanswer]
  rw [hserve] at hserve₀
  obtain rfl := Option.some.inj hserve₀
  cases hanswered : r.answered with
  | none =>
    -- the first answer is this one
    simp only [r', hanswered, Option.getD_none, Option.bind_none, Option.bind_some] at hcall ⊢
    cases (t.runtime.serve r).2.executeEngine env call₀ with
    | none => exact ⟨hcall, fun _ _ => rfl, rfl, rfl⟩
    | some call' =>
      exact ⟨OrdMap.getElem?_insert_same _ c call', fun c' hc => OrdMap.getElem?_insert_of_ne _ hc _,
        rfl, rfl⟩
  | some env₀ =>
    -- the engine has been asked before
    simp only [r', hanswered, Option.getD_some, Option.bind_some] at hcall ⊢
    cases hfirst : (t.runtime.serve r).2.executeEngine env₀ call₀ with
    | none =>
      rw [hfirst] at hcall
      rw [Option.getD_none, Runtime.executeEngine_eq_none hfirst env]
      exact ⟨hcall, fun _ _ => rfl, rfl, rfl⟩
    | some call' =>
      rw [hfirst] at hcall
      rw [Option.getD_some, (Runtime.executeEngine_answered hfirst _ env).1]
      exact ⟨hcall, fun _ _ => rfl, rfl, rfl⟩

/-- **The engine answers.** -/
theorem step_engine (h : Serializes s t) (env : Ambient) :
    Serializes (s.step (.engine c env)) (t.step (.engine c env)) := by
  show Serializes (s.engine c env) (t.engine c env)
  cases hr : t.pending[c]? with
  | none =>
    have hcall := h.calls c
    rw [hr, Option.bind_none] at hcall
    simp only [System.engine, SerialSystem.engine, hcall, hr, Option.bind_none]
    exact h
  | some r =>
    let r' : Request := { r with answered := some (r.answered.getD env) }
    obtain ⟨ex, grp, hex, hgrp⟩ := h.known c r hr
    have hbegin : (t.runtime.serve r').2 = (t.runtime.serve r).2 := by
      rw [Runtime.serve_snd, Runtime.serve_snd]
    obtain ⟨hcall, hothers, hruntime, hreturned⟩ := h.engine_calls hr env
    have hpending {c' : ℕ} {r₁ : Request} (hr₁ : (t.pending.insert c r')[c']? = some r₁) :
        (c' = c ∧ r₁ = r') ∨ (c' ≠ c ∧ t.pending[c']? = some r₁) :=
      OrdMap.getElem?_insert_eq_some hr₁
    -- the request it was, on the same execution
    have hwas {c' : ℕ} {r₁ : Request} (hr₁ : (t.pending.insert c r')[c']? = some r₁) :
        ∃ r₀, t.pending[c']? = some r₀ ∧ r₀.execution = r₁.execution ∧
          (t.runtime.serve r₁).2 = (t.runtime.serve r₀).2 := by
      rcases hpending hr₁ with ⟨rfl, rfl⟩ | ⟨-, hr₁⟩
      · exact ⟨r, hr, rfl, hbegin⟩
      · exact ⟨r₁, hr₁, rfl, rfl⟩
    simp only [SerialSystem.engine, hr]
    refine ⟨hreturned.trans h.returned, ?_, fun c' => ?_, fun c' r₁ hr₁ => ?_,
      fun c₁ c₂ r₁ r₂ hr₁ hr₂ he => ?_, fun c' r₁ hr₁ => ?_, fun e he => ?_⟩
    · rw [hruntime]
      exact h.tables
    · by_cases hc : c = c'
      · subst hc
        rw [hcall, OrdMap.getElem?_insert_same, Option.bind_some]
      · rw [hothers c' hc, OrdMap.getElem?_insert_of_ne _ hc]
        exact h.calls c'
    · obtain ⟨r₀, hr₀, hexecution, -⟩ := hwas hr₁
      rw [← hexecution]
      exact h.known c' r₀ hr₀
    · obtain ⟨r₁', hr₁', hexecution₁, -⟩ := hwas hr₁
      obtain ⟨r₂', hr₂', hexecution₂, -⟩ := hwas hr₂
      exact h.single c₁ c₂ r₁' r₂' hr₁' hr₂' (by rw [hexecution₁, hexecution₂, he])
    · obtain ⟨r₀, hr₀, hexecution, hserve⟩ := hwas hr₁
      rw [hruntime, ← hexecution, hserve]
      exact h.flying c' r₀ hr₀
    · rw [hruntime]
      refine h.idle e fun c' r₀ hr₀ heq => ?_
      by_cases hc : c = c'
      · subst hc
        obtain rfl := Option.some.inj (hr₀.symm.trans hr)
        exact he c r' (OrdMap.getElem?_insert_same _ c r') heq
      · exact he c' r₀ ((OrdMap.getElem?_insert_of_ne _ hc _).trans hr₀) heq

/-- The commit of a call, in both systems: it does nothing in either, or it
ends the call with the same answer and one section follows the other. -/
theorem commit_cases (h : Serializes s t) (hr : t.pending[c]? = some r) (env : Ambient) :
    (s.commit c env = s ∧ t.commit c env = t) ∨
      ((s.commit c env).returned = (t.commit c env).returned ∧
        (s.commit c env).calls = s.calls.erase c ∧
        (t.commit c env).pending = t.pending.erase c ∧
        (t.runtime.serve r).2.Follows s.runtime.executions r.execution
          ((), (s.commit c env).runtime) ((), (t.commit c env).runtime)) := by
  obtain ⟨call, hcall, hserve, hexecution⟩ := h.exists_call hr
  have hX : s.runtime.executions[call.execution]? =
      (t.runtime.serve r).2.executions[call.execution]? := by
    rw [hexecution]
    exact h.flying c r hr
  have hruntime : s.runtime = (t.runtime.serve r).2.withExecutions s.runtime.executions := by
    rw [Runtime.serve_snd, (t.runtime.executeBegin_rest r.begun r.execution r.inputs).1]
    exact h.tables
  have hcollective : t.runtime.executeCollective r env =
      (t.runtime.serve r).2.executeCommit env call := by
    unfold Runtime.executeCollective
    rw [show t.runtime.serve r = (some call, (t.runtime.serve r).2) from Prod.ext hserve rfl]
  rcases Runtime.follows_executeCommit hX env with ⟨hnone', hnone⟩ | ⟨a', a, hsome', hsome, hfollows⟩
  · left
    rw [← hruntime] at hnone'
    simp only [System.commit, SerialSystem.commit, hcall, hr, hcollective, hnone', hnone]
    exact ⟨trivial, trivial⟩
  · right
    rw [← hruntime] at hsome'
    rw [hexecution] at hfollows
    obtain ⟨result, rt⟩ := a
    obtain ⟨result', rt'⟩ := a'
    obtain rfl : result' = result := hfollows.tables.1
    simp only [System.commit, SerialSystem.commit, hcall, hr, hcollective, hsome, hsome']
    refine ⟨?_, trivial, trivial, hfollows.map (f := id) (fun _ _ => rfl) fun _ => rfl⟩
    cases result' with
    | ok m =>
      show (call.execution, m) :: s.returned = (r.execution, m) :: t.returned
      rw [hexecution, h.returned]
    | error err => exact h.returned

/-- **A call commits**, and that is where it is made. -/
theorem step_commit (h : Serializes s t) (env : Ambient) :
    Serializes (s.step (.commit c env)) (t.step (.commit c env)) := by
  show Serializes (s.commit c env) (t.commit c env)
  cases hr : t.pending[c]? with
  | none =>
    have hcall := h.calls c
    rw [hr, Option.bind_none] at hcall
    simp only [System.commit, SerialSystem.commit, hcall, hr]
    exact h
  | some r =>
    rcases h.commit_cases hr env with ⟨hs', ht'⟩ | ⟨hreturned, hcalls, hpending, hfollows⟩
    · rw [hs', ht']
      exact h
    obtain ⟨-, htables⟩ := hfollows.tables
    have hothers := (t.runtime.executeBegin_rest r.begun r.execution r.inputs).2
    rw [← Runtime.serve_snd] at hothers
    -- another call in flight is on another execution, and was there before
    have hleft {c' : ℕ} {r₁ : Request} (hr₁ : (t.commit c env).pending[c']? = some r₁) :
        t.pending[c']? = some r₁ ∧ r₁.execution ≠ r.execution := by
      rw [hpending] at hr₁
      obtain ⟨hc, hr₁⟩ := OrdMap.getElem?_erase_eq_some hr₁
      exact ⟨hr₁, fun he => hc (h.single c' c r₁ r hr₁ hr he)⟩
    have hkept {c' : ℕ} {r₁ : Request} (hr₁ : (t.commit c env).pending[c']? = some r₁) :=
      h.alone (hleft hr₁).1 (.commit c env) (t.commit c env).runtime htables
        (((hfollows.read r₁.execution).2 (hleft hr₁).2).2.trans (hothers _ (hleft hr₁).2))
    refine ⟨hreturned, htables, fun c' => ?_, fun c' r₁ hr₁ => (hkept hr₁).2,
      fun c₁ c₂ r₁ r₂ hr₁ hr₂ => h.single c₁ c₂ r₁ r₂ (hleft hr₁).1 (hleft hr₂).1,
      fun c' r₁ hr₁ => ?_, fun e he => ?_⟩
    · rw [hcalls]
      by_cases hc : c = c'
      · subst hc
        rw [hpending, Std.TreeMap.getElem?_erase_self, Std.TreeMap.getElem?_erase_self,
          Option.bind_none]
      · have hsame : (t.commit c env).pending[c']? = t.pending[c']? := by
          rw [hpending, OrdMap.getElem?_erase_of_ne _ hc]
        rw [OrdMap.getElem?_erase_of_ne _ hc, h.calls, hsame]
        cases hr₁ : t.pending[c']? with
        | none => rfl
        | some r₁ => exact (Runtime.serve_congr (hkept (hsame.trans hr₁)).1).1.symm
    · obtain ⟨hwas, hne⟩ := hleft hr₁
      exact (((hfollows.read r₁.execution).2 hne).1.trans (h.flying c' r₁ hwas)).trans
        (Runtime.serve_congr (hkept hr₁).1).2.symm
    · refine (hfollows.read e).1 ?_
      by_cases heq : e = r.execution
      · subst heq
        exact h.flying c r hr
      · refine (h.idle e fun c' r₁ hr₁ he₁ => ?_).trans (hothers e heq).symm
        have hc : c ≠ c' := by
          rintro rfl
          obtain rfl := Option.some.inj (hr₁.symm.trans hr)
          exact heq he₁.symm
        refine he c' r₁ ?_ he₁
        rw [hpending]
        exact (OrdMap.getElem?_erase_of_ne _ hc).trans hr₁

end Serializes

namespace System

variable {s : System} {t : SerialSystem}

/-- **One step**, of both systems. -/
theorem serializes_step (ev : Event) (h : s.Sound ∧ Serializes s t) (halone : s.Alone ev)
    (hid : s.runtime.nextId < 2 ^ 64) (hid' : (s.step ev).runtime.nextId ≤ 2 ^ 64) :
    (s.step ev).Sound ∧ Serializes (s.step ev) (t.step ev) := by
  refine ⟨sound_step s ev h.1 hid', ?_⟩
  cases ev with
  | call op => exact h.2.step_call h.1 hid halone
  | begin c env e inputs => exact h.2.step_begin h.1 halone
  | engine c env => exact h.2.step_engine env
  | commit c env => exact h.2.step_commit env

/-- **Calls of `execute_collective` are made as if whole.** In a run in which
no section on an execution comes between the steps of a call on it, what is
returned to the callers is what calls made whole at their commits return.
So is the runtime, but for the executions calls in flight are on. -/
theorem serializes (evs : List Event) (hids : (Run.run step init evs).runtime.nextId < 2 ^ 64)
    (halone : Run.Along step Alone init evs) :
    let s := Run.run step init evs
    let t := Run.run SerialSystem.step SerialSystem.init evs
    s.returned = t.returned ∧ s.runtime = t.runtime.withExecutions s.runtime.executions ∧
      ∀ e, ¬s.InFlight e → s.runtime.executions[e]? = t.runtime.executions[e]? := by
  intro s t
  have hids' : Run.Along step (fun s ev => (s.step ev).runtime.nextId ≤ 2 ^ 64 - 1) init evs :=
    Run.along_of_le_run (fun s : System => s.runtime.nextId)
      (fun s ev => (s.effect_step ev).nextId_le) (Nat.le_sub_one_of_lt hids)
  have hstep (s : System) (t : SerialSystem) (ev : Event) (h : s.Sound ∧ Serializes s t)
      (hev : s.Alone ev ∧ (s.step ev).runtime.nextId ≤ 2 ^ 64 - 1) :
      (s.step ev).Sound ∧ Serializes (s.step ev) (t.step ev) := by
    have hgrows : s.runtime.nextId ≤ (s.step ev).runtime.nextId := (s.effect_step ev).nextId_le
    exact serializes_step ev h hev.1 (by omega) (by omega)
  obtain ⟨-, h⟩ : s.Sound ∧ Serializes s t :=
    Run.simulates hstep ⟨sound_init, Serializes.init⟩ (halone.and hids')
  exact ⟨h.returned, h.tables, fun e he =>
    h.idle e fun c r hr heq => he (heq ▸ h.inFlight hr)⟩

/-- Two broadcasts whose calls cross: the second to begin commits first. -/
def crossedBroadcasts : List Event :=
  match soloGroup.build.1 with
  | .error _ => []
  | .ok group =>
    let d := soloDescriptor .broadcast .none
    [.call (.registerGroup group), .call (.createCollective d), .call (.createCollective d)] ++
      [.call (.planCollective still ⟨1⟩ {}), .call (.reserveCollective ⟨1⟩),
        .call (.dispatchCollective ⟨1⟩), .begin 0 still ⟨1⟩ [[5]]] ++
      [.call (.planCollective still ⟨3⟩ {}), .call (.reserveCollective ⟨3⟩),
        .call (.dispatchCollective ⟨3⟩), .begin 1 still ⟨3⟩ [[6]]] ++
      [.engine 1 still, .engine 0 still, .commit 1 still, .commit 0 still]

theorem serializes_crossed : (Run.run step init crossedBroadcasts).returned =
    (Run.run SerialSystem.step SerialSystem.init crossedBroadcasts).returned :=
  (serializes crossedBroadcasts (by decide +kernel) (by decide +kernel)).1

end System

end CollectiveFabric
