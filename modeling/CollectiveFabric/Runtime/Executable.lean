import CollectiveFabric.Engine.Rejection
import CollectiveFabric.Runtime.Sizes

/-!
# Which accepted descriptors can be executed

`create_collective` validates a descriptor without a look at the group's
size, and accepts any datatype that has one. A call on the dispatched
execution whose inputs pass is then served as it should be exactly if the
root is a rank and no bytes are reduced.
-/

namespace CollectiveFabric

open Common

namespace Runtime

variable {rt : Runtime} {e : ExecutionId} {ex : Execution} {grp : CollectiveGroup}
variable {d : CollectiveDescriptor} {env : Ambient} {inputs : List (List UInt8)} {n : UInt64}

/-! ## Begun calls -/

/-- What is known of a call on a dispatched execution that has begun. -/
theorem checked_of_begun (hex : rt.executions[e]? = some ex) (hgrp : rt.groupOf ex = some grp)
    {call : Call} (hcall : (rt.executeBegin env e inputs).1 = some call)
    (hbegun : call.stage = .begun) :
    checkInputs ex.descriptor (some grp) grp.rankCount inputs = .ok () ∧
      call.rankCount = grp.rankCount ∧ call.inputs = inputs := by
  have hgrp' : rt.findGroup ex.descriptor.groupId ex.descriptor.groupGeneration = some grp := hgrp
  simp only [executeBegin, hex, hgrp', Option.map_some, Option.getD_some] at hcall
  cases hcheck : checkInputs ex.descriptor (some grp) grp.rankCount inputs with
  | error err =>
    simp only [hcheck, Option.some.injEq] at hcall
    subst hcall
    cases hbegun
  | ok u =>
    refine ⟨rfl, ?_⟩
    simp only [hcheck] at hcall
    split at hcall <;> cases hcall
    · cases hbegun
    · exact ⟨rfl, rfl⟩

/-- Inputs that pass begin a call on a dispatched execution. -/
theorem begun_of_checked (hex : rt.executions[e]? = some ex) (hgrp : rt.groupOf ex = some grp)
    (hdispatched : ex.lifecycle.state = .dispatched)
    (hcheck : checkInputs ex.descriptor (some grp) grp.rankCount inputs = .ok ()) :
    (rt.executeBegin env e inputs).1 =
      some ⟨e, grp.rankCount, env.steadyUs, inputs, .begun⟩ := by
  have hgrp' : rt.findGroup ex.descriptor.groupId ex.descriptor.groupGeneration = some grp := hgrp
  cases ht : ex.lifecycle.transitionTo .running with
  | error err =>
    have hforbidden := CollectiveStateMachine.transitionTo_error ht
    rw [hdispatched] at hforbidden
    cases hforbidden
  | ok lc => simp only [executeBegin, hex, hgrp', Option.map_some, Option.getD_some, hcheck, ht]

/-! ## Serving a call -/

/-- The kinds with a root. -/
def Rooted (d : CollectiveDescriptor) : Prop :=
  d.kind = .of .broadcast ∨ d.kind = .of .reduce

/-- The kinds that reduce. -/
def Reducing (d : CollectiveDescriptor) : Prop :=
  d.kind = .of .reduce ∨ d.kind = .of .allReduce ∨ d.kind = .of .reduceScatter

/-- The engine serves the call: the root is a rank, every index is in
range (what is undefined is signed overflow), the datatype is not rejected
and only the ranks' inputs count. -/
structure Served (d : CollectiveDescriptor) (n : UInt64) (inputs : List (List UInt8)) : Prop where
  root_lt : Rooted d → rootIndex d < n
  in_range : (∀ kind, d.kind = .of kind → ReferenceEngine.NoSignedOverflow kind d.reduction
    d.datatype d.elementCount.toNat n.toNat inputs) → engineCall d n inputs ≠ .undefined
  accepted : ¬ReferenceEngine.Rejected (engineCall d n inputs)
  first : ∀ inputs', inputs'.take n.toNat = inputs.take n.toNat →
    engineCall d n inputs' = engineCall d n inputs

/-- Every call on the execution that begins, of at least an input for each
rank, is served. -/
def Executes (rt : Runtime) (e : ExecutionId) (ex : Execution) (grp : CollectiveGroup) : Prop :=
  ∀ env inputs call, grp.rankCount.toNat ≤ inputs.length →
    (rt.executeBegin env e inputs).1 = some call → call.stage = .begun →
    Served ex.descriptor call.rankCount call.inputs

/-- The root is a rank, and what is reduced is not bytes (or more of them
than there can be). -/
structure Fitting (d : CollectiveDescriptor) (n : UInt64) : Prop where
  root_lt : Rooted d → rootIndex d < n
  datatype : Reducing d → d.datatype = .of .byte → 2 ^ 64 ≤ d.elementCount.toNat * n.toNat

/-- **A fitting descriptor is served.** -/
theorem served_of_fitting (hfitting : Fitting d n) (hn : 1 ≤ n.toNat)
    (hsize : datatypeSizeBytes d.datatype ≠ 0) (hgather : d.kind ≠ .of .allGather)
    (hcount : n.toNat ≤ inputs.length) : Served d n inputs := by
  have hroot (hrooted : Rooted d) : (rootIndex d).toNat < n.toNat :=
    UInt64.lt_iff_toNat_lt.1 (hfitting.root_lt hrooted)
  refine ⟨hfitting.root_lt, fun hno => ?_, fun hrejected => ?_, fun inputs' htake => ?_⟩
  · refine (ReferenceEngine.execute_defined_iff hn fun hkind => hroot (.inr hkind)).2 ?_
    refine fun _ _ => ⟨fun h => absurd h hgather, fun _ hmissing => ?_, hno⟩
    exact absurd hcount (not_le.2 hmissing)
  · rcases ReferenceEngine.cases_of_rejected hn hrejected with hzero | ⟨hbyte, hfits, hkind⟩
    · exact hsize hzero
    · rw [hbyte] at hfits
      have hover := hfitting.datatype hkind hbyte
      simp only [datatypeSizeBytes, Scoped.named_of, Nat.mul_one] at hfits
      omega
  · have hbroadcast (hkind : d.kind = .of .broadcast) := hroot (.inl hkind)
    change ReferenceEngine.execute _ _ _ _ (rootIndex d) n inputs' =
      ReferenceEngine.execute _ _ _ _ (rootIndex d) n inputs
    rw [← ReferenceEngine.execute_take _ _ _ _ _ _ inputs' hn hbroadcast, htake,
      ReferenceEngine.execute_take _ _ _ _ _ _ inputs hn hbroadcast]

/-! ## What has to fit -/

/-- Inputs of the size the runtime asks for are served. -/
theorem Executes.served (h : rt.Executes e ex grp) (hex : rt.executions[e]? = some ex)
    (hgrp : rt.groupOf ex = some grp) (hdispatched : ex.lifecycle.state = .dispatched)
    (hn : 1 ≤ grp.rankCount.toNat) {size : UInt64}
    (hsize : perRankBytes ex.descriptor grp.rankCount = .ok size) :
    Served ex.descriptor grp.rankCount
      (List.replicate grp.rankCount.toNat (List.replicate size.toNat (0 : UInt8))) := by
  have hcheck := (checkInputs_iff hn List.length_replicate length_of_mem_buffers).2
    ⟨size, hsize, rfl⟩
  exact h System.still _ _ List.length_replicate.ge
    (begun_of_checked hex hgrp hdispatched hcheck) rfl

/-- What the runtime asks for of a reduction of bytes. -/
theorem perRankBytes_of_byte {kind : CollectiveKind} (hkind : d.kind = .of kind)
    (hreduces : kind.Reduces) (hbyte : d.datatype = .of .byte) (hn : 1 ≤ n.toNat)
    (hfits : d.elementCount.toNat * n.toNat < 2 ^ 64) :
    ∃ size, perRankBytes d n = .ok size ∧
      size.toNat = kind.contribution d.elementCount.toNat n.toNat := by
  obtain ⟨per, total, hper, htotal, hvalue, htotalvalue⟩ :=
    @ReferenceEngine.sizes_of_fits d.elementCount n (.of .byte) hn
      (by simpa only [datatypeSizeBytes, Scoped.named_of, Nat.mul_one] using hfits)
  simp only [datatypeSizeBytes, Scoped.named_of, Nat.mul_one] at hvalue htotalvalue
  have hbytes : d.elementByteCount = .ok per := by
    rw [CollectiveDescriptor.elementByteCount, hbyte, hper]
  rw [perRankBytes_eq hbytes, hkind, htotal]
  cases kind with
  | barrier | broadcast | allGather => exact absurd hreduces id
  | reduce | allReduce => exact ⟨per, rfl, hvalue⟩
  | reduceScatter => exact ⟨total, rfl, by rw [htotalvalue, Nat.mul_comm]; rfl⟩

/-- **What is served fits.** -/
theorem fitting_of_executes (h : rt.Executes e ex grp) (hex : rt.executions[e]? = some ex)
    (hgrp : rt.groupOf ex = some grp) (hdispatched : ex.lifecycle.state = .dispatched)
    (hn : 1 ≤ grp.rankCount.toNat)
    (haccepted : ∃ (rt' : Runtime) (e' : ExecutionId),
      (rt'.createCollective ex.descriptor).1 = .ok e') :
    Fitting ex.descriptor grp.rankCount := by
  obtain ⟨rt', e', hcreated⟩ := haccepted
  have hroot (hrooted : Rooted ex.descriptor) : rootIndex ex.descriptor < grp.rankCount := by
    obtain ⟨per, hper, -⟩ := elementByteCount_of_created hcreated
      (hrooted.elim .inl fun hkind => .inr (.inl hkind))
    have hsize : perRankBytes ex.descriptor grp.rankCount = .ok per := by
      rw [perRankBytes_eq hper]
      rcases hrooted with hkind | hkind <;> rw [hkind] <;> rfl
    exact (h.served hex hgrp hdispatched hn hsize).root_lt hrooted
  refine ⟨hroot, fun hreducing hbyte => ?_⟩
  by_contra hlt
  obtain ⟨kind, hkind, hreduces⟩ : ∃ kind : CollectiveKind, ex.descriptor.kind = .of kind ∧
      kind.Reduces := by
    rcases hreducing with hkind | hkind | hkind <;> exact ⟨_, hkind, trivial⟩
  obtain ⟨size, hsize, hvalue⟩ := perRankBytes_of_byte hkind hreduces hbyte hn (not_le.1 hlt)
  refine (h.served hex hgrp hdispatched hn hsize).accepted ?_
  change ReferenceEngine.Rejected (ReferenceEngine.execute _ _ _ _ (rootIndex _) _ _)
  rw [hkind, hbyte]
  refine ReferenceEngine.rejected_of_byte hreduces hn (fun hreduce => ?_) (not_le.1 hlt) ?_
  · exact UInt64.lt_iff_toNat_lt.1 (hroot (.inr (by rw [hkind, hreduce])))
  · refine ⟨List.length_replicate.ge, fun input hinput => ?_⟩
    rw [length_of_mem_buffers input (List.mem_of_mem_take hinput), hvalue, Nat.mul_one]

/-! ## Main result -/

/-- A datatype of an accepted descriptor has a size. -/
theorem datatypeSize_of_created (h : (rt.createCollective d).1 = .ok e) :
    datatypeSizeBytes d.datatype ≠ 0 := by
  have hvalid := validate_of_created h
  unfold CollectiveDescriptor.validate at hvalid
  split at hvalid
  · cases hvalid
  intro hzero
  simp only [hzero, if_true] at hvalid
  split_ifs at hvalid

/-- **Accepted descriptors are executable** exactly if they fit: the root
is a rank of the group and no bytes are reduced. -/
theorem executes_iff (rt : Runtime) (e : ExecutionId) (ex : Execution) (grp : CollectiveGroup)
    (hex : rt.executions[e]? = some ex) (hdispatched : ex.lifecycle.state = .dispatched)
    (hgrp : rt.groupOf ex = some grp) (hn : 1 ≤ grp.rankCount.toNat)
    (haccepted : ∃ (rt' : Runtime) (e' : ExecutionId),
      (rt'.createCollective ex.descriptor).1 = .ok e')
    (hkind : ex.descriptor.kind = .of .broadcast ∨ ex.descriptor.kind = .of .reduce ∨
      ex.descriptor.kind = .of .allReduce ∨ ex.descriptor.kind = .of .reduceScatter) :
    rt.Executes e ex grp ↔ Fitting ex.descriptor grp.rankCount := by
  constructor
  · intro h
    exact fitting_of_executes h hex hgrp hdispatched hn haccepted
  · intro hfitting env inputs call hcount hcall hbegun
    obtain ⟨-, hrank, rfl⟩ := checked_of_begun hex hgrp hcall hbegun
    obtain ⟨rt', e', hcreated⟩ := haccepted
    have hgather : ex.descriptor.kind ≠ .of .allGather := by
      rcases hkind with h | h | h | h <;> rw [h] <;> decide
    rw [hrank]
    exact served_of_fitting hfitting hn (datatypeSize_of_created hcreated) hgather hcount

end Runtime

namespace System

/-- An accepted descriptor with `Q`, dispatched on a group of one rank. -/
def Dispatched (Q : CollectiveDescriptor → Bool) (rt : Runtime) : Bool :=
  rt.executions[(⟨1⟩ : ExecutionId)]?.any fun ex =>
    ex.lifecycle.state = .dispatched ∧ (rt.groupOf ex).any (·.rankCount = 1) ∧
      (rt.createCollective ex.descriptor).1.toOption.isSome ∧ Q ex.descriptor

theorem exists_of_dispatched {Q : CollectiveDescriptor → Bool} {rt : Runtime}
    (h : Dispatched Q rt = true) :
    ∃ ex grp, rt.executions[(⟨1⟩ : ExecutionId)]? = some ex ∧
      ex.lifecycle.state = .dispatched ∧ rt.groupOf ex = some grp ∧ grp.rankCount = 1 ∧
        (∃ (rt' : Runtime) (e' : ExecutionId), (rt'.createCollective ex.descriptor).1 = .ok e') ∧
          Q ex.descriptor = true := by
  obtain ⟨ex, hex, hall⟩ := (Option.any_eq_true _ _).1 h
  obtain ⟨hdispatched, hgroup, hcreated, hq⟩ := of_decide_eq_true hall
  obtain ⟨grp, hgrp, hrank⟩ := (Option.any_eq_true _ _).1 hgroup
  refine ⟨ex, grp, hex, hdispatched, hgrp, of_decide_eq_true hrank, ⟨rt, ?_⟩, hq⟩
  cases hresult : (rt.createCollective ex.descriptor).1 with
  | error err =>
    rw [hresult] at hcreated
    cases hcreated
  | ok e' => exact ⟨e', rfl⟩

/-- The calls that bring a reduce to rank 1 of a group of one rank to
`DISPATCHED`. -/
def strayReduce : List Event :=
  dispatching { soloDescriptor .reduce .sum with root := ⟨1⟩, datatype := .of .int32 }

/-- The calls that bring a sum of bytes there. -/
def byteSum : List Event := dispatching (soloDescriptor .allReduce .sum)

/-- A run leaves an execution dispatched on a group of one rank that is not
executed as it should be. -/
def Unexecuted (evs : List Event) : Prop :=
  ∃ ex grp, (Run.run step init evs).runtime.executions[(⟨1⟩ : ExecutionId)]? = some ex ∧
    ex.lifecycle.state = .dispatched ∧
    (Run.run step init evs).runtime.groupOf ex = some grp ∧ grp.rankCount = 1 ∧
    ¬(Run.run step init evs).runtime.Executes ⟨1⟩ ex grp

theorem unexecuted_strayReduce : Unexecuted strayReduce := by
  obtain ⟨ex, grp, hex, hdispatched, hgrp, hrank, haccepted, hq⟩ := @exists_of_dispatched
    (fun d => d.kind = .of .reduce ∧ Runtime.rootIndex d = 1) _
    (by decide +kernel : Dispatched _ (Run.run step init strayReduce).runtime = true)
  obtain ⟨hkind, hroot⟩ := of_decide_eq_true hq
  refine ⟨ex, grp, hex, hdispatched, hgrp, hrank, fun h => ?_⟩
  have hn : 1 ≤ grp.rankCount.toNat := by rw [hrank]; decide
  have hfitting := Runtime.fitting_of_executes h hex hgrp hdispatched hn haccepted
  have hlt := hfitting.root_lt (.inr hkind)
  rw [hroot, hrank] at hlt
  exact absurd hlt (by decide)

theorem unexecuted_byteSum : Unexecuted byteSum := by
  obtain ⟨ex, grp, hex, hdispatched, hgrp, hrank, haccepted, hq⟩ := @exists_of_dispatched
    (fun d => d.kind = .of .allReduce ∧ d.datatype = .of .byte ∧ d.elementCount = 1) _
    (by decide +kernel : Dispatched _ (Run.run step init byteSum).runtime = true)
  obtain ⟨hkind, hbyte, hcount⟩ := of_decide_eq_true hq
  refine ⟨ex, grp, hex, hdispatched, hgrp, hrank, fun h => ?_⟩
  have hn : 1 ≤ grp.rankCount.toNat := by rw [hrank]; decide
  have hfitting := Runtime.fitting_of_executes h hex hgrp hdispatched hn haccepted
  have hlarge := hfitting.datatype (.inr (.inl hkind)) hbyte
  rw [hcount, hrank] at hlarge
  exact absurd hlarge (by decide)

/-- **A reduce to a root that is no rank, and a sum of bytes**, are accepted
and not executed as they should be. -/
theorem unexecuted : Unexecuted strayReduce ∧ Unexecuted byteSum :=
  ⟨unexecuted_strayReduce, unexecuted_byteSum⟩

/-- A broadcast from rank 0 is. -/
theorem executes_broadcast :
    ∃ ex grp, (Run.run step init (dispatching (soloDescriptor .broadcast
        .none))).runtime.executions[(⟨1⟩ : ExecutionId)]? = some ex ∧
      (Run.run step init (dispatching (soloDescriptor .broadcast .none))).runtime.Executes
        ⟨1⟩ ex grp := by
  obtain ⟨ex, grp, hex, hdispatched, hgrp, hrank, haccepted, hq⟩ := @exists_of_dispatched
    (fun d => d.kind = .of .broadcast ∧ Runtime.rootIndex d = 0) _
    (by decide +kernel : Dispatched _ (Run.run step init (dispatching (soloDescriptor .broadcast
      .none))).runtime = true)
  obtain ⟨hkind, hroot⟩ := of_decide_eq_true hq
  refine ⟨ex, grp, hex, (Runtime.executes_iff _ ⟨1⟩ ex grp hex hdispatched hgrp
    (by rw [hrank]; decide) haccepted (.inl hkind)).2 ⟨fun _ => ?_, fun hreducing => ?_⟩⟩
  · rw [hroot, hrank]
    decide
  · rcases hreducing with h | h | h <;> rw [hkind] at h <;> exact absurd h (by decide)

end System

end CollectiveFabric
