import CollectiveFabric.Group.Building
import CollectiveFabric.Multiprocess.Coordination

/-!
# What `form_group` registers

The group of two workers has their two boots and is registered under its
generation, if it is registered at all.
-/

namespace CollectiveFabric

open Common

variable {rt rt' : Runtime} {env : Ambient} {w₀ w₁ : WorkerState} {gen : UInt64}
variable {topoGen : TopologyGeneration} {g : CollectiveGroup}

/-- The boots of the participants of a group. -/
def CollectiveGroup.boots (g : CollectiveGroup) : List WorkerBootId :=
  g.participants.toList.map (·.boot)

/-- **What is registered** is found again. -/
theorem registerGroup_ok {g' : CollectiveGroup} (h : rt.registerGroup g = (.ok g', rt')) :
    g' = g ∧ rt'.findGroup g.id g.generation = some g := by
  unfold Runtime.registerGroup at h
  split_ifs at h
  · cases h
  · cases h
    exact ⟨rfl, OrdMap.getElem?_insert_same _ _ _⟩

/-- What is not registered leaves the runtime as it is. -/
theorem registerGroup_error {err : Error} (h : rt.registerGroup g = (.error err, rt')) :
    rt' = rt := by
  unfold Runtime.registerGroup at h
  split_ifs at h
  all_goals cases h
  rfl

/-- A group that is registered leaves the others as they are. -/
theorem findGroup_registerGroup {id : CollectiveGroupId} {gen : GroupGeneration}
    (hne : g.generation ≠ gen) : (rt.registerGroup g).2.findGroup id gen = rt.findGroup id gen := by
  unfold Runtime.registerGroup
  split_ifs
  · rfl
  · refine OrdMap.getElem?_insert_of_ne _ (fun hkey => hne ?_) _
    exact congrArg Prod.snd hkey

/-- The key of the group formed. -/
theorem key_formGroup
    (h : (formBuilder env (if w₁.boot < w₀.boot then [w₁, w₀] else [w₀, w₁]) gen
      topoGen).build.1 = .ok g) : g.id = groupId ∧ g.generation = ⟨gen⟩ := by
  obtain ⟨hvalid, rfl⟩ := GroupBuilder.build_ok h
  change (formBuilder env _ gen topoGen).id = groupId ∧
    (formBuilder env _ gen topoGen).generation = ⟨gen⟩
  split_ifs
  all_goals exact ⟨rfl, rfl⟩

/-- **The group formed**: its participants are the two workers, and it is
registered under its generation. -/
theorem formGroup_ok (h : formGroup rt env w₀ w₁ gen topoGen = (.ok g, rt')) :
    g.boots.Perm [⟨w₀.boot⟩, ⟨w₁.boot⟩] ∧ rt'.findGroup groupId ⟨gen⟩ = some g := by
  simp only [formGroup] at h
  split at h
  · cases h
  · next g' hbuild =>
    obtain ⟨rfl, hfind⟩ := registerGroup_ok h
    obtain ⟨hid, hgeneration⟩ := key_formGroup hbuild
    rw [hid, hgeneration] at hfind
    -- building reorders the participants and ranks them anew: their boots stay
    refine ⟨(GroupBuilder.map_build (fun _ _ => rfl) hbuild).trans ?_, hfind⟩
    split_ifs
    · exact .swap _ _ _
    · exact .refl _

/-- A group that is not formed leaves the runtime as it is. -/
theorem formGroup_error {err : Error}
    (h : formGroup rt env w₀ w₁ gen topoGen = (.error err, rt')) : rt' = rt := by
  simp only [formGroup] at h
  split at h
  · cases h
    rfl
  · exact registerGroup_error h

/-- The group formed leaves the other generations as they are. -/
theorem findGroup_formGroup {gen' : UInt64} {res : Except Error CollectiveGroup}
    (h : formGroup rt env w₀ w₁ gen topoGen = (res, rt')) (hne : gen ≠ gen') :
    rt'.findGroup groupId ⟨gen'⟩ = rt.findGroup groupId ⟨gen'⟩ := by
  simp only [formGroup] at h
  split at h
  · cases h
    rfl
  · next g' hbuild =>
    have hreg : (rt.registerGroup g').2 = rt' := by rw [h]
    rw [← hreg]
    refine findGroup_registerGroup fun hgen => hne ?_
    rw [(key_formGroup hbuild).2] at hgen
    exact congrArg Generation.value hgen

/-- A group the builder returns is registered, unless its generation is
taken. -/
theorem formGroup_of_build {ordered : List WorkerState}
    (hordered : (if w₁.boot < w₀.boot then [w₁, w₀] else [w₀, w₁]) = ordered)
    (hbuild : (formBuilder env ordered gen topoGen).build.1 = .ok g)
    (hnew : ¬ ((g.id, g.generation) : GroupKey) ∈ rt.groups) :
    formGroup rt env w₀ w₁ gen topoGen =
      (.ok g, { rt with groups := rt.groups.insert (g.id, g.generation) g }) := by
  simp only [formGroup, hordered, hbuild]
  exact if_neg hnew

namespace Coordinator

/-- The turn that takes a frame from a channel. -/
theorem recv_of_frame {s : Coordinator} {env : Surroundings} {ch : ℕ} {c c' : FrameChannel}
    {f : Frame} (hc : s.connections[ch]? = some c) (hrecv : c.recv env.received = (.frame f, c'))
    (onFrame : Frame → Coordinator → Coordinator) (onLoss : String → Coordinator → Coordinator) :
    s.recv env ch onFrame onLoss = onFrame f (s.setChannel ch c') := by
  simp only [recv, hc, hrecv]

theorem groupReady_of_formGroup {s : Coordinator} {env : Surroundings}
    (hw : s.workers = [w₀, w₁])
    (hform : formGroup s.runtime (env.clocks 0) w₀ w₁ 1 topoGeneration = (.ok g, rt)) :
    s.groupReady env =
      (({ s with runtime := rt }.announce g 1 .groupAccept).say
        (.text "PHASE_GROUP_READY gen=1 ranks=2")).awaitBarrier 0 := by
  simp only [groupReady, hw, List.getElem?_cons_zero, List.getElem?_cons_succ, hform,
    (formGroup_ok hform).2]

theorem regroup_of_formGroup {s : Coordinator} {env : Surroundings} {ws : List WorkerState}
    (hw : s.workers = w₀ :: w₁ :: ws)
    (hform : formGroup s.runtime (env.clocks 0) w₀ w₁ 2 topoGeneration = (.ok g, rt)) :
    s.regroup env =
      ({ s with runtime := rt }.regrouped g ⟨w₀.boot⟩).save env (s.statefile ++ ".before2")
        fun s => s.beginAllreduce .second := by
  simp only [regroup, hw, List.getElem?_cons_zero, List.getElem?_cons_succ, hform,
    (formGroup_ok hform).2]

end Coordinator

end CollectiveFabric
