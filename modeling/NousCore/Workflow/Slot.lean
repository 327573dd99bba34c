import NousCore.Workflow.RunState
import NousCore.Lib.Runs

/-!
# What a run state says about one node

A run state keeps five lists of node ids beside the node states. Every edit of the source touches one node, or one
node after the other, so a state is read node by node:

* `NodeCore` : the status, the attempts and the wait of a node;
* `slot_readySuccessor`, `slot_reactivateLoop`, `slot_reactivateJoin`, `slot_skipNode` : what each edit does to the
  slot of every node.

A node is re-activated, and a race is decided, through the parent that the node's last dispatch lineage names.

* `LineageOk.push`, `LineageOk.keep` : a new lineage gives its own node a parent, and no other.
-/

namespace NousCore.Workflow

@[ext] structure NodeCore where
  status : WorkflowNodeRunStatus
  attempts : List WorkflowNodeAttempt
  activeAttempt : Option Nat
  activeWaitState : Option WorkflowNodeWaitState
  selectedBranchKey : Option String

def WorkflowNodeRunState.core (nodeState : WorkflowNodeRunState) : NodeCore where
  status := nodeState.status
  attempts := nodeState.attempts
  activeAttempt := nodeState.activeAttempt
  activeWaitState := nodeState.activeWaitState
  selectedBranchKey := nodeState.selectedBranchKey

@[ext] structure Slot where
  core : Option NodeCore
  ready : Prop
  waiting : Prop
  blocked : Prop
  completed : Prop
  active : Prop

def WorkflowRunState.slot (s : WorkflowRunState) (n : WorkflowNodeDefinitionId) : Slot where
  core := (s.node? n).map (·.core)
  ready := n ∈ s.readyNodeIds
  waiting := n ∈ s.waitingNodeIds
  blocked := n ∈ s.blockedNodeIds
  completed := n ∈ s.completedNodeIds
  active := n ∈ s.activeNodeIds

/-! ## Edits of a core -/

namespace NodeCore

/-- Out of its attempt, with a new status. -/
def reset (core : NodeCore) (status : WorkflowNodeRunStatus) : NodeCore :=
  { core with status := status, activeAttempt := none, activeWaitState := none }

def resetBody (core : NodeCore) : NodeCore := if core.status = .completed then core.reset .pending else core

def withResult (core : NodeCore) (result : WorkflowNodeExecutionResult) : NodeCore :=
  { core with
    status := mapOutcomeToStatus result.outcome
    activeWaitState := result.waitState
    selectedBranchKey := result.selectedBranchKey }

end NodeCore

/-! ## Edits of a slot -/

namespace Slot

def status (sl : Slot) : Option WorkflowNodeRunStatus := sl.core.map (·.status)

def makeReady (sl : Slot) : Slot :=
  { sl with core := sl.core.map ({ · with status := .ready }), ready := True, active := True }

def resetBody (sl : Slot) : Slot := { sl with core := sl.core.map (·.resetBody), completed := False }

def reactivateLoop (sl : Slot) : Slot :=
  { sl with core := sl.core.map (·.reset .ready), ready := True, completed := False, active := True }

def reactivateJoin (sl : Slot) : Slot :=
  { sl with core := sl.core.map (·.reset .ready), ready := True, waiting := False }

def skip (sl : Slot) : Slot :=
  { core := sl.core.map (·.reset .skipped), ready := False, waiting := False, blocked := False,
    completed := sl.completed, active := False }

end Slot

namespace WorkflowRunState

variable {s s' : WorkflowRunState} {graph : DerivedWorkflowGraph} {n m j : WorkflowNodeDefinitionId}

theorem status_slot (s : WorkflowRunState) (n : WorkflowNodeDefinitionId) : (s.slot n).status = s.nodeStatus n := by
  simp only [slot, Slot.status, nodeStatus, Option.map_map]
  rfl

end WorkflowRunState

variable {r : Record WorkflowNodeDefinitionId WorkflowNodeRunState}
  {f : WorkflowNodeRunState → WorkflowNodeRunState}

section

variable {s s' : WorkflowRunState} {graph : DerivedWorkflowGraph} {n m j : WorkflowNodeDefinitionId}
  {transition : WorkflowTransitionInput} {timestamp : Timestamp}

theorem core_modify {g : NodeCore → NodeCore} (hf : ∀ x, (f x).core = g x.core)
    (m j : WorkflowNodeDefinitionId) :
    ((r.modify m f).get? j).map (·.core) = if j = m then ((r.get? j).map (·.core)).map g else (r.get? j).map (·.core) := by
  rw [Record.get?_modify]
  split_ifs
  · simp only [Option.map_map]
    congr 1
    funext x
    exact hf x
  · rfl

theorem slot_modifyNode {g : NodeCore → NodeCore}
    (hf : ∀ x, (f x).core = g x.core) (s : WorkflowRunState) (m j : WorkflowNodeDefinitionId) :
    (s.modifyNode m f).slot j = if j = m then { s.slot j with core := (s.slot j).core.map g } else s.slot j := by
  simp only [WorkflowRunState.slot, WorkflowRunState.node?, WorkflowRunState.modifyNode]
  rw [core_modify hf]
  split_ifs <;> rfl

theorem slot_readySuccessor (h : readySuccessor graph n transition timestamp s m = .ok s')
    (j : WorkflowNodeDefinitionId) : s'.slot j = if j = m then (s.slot j).makeReady else s.slot j := by
  unfold readySuccessor at h
  split at h
  · cases h
  · cases h
    simp only [WorkflowRunState.slot, WorkflowRunState.node?]
    rw [core_modify (g := fun core => { core with status := .ready }) fun _ => rfl]
    by_cases hj : j = m <;> simp [hj, Slot.makeReady]

theorem slot_resetLoopBody (timestamp : Timestamp) (s : WorkflowRunState) (m j : WorkflowNodeDefinitionId) :
    (resetLoopBody timestamp s m).slot j = if j = m then (s.slot j).resetBody else s.slot j := by
  simp only [WorkflowRunState.slot, WorkflowRunState.node?, resetLoopBody]
  rw [core_modify (g := NodeCore.resetBody)]
  · by_cases hj : j = m <;> simp [hj, Slot.resetBody]
  · intro x
    unfold NodeCore.resetBody
    split_ifs <;> first | rfl | contradiction

theorem slot_skipNode (s : WorkflowRunState) (m j : WorkflowNodeDefinitionId) :
    (skipNode n timestamp s m).slot j = if j = m then (s.slot j).skip else s.slot j := by
  simp only [WorkflowRunState.slot, WorkflowRunState.node?, skipNode]
  rw [core_modify (g := (·.reset .skipped)) fun _ => rfl]
  by_cases hj : j = m <;> simp [hj, Slot.skip]

theorem slot_reactivateJoin (h : reactivateJoin graph n timestamp s m = .ok s') (j : WorkflowNodeDefinitionId) :
    s'.slot j = if j = m then (s.slot j).reactivateJoin else s.slot j := by
  unfold reactivateJoin at h
  split at h
  · cases h
  · cases h
    simp only [WorkflowRunState.slot, WorkflowRunState.node?]
    rw [core_modify (g := (·.reset .ready)) fun _ => rfl]
    by_cases hj : j = m <;> simp [hj, Slot.reactivateJoin]

/-! ## Loops over edits -/

/-- Apply an edit when a condition holds. -/
def Slot.when (P : Prop) [Decidable P] (f : Slot → Slot) (sl : Slot) : Slot := if P then f sl else sl

theorem Slot.when_pos {P : Prop} [Decidable P] {f : Slot → Slot} {sl : Slot} (h : P) : sl.when P f = f sl := if_pos h

theorem Slot.when_neg {P : Prop} [Decidable P] {f : Slot → Slot} {sl : Slot} (h : ¬P) : sl.when P f = sl := if_neg h

theorem Slot.when_congr {P Q : Prop} [Decidable P] [Decidable Q] (h : P ↔ Q) (f : Slot → Slot) (sl : Slot) :
    sl.when P f = sl.when Q f := by
  by_cases hq : Q
  · rw [when_pos (h.mpr hq), when_pos hq]
  · rw [when_neg (h.not.mpr hq), when_neg hq]

/-- A fallible loop whose turns each edit the slot of their own node edits the slots of all its nodes. -/
theorem slot_foldlM {f : WorkflowRunState → WorkflowNodeDefinitionId → Except String WorkflowRunState}
    {g : Slot → Slot} (hg : ∀ sl, g (g sl) = g sl)
    (hf : ∀ {s s' m}, f s m = .ok s' → ∀ j, s'.slot j = if j = m then g (s.slot j) else s.slot j) :
    ∀ {l : List WorkflowNodeDefinitionId} {s s'}, l.foldlM f s = .ok s' →
      ∀ j, s'.slot j = (s.slot j).when (j ∈ l) g
  | [], s, s', h, j => by
    rw [List.foldlM_nil] at h
    cases h
    exact (Slot.when_neg List.not_mem_nil).symm
  | m :: l, s, s', h, j => by
    obtain ⟨u, hu, ht⟩ := foldlM_cons_eq_ok.mp h
    rw [slot_foldlM hg hf ht j, hf hu j]
    by_cases hj : j = m <;> by_cases hl : j ∈ l <;> simp [Slot.when, hj, hl, hg]

theorem slot_foldl {f : WorkflowRunState → WorkflowNodeDefinitionId → WorkflowRunState}
    {g : Slot → Slot} (hg : ∀ sl, g (g sl) = g sl)
    (hf : ∀ s m j, (f s m).slot j = if j = m then g (s.slot j) else s.slot j) :
    ∀ (l : List WorkflowNodeDefinitionId) (s : WorkflowRunState) (j : WorkflowNodeDefinitionId),
      (l.foldl f s).slot j = (s.slot j).when (j ∈ l) g
  | [], s, j => (Slot.when_neg List.not_mem_nil).symm
  | m :: l, s, j => by
    rw [List.foldl_cons, slot_foldl hg hf l, hf]
    by_cases hj : j = m <;> by_cases hl : j ∈ l <;> simp [Slot.when, hj, hl, hg]

theorem Slot.makeReady_makeReady (sl : Slot) : sl.makeReady.makeReady = sl.makeReady := by
  simp only [makeReady, Option.map_map]
  rfl

theorem Slot.reactivateJoin_reactivateJoin (sl : Slot) : sl.reactivateJoin.reactivateJoin = sl.reactivateJoin := by
  simp only [reactivateJoin, Option.map_map]
  rfl

theorem NodeCore.resetBody_resetBody (core : NodeCore) : core.resetBody.resetBody = core.resetBody := by
  unfold resetBody
  split_ifs with h h'
  · exact absurd h' (by simp [reset])
  · rfl
  · rfl

theorem Slot.resetBody_resetBody (sl : Slot) : sl.resetBody.resetBody = sl.resetBody := by
  simp only [resetBody, Option.map_map, Function.comp_def, NodeCore.resetBody_resetBody]

theorem slot_uncomplete (s : WorkflowRunState) (m j : WorkflowNodeDefinitionId) :
    (uncomplete s m).slot j = if j = m then { s.slot j with completed := False } else s.slot j := by
  by_cases hj : j = m <;> simp [uncomplete, WorkflowRunState.slot, WorkflowRunState.node?, hj]

theorem slot_readyLoopNode (s : WorkflowRunState) (m j : WorkflowNodeDefinitionId) :
    (readyLoopNode graph transition timestamp s m).slot j =
      if j = m then { (s.slot j).reactivateLoop with completed := (s.slot j).completed } else s.slot j := by
  simp only [WorkflowRunState.slot, WorkflowRunState.node?, readyLoopNode]
  rw [core_modify (g := (·.reset .ready)) fun _ => rfl]
  by_cases hj : j = m <;> simp [hj, Slot.reactivateLoop]

theorem slot_reactivateLoop (s : WorkflowRunState) (m j : WorkflowNodeDefinitionId) :
    (reactivateLoop graph transition timestamp s m).slot j =
      ((s.slot j).when (j ∈ loopBodyNodeIds graph m) Slot.resetBody).when (j = m) Slot.reactivateLoop := by
  rw [reactivateLoop, slot_readyLoopNode, slot_foldl Slot.resetBody_resetBody (slot_resetLoopBody timestamp), slot_uncomplete]
  rcases eq_or_ne j m with rfl | hj
  · by_cases hb : j ∈ loopBodyNodeIds graph j <;> simp [Slot.when, Slot.reactivateLoop, Slot.resetBody, hb]
  · by_cases hb : j ∈ loopBodyNodeIds graph m <;> simp [Slot.when, hj, hb]

end

/-! ## Dispatch lineages -/

namespace WorkflowRunState

def lastId (s : WorkflowRunState) (n : WorkflowNodeDefinitionId) : Option WorkflowDispatchLineageId :=
  (s.node? n).bind (·.lastDispatchLineageId)

/-- The parent named by the lineage of a node's last dispatch. -/
def parentOf (s : WorkflowRunState) (n : WorkflowNodeDefinitionId) : Option WorkflowNodeDefinitionId :=
  (s.lastLineage n).bind (·.parentNodeDefinitionId)

theorem lastLineage_eq (s : WorkflowRunState) (n : WorkflowNodeDefinitionId) :
    s.lastLineage n = (s.lastId n).bind fun id => s.dispatchLineage.find? fun lineage => lineage.id = id := by
  unfold lastLineage lastId
  cases s.node? n with
  | none => rfl
  | some nodeState =>
    cases hid : nodeState.lastDispatchLineageId with
    | none => simp [hid]
    | some id => simp [hid]

end WorkflowRunState

structure LineageOk (s : WorkflowRunState) : Prop where
  ids : ∀ lineage ∈ s.dispatchLineage, lineage.id < s.dispatchLineage.length
  last : ∀ n id, s.lastId n = some id → id < s.dispatchLineage.length

namespace LineageOk

variable {s s' : WorkflowRunState} {m : WorkflowNodeDefinitionId} {lineage : WorkflowDispatchLineage}
  {parent : Option WorkflowNodeDefinitionId}

theorem keep (h : LineageOk s) (hdl : s'.dispatchLineage = s.dispatchLineage)
    (hlast : ∀ j, s'.lastId j = s.lastId j) : LineageOk s' ∧ ∀ j, s'.parentOf j = s.parentOf j := by
  refine ⟨⟨fun l hl => ?_, fun j id hj => ?_⟩, fun j => ?_⟩
  · rw [hdl] at hl ⊢
    exact h.ids l hl
  · rw [hdl]
    exact h.last j id (hlast j ▸ hj)
  · rw [WorkflowRunState.parentOf, WorkflowRunState.parentOf, WorkflowRunState.lastLineage_eq,
      WorkflowRunState.lastLineage_eq, hlast, hdl]

theorem push (h : LineageOk s) (hdl : s'.dispatchLineage = s.dispatchLineage ++ [lineage])
    (hid : lineage.id = s.dispatchLineage.length) (hparent : lineage.parentNodeDefinitionId = parent)
    (hlast : ∀ j, s'.lastId j = if j = m then some lineage.id else s.lastId j) :
    LineageOk s' ∧ ∀ j, s'.parentOf j = if j = m then parent else s.parentOf j := by
  have hlen : s'.dispatchLineage.length = s.dispatchLineage.length + 1 := by rw [hdl]; simp
  refine ⟨⟨fun l hl => ?_, fun j id hj => ?_⟩, fun j => ?_⟩
  · rw [hdl, List.mem_append, List.mem_singleton] at hl
    rw [hlen]
    rcases hl with hl | rfl
    · exact Nat.lt_succ_of_lt (h.ids l hl)
    · exact hid ▸ Nat.lt_succ_self _
  · rw [hlast] at hj
    rw [hlen]
    split_ifs at hj
    · cases hj
      exact hid ▸ Nat.lt_succ_self _
    · exact Nat.lt_succ_of_lt (h.last j id hj)
  · rw [WorkflowRunState.parentOf, WorkflowRunState.parentOf, WorkflowRunState.lastLineage_eq,
      WorkflowRunState.lastLineage_eq, hlast, hdl]
    split_ifs with hj
    · -- the new id occurs in no older lineage
      have hnew : s.dispatchLineage.find? (fun l => l.id = lineage.id) = none := by
        rw [List.find?_eq_none]
        intro l hl
        simpa [hid] using (h.ids l hl).ne
      simp [List.find?_append, hnew, hparent]
    · cases hj' : s.lastId j with
      | none => rfl
      | some id =>
        have hne : lineage.id ≠ id := hid ▸ (h.last j id hj').ne'
        simp [List.find?_append, hne]

end LineageOk

/-! ## The edits -/

section

variable {s s' : WorkflowRunState} {graph : DerivedWorkflowGraph} {n m : WorkflowNodeDefinitionId}
  {transition : WorkflowTransitionInput} {timestamp : Timestamp}

theorem lastId_modify (hf : ∀ x, (f x).lastDispatchLineageId = x.lastDispatchLineageId)
    (m j : WorkflowNodeDefinitionId) :
    ((r.modify m f).get? j).bind (·.lastDispatchLineageId) = (r.get? j).bind (·.lastDispatchLineageId) := by
  rw [Record.get?_modify]
  split_ifs
  · cases r.get? j with
    | none => rfl
    | some x => exact hf x
  · rfl

theorem lastId_modify_some {id : WorkflowDispatchLineageId} (hm : r.get? m ≠ none)
    (hf : ∀ x, (f x).lastDispatchLineageId = some id) (j : WorkflowNodeDefinitionId) :
    ((r.modify m f).get? j).bind (·.lastDispatchLineageId) =
      if j = m then some id else (r.get? j).bind (·.lastDispatchLineageId) := by
  rw [Record.get?_modify]
  split_ifs with hj
  · subst hj
    obtain ⟨x, hx⟩ := Option.ne_none_iff_exists'.mp hm
    rw [hx]
    exact hf x
  · rfl

theorem readySuccessor_lineage (hok : LineageOk s) (h : readySuccessor graph n transition timestamp s m = .ok s') :
    LineageOk s' ∧ ∀ j, s'.parentOf j = if j = m then some n else s.parentOf j := by
  unfold readySuccessor at h
  split at h
  · cases h
  · next nodeState hm =>
    cases h
    refine hok.push rfl rfl rfl fun j => ?_
    apply lastId_modify_some (Option.ne_none_iff_exists'.mpr ⟨nodeState, hm⟩)
    intro x
    rfl

theorem resetLoopBody_lineage (timestamp : Timestamp) (m : WorkflowNodeDefinitionId) (hok : LineageOk s) :
    LineageOk (resetLoopBody timestamp s m) ∧ ∀ j, (resetLoopBody timestamp s m).parentOf j = s.parentOf j := by
  refine hok.keep rfl fun j => ?_
  apply lastId_modify
  intro x
  split_ifs <;> rfl

theorem skipNode_lineage (n m : WorkflowNodeDefinitionId) (timestamp : Timestamp) (hok : LineageOk s) :
    LineageOk (skipNode n timestamp s m) ∧ ∀ j, (skipNode n timestamp s m).parentOf j = s.parentOf j := by
  refine hok.keep rfl fun j => ?_
  apply lastId_modify
  intro x
  rfl

theorem readyLoopNode_lineage (graph : DerivedWorkflowGraph) (transition : WorkflowTransitionInput)
    (timestamp : Timestamp) (hok : LineageOk s) (hm : s.node? m ≠ none) :
    LineageOk (readyLoopNode graph transition timestamp s m) ∧
      ∀ j, (readyLoopNode graph transition timestamp s m).parentOf j = if j = m then none else s.parentOf j := by
  refine hok.push rfl rfl rfl fun j => ?_
  apply lastId_modify_some hm
  intro x
  rfl

theorem reactivateJoin_lineage (hok : LineageOk s) (h : reactivateJoin graph n timestamp s m = .ok s') :
    LineageOk s' ∧ ∀ j, s'.parentOf j = s.parentOf j := by
  unfold reactivateJoin at h
  split at h
  · cases h
  · cases h
    refine hok.keep rfl fun j => ?_
    apply lastId_modify
    intro x
    rfl

end

end NousCore.Workflow
