import NousCore.Workflow.Completion
import NousCore.Workflow.Cores

/-!
# The two completions

A ready node is completed by recording an execution of it, or directly. The code of the two is duplicated, and only the
first cancels the losers of a race.

* `ListsInOrder` : every list of a run state is in topological order, so that its members determine it;
* `SameOutcome` : the same run status, the same lists and the same status of every node.
-/

namespace NousCore.Workflow

/-! ## Lists in order -/

def InOrder (graph : DerivedWorkflowGraph) (ids : List WorkflowNodeDefinitionId) : Prop :=
  ids.Pairwise fun a b => topologyOrder graph a b ∧ a ≠ b

section

variable {graph : DerivedWorkflowGraph} {ids ids' : List WorkflowNodeDefinitionId}

variable {b : WorkflowNodeDefinitionId}

theorem topologyOrder_antisymm {a : WorkflowNodeDefinitionId} (h : topologyOrder graph a b)
    (h' : topologyOrder graph b a) : a = b := by
  rcases h with h | ⟨heq, h⟩
  · rcases h' with h' | ⟨heq, -⟩ <;> omega
  · exact le_antisymm h (h'.resolve_left (by omega)).2

theorem topologyOrder_total (a b : WorkflowNodeDefinitionId) : topologyOrder graph a b ∨ topologyOrder graph b a := by
  rcases Nat.lt_trichotomy (graph.index a) (graph.index b) with h | h | h
  · exact .inl (.inl h)
  · exact (le_total a b).imp (fun hab => .inr ⟨h, hab⟩) fun hba => .inr ⟨h.symm, hba⟩
  · exact .inr (.inl h)

theorem topologyOrder_trans {a c : WorkflowNodeDefinitionId} (h : topologyOrder graph a b)
    (h' : topologyOrder graph b c) : topologyOrder graph a c := by
  rcases h with h | ⟨heq, h⟩ <;> rcases h' with h' | ⟨heq', h'⟩
  · exact .inl (h.trans h')
  · exact .inl (heq' ▸ h)
  · exact .inl (heq ▸ h')
  · exact .inr ⟨heq.trans heq', le_trans h h'⟩

theorem InOrder.eq (h : InOrder graph ids) (h' : InOrder graph ids') (hmem : ∀ j, j ∈ ids ↔ j ∈ ids') : ids = ids' := by
  have : Std.Irrefl fun a b => topologyOrder graph a b ∧ a ≠ b := ⟨fun a ha => ha.2 rfl⟩
  have : Std.Antisymm fun a b => topologyOrder graph a b ∧ a ≠ b :=
    ⟨fun a b ha hb => topologyOrder_antisymm ha.1 hb.1⟩
  exact List.Pairwise.eq_of_mem_iff h h' hmem

theorem InOrder.remove (h : InOrder graph ids) (n : WorkflowNodeDefinitionId) : InOrder graph (removeNodeId ids n) :=
  h.filter _

theorem inOrder_sortNodeIdsByTopology (graph : DerivedWorkflowGraph) (ids : List WorkflowNodeDefinitionId) :
    InOrder graph (sortNodeIdsByTopology graph ids) := by
  have : Std.Total (topologyOrder graph) := ⟨topologyOrder_total⟩
  have : IsTrans WorkflowNodeDefinitionId (topologyOrder graph) := ⟨fun _ _ _ => topologyOrder_trans⟩
  exact (List.pairwise_insertionSort (topologyOrder graph) _).and (nodup_sortNodeIdsByTopology graph ids)

theorem inOrder_addNodeId (graph : DerivedWorkflowGraph) (ids : List WorkflowNodeDefinitionId)
    (n : WorkflowNodeDefinitionId) : InOrder graph (addNodeId graph ids n) :=
  inOrder_sortNodeIdsByTopology graph _

theorem InOrder.includeNodeId (h : InOrder graph ids) (n : WorkflowNodeDefinitionId) :
    InOrder graph (includeNodeId graph ids n) := by
  unfold NousCore.Workflow.includeNodeId
  split_ifs
  · exact h
  · exact inOrder_addNodeId graph ids n

end

structure ListsInOrder (graph : DerivedWorkflowGraph) (s : WorkflowRunState) : Prop where
  ready : InOrder graph s.readyNodeIds
  waiting : InOrder graph s.waitingNodeIds
  blocked : InOrder graph s.blockedNodeIds
  completed : InOrder graph s.completedNodeIds
  active : InOrder graph s.activeNodeIds

namespace ListsInOrder

variable {graph : DerivedWorkflowGraph} {s s' : WorkflowRunState} {n : WorkflowNodeDefinitionId}
  {transition : WorkflowTransitionInput} {timestamp : Timestamp}

section

variable (h : ListsInOrder graph s)

include h

section

variable (n : WorkflowNodeDefinitionId)

theorem modifyNode
    (f : WorkflowNodeRunState → WorkflowNodeRunState) : ListsInOrder graph (s.modifyNode n f) :=
  ⟨h.ready, h.waiting, h.blocked, h.completed, h.active⟩

theorem leaveLists :
    ListsInOrder graph (Workflow.leaveLists s n) :=
  ⟨h.ready.remove n, h.waiting.remove n, h.blocked.remove n, h.completed, h.active⟩

theorem listCompleted :
    ListsInOrder graph (Workflow.listCompleted graph s n) :=
  ⟨h.ready, h.waiting, h.blocked, inOrder_addNodeId graph _ n, h.active⟩

theorem settled (transition : WorkflowTransitionInput) (timestamp : Timestamp) :
    ListsInOrder graph (s.settled transition timestamp) :=
  ⟨h.ready, h.waiting, h.blocked, h.completed, h.active⟩

theorem trackJoin :
    ListsInOrder graph (Workflow.trackJoin graph s n) := by
  unfold Workflow.trackJoin
  split
  · exact h
  · split_ifs
    · exact h.modifyNode n _
    · exact h

end

end

theorem skipDescendants (n : WorkflowNodeDefinitionId) (timestamp : Timestamp) (turns : Nat) :
    ∀ (todo done : List WorkflowNodeDefinitionId) {s : WorkflowRunState}, ListsInOrder graph s →
      ListsInOrder graph (Workflow.skipDescendants graph n timestamp turns todo done s) := by
  induction turns with
  | zero => exact fun _ _ _ h => h
  | succ turns ih =>
    intro todo done s h
    cases todo with
    | nil => exact h
    | cons targetId todo =>
      rw [Workflow.skipDescendants]
      split_ifs
      · exact ih _ _ h
      · exact ih _ _ h
      · exact ih _ _ ⟨h.ready.remove _, h.waiting.remove _, h.blocked.remove _, h.completed, h.active.remove _⟩

section

variable (h : ListsInOrder graph s)

include h

theorem readySuccessor {m : WorkflowNodeDefinitionId}
    (hs : Workflow.readySuccessor graph n transition timestamp s m = .ok s') : ListsInOrder graph s' := by
  unfold Workflow.readySuccessor at hs
  split at hs
  · cases hs
  · cases hs
    exact ⟨inOrder_addNodeId graph _ m, h.waiting, h.blocked, h.completed, inOrder_addNodeId graph _ m⟩

theorem reactivateJoin {m : WorkflowNodeDefinitionId}
    (hs : Workflow.reactivateJoin graph n timestamp s m = .ok s') : ListsInOrder graph s' := by
  unfold Workflow.reactivateJoin at hs
  split at hs
  · cases hs
  · cases hs
    exact ⟨h.ready.includeNodeId m, h.waiting.remove m, h.blocked, h.completed, h.active⟩

theorem reactivateParentLoop (n : WorkflowNodeDefinitionId)
    (transition : WorkflowTransitionInput) (timestamp : Timestamp) :
    ListsInOrder graph (Workflow.reactivateParentLoop graph n transition timestamp s) := by
  unfold Workflow.reactivateParentLoop
  split
  · next p hp =>
    have hreset : ∀ (l : List WorkflowNodeDefinitionId) {s : WorkflowRunState}, ListsInOrder graph s →
        ListsInOrder graph (l.foldl (resetLoopBody timestamp) s) := fun l s hs =>
      List.foldlRecOn l (resetLoopBody timestamp) hs fun t ht m _ =>
        ⟨ht.ready, ht.waiting, ht.blocked, ht.completed.remove m, ht.active⟩
    have hbody := hreset (loopBodyNodeIds graph p) (s := uncomplete s p)
      ⟨h.ready, h.waiting, h.blocked, h.completed.remove p, h.active⟩
    exact ⟨hbody.ready.includeNodeId p, hbody.waiting, hbody.blocked, hbody.completed, hbody.active.includeNodeId p⟩
  · exact h

theorem activateSuccessors {key : Option String}
    (hs : Workflow.activateSuccessors s graph n transition key = .ok s') : ListsInOrder graph s' := by
  obtain ⟨s₂, hready, hs⟩ := bind_eq_ok.mp hs
  have h₁ : ListsInOrder graph (activateEdges graph n key s) := ⟨h.ready, h.waiting, h.blocked, h.completed, h.active⟩
  have h₂ : ListsInOrder graph s₂ := foldlM_invariant (fun _ _ _ _ ht => ht.readySuccessor) h₁ hready
  exact foldlM_invariant (fun _ _ _ _ ht => ht.reactivateJoin) (h₂.reactivateParentLoop n transition _) hs

theorem applyAttemptOutcome {attempt : WorkflowNodeAttempt}
    {result : WorkflowNodeExecutionResult}
    (hs : Workflow.applyAttemptOutcome s graph n attempt result transition = .ok s') : ListsInOrder graph s' := by
  unfold Workflow.applyAttemptOutcome at hs
  have htaken := (h.leaveLists n).modifyNode n (·.withResult result (occurredAt transition s.updatedAt))
  dsimp only at hs
  generalize (Workflow.leaveLists s n).modifyNode n _ = t at *
  split at hs
  · have hlisted := (htaken.modifyNode n fun nodeState => (nodeState.setActive none).clearWait).listCompleted n
    exact (hlisted.skipDescendants n _ _ _ _).activateSuccessors hs
  · cases hs
    have hactive := htaken.modifyNode n (·.setActive (some attempt.attempt))
    have hlisted : ListsInOrder graph (listWaiting graph (t.modifyNode n (·.setActive (some attempt.attempt))) n) :=
      ⟨hactive.ready, inOrder_addNodeId graph _ n, hactive.blocked, hactive.completed, hactive.active⟩
    exact hlisted.trackJoin n
  · cases hs
    have hactive := htaken.modifyNode n (·.setActive (some attempt.attempt))
    exact ⟨hactive.ready, hactive.waiting, inOrder_addNodeId graph _ n, hactive.completed, hactive.active⟩
  · cases hs
    exact htaken.modifyNode n _

theorem step {op : RunStateOp} (hs : applyRunStateOp graph s op = .ok s') :
    ListsInOrder graph s' := by
  cases op with
  | record m result transition checkpointState prepared committed =>
    change recordWorkflowNodeExecution _ = _ at hs
    unfold recordWorkflowNodeExecution at hs
    dsimp only at hs
    split at hs
    · cases hs
    · split_ifs at hs
      obtain ⟨t, happly, hparse⟩ := bind_eq_ok.mp hs
      cases WorkflowRunStateSchema.parse_ok hparse
      refine ListsInOrder.settled (ListsInOrder.applyAttemptOutcome ?_ happly) _ _
      exact ⟨h.ready, h.waiting, h.blocked, h.completed, h.active⟩
  | resolve m result transition checkpointState prepared committed =>
    change resolveWorkflowNodeContinuation _ = _ at hs
    unfold resolveWorkflowNodeContinuation at hs
    dsimp only at hs
    split at hs
    · cases hs
    split at hs
    · cases hs
    split at hs
    · cases hs
    obtain ⟨t, happly, hparse⟩ := bind_eq_ok.mp hs
    cases WorkflowRunStateSchema.parse_ok hparse
    refine ListsInOrder.settled (ListsInOrder.applyAttemptOutcome ?_ happly) _ _
    exact ⟨h.ready, h.waiting, h.blocked, h.completed, h.active⟩
  | complete m transition =>
    change completeWorkflowNodeInRunState _ _ _ _ = _ at hs
    unfold completeWorkflowNodeInRunState at hs
    split at hs
    · cases hs
    · split_ifs at hs
      obtain ⟨t, hactivate, hparse⟩ := bind_eq_ok.mp hs
      cases WorkflowRunStateSchema.parse_ok hparse
      exact ((((h.leaveLists m).modifyNode m _).listCompleted m).activateSuccessors hactivate).settled _ _
  | pause transition =>
    change pauseWorkflowRunState _ _ = _ at hs
    unfold pauseWorkflowRunState at hs
    split_ifs at hs
    cases WorkflowRunStateSchema.parse_ok hs
    exact ⟨h.ready, h.waiting, h.blocked, h.completed, h.active⟩
  | resume transition =>
    change resumeWorkflowRunState _ _ = _ at hs
    unfold resumeWorkflowRunState at hs
    split_ifs at hs
    cases WorkflowRunStateSchema.parse_ok hs
    exact ⟨h.ready, h.waiting, h.blocked, h.completed, h.active⟩
  | cancel transition =>
    change cancelWorkflowRunState _ _ = _ at hs
    unfold cancelWorkflowRunState at hs
    split_ifs at hs
    cases WorkflowRunStateSchema.parse_ok hs
    have hcancelled : ListsInOrder graph ((affectedNodeIds s).foldl
        (cancelNode transition (occurredAt transition s.updatedAt)) s) :=
      List.foldlRecOn (affectedNodeIds s) _ h fun t ht m _ => ht.modifyNode m _
    exact ⟨List.Pairwise.nil, List.Pairwise.nil, List.Pairwise.nil, hcancelled.completed, List.Pairwise.nil⟩

end

theorem of_initial (h : Initial graph s) : ListsInOrder graph s := by
  have hs := h.spec
  refine ⟨?_, ?_, ?_, ?_, ?_⟩
  · exact hs.ready ▸ inOrder_sortNodeIdsByTopology graph _
  · exact hs.waiting ▸ List.Pairwise.nil
  · exact hs.blocked ▸ List.Pairwise.nil
  · exact hs.completed ▸ List.Pairwise.nil
  · exact hs.active ▸ inOrder_sortNodeIdsByTopology graph _

end ListsInOrder

/-! ## Slots that match -/

/-- The same status, and the same lists hold the node. -/
structure Slot.Matches (sl sl' : Slot) : Prop where
  status : sl.status = sl'.status
  ready : sl.ready ↔ sl'.ready
  waiting : sl.waiting ↔ sl'.waiting
  blocked : sl.blocked ↔ sl'.blocked
  completed : sl.completed ↔ sl'.completed
  active : sl.active ↔ sl'.active

namespace Slot.Matches

variable {sl sl' : Slot}

theorem refl (sl : Slot) : sl.Matches sl := ⟨rfl, .rfl, .rfl, .rfl, .rfl, .rfl⟩

theorem status_map {f : NodeCore → NodeCore} {g : WorkflowNodeRunStatus → WorkflowNodeRunStatus}
    (hf : ∀ core, (f core).status = g core.status) (h : sl.status = sl'.status) :
    (sl.core.map f).map (·.status) = (sl'.core.map f).map (·.status) := by
  have hmap : ∀ core : Option NodeCore, (core.map f).map (·.status) = (core.map (·.status)).map g := by
    intro core
    cases core with
    | none => rfl
    | some core => simp [hf]
  rw [hmap, hmap]
  exact congrArg _ h

theorem makeReady (h : sl.Matches sl') : sl.makeReady.Matches sl'.makeReady :=
  ⟨status_map (g := fun _ => .ready) (fun _ => rfl) h.status, .rfl, h.waiting, h.blocked, h.completed, .rfl⟩

theorem resetBody (h : sl.Matches sl') : sl.resetBody.Matches sl'.resetBody := by
  refine ⟨status_map (g := fun status => if status = .completed then .pending else status) (fun core => ?_) h.status,
    h.ready, h.waiting, h.blocked, .rfl, h.active⟩
  unfold NodeCore.resetBody
  split_ifs <;> rfl

theorem reactivateLoop (h : sl.Matches sl') : sl.reactivateLoop.Matches sl'.reactivateLoop :=
  ⟨status_map (g := fun _ => .ready) (fun _ => rfl) h.status, .rfl, h.waiting, h.blocked, .rfl, .rfl⟩

theorem reactivateJoin (h : sl.Matches sl') : sl.reactivateJoin.Matches sl'.reactivateJoin :=
  ⟨status_map (g := fun _ => .ready) (fun _ => rfl) h.status, .rfl, .rfl, h.blocked, h.completed, h.active⟩

theorem when {P Q : Prop} [Decidable P] [Decidable Q] {f : Slot → Slot} (h : sl.Matches sl') (hpq : P ↔ Q)
    (hf : ∀ {sl sl' : Slot}, sl.Matches sl' → (f sl).Matches (f sl')) : (sl.when P f).Matches (sl'.when Q f) := by
  rw [Slot.when_congr hpq]
  simp only [Slot.when]
  split_ifs
  · exact hf h
  · exact h

end Slot.Matches

/-! ## What is compared -/

structure SameOutcome (s s' : WorkflowRunState) : Prop where
  status : s.status = s'.status
  ready : s.readyNodeIds = s'.readyNodeIds
  waiting : s.waitingNodeIds = s'.waitingNodeIds
  blocked : s.blockedNodeIds = s'.blockedNodeIds
  completed : s.completedNodeIds = s'.completedNodeIds
  active : s.activeNodeIds = s'.activeNodeIds
  edges : s.activatedEdgeIds = s'.activatedEdgeIds
  nodes : ∀ m, s.nodeStatus m = s'.nodeStatus m

section

variable {s s' s₁ s₁' : WorkflowRunState} {graph : DerivedWorkflowGraph} {n m : WorkflowNodeDefinitionId}
  {key : Option String}

theorem SameOutcome.matches (h : SameOutcome s s') (j : WorkflowNodeDefinitionId) : (s.slot j).Matches (s'.slot j) := by
  refine ⟨?_, ?_, ?_, ?_, ?_, ?_⟩
  · rw [WorkflowRunState.status_slot, WorkflowRunState.status_slot, h.nodes]
  all_goals simp only [WorkflowRunState.slot, h.ready, h.waiting, h.blocked, h.completed, h.active]

theorem sameOutcome_of_matches (h : ListsInOrder graph s) (h' : ListsInOrder graph s') (hstatus : s.status = s'.status)
    (hedges : s.activatedEdgeIds = s'.activatedEdgeIds) (hm : ∀ j, (s.slot j).Matches (s'.slot j)) : SameOutcome s s' where
  status := hstatus
  ready := h.ready.eq h'.ready fun j => (hm j).ready
  waiting := h.waiting.eq h'.waiting fun j => (hm j).waiting
  blocked := h.blocked.eq h'.blocked fun j => (hm j).blocked
  completed := h.completed.eq h'.completed fun j => (hm j).completed
  active := h.active.eq h'.active fun j => (hm j).active
  edges := hedges
  nodes j := by
    rw [← WorkflowRunState.status_slot, ← WorkflowRunState.status_slot]
    exact (hm j).status

theorem length_pos_congr {ids ids' : List WorkflowNodeDefinitionId} (h : ∀ j, j ∈ ids ↔ j ∈ ids') :
    0 < ids.length ↔ 0 < ids'.length := by
  rw [List.length_pos_iff_exists_mem, List.length_pos_iff_exists_mem]
  exact exists_congr h

theorem resolveRunStatus_congr (hstatus : s.status = s'.status) (hcheckpoint : s.checkpointState = s'.checkpointState)
    (hm : ∀ j, (s.slot j).Matches (s'.slot j)) : resolveRunStatus s = resolveRunStatus s' := by
  have hnodes : ∀ j, s.nodeStatus j = s'.nodeStatus j := fun j => by
    rw [← WorkflowRunState.status_slot, ← WorkflowRunState.status_slot]
    exact (hm j).status
  have hfailed : s.nodeStates.values.any (·.status = .failed) = s'.nodeStates.values.any (·.status = .failed) := by
    rw [Bool.eq_iff_iff, any_failed, any_failed]
    exact exists_congr fun j => by rw [(hm j).status]
  have hready := length_pos_congr fun j => (hm j).ready
  have hwaiting := length_pos_congr fun j => (hm j).waiting
  have hblocked := length_pos_congr fun j => (hm j).blocked
  have hcompleted := length_pos_congr fun j => (hm j).completed
  have hactive := length_pos_congr fun j => (hm j).active
  have hzero : ∀ {l l' : List WorkflowNodeDefinitionId}, (0 < l.length ↔ 0 < l'.length) →
      (l.length = 0 ↔ l'.length = 0) := by
    intro l l' h
    omega
  have hall : ∀ {ids ids' : List WorkflowNodeDefinitionId}, (∀ j, j ∈ ids ↔ j ∈ ids') →
      (ids.all fun j => isResolved (s.nodeStatus j)) = ids'.all fun j => isResolved (s'.nodeStatus j) := by
    intro ids ids' h
    rw [Bool.eq_iff_iff, List.all_eq_true, List.all_eq_true]
    exact forall_congr' fun j => by rw [h, hnodes]
  have hallActive := hall fun j => (hm j).active
  have hallReady := hall fun j => (hm j).ready
  unfold resolveRunStatus
  by_cases hpos : 0 < s'.activeNodeIds.length
  · simp only [hstatus, hfailed, hcheckpoint, hready, hwaiting, hblocked, hactive, hallActive, hzero hready,
      hzero hwaiting, hzero hblocked, hzero hcompleted, if_pos hpos]
  · simp only [hstatus, hfailed, hcheckpoint, hready, hwaiting, hblocked, hactive, hallReady, hzero hready,
      hzero hwaiting, hzero hblocked, hzero hcompleted, if_neg hpos]

theorem Activated.matches (h : Activated s s₁ graph n key) (h' : Activated s' s₁' graph n key)
    (hm : (s.slot m).Matches (s'.slot m)) (hready : m ∈ readiedIds s graph n key ↔ m ∈ readiedIds s' graph n key)
    (hloop : loopToReactivate s graph n = loopToReactivate s' graph n) : (s₁.slot m).Matches (s₁'.slot m) := by
  rw [h.slot, h'.slot]
  have hbody : m ∈ resetBodyIds s graph n ↔ m ∈ resetBodyIds s' graph n := by rw [resetBodyIds, resetBodyIds, hloop]
  have hjoin : m ∈ waitingJoinNodeIds s graph n ↔ m ∈ waitingJoinNodeIds s' graph n := by
    rw [mem_waitingJoinNodeIds, mem_waitingJoinNodeIds, hm.waiting]
  exact (((hm.when hready .makeReady).when hbody .resetBody).when (by rw [hloop]) .reactivateLoop).when hjoin
    .reactivateJoin

end

/-! ## The losers of the race -/

/-- `m` is a successor of `n` whose activated inbound sources are completed, once `n` is. -/
def Dispatches (graph : DerivedWorkflowGraph) (s : WorkflowRunState) (n m : WorkflowNodeDefinitionId) : Prop :=
  m ∈ getNextReadyNodeIds graph (n :: s.completedNodeIds)
    (s.activatedEdgeIds ++ getActivatedOutboundEdgeIds graph n none (graph.nodeType n)) (some n)

/-- The completion of `n` dispatches `m`, whether `m` was skipped before or not: no list keeps an `m` that was not skipped
from being ready and active. -/
structure Restored (graph : DerivedWorkflowGraph) (s : WorkflowRunState) (n m : WorkflowNodeDefinitionId) : Prop where
  dispatches : Dispatches graph s n m
  completed : m ∉ s.completedNodeIds
  blocked : m ∉ s.blockedNodeIds
  waiting : m ∈ s.waitingNodeIds → graph.nodeType m = some .parallelJoin ∧ m ∈ s.activeNodeIds
  ready : m ∈ s.readyNodeIds → m ∈ s.activeNodeIds ∧ (m ∉ s.waitingNodeIds → s.nodeStatus m = some .ready)

theorem loopToReactivate_of_race {s : WorkflowRunState} {graph : DerivedWorkflowGraph} {n : WorkflowNodeDefinitionId}
    (h : raceSiblings s graph n ≠ []) : loopToReactivate s graph n = none := by
  rw [Option.eq_none_iff_forall_ne_some]
  intro p hp
  obtain ⟨hparent, htype, -⟩ := loopToReactivate_eq_some.mp hp
  rw [WorkflowRunState.parentOf] at hparent
  unfold raceSiblings at h
  rw [hparent, Option.bind_some] at h
  rw [DerivedWorkflowGraph.nodeType] at htype
  obtain ⟨node, hnode, hloop⟩ := Option.map_eq_some_iff.mp htype
  rw [hnode] at h
  simp [hloop] at h

namespace Slot

variable {sl : Slot} {P P' Q D J : Prop} [Decidable P] [Decidable P'] [Decidable Q]

theorem matches_skip_iff (hknown : sl.core ≠ none) (hopen : isResolved sl.status = false)
    (hp : P ↔ D ∧ ¬sl.ready ∧ ¬sl.waiting ∧ ¬sl.blocked ∧ ¬sl.completed) (hp' : P' ↔ D ∧ ¬sl.completed)
    (hq : Q → sl.waiting) (hj : D → (Q ↔ sl.waiting ∧ J)) :
    ((sl.when P makeReady).when Q reactivateJoin).Matches (sl.skip.when P' makeReady) ↔
      D ∧ ¬sl.completed ∧ ¬sl.blocked ∧ (sl.waiting → J ∧ sl.active) ∧
        (sl.ready → sl.active ∧ (¬sl.waiting → sl.status = some .ready)) := by
  obtain ⟨core, hcore⟩ := Option.ne_none_iff_exists'.mp hknown
  have hready : sl.makeReady.status = some .ready := by simp [makeReady, status, hcore]
  have hjoined : sl.reactivateJoin.status = some .ready := by simp [reactivateJoin, status, hcore, NodeCore.reset]
  have hskipped : sl.skip.status = some .skipped := by simp [skip, status, hcore, NodeCore.reset]
  have hrestored : sl.skip.makeReady.status = some .ready := by simp [makeReady, skip, status, hcore]
  by_cases hp'' : P'
  · obtain ⟨hd, hc⟩ := hp'.mp hp''
    rw [when_pos hp'']
    by_cases hb : sl.blocked
    · refine iff_of_false (fun h => ?_) fun h => h.2.2.1 hb
      have hblocked := h.blocked
      simp only [Slot.when] at hblocked
      split_ifs at hblocked <;> simp [makeReady, reactivateJoin, skip, hb] at hblocked
    by_cases hw : sl.waiting
    · rw [when_neg fun h => (hp.mp h).2.2.1 hw]
      by_cases hJ : J
      · rw [when_pos ((hj hd).mpr ⟨hw, hJ⟩)]
        constructor
        · intro h
          have hactive : sl.active := h.active.mpr trivial
          exact ⟨hd, hc, hb, fun _ => ⟨hJ, hactive⟩, fun _ => ⟨hactive, fun h => absurd hw h⟩⟩
        · rintro ⟨-, -, -, hwaiting, -⟩
          exact ⟨hjoined.trans hrestored.symm, .rfl, .rfl, iff_of_false hb id, .rfl, iff_of_true (hwaiting hw).2 trivial⟩
      · rw [when_neg fun h => hJ ((hj hd).mp h).2]
        exact iff_of_false (fun h => h.waiting.mp hw) fun h => hJ (h.2.2.2.1 hw).1
    · rw [when_neg fun h => hw (hq h)]
      by_cases hr : sl.ready
      · rw [when_neg fun h => (hp.mp h).2.1 hr]
        constructor
        · intro h
          exact ⟨hd, hc, hb, fun h => absurd h hw, fun _ => ⟨h.active.mpr trivial, fun _ => h.status.trans hrestored⟩⟩
        · rintro ⟨-, -, -, -, h⟩
          obtain ⟨hactive, hstatus⟩ := h hr
          exact ⟨(hstatus hw).trans hrestored.symm, iff_of_true hr trivial, iff_of_false hw id, iff_of_false hb id, .rfl,
            iff_of_true hactive trivial⟩
      · rw [when_pos (hp.mpr ⟨hd, hr, hw, hb, hc⟩)]
        exact iff_of_true ⟨hready.trans hrestored.symm, .rfl, iff_of_false hw id, iff_of_false hb id, .rfl, .rfl⟩
          ⟨hd, hc, hb, fun h => absurd h hw, fun h => absurd h hr⟩
  · have hp₀ : ¬P := fun h => hp'' (hp'.mpr ⟨(hp.mp h).1, (hp.mp h).2.2.2.2⟩)
    rw [when_neg hp'', when_neg hp₀]
    refine iff_of_false (fun h => ?_) fun h => hp'' (hp'.mpr ⟨h.1, h.2.1⟩)
    have hstatus := h.status
    rw [hskipped, Slot.when] at hstatus
    split_ifs at hstatus
    · simp [hjoined] at hstatus
    · simp [isResolved, hstatus] at hopen

end Slot

/-! ## The two completions of a node -/

section

variable {s s₁ s₂ : WorkflowRunState} {graph : DerivedWorkflowGraph} {n m : WorkflowNodeDefinitionId}

/-- The completion of `n` by either path without a branch key: `a` where the successors are activated, `u` once they are. -/
structure Completed (graph : DerivedWorkflowGraph) (s : WorkflowRunState) (n : WorkflowNodeDefinitionId)
    (a u s' : WorkflowRunState) : Prop where
  node : (a.slot n).status = some .completed ∧ (a.slot n).branchKey = none
  lists : ¬(a.slot n).ready ∧ ¬(a.slot n).waiting ∧ ¬(a.slot n).blocked ∧ (a.slot n).completed
  active : (a.slot n).active ↔ (s.slot n).active
  parent : a.parentOf n = s.parentOf n
  edges : a.activatedEdgeIds = s.activatedEdgeIds
  readied : ∀ m, m ∈ readiedIds a graph n none ↔ Dispatches graph s n m ∧
    ¬(a.slot m).ready ∧ ¬(a.slot m).waiting ∧ ¬(a.slot m).blocked ∧ ¬(a.slot m).completed
  activated : Activated a u graph n none
  status : u.status = s.status
  finished : Finished u s'

theorem NodeStep.completed {s' a₁ a u : WorkflowRunState} {op : RunStateOp} {core core' : NodeCore}
    (h : NodeStep graph s op s' n .completed core core' a₁ a u) (hkey : op.branchKey s = none)
    (hstatus : core'.status = .completed) (hbranch : core'.selectedBranchKey = none) :
    Completed graph s n a u s' ∧ ∀ j, j ≠ n →
      (LosesRace graph s op n j → a.slot j = (s.slot j).skip) ∧ (¬LosesRace graph s op n j → a.slot j = s.slot j) := by
  have hn : (a₁.slot n).status = some .completed := by
    rw [Slot.status, h.settled.core, Option.map_some, hstatus]
  obtain ⟨hslot, hothers⟩ := h.slot₂ rfl hn
  have hsettled := h.settled
  rw [← hslot] at hsettled hn
  refine ⟨⟨⟨hn, ?_⟩, ⟨hsettled.ready, ?_, ?_, ?_⟩, hsettled.active, h.parent₂ rfl n, h.edges₂ rfl, fun m => ?_, ?_, ?_,
    h.finished⟩, hothers⟩
  · rw [Slot.branchKey, hsettled.core, Option.bind_some, hbranch]
  · simp [hsettled.waiting]
  · simp [hsettled.blocked]
  · simp [hsettled.completed]
  · have := h.mem_readiedIds (m := m) rfl
    rwa [hkey, NextReady, hkey] at this
  · exact hkey ▸ h.activated rfl
  · exact h.status₃

namespace Completed

variable {a a' u u' s' s'' : WorkflowRunState}

section

variable (h : Completed graph s n a u s')

include h

section

variable (h' : Completed graph s n a' u' s'')

include h'

theorem loop_congr
    (hkey : ∀ j, j ≠ n → (a'.slot j).branchKey = (a.slot j).branchKey) :
    loopToReactivate a graph n = loopToReactivate a' graph n := by
  symm
  refine loopToReactivate_congr (h'.parent.trans h.parent.symm) fun p _ => ?_
  by_cases hp : p = n
  · rw [hp, h.node.2, h'.node.2]
  · exact hkey p hp

theorem matches_node :
    (a.slot n).Matches (a'.slot n) where
  status := h.node.1.trans h'.node.1.symm
  ready := iff_of_false h.lists.1 h'.lists.1
  waiting := iff_of_false h.lists.2.1 h'.lists.2.1
  blocked := iff_of_false h.lists.2.2.1 h'.lists.2.2.1
  completed := iff_of_true h.lists.2.2.2 h'.lists.2.2.2
  active := h.active.trans h'.active.symm

theorem matches_of_matches
    (hloop : loopToReactivate a graph n = loopToReactivate a' graph n) (hm : (a.slot m).Matches (a'.slot m)) :
    (u.slot m).Matches (u'.slot m) := by
  refine h.activated.matches h'.activated hm ?_ hloop
  rw [h.readied, h'.readied, hm.ready, hm.waiting, hm.blocked, hm.completed]

theorem matches_loser_iff (hgraph : Built graph)
    (hm : Loses graph s n m) (hslot : a.slot m = s.slot m) (hskip : a'.slot m = (s.slot m).skip) :
    (u.slot m).Matches (u'.slot m) ↔ Restored graph s n m := by
  have hopen := hm.kept.2
  have hraces := hm.start_ne_nil
  have hloop : loopToReactivate a graph n = none :=
    loopToReactivate_of_race (by rwa [raceSiblings_congr h.parent])
  have hloop' : loopToReactivate a' graph n = none :=
    loopToReactivate_of_race (by rwa [raceSiblings_congr h'.parent])
  have hready := h.readied m
  have hready' := h'.readied m
  have hjoin := @mem_waitingJoinNodeIds a graph n m
  have hjoin' : m ∉ waitingJoinNodeIds a' graph n := by
    rw [mem_waitingJoinNodeIds, hskip]
    exact fun h => h.1
  have hslot₃ := h.activated.slot m
  have hslot₃' := h'.activated.slot m
  rw [resetBodyIds, hloop, Option.elim_none, Slot.when_neg List.not_mem_nil,
    Slot.when_neg (show ¬none = some m from nofun)] at hslot₃
  rw [resetBodyIds, hloop', Option.elim_none, Slot.when_neg List.not_mem_nil,
    Slot.when_neg (show ¬none = some m from nofun), Slot.when_neg hjoin', hskip] at hslot₃'
  rw [hskip] at hready'
  rw [hslot] at hslot₃ hready hjoin
  have hknown : (s.slot m).core ≠ none := by
    intro hnone
    apply hopen.1
    rw [← WorkflowRunState.status_slot, Slot.status, hnone, Option.map_none]
  rw [hslot₃, hslot₃', Slot.matches_skip_iff (D := Dispatches graph s n m) (J := graph.nodeType m = some .parallelJoin)
    hknown (WorkflowRunState.status_slot s m ▸ hopen.2) hready]
  · constructor
    · rintro ⟨hd, hc, hb, hw, hr⟩
      exact ⟨hd, hc, hb, hw, fun hready => ⟨(hr hready).1, fun hnot =>
        WorkflowRunState.status_slot s m ▸ (hr hready).2 hnot⟩⟩
    · rintro ⟨hd, hc, hb, hw, hr⟩
      exact ⟨hd, hc, hb, hw, fun hready => ⟨(hr hready).1, fun hnot =>
        (WorkflowRunState.status_slot s m).trans ((hr hready).2 hnot)⟩⟩
  · rw [hready']
    simp [Slot.skip]
  · exact fun h => (hjoin.mp h).1
  · intro hd
    -- what `n` dispatches, it is upstream of
    obtain ⟨⟨e, he, -, htarget⟩, -⟩ := mem_getNextReadyNodeIds.mp hd
    have hup := hgraph.leads_iff.mp ⟨e, he, htarget⟩
    rw [hjoin]
    exact ⟨fun h => ⟨h.1, h.2.1⟩, fun h => ⟨h.1, h.2, hup⟩⟩

end

end

end Completed

/-- **The two completions agree exactly when every loser is restored.** In every reachable state, the direct completion
of a node and a recorded execution that completes it, both without a branch key, have the same outcome if and only if the
nodes that the race cancels end up the same without being cancelled. -/
theorem completions_agree_iff (hgraph : Built graph) {s₀ : WorkflowRunState} (hinit : Initial graph s₀)
    {ops : List RunStateOp} (hrun : Run (RunStateStep graph) s₀ ops s)
    (hkey : (s.node? n).bind (·.selectedBranchKey) = none) {result : WorkflowNodeExecutionResult}
    (hout : result.outcome = .completed) (hbranch : result.selectedBranchKey = none)
    {transition transition' : WorkflowTransitionInput} {checkpointState : Option WorkflowCheckpointState}
    (hcheckpoint : checkpointState.getD s.checkpointState = s.checkpointState) {prepared committed : Option Uuid}
    (hcomplete : completeWorkflowNodeInRunState s graph n transition = .ok s₁)
    (hrecord : recordWorkflowNodeExecution
      ⟨s, graph, n, result, transition', checkpointState, prepared, committed⟩ = .ok s₂) :
    SameOutcome s₁ s₂ ↔ ∀ m, Loses graph s n m → Restored graph s n m := by
  have hok : LineageOk s :=
    hrun.invariant (P := LineageOk) (fun _ _ _ ht hop => applyRunStateOp_lineage ht hop) hinit.spec.lineage
  have hlists : ListsInOrder graph s :=
    hrun.invariant (P := ListsInOrder graph) (fun _ _ _ ht hop => ht.step hop) (.of_initial hinit)
  have hlists₁ : ListsInOrder graph s₁ := @ListsInOrder.step _ _ _ hlists (.complete n transition) hcomplete
  have hlists₂ : ListsInOrder graph s₂ :=
    @ListsInOrder.step _ _ _ hlists (.record n result transition' checkpointState prepared committed) hrecord
  obtain ⟨core, core₁, a₁, a, u, hstep⟩ := complete_nodeStep hok hcomplete
  obtain ⟨core', core₂, a₁', a', u', hstep'⟩ := record_nodeStep hok hrecord
  rw [hout] at hstep'
  rw [← branchKey_slot] at hkey
  have hcore₁ := hstep.takes.2
  obtain ⟨-, id, timestamp, hcore₂⟩ := hstep'.takes
  have hbranch₁ : core₁.selectedBranchKey = none := by
    rw [hcore₁]
    rwa [Slot.branchKey, hstep.before, Option.bind_some] at hkey
  obtain ⟨h, hothers⟩ := hstep.completed hkey (by rw [hcore₁]; rfl) hbranch₁
  obtain ⟨h', hothers'⟩ := hstep'.completed hbranch
    (by simp [hcore₂, NodeCore.attempted, NodeCore.withResult, hout, mapOutcomeToStatus])
    (by simp [hcore₂, NodeCore.attempted, NodeCore.withResult, hbranch])
  have hkept : ∀ j, j ≠ n → a.slot j = s.slot j := fun j hj => (hothers j hj).2 fun hl => absurd hl.1 Bool.false_ne_true
  have hskipped : ∀ j, Loses graph s n j → a'.slot j = (s.slot j).skip := fun j hj =>
    (hothers' j hj.kept.1).1 ⟨rfl, hj⟩
  have hkept' : ∀ j, j ≠ n → ¬Loses graph s n j → a'.slot j = s.slot j := fun j hj hnot =>
    (hothers' j hj).2 fun hl => hnot hl.2
  have hloop : loopToReactivate a graph n = loopToReactivate a' graph n := by
    refine h.loop_congr h' fun j hj => ?_
    by_cases hl : Loses graph s n j
    · rw [hskipped j hl, hkept j hj, branchKey_skip]
    · rw [hkept' j hj hl, hkept j hj]
  -- every node but the losers matches
  have hmatches : ∀ j, ¬Loses graph s n j → (u.slot j).Matches (u'.slot j) := by
    intro j hl
    refine h.matches_of_matches h' hloop ?_
    by_cases hj : j = n
    · exact hj ▸ h.matches_node h'
    · rw [hkept j hj, hkept' j hj hl]
      exact .refl _
  have hlosers : ∀ j, Loses graph s n j → ((u.slot j).Matches (u'.slot j) ↔ Restored graph s n j) := fun j hl =>
    h.matches_loser_iff h' hgraph hl (hkept j hl.kept.1) (hskipped j hl)
  have hedges : s₁.activatedEdgeIds = s₂.activatedEdgeIds := by
    rw [h.finished.edges, h'.finished.edges, h.activated.edges, h'.activated.edges, activateEdges, activateEdges, h.edges,
      h'.edges]
  constructor
  · intro hsame m hl
    have := hsame.matches m
    rw [h.finished.slot, h'.finished.slot] at this
    exact (hlosers m hl).mp this
  · intro hrestored
    have hm : ∀ j, (u.slot j).Matches (u'.slot j) := by
      intro j
      by_cases hl : Loses graph s n j
      · exact (hlosers j hl).mpr (hrestored j hl)
      · exact hmatches j hl
    refine sameOutcome_of_matches hlists₁ hlists₂ ?_ hedges fun j => ?_
    · rw [h.finished.status, h'.finished.status]
      refine resolveRunStatus_congr (h.status.trans h'.status.symm) ?_ hm
      rw [hstep.checkpoint₃, hstep'.checkpoint₃]
      exact hcheckpoint.symm
    · rw [h.finished.slot, h'.finished.slot]
      exact hm j

end

/-! ## A race between two branches -/

def splitDefinition (splitMode : SplitMode) : WorkflowDefinition where
  id := 0
  projectId := 0
  version := "1.0.0"
  name := "split"
  entryNodeIds := [1]
  nodes := [sampleNode 1 (.parallelSplit splitMode), sampleNode 2 (.transform "t" "m"),
    sampleNode 3 (.transform "t" "m")]
  edges := [⟨1, 1, 2, none, 0⟩, ⟨2, 1, 3, none, 0⟩]

/-- What a recorded execution that completes a node reports. -/
def sampleResult : WorkflowNodeExecutionResult where
  outcome := .completed
  governanceDecision := ⟨.allowWithFlag, "CGR-ALLOW-WITH-FLAG", false, false, false, ["evidence"], false⟩
  waitState := none
  correctionArc := none
  sideEffectStatus := .none
  outputRef := none
  checkpointId := none
  selectedBranchKey := none
  reasonCode := "executed"
  evidenceRefs := ["evidence"]

/-- Both completions of the first branch, with what is asked of their results. -/
def bothComplete (graph : DerivedWorkflowGraph) (s : WorkflowRunState)
    (check : WorkflowRunState → WorkflowRunState → Bool) : Bool :=
  (s.node? 2).bind (·.selectedBranchKey) = none ∧
    (completeWorkflowNodeInRunState s graph 2 ⟨"executed", [], none⟩).toOption.any fun s₁ =>
      (recordWorkflowNodeExecution ⟨s, graph, 2, sampleResult, ⟨"executed", [], none⟩, none, none, none⟩).toOption.any
        fun s₂ => check s₁ s₂

/-- The branches of a split that is no race: nothing is cancelled, and the two completions agree. -/
theorem split_completions_agree : ∃ graph s₀ ops s s₁ s₂, Built graph ∧ Initial graph s₀ ∧
    Run (RunStateStep graph) s₀ ops s ∧
    completeWorkflowNodeInRunState s graph 2 ⟨"executed", [], none⟩ = .ok s₁ ∧
    recordWorkflowNodeExecution ⟨s, graph, 2, sampleResult, ⟨"executed", [], none⟩, none, none, none⟩ = .ok s₂ ∧
    SameOutcome s₁ s₂ := by
  obtain ⟨graph, s₀, s, hgraph, hinit, hrun, hcheck⟩ := exists_run_of_check (fun _ _ _ => True) (splitDefinition .all)
    [sampleRecord 1 .completed none]
    (fun graph s => bothComplete graph s fun _ _ => raceSiblings s graph 2 = []) (by decide +kernel)
  obtain ⟨hkey, hboth⟩ := of_decide_eq_true hcheck
  obtain ⟨s₁, hcomplete, hboth⟩ := exists_ok_of_any hboth
  obtain ⟨s₂, hrecord, hrace⟩ := exists_ok_of_any hboth
  refine ⟨graph, s₀, _, s, s₁, s₂, hgraph, hinit, hrun.forget_guard, hcomplete, hrecord, ?_⟩
  refine (completions_agree_iff hgraph hinit hrun.forget_guard hkey rfl rfl rfl hcomplete hrecord).mpr fun m hl => ?_
  exact absurd (of_decide_eq_true hrace) hl.start_ne_nil

/-- The first branch of a race is completed: recorded, it cancels the second branch; completed directly, it leaves the
second branch ready. -/
theorem race_completions_differ : ∃ graph s₀ ops s s₁ s₂, Built graph ∧ Initial graph s₀ ∧
    Run (RunStateStep graph) s₀ ops s ∧ s.nodeStatus 2 = some .ready ∧ (s.node? 2).bind (·.selectedBranchKey) = none ∧
    completeWorkflowNodeInRunState s graph 2 ⟨"executed", [], none⟩ = .ok s₁ ∧
    recordWorkflowNodeExecution ⟨s, graph, 2, sampleResult, ⟨"executed", [], none⟩, none, none, none⟩ = .ok s₂ ∧
    s₁.readyNodeIds = [3] ∧ s₁.status = .running ∧ s₂.readyNodeIds = [] ∧ s₂.nodeStatus 3 = some .skipped ∧
    ¬SameOutcome s₁ s₂ := by
  obtain ⟨graph, s₀, s, hgraph, hinit, hrun, hcheck⟩ := exists_run_of_check (fun _ _ _ => True) (splitDefinition .race)
    [sampleRecord 1 .completed none]
    (fun graph s => bothComplete graph s fun s₁ s₂ => s.nodeStatus 2 = some .ready ∧ s₁.readyNodeIds = [3] ∧
      s₁.status = .running ∧ s₂.readyNodeIds = [] ∧ s₂.nodeStatus 3 = some .skipped) (by decide +kernel)
  obtain ⟨hkey, hboth⟩ := of_decide_eq_true hcheck
  obtain ⟨s₁, hcomplete, hboth⟩ := exists_ok_of_any hboth
  obtain ⟨s₂, hrecord, hlists⟩ := exists_ok_of_any hboth
  obtain ⟨hready, hready₁, hstatus, hready₂, hskipped⟩ := of_decide_eq_true hlists
  refine ⟨graph, s₀, _, s, s₁, s₂, hgraph, hinit, hrun.forget_guard, hready, hkey, hcomplete, hrecord, hready₁, hstatus,
    hready₂, hskipped, fun h => ?_⟩
  rw [h.ready, hready₂] at hready₁
  cases hready₁

end NousCore.Workflow
