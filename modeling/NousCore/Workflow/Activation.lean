import NousCore.Workflow.Slot
import NousCore.Lib.Worklist

/-!
# What a completion changes

One statement for each of the two searches that a completed node starts.

* `SameRun`, `ListsNodup` : the fields no edit touches, and lists without repetition;
* `Activated` : the slots, the parents and the activated edges after `activateSuccessors`
  (`activateSuccessors_spec`);
* `RaceLoser`, `RaceCancelled` : the nodes that `cancelRaceLosers` skips (`cancelRaceLosers_spec`).
-/

namespace NousCore.Workflow

/-! ## Frames -/

structure SameRun (s s' : WorkflowRunState) : Prop where
  status : s'.status = s.status
  checkpointState : s'.checkpointState = s.checkpointState
  activatedEdgeIds : s'.activatedEdgeIds = s.activatedEdgeIds

namespace SameRun

variable {s s' s'' : WorkflowRunState}

theorem refl (s : WorkflowRunState) : SameRun s s := ⟨rfl, rfl, rfl⟩

theorem trans (h : SameRun s s') (h' : SameRun s' s'') : SameRun s s'' :=
  ⟨h'.status.trans h.status, h'.checkpointState.trans h.checkpointState, h'.activatedEdgeIds.trans h.activatedEdgeIds⟩

end SameRun

structure ListsNodup (s : WorkflowRunState) : Prop where
  ready : s.readyNodeIds.Nodup
  waiting : s.waitingNodeIds.Nodup
  blocked : s.blockedNodeIds.Nodup
  completed : s.completedNodeIds.Nodup

variable {values : List WorkflowNodeDefinitionId}

theorem nodup_removeNodeId {n : WorkflowNodeDefinitionId} (h : values.Nodup) : (removeNodeId values n).Nodup :=
  h.filter _

theorem nodup_addNodeId (graph : DerivedWorkflowGraph) (values : List WorkflowNodeDefinitionId)
    (n : WorkflowNodeDefinitionId) : (addNodeId graph values n).Nodup :=
  nodup_sortNodeIdsByTopology _ _

theorem nodup_includeNodeId (graph : DerivedWorkflowGraph)
    {n : WorkflowNodeDefinitionId} (h : values.Nodup) : (includeNodeId graph values n).Nodup := by
  unfold includeNodeId
  split_ifs
  · exact h
  · exact nodup_addNodeId _ _ _

section

variable {s s' : WorkflowRunState} {graph : DerivedWorkflowGraph} {n m : WorkflowNodeDefinitionId}
  {transition : WorkflowTransitionInput} {timestamp : Timestamp} {key : Option String}

theorem readySuccessor_frame (h : readySuccessor graph n transition timestamp s m = .ok s') :
    SameRun s s' ∧ (ListsNodup s → ListsNodup s') := by
  unfold readySuccessor at h
  split at h
  · cases h
  · cases h
    exact ⟨⟨rfl, rfl, rfl⟩, fun hn => ⟨nodup_addNodeId _ _ _, hn.waiting, hn.blocked, hn.completed⟩⟩

theorem reactivateJoin_frame (h : reactivateJoin graph n timestamp s m = .ok s') :
    SameRun s s' ∧ (ListsNodup s → ListsNodup s') := by
  unfold reactivateJoin at h
  split at h
  · cases h
  · cases h
    exact ⟨⟨rfl, rfl, rfl⟩, fun hn =>
      ⟨nodup_includeNodeId _ hn.ready, nodup_removeNodeId hn.waiting, hn.blocked, hn.completed⟩⟩

theorem resetLoopBody_frame (timestamp : Timestamp) (s : WorkflowRunState) (m : WorkflowNodeDefinitionId) :
    SameRun s (resetLoopBody timestamp s m) ∧ (ListsNodup s → ListsNodup (resetLoopBody timestamp s m)) :=
  ⟨⟨rfl, rfl, rfl⟩, fun hn => ⟨hn.ready, hn.waiting, hn.blocked, nodup_removeNodeId hn.completed⟩⟩

theorem resetLoopBodies_frame (timestamp : Timestamp) : ∀ (l : List WorkflowNodeDefinitionId) (s : WorkflowRunState),
    SameRun s (l.foldl (resetLoopBody timestamp) s) ∧
      (ListsNodup s → ListsNodup (l.foldl (resetLoopBody timestamp) s)) ∧
      (LineageOk s → LineageOk (l.foldl (resetLoopBody timestamp) s) ∧
        ∀ j, (l.foldl (resetLoopBody timestamp) s).parentOf j = s.parentOf j)
  | [], s => ⟨.refl s, id, fun h => ⟨h, fun _ => rfl⟩⟩
  | m :: l, s => by
    rw [List.foldl_cons]
    obtain ⟨hsame, hnodup, hlin⟩ := resetLoopBodies_frame timestamp l (resetLoopBody timestamp s m)
    refine ⟨(resetLoopBody_frame timestamp s m).1.trans hsame, fun hn => hnodup ((resetLoopBody_frame timestamp s m).2 hn), fun hok => ?_⟩
    obtain ⟨hok', hparent⟩ := resetLoopBody_lineage timestamp m hok
    exact ⟨(hlin hok').1, fun j => ((hlin hok').2 j).trans (hparent j)⟩

theorem readySuccessors_spec : ∀ {l : List WorkflowNodeDefinitionId} {s s' : WorkflowRunState},
    l.foldlM (readySuccessor graph n transition timestamp) s = .ok s' → LineageOk s →
      SameRun s s' ∧ (ListsNodup s → ListsNodup s') ∧ LineageOk s' ∧
        ∀ j, s'.parentOf j = if j ∈ l then some n else s.parentOf j
  | [], s, s', h, hok => by
    rw [List.foldlM_nil] at h
    cases h
    exact ⟨.refl s, id, hok, fun j => (if_neg List.not_mem_nil).symm⟩
  | m :: l, s, s', h, hok => by
    obtain ⟨u, hu, ht⟩ := foldlM_cons_eq_ok.mp h
    obtain ⟨hsame, hnodup⟩ := readySuccessor_frame hu
    obtain ⟨hok', hparent⟩ := readySuccessor_lineage hok hu
    obtain ⟨hsame', hnodup', hok'', hparent'⟩ := readySuccessors_spec ht hok'
    refine ⟨hsame.trans hsame', fun hn => hnodup' (hnodup hn), hok'', fun j => ?_⟩
    rw [hparent', hparent]
    by_cases hl : j ∈ l <;> by_cases hj : j = m <;> simp [hl, hj]

theorem reactivateJoins_spec : ∀ {l : List WorkflowNodeDefinitionId} {s s' : WorkflowRunState},
    l.foldlM (reactivateJoin graph n timestamp) s = .ok s' → LineageOk s →
      SameRun s s' ∧ (ListsNodup s → ListsNodup s') ∧ LineageOk s' ∧ ∀ j, s'.parentOf j = s.parentOf j
  | [], s, s', h, hok => by
    rw [List.foldlM_nil] at h
    cases h
    exact ⟨.refl s, id, hok, fun j => rfl⟩
  | m :: l, s, s', h, hok => by
    obtain ⟨u, hu, ht⟩ := foldlM_cons_eq_ok.mp h
    obtain ⟨hsame, hnodup⟩ := reactivateJoin_frame hu
    obtain ⟨hok', hparent⟩ := reactivateJoin_lineage hok hu
    obtain ⟨hsame', hnodup', hok'', hparent'⟩ := reactivateJoins_spec ht hok'
    exact ⟨hsame.trans hsame', fun hn => hnodup' (hnodup hn), hok'', fun j => (hparent' j).trans (hparent j)⟩

/-! ## Activated successors -/

def Slot.branchKey (sl : Slot) : Option String := sl.core.bind (·.selectedBranchKey)

theorem branchKey_slot (s : WorkflowRunState) (n : WorkflowNodeDefinitionId) :
    (s.slot n).branchKey = (s.node? n).bind (·.selectedBranchKey) := by
  simp only [Slot.branchKey, WorkflowRunState.slot]
  cases s.node? n <;> rfl

variable {p : WorkflowNodeDefinitionId}

theorem loopToReactivate_eq_some : loopToReactivate s graph n = some p ↔
      s.parentOf n = some p ∧ graph.nodeType p = some .loop ∧ (s.slot p).branchKey = some "loop" := by
  rw [loopToReactivate, Option.filter_eq_some_iff, branchKey_slot, WorkflowRunState.parentOf]
  simp

theorem loopToReactivate_congr (hparent : s'.parentOf n = s.parentOf n)
    (hkey : ∀ p, s.parentOf n = some p → (s'.slot p).branchKey = (s.slot p).branchKey) :
    loopToReactivate s' graph n = loopToReactivate s graph n := by
  ext p
  simp only [loopToReactivate_eq_some, hparent]
  constructor
  · rintro ⟨hp, ht, hk⟩
    exact ⟨hp, ht, hkey p hp ▸ hk⟩
  · rintro ⟨hp, ht, hk⟩
    exact ⟨hp, ht, hkey p hp ▸ hk⟩

variable {j : WorkflowNodeDefinitionId}

theorem mem_waitingJoinNodeIds :
    j ∈ waitingJoinNodeIds s graph n ↔ (s.slot j).waiting ∧ graph.nodeType j = some .parallelJoin ∧
      ∃ e ∈ graph.inboundEdgeIds j, graph.source e = some n := by
  simp [waitingJoinNodeIds, WorkflowRunState.slot]

def resetBodyIds (s : WorkflowRunState) (graph : DerivedWorkflowGraph) (n : WorkflowNodeDefinitionId) :
    List WorkflowNodeDefinitionId :=
  (loopToReactivate s graph n).elim [] (loopBodyNodeIds graph)

/-- The nodes that the completion of `n` with the branch key `key` makes ready. -/
def readiedIds (s : WorkflowRunState) (graph : DerivedWorkflowGraph) (n : WorkflowNodeDefinitionId)
    (key : Option String) : List WorkflowNodeDefinitionId :=
  nextReadyNodeIds (activateEdges graph n key s) graph n

/-- The slots, the parents and the edges after the successors of `n` are activated under the branch key `key`. -/
structure Activated (s s' : WorkflowRunState) (graph : DerivedWorkflowGraph) (n : WorkflowNodeDefinitionId)
    (key : Option String) : Prop where
  known : ∀ j ∈ readiedIds s graph n key, (s.slot j).core ≠ none
  slot : ∀ j, s'.slot j =
    ((((s.slot j).when (j ∈ readiedIds s graph n key) Slot.makeReady).when (j ∈ resetBodyIds s graph n)
      Slot.resetBody).when (loopToReactivate s graph n = some j) Slot.reactivateLoop).when
      (j ∈ waitingJoinNodeIds s graph n) Slot.reactivateJoin
  parent : ∀ j, s'.parentOf j =
    if loopToReactivate s graph n = some j then none else if j ∈ readiedIds s graph n key then some n else s.parentOf j
  lineage : LineageOk s'
  status : s'.status = s.status
  checkpointState : s'.checkpointState = s.checkpointState
  edges : s'.activatedEdgeIds = (activateEdges graph n key s).activatedEdgeIds
  nodup : ListsNodup s → ListsNodup s'

theorem mem_readiedIds : j ∈ readiedIds s graph n key ↔
    j ∈ getNextReadyNodeIds graph s.completedNodeIds (activateEdges graph n key s).activatedEdgeIds (some n) ∧
      ¬(s.slot j).ready ∧ ¬(s.slot j).waiting ∧ ¬(s.slot j).blocked ∧ ¬(s.slot j).completed := by
  simp only [readiedIds, nextReadyNodeIds, List.mem_filter, decide_eq_true_eq]
  rfl

theorem not_mem_readiedIds (h : n ∈ s.completedNodeIds) : n ∉ readiedIds s graph n key := by
  simp only [readiedIds, nextReadyNodeIds, List.mem_filter, decide_eq_true_eq, not_and]
  intro _ _ _ _ hc
  exact hc h

theorem core_slot_eq_none : (s.slot j).core = none ↔ s.node? j = none := by
  simp [WorkflowRunState.slot]

theorem known_of_readySuccessors : ∀ {l : List WorkflowNodeDefinitionId} {s s' : WorkflowRunState},
    l.foldlM (readySuccessor graph n transition timestamp) s = .ok s' → ∀ j ∈ l, (s.slot j).core ≠ none
  | [], _, _, _, j, hj => absurd hj List.not_mem_nil
  | m :: l, s, s', h, j, hj => by
    obtain ⟨u, hu, ht⟩ := foldlM_cons_eq_ok.mp h
    by_cases hjm : j = m
    · subst hjm
      unfold readySuccessor at hu
      split at hu
      · cases hu
      · next hnode => simp [core_slot_eq_none, hnode]
    · have := known_of_readySuccessors ht j (List.mem_of_ne_of_mem hjm hj)
      rwa [slot_readySuccessor hu, if_neg hjm] at this

theorem reactivateLoop_spec (graph : DerivedWorkflowGraph) (transition : WorkflowTransitionInput)
    (timestamp : Timestamp) (hok : LineageOk s) (hp : s.node? p ≠ none) :
    SameRun s (reactivateLoop graph transition timestamp s p) ∧
      (ListsNodup s → ListsNodup (reactivateLoop graph transition timestamp s p)) ∧
      LineageOk (reactivateLoop graph transition timestamp s p) ∧
      ∀ j, (reactivateLoop graph transition timestamp s p).parentOf j = if j = p then none else s.parentOf j := by
  have huncomplete : LineageOk (uncomplete s p) ∧ ∀ j, (uncomplete s p).parentOf j = s.parentOf j :=
    hok.keep rfl fun _ => rfl
  obtain ⟨hsame, hnodup, hlin⟩ :=
    resetLoopBodies_frame timestamp (loopBodyNodeIds graph p) (uncomplete s p)
  obtain ⟨hok', hparent⟩ := hlin huncomplete.1
  have hslot := slot_foldl Slot.resetBody_resetBody (slot_resetLoopBody timestamp)
    (loopBodyNodeIds graph p) (uncomplete s p) p
  rw [reactivateLoop]
  generalize (loopBodyNodeIds graph p).foldl (resetLoopBody timestamp) (uncomplete s p) = st at *
  have hst : st.node? p ≠ none := by
    rw [Ne, ← core_slot_eq_none, hslot, Slot.when, slot_uncomplete, if_pos rfl]
    split_ifs <;> simpa [Slot.resetBody, core_slot_eq_none] using hp
  obtain ⟨hok'', hparent'⟩ := readyLoopNode_lineage graph transition timestamp hok' hst
  refine ⟨⟨hsame.status, hsame.checkpointState, hsame.activatedEdgeIds⟩, fun hn => ?_, hok'', fun j => ?_⟩
  · have hn' := hnodup ⟨hn.ready, hn.waiting, hn.blocked, nodup_removeNodeId hn.completed⟩
    exact ⟨nodup_includeNodeId _ hn'.ready, hn'.waiting, hn'.blocked, hn'.completed⟩
  · rw [hparent', hparent, huncomplete.2]

theorem reactivateParentLoop_spec (graph : DerivedWorkflowGraph) (n : WorkflowNodeDefinitionId)
    (transition : WorkflowTransitionInput) (timestamp : Timestamp) (hok : LineageOk s) :
    SameRun s (reactivateParentLoop graph n transition timestamp s) ∧
      (ListsNodup s → ListsNodup (reactivateParentLoop graph n transition timestamp s)) ∧
      LineageOk (reactivateParentLoop graph n transition timestamp s) ∧
      (∀ j, (reactivateParentLoop graph n transition timestamp s).parentOf j =
        if loopToReactivate s graph n = some j then none else s.parentOf j) ∧
      ∀ j, (reactivateParentLoop graph n transition timestamp s).slot j =
        ((s.slot j).when (j ∈ resetBodyIds s graph n) Slot.resetBody).when
          (loopToReactivate s graph n = some j) Slot.reactivateLoop := by
  unfold reactivateParentLoop resetBodyIds
  cases hp : loopToReactivate s graph n with
  | none => exact ⟨.refl s, id, hok, fun j => by simp, fun j => by simp [Slot.when]⟩
  | some p =>
    have hnode : s.node? p ≠ none := by
      intro hnone
      have hkey := (loopToReactivate_eq_some.mp hp).2.2
      rw [branchKey_slot, hnone] at hkey
      simp at hkey
    obtain ⟨hsame, hnodup, hok', hparent⟩ := reactivateLoop_spec graph transition timestamp hok hnode
    refine ⟨hsame, hnodup, hok', fun j => ?_, fun j => ?_⟩
    · rw [hparent]
      by_cases hj : j = p
      · simp [hj]
      · rw [if_neg hj, if_neg fun h => hj (Option.some.inj h).symm]
    · rw [slot_reactivateLoop]
      exact Slot.when_congr ⟨fun h => h ▸ rfl, fun h => (Option.some.inj h).symm⟩ _ _

theorem branchKey_makeReady (sl : Slot) : sl.makeReady.branchKey = sl.branchKey := by
  cases h : sl.core <;> simp [Slot.branchKey, Slot.makeReady, h]

theorem activateEdges_frame (graph : DerivedWorkflowGraph) (n : WorkflowNodeDefinitionId) (key : Option String)
    (s : WorkflowRunState) : (activateEdges graph n key s).slot = s.slot ∧
    (activateEdges graph n key s).parentOf = s.parentOf ∧ (LineageOk s → LineageOk (activateEdges graph n key s)) :=
  ⟨rfl, rfl, fun h => ⟨h.ids, h.last⟩⟩

/-- **Activated successors.** When `n` is completed, its successors are made ready first, then the loop node that its
dispatch came from is re-activated, and last the joins that wait for it. -/
theorem activateSuccessors_spec (hok : LineageOk s) (hn : n ∈ s.completedNodeIds)
    (h : activateSuccessors s graph n transition key = .ok s') : Activated s s' graph n key := by
  obtain ⟨s₂, hready, h⟩ := bind_eq_ok.mp h
  change (readiedIds s graph n key).foldlM _ _ = _ at hready
  obtain ⟨hslot₁, hparent₁, hok₁⟩ := activateEdges_frame graph n key s
  obtain ⟨hsame₂, hnodup₂, hok₂, hparent₂⟩ := readySuccessors_spec hready (hok₁ hok)
  have hslot₂ := slot_foldlM Slot.makeReady_makeReady slot_readySuccessor hready
  rw [hslot₁] at hslot₂
  rw [hparent₁] at hparent₂
  have hloop : loopToReactivate s₂ graph n = loopToReactivate s graph n := by
    refine loopToReactivate_congr ?_ fun p _ => ?_
    · rw [hparent₂, if_neg (not_mem_readiedIds hn)]
    · rw [hslot₂, Slot.when]
      split_ifs
      · exact branchKey_makeReady _
      · rfl
  obtain ⟨hsame₃, hnodup₃, hok₃, hparent₃, hslot₃⟩ :=
    reactivateParentLoop_spec graph n transition (occurredAt transition s.updatedAt) hok₂
  unfold resetBodyIds at hslot₃
  simp only [hloop] at hslot₃ hparent₃
  generalize reactivateParentLoop graph n transition (occurredAt transition s.updatedAt) s₂ = s₃ at *
  obtain ⟨hsame₄, hnodup₄, hok₄, hparent₄⟩ := reactivateJoins_spec h hok₃
  have hslot₄ := slot_foldlM Slot.reactivateJoin_reactivateJoin slot_reactivateJoin h
  have hjoins : ∀ j, j ∈ waitingJoinNodeIds s₃ graph n ↔ j ∈ waitingJoinNodeIds s graph n := by
    intro j
    have hwaiting : (s₃.slot j).waiting = (s.slot j).waiting := by
      rw [hslot₃, hslot₂]
      simp only [Slot.when]
      split_ifs <;> rfl
    rw [mem_waitingJoinNodeIds, mem_waitingJoinNodeIds, hwaiting]
  refine ⟨fun j hj => hslot₁ ▸ known_of_readySuccessors hready j hj, fun j => ?_, fun j => ?_, hok₄, ?_, ?_, ?_,
    fun hnd => ?_⟩
  · rw [hslot₄, Slot.when_congr (hjoins j), hslot₃, hslot₂]
    rfl
  · rw [hparent₄, hparent₃, hparent₂]
  · exact (hsame₂.trans (hsame₃.trans hsame₄)).status
  · exact (hsame₂.trans (hsame₃.trans hsame₄)).checkpointState
  · exact (hsame₂.trans (hsame₃.trans hsame₄)).activatedEdgeIds
  · exact hnodup₄ (hnodup₃ (hnodup₂ ⟨hnd.ready, hnd.waiting, hnd.blocked, hnd.completed⟩))

/-! ## Race losers -/

/-- A node that the race search may skip: known, and neither completed nor skipped. -/
def Cancellable (s : WorkflowRunState) (m : WorkflowNodeDefinitionId) : Prop :=
  s.nodeStatus m ≠ none ∧ isResolved (s.nodeStatus m) = false

/-- A node that loses the race which `n` wins: a sibling branch, or below one, through nodes not resolved yet. -/
def RaceLoser (s : WorkflowRunState) (graph : DerivedWorkflowGraph) (n m : WorkflowNodeDefinitionId) : Prop :=
  Reached graph.successors (Cancellable s) (raceSiblings s graph n) m

structure RaceCancelled (s s' : WorkflowRunState) (graph : DerivedWorkflowGraph) (n : WorkflowNodeDefinitionId) :
    Prop where
  losers : ∀ j, RaceLoser s graph n j → s'.slot j = (s.slot j).skip
  others : ∀ j, ¬RaceLoser s graph n j → s'.slot j = s.slot j
  parent : ∀ j, s'.parentOf j = s.parentOf j
  lineage : LineageOk s'
  same : SameRun s s'
  completed : s'.completedNodeIds = s.completedNodeIds
  nodup : ListsNodup s → ListsNodup s'

theorem skipNode_frame (n m : WorkflowNodeDefinitionId) (timestamp : Timestamp) (s : WorkflowRunState) :
    SameRun s (skipNode n timestamp s m) ∧ (skipNode n timestamp s m).completedNodeIds = s.completedNodeIds ∧
      (ListsNodup s → ListsNodup (skipNode n timestamp s m)) :=
  ⟨⟨rfl, rfl, rfl⟩, rfl, fun hn => ⟨nodup_removeNodeId hn.ready, nodup_removeNodeId hn.waiting,
    nodup_removeNodeId hn.blocked, hn.completed⟩⟩

theorem skipDescendants_spec (graph : DerivedWorkflowGraph) (n : WorkflowNodeDefinitionId) (timestamp : Timestamp)
    (s₀ : WorkflowRunState) : ∀ (turns : Nat) (todo done : List WorkflowNodeDefinitionId) (s : WorkflowRunState),
    cost graph.successors s₀.nodeStates.keys todo done ≤ turns →
      (∀ j, s.slot j = (s₀.slot j).when (j ∈ done) Slot.skip) → LineageOk s →
      ∃ fin, Explores graph.successors (Cancellable s₀) todo done fin ∧
        (∀ j, (skipDescendants graph n timestamp turns todo done s).slot j = (s₀.slot j).when (j ∈ fin) Slot.skip) ∧
        (∀ j, (skipDescendants graph n timestamp turns todo done s).parentOf j = s.parentOf j) ∧
        LineageOk (skipDescendants graph n timestamp turns todo done s) ∧
        SameRun s (skipDescendants graph n timestamp turns todo done s) ∧
        (skipDescendants graph n timestamp turns todo done s).completedNodeIds = s.completedNodeIds ∧
        (ListsNodup s → ListsNodup (skipDescendants graph n timestamp turns todo done s)) := by
  intro turns
  induction turns with
  | zero =>
    intro todo done s hcost hslot hok
    have htodo : todo = [] := List.length_eq_zero_iff.mp (by simp only [cost] at hcost; omega)
    subst htodo
    exact ⟨done, .nil, hslot, fun _ => rfl, hok, .refl s, rfl, id⟩
  | succ turns ih =>
    intro todo done s hcost hslot hok
    cases todo with
    | nil => exact ⟨done, .nil, hslot, fun _ => rfl, hok, .refl s, rfl, id⟩
    | cons targetId todo =>
      have hdrop := cost_drop graph.successors s₀.nodeStates.keys targetId todo done
      rw [skipDescendants]
      by_cases hdone : targetId ∈ done
      · rw [if_pos hdone]
        obtain ⟨fin, hfin, hrest⟩ := ih todo done s (by omega) hslot hok
        exact ⟨fin, .drop (.inl hdone) hfin, hrest⟩
      have hstatus : s.nodeStatus targetId = s₀.nodeStatus targetId := by
        rw [← WorkflowRunState.status_slot, hslot, Slot.when_neg hdone, WorkflowRunState.status_slot]
      rw [if_neg hdone, hstatus]
      by_cases hkeep : Cancellable s₀ targetId
      · rw [if_neg (by rintro (h | h); exacts [hkeep.1 h, by simp [hkeep.2] at h])]
        have hmem : targetId ∈ s₀.nodeStates.keys := by
          by_contra hnot
          exact hkeep.1 (by simp [WorkflowRunState.nodeStatus, WorkflowRunState.node?, Record.get?_eq_none.mpr hnot])
        have hvisit := cost_visit graph.successors s₀.nodeStates.keys s₀.nodeStates.nodup todo hdone hmem
        obtain ⟨hok', hparent⟩ := skipNode_lineage n targetId timestamp hok
        obtain ⟨hsame, hcompleted, hnodup⟩ := skipNode_frame n targetId timestamp s
        obtain ⟨fin, hfin, hslot', hparent', hok'', hsame', hcompleted', hnodup'⟩ :=
          ih (todo ++ graph.successors targetId) (targetId :: done) (skipNode n timestamp s targetId) (by omega)
            (fun j => by
              rw [slot_skipNode, hslot]
              rcases eq_or_ne j targetId with rfl | hj
              · rw [if_pos rfl, Slot.when_neg hdone, Slot.when_pos List.mem_cons_self]
              · rw [if_neg hj]
                exact Slot.when_congr (by simp [hj]) _ _) hok'
        exact ⟨fin, .visit hdone hkeep (fun b => List.mem_append) hfin, hslot',
          fun j => (hparent' j).trans (hparent j), hok'', hsame.trans hsame', hcompleted'.trans hcompleted,
          fun hn => hnodup' (hnodup hn)⟩
      · rw [if_pos (by
          by_contra hnot
          rw [not_or] at hnot
          exact hkeep ⟨hnot.1, by simpa using hnot.2⟩)]
        obtain ⟨fin, hfin, hrest⟩ := ih todo done s (by omega) hslot hok
        exact ⟨fin, .drop (.inr hkeep) hfin, hrest⟩

/-- **Race losers.** The search skips the losers of the race, and touches no other node. -/
theorem cancelRaceLosers_spec (graph : DerivedWorkflowGraph) (n : WorkflowNodeDefinitionId)
    (transition : WorkflowTransitionInput) (hok : LineageOk s) :
    RaceCancelled s (cancelRaceLosers s graph n transition) graph n := by
  obtain ⟨fin, hfin, hslot, hparent, hok', hsame, hcompleted, hnodup⟩ :=
    skipDescendants_spec graph n (occurredAt transition s.updatedAt) s
      (raceTurns s graph (raceSiblings s graph n)) (raceSiblings s graph n) [] s
      (by simp [cost, raceTurns]) (fun j => (Slot.when_neg List.not_mem_nil).symm) hok
  exact ⟨fun j hj => (hslot j).trans (Slot.when_pos (hfin.mem_iff.mpr hj)),
    fun j hj => (hslot j).trans (Slot.when_neg (hfin.mem_iff.not.mpr hj)), hparent, hok', hsame, hcompleted, hnodup⟩

end

end NousCore.Workflow
