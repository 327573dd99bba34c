import NousCore.Workflow.Step

/-!
# The initial run state

* `initialCore` : a node before the run;
* `Initial graph s` : `s` is the state `createInitialWorkflowRunState` makes for the graph;
* `Initial.slot`, `Initial.lineage` : what it says about every node.
-/

namespace NousCore.Workflow

def Initial (graph : DerivedWorkflowGraph) (s : WorkflowRunState) : Prop :=
  ∃ input, input.graph = graph ∧ createInitialWorkflowRunState input = .ok s

def initialCore (isReady : Bool) : NodeCore where
  status := if isReady then .ready else .pending
  attempts := []
  activeAttempt := none
  activeWaitState := none
  selectedBranchKey := none

/-- The invariant of the fold that builds the node states and the first lineages. -/
structure BuiltNodes (ready order : List WorkflowNodeDefinitionId)
    (built : List (WorkflowNodeDefinitionId × WorkflowNodeRunState) × List WorkflowDispatchLineage) : Prop where
  keys : built.1.map Prod.fst = order
  core : ∀ e ∈ built.1, e.2.core = initialCore (decide (e.1 ∈ ready))
  last : ∀ e ∈ built.1, ∀ id, e.2.lastDispatchLineageId = some id → id < built.2.length
  ids : ∀ lineage ∈ built.2, lineage.id < built.2.length ∧ lineage.parentNodeDefinitionId = none

theorem BuiltNodes.step {runId : WorkflowExecutionId} {ready order : List WorkflowNodeDefinitionId}
    {transition : WorkflowTransitionInput} {timestamp : Timestamp}
    {built : List (WorkflowNodeDefinitionId × WorkflowNodeRunState) × List WorkflowDispatchLineage}
    (h : BuiltNodes ready order built) (n : WorkflowNodeDefinitionId) :
    BuiltNodes ready (order ++ [n]) (initialNode runId ready transition timestamp built n) := by
  have hlen : built.2.length ≤ (initialNode runId ready transition timestamp built n).2.length := by
    simp only [initialNode]
    split_ifs <;> simp
  refine ⟨?_, fun e he => ?_, fun e he id hid => ?_, fun lineage hl => ?_⟩
  · simp [initialNode, h.keys]
  · rcases List.mem_append.mp he with he | he
    · exact h.core e he
    · rw [List.mem_singleton.mp he]
      rfl
  · rcases List.mem_append.mp he with he | he
    · exact (h.last e he id hid).trans_le hlen
    · rw [List.mem_singleton.mp he] at hid
      simp only [initialNode] at hid ⊢
      split_ifs at hid ⊢ with hr
      · simp only [createDispatchLineage, Option.some.injEq] at hid
        simp [← hid]
  · simp only [initialNode] at hl hlen ⊢
    split_ifs at hl hlen ⊢ with hr
    · rcases List.mem_append.mp hl with hl | hl
      · exact ⟨(h.ids lineage hl).1.trans_le hlen, (h.ids lineage hl).2⟩
      · rw [List.mem_singleton.mp hl]
        exact ⟨by simp [createDispatchLineage], rfl⟩
    · exact h.ids lineage hl

theorem builtNodes_foldl {runId : WorkflowExecutionId} {ready : List WorkflowNodeDefinitionId}
    {transition : WorkflowTransitionInput} {timestamp : Timestamp} :
    ∀ (l order : List WorkflowNodeDefinitionId)
      (built : List (WorkflowNodeDefinitionId × WorkflowNodeRunState) × List WorkflowDispatchLineage),
      BuiltNodes ready order built →
        BuiltNodes ready (order ++ l) (l.foldl (initialNode runId ready transition timestamp) built)
  | [], order, built, h => by simpa using h
  | n :: l, order, built, h => by
    rw [List.foldl_cons, List.append_cons]
    exact builtNodes_foldl l _ _ (h.step n)

structure InitialSpec (graph : DerivedWorkflowGraph) (s : WorkflowRunState) : Prop where
  core : ∀ j, (s.slot j).core =
    if j ∈ graph.topologicalOrder then some (initialCore (decide (j ∈ getInitialReadyNodeIds graph))) else none
  ready : s.readyNodeIds = getInitialReadyNodeIds graph
  active : s.activeNodeIds = getInitialReadyNodeIds graph
  waiting : s.waitingNodeIds = []
  blocked : s.blockedNodeIds = []
  completed : s.completedNodeIds = []
  edges : s.activatedEdgeIds = []
  status : s.status = .ready
  checkpointState : s.checkpointState = .idle
  lineage : LineageOk s
  parent : ∀ j, s.parentOf j = none

theorem initialBuilt_spec (input : CreateInitialWorkflowRunStateInput) (transition : WorkflowTransitionInput) :
    BuiltNodes (getInitialReadyNodeIds input.graph) input.graph.topologicalOrder (initialBuilt input transition) :=
  builtNodes_foldl input.graph.topologicalOrder [] ([], []) ⟨rfl, by simp, by simp, by simp⟩

theorem Initial.spec {graph : DerivedWorkflowGraph} {s : WorkflowRunState} (h : Initial graph s) :
    InitialSpec graph s := by
  obtain ⟨input, rfl, h⟩ := h
  unfold createInitialWorkflowRunState at h
  split_ifs at h
  cases WorkflowRunStateSchema.parse_ok h
  generalize input.transition.getD _ = transition
  have hbuilt := initialBuilt_spec input transition
  have hread : ∀ j nodeState, (initialState input transition).node? j = some nodeState →
      (j, nodeState) ∈ (initialBuilt input transition).1 := fun _ _ => Record.mem_of_get?_ofEntries
  have hlineage : LineageOk (initialState input transition) := by
    refine ⟨fun lineage hl => (hbuilt.ids lineage hl).1, fun j id hid => ?_⟩
    obtain ⟨nodeState, hnode, hlast⟩ := Option.bind_eq_some_iff.mp hid
    exact hbuilt.last _ (hread j nodeState hnode) id hlast
  refine ⟨fun j => ?_, rfl, rfl, rfl, rfl, rfl, rfl, rfl, rfl, hlineage, fun j => ?_⟩
  · split_ifs with hj
    · obtain ⟨nodeState, hnode⟩ := Record.exists_get?_ofEntries.mpr (hbuilt.keys.symm ▸ hj :
        j ∈ (initialBuilt input transition).1.map Prod.fst)
      rw [WorkflowRunState.slot, show (initialState input transition).node? j = some nodeState from hnode,
        Option.map_some, hbuilt.core _ (hread j nodeState hnode)]
    · rw [core_slot_eq_none, WorkflowRunState.node?, Record.get?_eq_none, Record.mem_keys]
      rintro ⟨nodeState, hnode⟩
      exact hj (hbuilt.keys ▸ List.mem_map.mpr ⟨_, hread j nodeState hnode, rfl⟩)
  · rw [WorkflowRunState.parentOf, Option.bind_eq_none_iff]
    intro lineage hl
    rw [WorkflowRunState.lastLineage_eq, Option.bind_eq_some_iff] at hl
    obtain ⟨id, -, hfind⟩ := hl
    exact (hbuilt.ids lineage (List.mem_of_find?_eq_some hfind)).2

end NousCore.Workflow
