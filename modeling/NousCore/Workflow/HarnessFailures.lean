import NousCore.Workflow.HarnessTurns
import NousCore.Workflow.Completion
import NousCore.Workflow.Cores

/-!
# Failures under the dispatch harness

* `Unsuccessful graph s n` : the engine does not take `n` for completed, and no edge is activated because of it;
* `Unsuccessful.step` : only an operation that completes `n` makes a success of it.
-/

namespace NousCore.Workflow

/-! ## A node that is no success -/

structure Unsuccessful (graph : DerivedWorkflowGraph) (s : WorkflowRunState) (n : WorkflowNodeDefinitionId) : Prop where
  status : s.nodeStatus n ≠ some .completed
  listed : n ∉ s.completedNodeIds
  edges : ∀ e ∈ s.activatedEdgeIds, graph.source e ≠ some n

section

variable {graph : DerivedWorkflowGraph} {s s' s₁ s₂ s₃ : WorkflowRunState} {n m : WorkflowNodeDefinitionId}
  {op : RunStateOp} {outcome : WorkflowNodeOutcome} {core core' : NodeCore} {key : Option String}

theorem Built.source_of_activated (hgraph : Built graph) {kind : Option WorkflowNodeKind} {e : WorkflowEdgeId}
    (he : e ∈ getActivatedOutboundEdgeIds graph m key kind) : graph.source e = some m := by
  have hedge : ∃ i ∈ graph.outboundEdgeIds m, ∃ edge, graph.edges.get? i = some edge ∧ edge.id = e := by
    unfold getActivatedOutboundEdgeIds at he
    have hmem : e ∈ (sortEdges ((graph.outboundEdgeIds m).filterMap graph.edges.get?)).map (·.id) := by
      split_ifs at he
      · exact he
      · split at he
        · exact (List.Sublist.map _ List.filter_sublist).subset he
        · exact (List.Sublist.map _ List.filter_sublist).subset he
    obtain ⟨edge, hedge, rfl⟩ := List.mem_map.mp hmem
    obtain ⟨i, hi, hget⟩ := List.mem_filterMap.mp (mem_sortEdges.mp hedge)
    exact ⟨i, hi, edge, hget, rfl⟩
  obtain ⟨i, hi, edge, hget, rfl⟩ := hedge
  obtain ⟨_, definition, hok⟩ := hgraph
  obtain ⟨-, hv, rfl⟩ := buildDerivedWorkflowGraph_ok hok
  obtain ⟨hedge, rfl⟩ := (get?_edges_derivedGraph hv).mp hget
  obtain ⟨edge', hedge', rfl, hid⟩ := (mem_outboundEdgeIds_derivedGraph hv).mp hi
  obtain rfl : edge' = edge := List.inj_on_of_nodup_map hv.edges.ids hedge' hedge hid
  rw [DerivedWorkflowGraph.source, hget, Option.map_some]

theorem Initial.unsuccessful (hinit : Initial graph s) (n : WorkflowNodeDefinitionId) : Unsuccessful graph s n := by
  have hs := hinit.spec
  refine ⟨?_, by simp [hs.completed], by simp [hs.edges]⟩
  rw [← WorkflowRunState.status_slot, Slot.status, hs.core]
  split_ifs with hn
  · by_cases hready : n ∈ getInitialReadyNodeIds graph <;> simp [initialCore, hready]
  · simp

theorem Slot.completed_when {P : Prop} [Decidable P] {f : Slot → Slot} {sl : Slot}
    (hf : (f sl).completed → sl.completed) (h : (sl.when P f).completed) : sl.completed := by
  unfold Slot.when at h
  split_ifs at h
  · exact hf h
  · exact h

theorem Activated.completed_subset (h : Activated s s' graph m key) (hn : (s'.slot n).completed) :
    (s.slot n).completed := by
  rw [h.slot] at hn
  have hloop := Slot.completed_when (f := Slot.reactivateJoin) id hn
  have hbody := Slot.completed_when (f := Slot.reactivateLoop) False.elim hloop
  have hready := Slot.completed_when (f := Slot.resetBody) False.elim hbody
  exact Slot.completed_when (f := Slot.makeReady) id hready

namespace NodeStep

theorem completed_subset (h : NodeStep graph s op s' m outcome core core' s₁ s₂ s₃) (hn : n ∈ s'.completedNodeIds) :
    n ∈ s.completedNodeIds ∨ n = m ∧ outcome = .completed := by
  have hslot : (s'.slot n).completed := hn
  rw [h.finished.slot] at hslot
  by_cases hout : outcome = .completed
  · have hlisted : n ∈ s₂.completedNodeIds := (h.activated hout).completed_subset hslot
    rcases List.mem_cons.mp ((h.completed₂ hout n).mp hlisted) with rfl | hn
    · exact .inr ⟨rfl, hout⟩
    · exact .inl hn
  · rw [h.other hout] at hslot
    by_cases hnm : n = m
    · subst hnm
      exact .inl ((h.settled.completed.mp hslot).resolve_right hout)
    · rw [h.moved.others n hnm] at hslot
      exact .inl hslot

theorem edges_subset (h : NodeStep graph s op s' m outcome core core' s₁ s₂ s₃) (hgraph : Built graph)
    {e : WorkflowEdgeId} (he : e ∈ s'.activatedEdgeIds) :
    e ∈ s.activatedEdgeIds ∨ graph.source e = some m ∧ outcome = .completed := by
  rw [h.finished.edges] at he
  by_cases hout : outcome = .completed
  · rw [(h.activated hout).edges, activateEdges, List.mem_eraseDups, List.mem_append, h.edges₂ hout] at he
    exact he.imp_right fun hactivated => ⟨hgraph.source_of_activated hactivated, hout⟩
  · rw [h.other hout, h.moved.edges] at he
    exact .inl he

end NodeStep

/-- **One operation.** Only an operation that completes `n` makes a success of it. -/
theorem Unsuccessful.step (h : Unsuccessful graph s n) (hgraph : Built graph) (hlineage : LineageOk s)
    (hop : applyRunStateOp graph s op = .ok s') (htarget : op.target = some (m, outcome))
    (hnot : n = m → outcome ≠ .completed) : Unsuccessful graph s' n := by
  obtain ⟨core, core', s₁, s₂, s₃, hstep⟩ := nodeStep_spec hlineage htarget hop
  refine ⟨fun hcompleted => ?_, fun hlisted => ?_, fun e he hsource => ?_⟩
  · rw [← WorkflowRunState.status_slot] at hcompleted
    obtain ⟨taken, htaken, hstatus⟩ := Option.map_eq_some_iff.mp hcompleted
    obtain ⟨before, hbefore, hkeeps | ⟨outcome', taken', htarget', htakes, hkeeps⟩⟩ := core_cases hlineage hop htaken
    · apply h.status
      rw [← WorkflowRunState.status_slot, Slot.status, hbefore, Option.map_some, hkeeps.completed hstatus]
    · have hout := (htakes.status htarget').symm.trans (hkeeps.completed hstatus)
      rw [htarget, Option.some.injEq, Prod.mk.injEq] at htarget'
      obtain ⟨rfl, rfl⟩ := htarget'
      apply hnot rfl
      cases outcome <;> first | rfl | cases hout
  · rcases hstep.completed_subset hlisted with hlisted | ⟨hm, hout⟩
    · exact h.listed hlisted
    · exact hnot hm hout
  · rcases hstep.edges_subset hgraph he with he | ⟨hm, hout⟩
    · exact h.edges e he hsource
    · exact hnot (Option.some.inj (hsource.symm.trans hm)) hout

end

/-! ## Runs of the harness -/

/-- Some dispatch of `n` returned `completed`. -/
def HarnessAction.succeeds (n : WorkflowNodeDefinitionId) : HarnessAction → Bool
  | answer m (.returned result) => m = n ∧ result.status = .completed
  | _ => false

def HarnessState.succeeded (h : HarnessState) (n : WorkflowNodeDefinitionId) : Bool := h.actions.any (·.succeeds n)

/-- The turn reports no failure of a node that the engine could still complete, unless the node succeeded before. -/
def SparesFailures (config : WorkflowDispatchHarnessConfig) (h : HarnessState) (event : HarnessEvent) : Prop :=
  ∀ n ∈ h.reportsFailure config event,
    h.engine.nodeStatus n ∉ [some .ready, some .running] ∨ h.succeeded n = true

instance (config : WorkflowDispatchHarnessConfig) (h : HarnessState) (event : HarnessEvent) :
    Decidable (SparesFailures config h event) :=
  match hreports : h.reportsFailure config event with
  | none => .isTrue fun n hn => by simp [hreports] at hn
  | some n =>
    decidable_of_iff (h.engine.nodeStatus n ∉ [some .ready, some .running] ∨ h.succeeded n = true)
      (by simp [SparesFailures, hreports])

section

variable {graph : DerivedWorkflowGraph} {config : WorkflowDispatchHarnessConfig} {h h' : HarnessState}
  {event : HarnessEvent} {n : WorkflowNodeDefinitionId}

/-- The loop over the internal nodes runs over internal nodes. -/
def OnlyInternal (graph : DerivedWorkflowGraph) (h : HarnessState) : Prop :=
  ∀ internalNodes dispatchedNodes, h.phase = .executing internalNodes dispatchedNodes →
    ∀ n ∈ internalNodes, graph.executionMode n = some .internal

theorem settleDispatch_isPrefix (graph : DerivedWorkflowGraph) (h : HarnessState) (n : WorkflowNodeDefinitionId)
    (outcome : DispatchOutcome) : (h.act (.answer n outcome)).actions <+: (h.settleDispatch graph n outcome).actions := by
  unfold HarnessState.settleDispatch HarnessState.report
  dsimp only
  split
  · split
    · exact List.prefix_append _ _
    · exact List.prefix_rfl
  · split_ifs
    · exact List.prefix_rfl
    · split
      · exact List.prefix_append _ _
      · exact List.prefix_rfl

theorem HarnessTurn.actions_prefix (hturn : HarnessTurn graph config h event h') : h.actions <+: h'.actions := by
  cases hturn with
  | decide hphase =>
    obtain ⟨phase, hdecide, -⟩ := decide_cases graph h
    rw [hdecide]
    exact List.prefix_append _ _
  | @exceed n internalNodes dispatchedNodes hphase hlimit =>
    unfold HarnessState.exceedInternal
    split
    · exact List.prefix_append _ _
    · exact List.prefix_rfl
  | @execute n internalNodes dispatchedNodes deps hphase hlimit =>
    unfold HarnessState.executeInternal
    split
    · unfold HarnessState.actExecuted
      split_ifs
      · exact List.prefix_append _ _
      · exact List.prefix_rfl
    · split
      · exact List.prefix_append _ _
      · exact List.prefix_rfl
  | toBatches hphase hlimit => exact List.prefix_rfl
  | @start n batch inFlight batches hphase =>
    unfold HarnessState.startDispatch HarnessState.report
    dsimp only
    split_ifs
    · split
      · exact List.prefix_append _ _
      · exact List.prefix_rfl
    · exact List.prefix_append _ _
  | @settle n outcome inFlight batches hphase hmem =>
    have hanswer : h.actions <+: (h.act (.answer n outcome)).actions := List.prefix_append _ _
    exact hanswer.trans (settleDispatch_isPrefix graph h n outcome)
  | nextBatch | refresh => exact List.prefix_rfl

theorem HarnessTurn.succeeded (hturn : HarnessTurn graph config h event h') (hsucceeded : h.succeeded n = true) :
    h'.succeeded n = true := by
  obtain ⟨action, haction, hn⟩ := List.any_eq_true.mp hsucceeded
  exact List.any_eq_true.mpr ⟨action, hturn.actions_prefix.subset haction, hn⟩

theorem HarnessTurn.onlyInternal (hturn : HarnessTurn graph config h event h') (h₀ : OnlyInternal graph h) :
    OnlyInternal graph h' := by
  intro internalNodes dispatchedNodes hphase' n hn
  cases hturn with
  | decide hphase =>
    obtain ⟨phase, hdecide, ⟨suspended, rfl⟩ | ⟨-, -, rfl⟩⟩ := decide_cases graph h
    · rw [hdecide] at hphase'
      cases hphase'
    · rw [hdecide] at hphase'
      cases hphase'
      exact of_decide_eq_true (List.mem_filter.mp hn).2
  | @exceed m rest dispatched hphase hlimit =>
    unfold HarnessState.exceedInternal at hphase'
    split at hphase'
    · cases hphase'
      exact h₀ _ _ hphase n (List.mem_cons_of_mem _ hn)
    · cases hphase'
  | @execute m rest dispatched deps hphase hlimit =>
    unfold HarnessState.executeInternal at hphase'
    split at hphase'
    · cases hphase'
      exact h₀ _ _ hphase n (List.mem_cons_of_mem _ hn)
    · split at hphase'
      · cases hphase'
        exact h₀ _ _ hphase n (List.mem_cons_of_mem _ hn)
      · cases hphase'
  | toBatches hphase hlimit => cases hphase'
  | start hphase =>
    unfold HarnessState.startDispatch at hphase'
    dsimp only at hphase'
    split_ifs at hphase' <;> cases hphase'
  | settle | nextBatch => cases hphase'
  | refresh hphase =>
    unfold HarnessState.refresh at hphase'
    dsimp only [HarnessState.enter] at hphase'
    split_ifs at hphase'

theorem nodeStatus_of_complete {s s' : WorkflowRunState} {transition : WorkflowTransitionInput}
    (hop : applyRunStateOp graph s (.complete n transition) = .ok s') : s.nodeStatus n ∈ [some .ready, some .running] := by
  unfold applyRunStateOp completeWorkflowNodeInRunState at hop
  dsimp only at hop
  split at hop
  · cases hop
  · next nodeState hnode =>
    split_ifs at hop with hstatus
    rw [WorkflowRunState.nodeStatus, hnode, Option.map_some]
    simpa using hstatus

/-- What holds of a dispatched node along a run. -/
structure FailureInv (graph : DerivedWorkflowGraph) (n : WorkflowNodeDefinitionId) (h : HarnessState) : Prop where
  lineage : LineageOk h.engine
  internal : OnlyInternal graph h
  outcome : h.succeeded n = true ∨ Unsuccessful graph h.engine n

theorem FailureInv.step (hinv : FailureInv graph n h) (hgraph : Built graph)
    (hmode : graph.executionMode n = some .dispatched) (hturn : HarnessTurn graph config h event h')
    (hspares : SparesFailures config h event) : FailureInv graph n h' := by
  have hlineage : LineageOk h'.engine := by
    obtain heq | ⟨op, m, outcome, -, hop⟩ := hturn.engages.operation
    · exact heq ▸ hinv.lineage
    · exact applyRunStateOp_lineage hinv.lineage hop
  refine ⟨hlineage, hturn.onlyInternal hinv.internal, ?_⟩
  rcases hinv.outcome with hsucceeded | hbefore
  · exact .inl (hturn.succeeded hsucceeded)
  have hengages := hturn.engages
  generalize hengine : h'.engine = t at hengages
  cases hengages with
  | idle => exact .inr (hengine ▸ hbefore)
  | @internal _ _ m internalNodes dispatchedNodes op outcome hphase htarget hop =>
    have hinternal := hinv.internal _ _ hphase m List.mem_cons_self
    refine .inr (hbefore.step hgraph hinv.lineage hop htarget fun hnm => ?_)
    rw [hnm, hinternal] at hmode
    cases hmode
  | @answered _ m result transition hcompleted hop =>
    by_cases hnm : n = m
    · subst hnm
      left
      cases hturn with
      | settle hphase hmem =>
        refine List.any_eq_true.mpr ⟨.answer n (.returned result), ?_, by simp [HarnessAction.succeeds, hcompleted]⟩
        exact (settleDispatch_isPrefix graph h n _).subset (List.mem_append_right _ List.mem_cons_self)
    · exact .inr (hbefore.step hgraph hinv.lineage hop rfl fun he => absurd he hnm)
  | @failed _ _ m transition hreports hop =>
    by_cases hnm : n = m
    · subst hnm
      rcases hspares n hreports with hstatus | hsucceeded
      · exact absurd (nodeStatus_of_complete hop) hstatus
      · exact .inl (hturn.succeeded hsucceeded)
    · exact .inr (hbefore.step hgraph hinv.lineage hop rfl fun he => absurd he hnm)

/-- **No failure turns into a success.** In every harness run that reports no failure of a node that the engine could
still complete, a dispatched node none of whose dispatches returned `completed` is not completed in the engine, is not
among the completed nodes, and has activated no edge. -/
theorem unsuccessful_of_run (hgraph : Built graph) {s₀ s : WorkflowRunState} (hinit : Initial graph s₀)
    {ops : List RunStateOp} (hops : Run (RunStateStep graph) s₀ ops s) {events : List HarnessEvent}
    (hrun : Run (Guarded (HarnessStep graph config) (SparesFailures config)) (HarnessState.start s) events h)
    (hmode : graph.executionMode n = some .dispatched) (hbefore : Unsuccessful graph s n)
    (hfailed : ∀ result, .answer n (.returned result) ∈ h.actions → result.status ≠ .completed) :
    Unsuccessful graph h.engine n := by
  have hlineage : LineageOk s := hops.invariant (P := LineageOk) (fun _ _ _ hl hop => applyRunStateOp_lineage hl hop)
    hinit.spec.lineage
  have hinv : FailureInv graph n h := by
    refine hrun.invariant (P := FailureInv graph n) (fun t event u hinv hstep => ?_)
      ⟨hlineage, fun _ _ hphase => (by cases hphase), .inr hbefore⟩
    exact hinv.step hgraph hmode (harnessTurn_of_step hstep.1) hstep.2
  refine hinv.outcome.resolve_left fun hsucceeded => ?_
  obtain ⟨action, haction, hn⟩ := List.any_eq_true.mp hsucceeded
  unfold HarnessAction.succeeds at hn
  split at hn
  · next m result =>
    obtain ⟨rfl, hcompleted⟩ := of_decide_eq_true hn
    exact hfailed result haction hcompleted
  · cases hn

end

/-! ### A node whose agent fails -/

/-- Two nodes for agents to begin with, the first of which leads to a third node. -/
def agentDefinition : WorkflowDefinition where
  id := 1
  projectId := 1
  version := "1"
  name := "agents"
  entryNodeIds := [1, 3]
  nodes := [{ sampleNode 1 (.modelCall "writer" "prompt" none) with outputSchemaRef := some "schema://output" },
    sampleNode 2 (.transform "t" "m"),
    { sampleNode 3 (.modelCall "reader" "prompt" none) with outputSchemaRef := some "schema://output" }]
  edges := [⟨1, 1, 2, none, 0⟩]

def agentConfig : WorkflowDispatchHarnessConfig := ⟨none, none⟩

/-- Both dispatches start, and settle as told. -/
def agentEvents (first second : DispatchOutcome) : List HarnessEvent :=
  [.proceed, .proceed, .proceed, .proceed, .proceed, .settle 1 first, .settle 3 second]

/-- The first agent succeeds, and the second is suspended. -/
theorem agentRun_unsuccessful : ∃ graph s h, Built graph ∧ Initial graph s ∧
    Run (Guarded (HarnessStep graph agentConfig) (SparesFailures agentConfig)) (HarnessState.start s)
      (agentEvents (.returned ⟨.completed, 7⟩) (.returned ⟨.suspended, 7⟩)) h ∧
    h.engine.nodeStatus 1 = some .completed ∧ Unsuccessful graph h.engine 3 := by
  obtain ⟨graph, s, h, hgraph, hinit, hrun, hcheck⟩ := exists_harnessRun_of_check (SparesFailures agentConfig)
    agentDefinition agentConfig (agentEvents (.returned ⟨.completed, 7⟩) (.returned ⟨.suspended, 7⟩))
    (fun graph h => h.engine.nodeStatus 1 = some .completed ∧ graph.executionMode 3 = some .dispatched ∧
      !h.succeeded 3)
    (by decide +kernel)
  obtain ⟨hcompleted, hmode, hfailed⟩ := of_decide_eq_true hcheck
  refine ⟨graph, s, h, hgraph, hinit, hrun, hcompleted, ?_⟩
  refine unsuccessful_of_run hgraph hinit .nil hrun hmode (hinit.unsuccessful 3) fun result hresult hstatus => ?_
  have hsucceeded : h.succeeded 3 = true :=
    List.any_eq_true.mpr ⟨_, hresult, by simp [HarnessAction.succeeds, hstatus]⟩
  simp [hsucceeded] at hfailed

/-- **A failure becomes a success.** The only dispatch of a node returns an error, and the engine completes the node and
activates the edge to its successor. -/
theorem failed_dispatch_completes : ∃ graph s events h, Built graph ∧ Initial graph s ∧
    Run (HarnessStep graph agentConfig) (HarnessState.start s) events h ∧
    graph.executionMode 1 = some .dispatched ∧ Unsuccessful graph s 1 ∧
    (∀ result, .answer 1 (.returned result) ∈ h.actions → result.status ≠ .completed) ∧
    h.engine.nodeStatus 1 = some .completed ∧ 1 ∈ h.engine.completedNodeIds ∧
    ∃ e ∈ h.engine.activatedEdgeIds, graph.source e = some 1 := by
  obtain ⟨graph, s, h, hgraph, hinit, hrun, hcheck⟩ := exists_harnessRun_of_check (fun _ _ => True)
    agentDefinition agentConfig (agentEvents (.returned ⟨.error, 7⟩) (.returned ⟨.suspended, 7⟩))
    (fun graph h => graph.executionMode 1 = some .dispatched ∧ !h.succeeded 1 ∧
      h.engine.nodeStatus 1 = some .completed ∧ 1 ∈ h.engine.completedNodeIds ∧
      ∃ e ∈ h.engine.activatedEdgeIds, graph.source e = some 1)
    (by decide +kernel)
  obtain ⟨hmode, hfailed, hcompleted, hlisted, hedge⟩ := of_decide_eq_true hcheck
  refine ⟨graph, s, _, h, hgraph, hinit, hrun.forget_guard, hmode, hinit.unsuccessful 1, fun result hresult hstatus => ?_,
    hcompleted, hlisted, hedge⟩
  have hsucceeded : h.succeeded 1 = true :=
    List.any_eq_true.mpr ⟨_, hresult, by simp [HarnessAction.succeeds, hstatus]⟩
  simp [hsucceeded] at hfailed

end NousCore.Workflow
