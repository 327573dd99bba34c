import NousCore.Workflow.Harness
import NousCore.Workflow.EngineRuns

/-!
# The turns of the dispatch harness

* `HarnessTurn`, `harnessTurn_of_step` : the turns that the loop takes, one constructor for each place it may stand at;
* `completeNode_eq_ok`, `executeReadyNode_ok` : the calls on the engine as operations on the run state.
-/

namespace NousCore.Workflow

open HarnessState

/-! ## Turns -/

/-- The turns of the loop, by where it stands. -/
inductive HarnessTurn (graph : DerivedWorkflowGraph) (config : WorkflowDispatchHarnessConfig) (h : HarnessState) :
    HarnessEvent → HarnessState → Prop
  | decide : h.phase = .deciding → HarnessTurn graph config h .proceed (h.decide graph)
  | exceed {n : WorkflowNodeDefinitionId} {internalNodes dispatchedNodes : List WorkflowNodeDefinitionId} :
      h.phase = .executing (n :: internalNodes) dispatchedNodes → config.attempts < (h.countAttempt n).attempts n →
      HarnessTurn graph config h .proceed ((h.countAttempt n).exceedInternal graph n internalNodes dispatchedNodes)
  | execute {n : WorkflowNodeDefinitionId} {internalNodes dispatchedNodes : List WorkflowNodeDefinitionId}
      (deps : WorkflowEngineDependencies) :
      h.phase = .executing (n :: internalNodes) dispatchedNodes → ¬config.attempts < (h.countAttempt n).attempts n →
      HarnessTurn graph config h (.execute deps)
        ((h.countAttempt n).executeInternal graph config deps n internalNodes dispatchedNodes)
  | toBatches {dispatchedNodes : List WorkflowNodeDefinitionId} : h.phase = .executing [] dispatchedNodes →
      (config.limit = 0 → dispatchedNodes = []) → HarnessTurn graph config h .proceed (h.toBatches config dispatchedNodes)
  | start {n : WorkflowNodeDefinitionId} {batch inFlight : List WorkflowNodeDefinitionId}
      {batches : List (List WorkflowNodeDefinitionId)} : h.phase = .dispatching (n :: batch) inFlight batches →
      HarnessTurn graph config h .proceed (h.startDispatch graph config n batch inFlight batches)
  | settle {n : WorkflowNodeDefinitionId} {outcome : DispatchOutcome} {inFlight : List WorkflowNodeDefinitionId}
      {batches : List (List WorkflowNodeDefinitionId)} : h.phase = .dispatching [] inFlight batches → n ∈ inFlight →
      HarnessTurn graph config h (.settle n outcome)
        ((h.settleDispatch graph n outcome).enter (.dispatching [] (inFlight.erase n) batches))
  | nextBatch {batch : List WorkflowNodeDefinitionId} {batches : List (List WorkflowNodeDefinitionId)} :
      h.phase = .dispatching [] [] (batch :: batches) →
      HarnessTurn graph config h .proceed (h.enter (.dispatching batch [] batches))
  | refresh : h.phase = .dispatching [] [] [] → HarnessTurn graph config h .proceed h.refresh

variable {deps : WorkflowEngineDependencies}

section

variable {graph : DerivedWorkflowGraph} {config : WorkflowDispatchHarnessConfig} {h h' : HarnessState}
  {event : HarnessEvent} {n : WorkflowNodeDefinitionId} {s t : WorkflowRunState}

theorem harnessTurn_of_step (hstep : HarnessStep graph config h event h') : HarnessTurn graph config h event h' := by
  unfold HarnessStep HarnessState.step at hstep
  split at hstep
  · next hphase =>
    cases hstep
    exact .decide hphase
  · next n internalNodes dispatchedNodes hphase =>
    split_ifs at hstep with hlimit
    cases hstep
    exact .exceed hphase hlimit
  · next n internalNodes dispatchedNodes deps hphase =>
    split_ifs at hstep with hlimit
    cases hstep
    exact .execute deps hphase hlimit
  · next dispatchedNodes hphase =>
    split_ifs at hstep with hlimit
    cases hstep
    exact .toBatches hphase fun hzero => by_contra fun hne => hlimit ⟨hzero, hne⟩
  · next n batch inFlight batches hphase =>
    cases hstep
    exact .start hphase
  · next inFlight batches n outcome hphase =>
    split_ifs at hstep with hmem
    cases hstep
    exact .settle hphase hmem
  · next batch batches hphase =>
    cases hstep
    exact .nextBatch hphase
  · next hphase =>
    cases hstep
    exact .refresh hphase
  · cases hstep

/-- Where the head of the loop goes: with no node ready, or a human decision among them, the loop is left. -/
theorem decide_cases (graph : DerivedWorkflowGraph) (h : HarnessState) : ∃ phase,
    h.decide graph = (h.act .iterate).enter phase ∧ ((∃ suspended, phase = .ended suspended) ∨
      h.currentState.readyNodeIds ≠ [] ∧
        (∀ n ∈ h.currentState.readyNodeIds, graph.nodeType n ≠ some .humanDecision) ∧
        phase = .executing (h.readyIn graph .internal) (h.readyIn graph .dispatched)) := by
  unfold HarnessState.decide
  dsimp only
  split_ifs with hready hhuman
  · exact ⟨_, rfl, .inl ⟨_, rfl⟩⟩
  · exact ⟨_, rfl, .inl ⟨_, rfl⟩⟩
  · refine ⟨_, rfl, .inr ⟨fun hnil => hready (by rw [hnil]; rfl), fun n hn htype => hhuman ?_, rfl⟩⟩
    exact List.length_pos_of_mem (List.mem_filter.mpr ⟨hn, decide_eq_true htype⟩)

/-! ## The calls on the engine -/

theorem effect_eq_ok {p : EngineProgram} : p.effect s = .ok t ↔ ∃ a, p.alone s = (.ok a, t) := by
  unfold Program.effect
  constructor
  · intro h
    cases hp : (p.alone s).1 with
    | error e => simp [hp, Except.map] at h
    | ok a =>
      simp only [hp, Except.map, Except.ok.injEq] at h
      exact ⟨a, Prod.ext hp h⟩
  · rintro ⟨a, h⟩
    simp [h, Except.map]

theorem completeNode_eq_ok {reasonCode : String} : h.completeNode graph n reasonCode = .ok t ↔
    completeWorkflowNodeInRunState h.engine graph n ⟨reasonCode, [], none⟩ = .ok t := by
  rw [HarnessState.completeNode, effect_eq_ok]
  constructor
  · rintro ⟨a, ha⟩
    exact (alone_synchronously.mp ha).1
  · intro ht
    exact ⟨t, alone_synchronously.mpr ⟨ht, rfl⟩⟩

theorem executeReadyNode_ok (hok : h.executeReadyNode graph deps n = .ok t) :
    ∃ result transition checkpointState prepared committed,
      applyRunStateOp graph h.engine (.record n result transition checkpointState prepared committed) = .ok t := by
  obtain ⟨a, ha⟩ := effect_eq_ok.mp hok
  obtain ⟨-, op, hperforms, hop⟩ := alone_performs ha
  cases hperforms with
  | execute _ _ _ => exact ⟨_, _, _, _, _, hop⟩

theorem report_cases (graph : DerivedWorkflowGraph) (h : HarnessState) (n : WorkflowNodeDefinitionId) (reasonCode : String) (overLimit : Bool)
    (agentResult : Option AgentResult) :
    (∃ t, completeWorkflowNodeInRunState h.engine graph n ⟨reasonCode, [], none⟩ = .ok t ∧
      h.report graph n reasonCode overLimit agentResult =
        ((h.engaged t).act (.complete n overLimit)).setResult n .dispatched agentResult none) ∨
    (∀ t, completeWorkflowNodeInRunState h.engine graph n ⟨reasonCode, [], none⟩ ≠ .ok t) ∧
      h.report graph n reasonCode overLimit agentResult = h := by
  unfold HarnessState.report
  cases hcomplete : h.completeNode graph n reasonCode with
  | ok t => exact .inl ⟨t, completeNode_eq_ok.mp hcomplete, rfl⟩
  | error e =>
    refine .inr ⟨fun t ht => ?_, rfl⟩
    rw [completeNode_eq_ok.mpr ht] at hcomplete
    cases hcomplete

end

/-! ## What a turn does to the engine -/

def DispatchOutcome.fails : DispatchOutcome → Bool
  | .threw => true
  | .returned result => result.status ≠ .suspended ∧ (mapAgentResultToNodeOutcome result).status = .failed

/-- The dispatched node that a turn reports as failed: its attempts are used up, or its dispatch fails. -/
def HarnessState.reportsFailure (h : HarnessState) (config : WorkflowDispatchHarnessConfig) (event : HarnessEvent) :
    Option WorkflowNodeDefinitionId :=
  match h.phase, event with
  | .dispatching (n :: _) _ _, .proceed => if config.attempts < (h.countAttempt n).attempts n then some n else none
  | .dispatching [] _ _, .settle n outcome => if outcome.fails then some n else none
  | _, _ => none

/-- A turn leaves the engine, or takes one operation on one node: the internal node at the head of its loop, a node
whose agent answered, or a node that failed. -/
inductive Engages (graph : DerivedWorkflowGraph) (config : WorkflowDispatchHarnessConfig) (h : HarnessState) :
    HarnessEvent → WorkflowRunState → Prop
  | idle {event : HarnessEvent} : Engages graph config h event h.engine
  | internal {event : HarnessEvent} {t : WorkflowRunState} {n : WorkflowNodeDefinitionId}
      {internalNodes dispatchedNodes : List WorkflowNodeDefinitionId} {op : RunStateOp} {outcome : WorkflowNodeOutcome} :
      h.phase = .executing (n :: internalNodes) dispatchedNodes → op.target = some (n, outcome) →
      applyRunStateOp graph h.engine op = .ok t → Engages graph config h event t
  | answered {t : WorkflowRunState} {n : WorkflowNodeDefinitionId} {result : AgentResult}
      (transition : WorkflowTransitionInput) : result.status = .completed →
      applyRunStateOp graph h.engine (.complete n transition) = .ok t →
      Engages graph config h (.settle n (.returned result)) t
  | failed {event : HarnessEvent} {t : WorkflowRunState} {n : WorkflowNodeDefinitionId}
      (transition : WorkflowTransitionInput) : h.reportsFailure config event = some n →
      applyRunStateOp graph h.engine (.complete n transition) = .ok t → Engages graph config h event t

section

variable {graph : DerivedWorkflowGraph} {config : WorkflowDispatchHarnessConfig} {h h' : HarnessState}
  {event : HarnessEvent} {n : WorkflowNodeDefinitionId} {s t : WorkflowRunState}

variable {internalNodes dispatchedNodes : List WorkflowNodeDefinitionId}

theorem engages_exceedInternal
    (hphase : h.phase = .executing (n :: internalNodes) dispatchedNodes) : Engages graph config h event
      ((h.countAttempt n).exceedInternal graph n internalNodes dispatchedNodes).engine := by
  unfold HarnessState.exceedInternal
  cases hcomplete : (h.countAttempt n).completeNode graph n "max_node_attempts_exceeded" with
  | ok t => exact .internal hphase (show (RunStateOp.complete n _).target = _ from rfl) (completeNode_eq_ok.mp hcomplete)
  | error e => exact .idle

theorem engages_executeInternal
    (hphase : h.phase = .executing (n :: internalNodes) dispatchedNodes) : Engages graph config h event
      ((h.countAttempt n).executeInternal graph config deps n internalNodes dispatchedNodes).engine := by
  unfold HarnessState.executeInternal
  cases hexecute : (h.countAttempt n).executeReadyNode graph deps n with
  | ok t =>
    obtain ⟨result, transition, checkpointState, prepared, committed, hop⟩ := executeReadyNode_ok hexecute
    have hengine : (((((h.countAttempt n).engaged t).actExecuted n t).setResult n .internal none (some t)).enter
        (.executing internalNodes dispatchedNodes)).engine = t := by
      unfold HarnessState.actExecuted
      split_ifs <;> rfl
    rw [hengine]
    exact .internal hphase rfl hop
  | error e =>
    cases hcomplete : (h.countAttempt n).completeNode graph n "engine_execution_error" with
    | ok t => exact .internal hphase (show (RunStateOp.complete n _).target = _ from rfl) (completeNode_eq_ok.mp hcomplete)
    | error e => exact .idle

variable {inFlight : List WorkflowNodeDefinitionId} {batches : List (List WorkflowNodeDefinitionId)}

theorem engages_startDispatch {batch : List WorkflowNodeDefinitionId}
    (hphase : h.phase = .dispatching (n :: batch) inFlight batches) :
    Engages graph config h .proceed (h.startDispatch graph config n batch inFlight batches).engine := by
  unfold HarnessState.startDispatch
  dsimp only
  split_ifs with hlimit
  · obtain ⟨t, ht, hreport⟩ | ⟨-, hreport⟩ :=
      report_cases graph (h.countAttempt n) n "max_node_attempts_exceeded" true none
    · rw [hreport]
      refine .failed _ ?_ ht
      simp [HarnessState.reportsFailure, hphase, hlimit]
    · rw [hreport]
      exact .idle
  · exact .idle

theorem engages_settleDispatch {outcome : DispatchOutcome}
    (hphase : h.phase = .dispatching [] inFlight batches) :
    Engages graph config h (.settle n outcome) (h.settleDispatch graph n outcome).engine := by
  unfold HarnessState.settleDispatch
  cases outcome with
  | threw =>
    obtain ⟨t, ht, hreport⟩ | ⟨-, hreport⟩ :=
      report_cases graph (h.act (.answer n .threw)) n "dispatch_exception" false none
    · dsimp only
      rw [hreport]
      exact .failed _ (by simp [HarnessState.reportsFailure, hphase, DispatchOutcome.fails]) ht
    · dsimp only
      rw [hreport]
      exact .idle
  | returned result =>
    dsimp only
    split_ifs with hsuspended
    · exact .idle
    · cases hcomplete : (h.act (.answer n (.returned result))).completeNode graph n
        (mapAgentResultToNodeOutcome result).reasonCode with
      | error e => exact .idle
      | ok t =>
        have hop := completeNode_eq_ok.mp hcomplete
        by_cases hcompleted : result.status = .completed
        · exact .answered _ hcompleted hop
        · refine .failed _ ?_ hop
          have hfailed : (mapAgentResultToNodeOutcome result).status = .failed := by
            unfold mapAgentResultToNodeOutcome
            cases hstatus : result.status <;> first | rfl | exact absurd hstatus hcompleted
          simp [HarnessState.reportsFailure, hphase, DispatchOutcome.fails, hsuspended, hfailed]

/-- **The engine under the harness.** A turn leaves the engine, or takes one operation on one node. -/
theorem HarnessTurn.engages (hturn : HarnessTurn graph config h event h') : Engages graph config h event h'.engine := by
  cases hturn with
  | decide hphase =>
    obtain ⟨phase, hdecide, -⟩ := decide_cases graph h
    rw [hdecide]
    exact .idle
  | exceed hphase hlimit => exact engages_exceedInternal hphase
  | execute deps hphase hlimit => exact engages_executeInternal hphase
  | toBatches hphase hlimit => exact .idle
  | start hphase => exact engages_startDispatch hphase
  | settle hphase hmem => exact engages_settleDispatch hphase
  | nextBatch | refresh => exact .idle

theorem Engages.operation (hengages : Engages graph config h event t) :
    t = h.engine ∨ ∃ op n outcome, op.target = some (n, outcome) ∧ applyRunStateOp graph h.engine op = .ok t := by
  cases hengages with
  | idle => exact .inl rfl
  | internal hphase htarget hop => exact .inr ⟨_, _, _, htarget, hop⟩
  | answered transition hstatus hop => exact .inr ⟨_, _, _, rfl, hop⟩
  | failed transition hreports hop => exact .inr ⟨_, _, _, rfl, hop⟩

end

/-! ## Running a harness -/

def HarnessState.awaited (graph : DerivedWorkflowGraph) (config : WorkflowDispatchHarnessConfig) (h : HarnessState)
    (event : HarnessEvent) : Except String HarnessState :=
  match h.step graph config event with
  | some h' => .ok h'
  | none => .error "not awaited"

theorem harnessStep_of_awaited {graph : DerivedWorkflowGraph} {config : WorkflowDispatchHarnessConfig}
    {h h' : HarnessState} {event : HarnessEvent} (hok : h.awaited graph config event = .ok h') :
    HarnessStep graph config h event h' := by
  unfold HarnessState.awaited at hok
  unfold HarnessStep
  cases hstep : h.step graph config event with
  | none => simp [hstep] at hok
  | some t => simpa [hstep] using hok

theorem exists_harnessRun_of_check (G : HarnessState → HarnessEvent → Prop) [∀ h event, Decidable (G h event)]
    (definition : WorkflowDefinition) (config : WorkflowDispatchHarnessConfig) (events : List HarnessEvent)
    (P : DerivedWorkflowGraph → HarnessState → Bool)
    (hcheck : (runDefinition (fun _ _ _ => True) definition []).toOption.any (fun r =>
      (events.foldlM (guardStep (HarnessState.awaited r.1 config) G) (HarnessState.start r.2.2)).toOption.any
        (P r.1)) = true) :
    ∃ graph s h, Built graph ∧ Initial graph s ∧
      Run (Guarded (HarnessStep graph config) G) (HarnessState.start s) events h ∧ P graph h = true := by
  obtain ⟨graph, s₀, s, hgraph, hinit, hrun, hany⟩ := exists_run_of_check (fun _ _ _ => True) definition []
    (fun graph s => (events.foldlM (guardStep (HarnessState.awaited graph config) G)
      (HarnessState.start s)).toOption.any (P graph)) hcheck
  obtain ⟨h, hrun', hP⟩ := exists_ok_of_any hany
  rw [hrun.eq_of_nil] at hrun'
  exact ⟨graph, s₀, h, hgraph, hinit, (run_of_guardStep hrun').mono fun _ _ _ hstep =>
    ⟨harnessStep_of_awaited hstep.1, hstep.2⟩, hP⟩

end NousCore.Workflow
