import NousCore.Workflow.RunState

/-!
# Node handlers

`workflows/src/handlers/*.ts`: one handler for each node kind except the subworkflow.

* `IWorkflowNodeHandler` : a handler, with its answer or its rejection;
* `createWorkflowNodeHandlerRegistry` : the built-in handlers.
-/

namespace NousCore.Workflow

inductive HumanDecision where
  | approved
  | rejected
  deriving DecidableEq

inductive CheckpointCommitMode where
  | immediate
  | deferred
  deriving DecidableEq

/-- `WorkflowNodeExecutionPayload`. Of `detail` only two members are read, each compared with `true`. -/
structure WorkflowNodeExecutionPayload where
  conditionResult : Option Bool
  qualityGatePassed : Option Bool
  humanDecision : Option HumanDecision
  outputRef : Option String
  externalRef : Option String
  selectedBranchKey : Option String
  sideEffectStatus : Option WorkflowExternalEffectStatus
  checkpointCommitMode : Option CheckpointCommitMode
  reviewApproved : Bool
  timedOut : Bool

structure WorkflowNodeExecutionContext where
  graph : DerivedWorkflowGraph
  runState : WorkflowRunState
  nodeDefinition : WorkflowNodeDefinition
  dispatchLineage : WorkflowDispatchLineage
  governanceDecision : ConfidenceGovernanceEvaluationResult
  payload : Option WorkflowNodeExecutionPayload

structure ToolResult where
  success : Bool
  error : Option String

/-- What a handler asks of its surroundings during one call: the model router, the tool executor, the clock and a
random UUID. -/
structure WorkflowNodeHandlerDependencies where
  modelRouter : Option (String → Except String String)
  toolExecutor : Option (String → Except String ToolResult)
  now : Timestamp
  randomUUID : String

abbrev IWorkflowNodeHandler := WorkflowNodeExecutionContext → Except String WorkflowNodeExecutionResult

namespace WorkflowNodeExecutionContext

variable (context : WorkflowNodeExecutionContext)

def dispatchRefs : List String :=
  context.dispatchLineage.evidenceRefs ++ [s!"workflow_dispatch_lineage_id={context.dispatchLineage.id}"]

/-- A result with the members that every handler fills in. -/
def result (outcome : WorkflowNodeOutcome) (reasonCode : String) (evidenceRefs : List String) :
    WorkflowNodeExecutionResult where
  outcome := outcome
  governanceDecision := context.governanceDecision
  waitState := none
  correctionArc := none
  sideEffectStatus := .none
  outputRef := none
  checkpointId := none
  selectedBranchKey := none
  reasonCode := reasonCode
  evidenceRefs := evidenceRefs

def sideEffectStatus (fallback : WorkflowExternalEffectStatus) : WorkflowExternalEffectStatus :=
  (context.payload.bind (·.sideEffectStatus)).getD fallback

def outputRef : Option String := context.payload.bind (·.outputRef)

/-- The attempts the node has made so far. -/
def attemptCount : Nat :=
  (((context.runState.node? context.nodeDefinition.id).map (·.attempts.length))).getD 0

/-- The sources of the node's inbound edges, an edge at a time. -/
def upstreamNodeIds : List WorkflowNodeDefinitionId :=
  (context.graph.inboundEdgeIds context.nodeDefinition.id).filterMap context.graph.source

end WorkflowNodeExecutionContext

def joinIds (ids : List WorkflowNodeDefinitionId) : String := String.intercalate "," (ids.map toString)

section

variable (deps : WorkflowNodeHandlerDependencies)

def batchWait (context : WorkflowNodeExecutionContext)
    (fallback : String) : WorkflowNodeWaitState where
  kind := .asyncBatch
  reasonCode := "workflow_node_waiting_async_batch"
  evidenceRefs := context.dispatchRefs
  requestedAt := deps.now
  resumeToken := some deps.randomUUID
  externalRef := some ((context.payload.bind (·.externalRef)).getD fallback)

def modelCallHandler : IWorkflowNodeHandler := fun context =>
  match context.nodeDefinition.config with
  | .modelCall modelRole promptRef _ =>
    if context.nodeDefinition.executionModel = .asyncBatch then
      .ok { context.result .waiting "workflow_node_waiting_async_batch" context.dispatchRefs with
        waitState := some (batchWait deps context s!"model:{modelRole}:{promptRef}")
        sideEffectStatus := context.sideEffectStatus .none
        outputRef := context.outputRef }
    else do
      let providerId ← match deps.modelRouter with
        | some route => route modelRole
        | none => .ok "unrouted"
      .ok { context.result .completed "workflow_model_call_completed" context.dispatchRefs with
        sideEffectStatus := context.sideEffectStatus .none
        outputRef := some (context.outputRef.getD s!"model:{providerId}:{promptRef}") }
  | _ => .error "ModelCallWorkflowNodeHandler received non model-call config"

def toolExecutionHandler : IWorkflowNodeHandler := fun context =>
  match context.nodeDefinition.config with
  | .toolExecution toolName _ _ =>
    if context.nodeDefinition.executionModel = .asyncBatch then
      .ok { context.result .waiting "workflow_node_waiting_async_batch" context.dispatchRefs with
        waitState := some (batchWait deps context s!"tool:{toolName}:batch")
        sideEffectStatus := context.sideEffectStatus .idempotent
        outputRef := context.outputRef }
    else
      match deps.toolExecutor with
      | none =>
        .ok { context.result .blocked "workflow_tool_executor_unavailable" context.dispatchRefs with
          sideEffectStatus := context.sideEffectStatus .idempotent }
      | some execute => do
        let toolResult ← execute toolName
        if toolResult.success = false then
          .ok { context.result .failed "workflow_tool_execution_failed"
              (context.dispatchRefs ++ [toolResult.error.getD "tool_error=unknown"]) with
            sideEffectStatus := context.sideEffectStatus .unknownExternalEffect }
        else
          .ok { context.result .completed "workflow_tool_execution_completed" context.dispatchRefs with
            sideEffectStatus := context.sideEffectStatus .idempotent
            outputRef := some (context.outputRef.getD s!"tool:{toolName}:completed") }
  | _ => .error "ToolExecutionWorkflowNodeHandler received non tool-execution config"

def conditionHandler : IWorkflowNodeHandler := fun context =>
  match context.nodeDefinition.config with
  | .condition _ trueBranchKey falseBranchKey =>
    let passes := (context.payload.bind (·.conditionResult)).getD
      (((context.payload.bind (·.selectedBranchKey)).map (decide <| · = trueBranchKey)).getD true)
    let selectedBranchKey := if passes then trueBranchKey else falseBranchKey
    .ok { context.result .completed "workflow_condition_evaluated"
        (context.dispatchRefs ++ [s!"selected_branch_key={selectedBranchKey}"]) with
      sideEffectStatus := context.sideEffectStatus .none
      selectedBranchKey := some selectedBranchKey }
  | _ => .error "ConditionWorkflowNodeHandler received non condition config"

def transformHandler : IWorkflowNodeHandler := fun context =>
  match context.nodeDefinition.config with
  | .transform transformRef inputMappingRef =>
    .ok { context.result .completed "workflow_transform_completed" context.dispatchRefs with
      sideEffectStatus := context.sideEffectStatus .none
      outputRef := some (context.outputRef.getD s!"transform:{transformRef}:{inputMappingRef}") }
  | _ => .error "TransformWorkflowNodeHandler received non transform config"

def FailureAction.text : FailureAction → String
  | block => "block"
  | reprompt => "reprompt"
  | rollback => "rollback"

/-- The correction that a failed quality gate asks for. -/
def FailureAction.arcType : FailureAction → Option WorkflowCorrectionArcType
  | block => none
  | reprompt => some .reprompt
  | rollback => some .rollback

def FailureAction.reasonCode (action : FailureAction) : String :=
  if action = block then "workflow_quality_gate_blocked" else s!"workflow_quality_gate_{action.text}_required"

def qualityGateHandler : IWorkflowNodeHandler := fun context =>
  match context.nodeDefinition.config with
  | .qualityGate evaluatorRef _ failureAction =>
    let passed := (context.payload.bind (·.qualityGatePassed)).getD true
    if passed then
      .ok { context.result .completed "workflow_quality_gate_passed" context.dispatchRefs with
        sideEffectStatus := context.sideEffectStatus .none
        outputRef := some (context.outputRef.getD s!"quality-gate:{evaluatorRef}:pass") }
    else
      .ok { context.result .blocked failureAction.reasonCode context.dispatchRefs with
        correctionArc := failureAction.arcType.map fun type =>
          { runId := context.runState.runId
            nodeDefinitionId := context.nodeDefinition.id
            type := type
            sourceAttempt := context.attemptCount + 1
            checkpointId := none
            reasonCode := failureAction.reasonCode
            evidenceRefs := context.dispatchRefs
            occurredAt := deps.now }
        sideEffectStatus := context.sideEffectStatus .none }
  | _ => .error "QualityGateWorkflowNodeHandler received non quality-gate config"

def humanDecisionHandler : IWorkflowNodeHandler := fun context =>
  match context.nodeDefinition.config with
  | .humanDecision decisionRef =>
    .ok { context.result .waiting "workflow_human_decision_required" context.dispatchRefs with
      waitState := some
        { kind := .humanDecision
          reasonCode := "workflow_human_decision_required"
          evidenceRefs := context.dispatchRefs
          requestedAt := deps.now
          resumeToken := some deps.randomUUID
          externalRef := some decisionRef }
      sideEffectStatus := context.sideEffectStatus .none }
  | _ => .error "HumanDecisionWorkflowNodeHandler received non human-decision config"

def SplitMode.text : SplitMode → String
  | all => "all"
  | race => "race"

def parallelSplitHandler : IWorkflowNodeHandler := fun context =>
  match context.nodeDefinition.config with
  | .parallelSplit splitMode =>
    let evidenceRefs := context.dispatchRefs ++ [s!"split_mode={splitMode.text}"]
    if context.graph.outboundEdgeIds context.nodeDefinition.id = [] then
      .ok (context.result .failed "workflow_parallel_split_no_branches" (evidenceRefs ++ ["error=no_outbound_edges"]))
    else .ok (context.result .completed "workflow_parallel_split_activated" evidenceRefs)
  | _ => .error "ParallelSplitWorkflowNodeHandler received non parallel-split config"

def JoinMode.text : JoinMode → String
  | all => "all"
  | any => "any"
  | nOfM => "n-of-m"

/-- How many upstream nodes a join waits for; `none` when it asks for more than there are. -/
def joinRequiredCount (joinMode : JoinMode) (requiredCount : Option Nat) (totalUpstreamCount : Nat) : Option Nat :=
  match joinMode, requiredCount with
  | .all, _ => some totalUpstreamCount
  | .any, _ => some 1
  | .nOfM, none => some totalUpstreamCount
  | .nOfM, some configRequired => if totalUpstreamCount < configRequired then none else some configRequired

def parallelJoinHandler : IWorkflowNodeHandler := fun context =>
  match context.nodeDefinition.config with
  | .parallelJoin joinMode configRequired timeoutMs =>
    let evidenceRefs := context.dispatchRefs ++ [s!"join_mode={joinMode.text}"]
    if context.graph.inboundEdgeIds context.nodeDefinition.id = [] then
      .ok (context.result .failed "workflow_parallel_join_no_upstream" (evidenceRefs ++ ["error=no_inbound_edges"]))
    else
      let upstreamNodeIds := context.upstreamNodeIds
      let totalUpstreamCount := upstreamNodeIds.length
      let completedUpstreamNodeIds := upstreamNodeIds.filter fun id =>
        context.runState.nodeStatus id = some .completed
      let resolvedUpstreamNodeIds := upstreamNodeIds.filter fun id =>
        context.runState.nodeStatus id = some .completed ∨ context.runState.nodeStatus id = some .skipped
      let completedCount := completedUpstreamNodeIds.length
      match joinRequiredCount joinMode configRequired totalUpstreamCount with
      | none => .ok (context.result .failed "workflow_parallel_join_invalid_required_count" (evidenceRefs ++
          [s!"error=required_count_{configRequired.getD 0}_exceeds_upstream_count_{totalUpstreamCount}"]))
      | some requiredCount =>
        let counts := evidenceRefs ++ [s!"completed_count={completedCount}", s!"required_count={requiredCount}",
          s!"total_upstream={totalUpstreamCount}"]
        -- the losers of a race are skipped, and count as resolved for a join of all branches
        if requiredCount ≤ completedCount ∨
            (joinMode = .all ∧ resolvedUpstreamNodeIds.length = totalUpstreamCount) then
          .ok { context.result .completed "workflow_parallel_join_completed" counts with
            outputRef := some (joinIds completedUpstreamNodeIds) }
        else
          .ok { context.result .waiting "workflow_parallel_join_waiting" counts with
            waitState := some
              { kind := .parallelJoin
                reasonCode := "workflow_parallel_join_waiting"
                evidenceRefs := counts
                requestedAt := deps.now
                resumeToken := none
                externalRef := timeoutMs.map fun timeoutMs => s!"timeout_ms={timeoutMs}" } }
  | _ => .error "ParallelJoinWorkflowNodeHandler received non parallel-join config"

def loopHandler : IWorkflowNodeHandler := fun context =>
  match context.nodeDefinition.config with
  | .loop maxIterations _ backoffMs =>
    let iterationCount := context.attemptCount + 1
    let evidenceRefs := context.dispatchRefs ++
      [s!"iteration={iterationCount}", s!"max_iterations={maxIterations}"]
    if maxIterations < iterationCount then
      .ok { context.result .completed "workflow_loop_max_iterations" evidenceRefs with
        selectedBranchKey := some "exit" }
    else if context.payload.bind (·.conditionResult) = some true then
      .ok { context.result .completed "workflow_loop_exit_condition_met" evidenceRefs with
        selectedBranchKey := some "exit" }
    else
      match backoffMs.filter (0 < ·) with
      | some backoffMs =>
        .ok { context.result .waiting "workflow_loop_backoff" evidenceRefs with
          waitState := some
            { kind := .loopBackoff
              reasonCode := "workflow_loop_backoff"
              evidenceRefs := evidenceRefs
              requestedAt := deps.now
              resumeToken := none
              externalRef := some s!"backoff_ms={backoffMs}" }
          selectedBranchKey := some "loop" }
      | none =>
        .ok { context.result .completed "workflow_loop_continue" evidenceRefs with
          selectedBranchKey := some "loop" }
  | _ => .error "LoopWorkflowNodeHandler received non loop config"

def CatchScope.text : CatchScope → String
  | upstream => "upstream"
  | specific => "specific"

/-- What an error handler answers once it has found the failed ones among the nodes it watches. -/
def caughtResult (context : WorkflowNodeExecutionContext) (evidenceRefs : List String)
    (watched : List WorkflowNodeDefinitionId) : WorkflowNodeExecutionResult :=
  let failedNodeIds := watched.filter fun id => context.runState.nodeStatus id = some .failed
  if failedNodeIds = [] then context.result .completed "workflow_error_handler_passthrough" evidenceRefs
  else
    { context.result .completed "workflow_error_handler_caught"
        (evidenceRefs ++ failedNodeIds.map fun id => s!"failed_node_id={id}") with
      selectedBranchKey := some "error"
      outputRef := some (joinIds failedNodeIds) }

def errorHandler : IWorkflowNodeHandler := fun context =>
  match context.nodeDefinition.config with
  | .errorHandler catchScope targetNodeIds =>
    let evidenceRefs := context.dispatchRefs ++ [s!"catch_scope={catchScope.text}"]
    match catchScope with
    | .specific =>
      let targetNodeIds := targetNodeIds.getD []
      let invalidTargetIds := targetNodeIds.filter fun id => (context.graph.nodes.get? id).isNone
      if invalidTargetIds = [] then .ok (caughtResult context evidenceRefs targetNodeIds)
      else .ok (context.result .failed "workflow_error_handler_invalid_target"
        (evidenceRefs ++ invalidTargetIds.map fun id => s!"invalid_target_node_id={id}"))
    | .upstream => .ok (caughtResult context evidenceRefs context.upstreamNodeIds)
  | _ => .error "ErrorHandlerWorkflowNodeHandler received non error-handler config"

/-- The built-in handlers. There is none for a subworkflow. -/
def createWorkflowNodeHandlerRegistry :
    WorkflowNodeKind → Option IWorkflowNodeHandler
  | .modelCall => some (modelCallHandler deps)
  | .toolExecution => some (toolExecutionHandler deps)
  | .condition => some conditionHandler
  | .transform => some transformHandler
  | .qualityGate => some (qualityGateHandler deps)
  | .humanDecision => some (humanDecisionHandler deps)
  | .parallelSplit => some parallelSplitHandler
  | .parallelJoin => some (parallelJoinHandler deps)
  | .loop => some (loopHandler deps)
  | .errorHandler => some errorHandler
  | .subworkflow => none

end

end NousCore.Workflow
