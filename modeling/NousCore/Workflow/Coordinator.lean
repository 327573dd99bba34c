import NousCore.Workflow.Handlers

/-!
# What one execution and one continuation answer

`workflows/src/execution-coordinator.ts`, `checkpoint-runtime.ts` and `continuations.ts`.

* `executeWorkflowNode` : governance first, then the handler of the node's kind;
* `captureWorkflowCheckpoint`, `commitWorkflowCheckpoint` : the two phases of a checkpoint;
* `resolveWorkflowContinuation` : what a continuation makes of the wait of a node.
-/

namespace NousCore.Workflow

/-! ## Requests and dependencies -/

inductive WorkflowNodeContinuationAction where
  | complete
  | retry
  | rollback
  | reprompt
  | resume
  | reject
  deriving DecidableEq

/-- The request of an execution. Each engine value below is about one run, so the run id is left out. -/
structure WorkflowExecuteNodeRequest where
  nodeDefinitionId : WorkflowNodeDefinitionId
  controlState : ProjectControlState
  payload : Option WorkflowNodeExecutionPayload
  transition : WorkflowTransitionInput

structure WorkflowContinueNodeRequest where
  nodeDefinitionId : WorkflowNodeDefinitionId
  controlState : ProjectControlState
  action : WorkflowNodeContinuationAction
  continuationToken : Option String
  payload : Option WorkflowNodeExecutionPayload
  transition : WorkflowTransitionInput
  checkpointId : Option Uuid
  witnessRef : Option String

/-- `ICheckpointManager`: `prepare` answers with the id of the prepared checkpoint when it succeeds, and `commit`
whether it did. -/
structure ICheckpointManager where
  prepare : WorkflowNodeDefinitionId → Except String (Option Uuid)
  commit : Uuid → String → Except String Bool

/-- What the engine asks of its surroundings during one call. -/
structure WorkflowEngineDependencies where
  pfcEngine : Option (WorkflowNodeDefinitionId → ProjectControlState →
    Except String ConfidenceGovernanceEvaluationResult)
  handlers : WorkflowNodeHandlerDependencies
  nodeHandlerOverrides : WorkflowNodeKind → Option IWorkflowNodeHandler
  checkpointManager : Option ICheckpointManager

def WorkflowTransitionInput.isValid (t : WorkflowTransitionInput) : Bool := nonEmpty t.reasonCode && refs t.evidenceRefs

def WorkflowNodeExecutionPayload.isValid (p : WorkflowNodeExecutionPayload) : Bool :=
  optionalNonEmpty p.outputRef && optionalNonEmpty p.externalRef && optionalNonEmpty p.selectedBranchKey

def WorkflowExecuteNodeRequest.parse (request : WorkflowExecuteNodeRequest) :
    Except String WorkflowExecuteNodeRequest :=
  if request.payload.all (·.isValid) && request.transition.isValid then .ok request else .error "ZodError"

def WorkflowContinueNodeRequest.parse (request : WorkflowContinueNodeRequest) :
    Except String WorkflowContinueNodeRequest :=
  if optionalNonEmpty request.continuationToken && request.payload.all (·.isValid) && request.transition.isValid &&
    optionalNonEmpty request.witnessRef then .ok request else .error "ZodError"

/-! ## Execution -/

def WorkflowEngineDependencies.handler (deps : WorkflowEngineDependencies) (kind : WorkflowNodeKind) :
    Option IWorkflowNodeHandler :=
  (deps.nodeHandlerOverrides kind).or (createWorkflowNodeHandlerRegistry deps.handlers kind)

section

variable (decision : ConfidenceGovernanceEvaluationResult)

def ConfidenceGovernanceEvaluationResultSchema.parse :
    Except String ConfidenceGovernanceEvaluationResult :=
  if decision.isValid then .ok decision else .error "ZodError"

structure ExecuteWorkflowNodeInput where
  graph : DerivedWorkflowGraph
  runState : WorkflowRunState
  nodeDefinition : WorkflowNodeDefinition
  dispatchLineage : WorkflowDispatchLineage
  controlState : ProjectControlState
  payload : Option WorkflowNodeExecutionPayload

def ExecuteWorkflowNodeInput.context (input : ExecuteWorkflowNodeInput)
    (governanceDecision : ConfidenceGovernanceEvaluationResult) : WorkflowNodeExecutionContext where
  graph := input.graph
  runState := input.runState
  nodeDefinition := input.nodeDefinition
  dispatchLineage := input.dispatchLineage
  governanceDecision := governanceDecision
  payload := input.payload

def stringifiedEvidenceRefs (fallback : List String) : List String :=
  if decision.evidenceRefs = [] then fallback else decision.evidenceRefs

/-- The outcomes that keep a node from its handler. -/
def withheld : List ConfidenceGovernanceDecisionOutcome := [.deny, .defer, .escalate]

def buildGovernanceOnlyResult
    (nodeDefinition : WorkflowNodeDefinition) (context : WorkflowNodeExecutionContext) (now : Timestamp) :
    WorkflowNodeExecutionResult :=
  let evidenceRefs := stringifiedEvidenceRefs decision context.dispatchRefs
  match decision.outcome with
  | .deny => context.result .blocked decision.reasonCode evidenceRefs
  | .defer | .escalate =>
    { context.result .waiting decision.reasonCode evidenceRefs with
      waitState := some
        { kind := if nodeDefinition.type = .humanDecision ∨ decision.requiresConfirmation = true then .humanDecision
            else .retryBackoff
          reasonCode := decision.reasonCode
          evidenceRefs := evidenceRefs
          requestedAt := now
          resumeToken := none
          externalRef := none } }
  | _ => context.result .completed decision.reasonCode evidenceRefs

end

def executeWorkflowNode (deps : WorkflowEngineDependencies)
    (evaluateConfidenceGovernance : WorkflowNodeDefinitionId → ProjectControlState →
      Except String ConfidenceGovernanceEvaluationResult)
    (input : ExecuteWorkflowNodeInput) : Except String WorkflowNodeExecutionResult := do
  let decision ← evaluateConfidenceGovernance input.nodeDefinition.id input.controlState
  let decision ← ConfidenceGovernanceEvaluationResultSchema.parse decision
  let context := input.context decision
  if decision.outcome ∈ withheld then
    .ok (buildGovernanceOnlyResult decision input.nodeDefinition context deps.handlers.now)
  else
    match deps.handler input.nodeDefinition.type with
    | none => .ok (context.result .blocked "workflow_handler_unavailable" context.dispatchRefs)
    | some handler => handler context

/-! ## Checkpoints -/

structure CaptureWorkflowCheckpointResult where
  checkpointState : WorkflowCheckpointState
  checkpointId : Option Uuid
  lastPreparedCheckpointId : Option Uuid
  lastCommittedCheckpointId : Option Uuid

def captureWorkflowCheckpoint (checkpointManager : Option ICheckpointManager) (runState : WorkflowRunState)
    (nodeDefinitionId : WorkflowNodeDefinitionId) (sideEffectStatus : WorkflowExternalEffectStatus)
    (commitMode : Option CheckpointCommitMode) : Except String CaptureWorkflowCheckpointResult :=
  match checkpointManager with
  | none => .ok ⟨.idle, none, none, none⟩
  | some manager =>
    if sideEffectStatus = .none then .ok ⟨.idle, none, none, none⟩
    else do
      match ← manager.prepare nodeDefinitionId with
      | none => .ok ⟨.preparePending, none, none, none⟩
      | some checkpointId =>
        if commitMode = some .deferred then .ok ⟨.commitPending, some checkpointId, some checkpointId, none⟩
        else
          let committed ← manager.commit checkpointId s!"workflow:{runState.runId}:{nodeDefinitionId}"
          if committed = false then .ok ⟨.commitPending, some checkpointId, some checkpointId, none⟩
          else .ok ⟨.idle, some checkpointId, some checkpointId, some checkpointId⟩

structure CommitWorkflowCheckpointResult where
  committed : Bool
  checkpointState : WorkflowCheckpointState
  checkpointId : Option Uuid
  lastPreparedCheckpointId : Option Uuid
  lastCommittedCheckpointId : Option Uuid

def commitWorkflowCheckpoint (checkpointManager : Option ICheckpointManager) (runState : WorkflowRunState)
    (checkpointId : Option Uuid) (witnessRef : Option String) : Except String CommitWorkflowCheckpointResult :=
  let checkpointId := (checkpointId.or runState.lastPreparedCheckpointId).or runState.lastCommittedCheckpointId
  match checkpointManager, checkpointId with
  | some manager, some id => do
    let committed ← manager.commit id (witnessRef.getD s!"workflow:{runState.runId}:resume")
    let prepared := some (runState.lastPreparedCheckpointId.getD id)
    if committed = false then .ok ⟨false, .commitPending, some id, prepared, runState.lastCommittedCheckpointId⟩
    else .ok ⟨true, .idle, some id, prepared, some id⟩
  | _, _ => .ok ⟨false, runState.checkpointState, checkpointId, runState.lastPreparedCheckpointId,
      runState.lastCommittedCheckpointId⟩

/-- A completed result that waits for its checkpoint to be committed. -/
def buildCheckpointPendingResult (result : WorkflowNodeExecutionResult) (checkpointId : Option Uuid)
    (deps : WorkflowNodeHandlerDependencies) : WorkflowNodeExecutionResult :=
  { result with
    outcome := .waiting
    waitState := some
      { kind := .checkpointCommit
        reasonCode := "workflow_checkpoint_commit_pending"
        evidenceRefs := if result.evidenceRefs = [] then ["workflow_checkpoint_commit_pending"]
          else result.evidenceRefs
        requestedAt := deps.now
        resumeToken := some deps.randomUUID
        externalRef := checkpointId.map toString }
    checkpointId := checkpointId
    reasonCode := "workflow_checkpoint_commit_pending" }

/-! ## Continuations -/

/-- The token of the request is not the one that the wait handed out. -/
def WorkflowContinueNodeRequest.tokenMismatch (request : WorkflowContinueNodeRequest)
    (waitState : WorkflowNodeWaitState) : Prop :=
  ∃ token ∈ request.continuationToken, ∃ resumeToken ∈ waitState.resumeToken, token ≠ resumeToken

instance (request : WorkflowContinueNodeRequest) (waitState : WorkflowNodeWaitState) :
    Decidable (request.tokenMismatch waitState) :=
  inferInstanceAs (Decidable (∃ token ∈ request.continuationToken, ∃ resumeToken ∈ waitState.resumeToken,
    token ≠ resumeToken))

/-- A person has declined what the node waits for. -/
def WorkflowContinueNodeRequest.rejected (request : WorkflowContinueNodeRequest) : Prop :=
  request.payload.bind (·.humanDecision) = some .rejected ∨ request.action = .reject

instance (request : WorkflowContinueNodeRequest) : Decidable request.rejected :=
  inferInstanceAs (Decidable (request.payload.bind (·.humanDecision) = some .rejected ∨ request.action = .reject))

structure ResolveWorkflowContinuationInput where
  runState : WorkflowRunState
  nodeDefinition : WorkflowNodeDefinition
  nodeState : WorkflowNodeRunState
  activeAttempt : WorkflowNodeAttempt
  request : WorkflowContinueNodeRequest
  now : Timestamp

namespace ResolveWorkflowContinuationInput

variable (input : ResolveWorkflowContinuationInput)

def evidenceRefs : List String :=
  input.request.transition.evidenceRefs ++
    [s!"workflow_node_id={input.nodeDefinition.id}", s!"workflow_attempt={input.activeAttempt.attempt}"]

def correctionArc (type : WorkflowCorrectionArcType) (reasonCode : String) : WorkflowCorrectionArc where
  runId := input.runState.runId
  nodeDefinitionId := input.nodeDefinition.id
  type := type
  sourceAttempt := input.activeAttempt.attempt
  checkpointId := input.activeAttempt.checkpointId
  reasonCode := reasonCode
  evidenceRefs := input.evidenceRefs
  occurredAt := input.now

/-- A result that keeps the decision of the active attempt. -/
def result (outcome : WorkflowNodeOutcome) (reasonCode : String) : WorkflowNodeExecutionResult where
  outcome := outcome
  governanceDecision := input.activeAttempt.governanceDecision
  waitState := none
  correctionArc := none
  sideEffectStatus := .none
  outputRef := none
  checkpointId := none
  selectedBranchKey := none
  reasonCode := reasonCode
  evidenceRefs := input.evidenceRefs

/-- A result that also keeps the side effects of the active attempt, with a correction. -/
def corrected (outcome : WorkflowNodeOutcome) (type : WorkflowCorrectionArcType) (reasonCode : String) :
    WorkflowNodeExecutionResult :=
  { input.result outcome reasonCode with
    correctionArc := some (input.correctionArc type reasonCode)
    sideEffectStatus := input.activeAttempt.sideEffectStatus }

/-- The wait goes on, with all that the active attempt says. -/
def stillWaiting (waitState : WorkflowNodeWaitState) (reasonCode : String) : WorkflowNodeExecutionResult :=
  { input.result .waiting reasonCode with
    waitState := some waitState
    sideEffectStatus := input.activeAttempt.sideEffectStatus
    checkpointId := input.activeAttempt.checkpointId
    outputRef := input.activeAttempt.outputRef
    selectedBranchKey := input.activeAttempt.selectedBranchKey }

def requestedOutput : Option String := input.request.payload.bind (·.outputRef)

/-- What the wait comes to, by its kind, when the project is running. -/
def byKind (waitState : WorkflowNodeWaitState) : WorkflowNodeExecutionResult :=
  let attempt := input.activeAttempt
  match waitState.kind with
  | .humanDecision =>
    if input.request.rejected then
      { input.corrected .blocked .rollback "workflow_human_decision_rejected" with
        checkpointId := attempt.checkpointId }
    else
      { input.corrected .completed .resume "workflow_human_decision_approved" with
        checkpointId := attempt.checkpointId
        outputRef := some ((input.requestedOutput.or attempt.outputRef).getD
          s!"human-decision:{input.nodeDefinition.id}:approved") }
  | .asyncBatch =>
    if attempt.sideEffectStatus = .unknownExternalEffect ∧
        input.request.payload.map (·.reviewApproved) ≠ some true then
      { input.corrected .blocked .resume "workflow_resume_review_required" with
        checkpointId := attempt.checkpointId }
    else
      { input.corrected .completed .resume "workflow_async_batch_completed" with
        sideEffectStatus := (input.request.payload.bind (·.sideEffectStatus)).getD attempt.sideEffectStatus
        checkpointId := attempt.checkpointId
        outputRef := some ((input.requestedOutput.or attempt.outputRef).getD
          s!"async:{input.nodeDefinition.id}:completed")
        selectedBranchKey := (input.request.payload.bind (·.selectedBranchKey)).or attempt.selectedBranchKey }
  | .checkpointCommit =>
    if input.request.action ≠ .complete ∧ input.request.action ≠ .resume then
      input.stillWaiting waitState "workflow_checkpoint_commit_pending"
    else
      { input.corrected .completed .resume "workflow_checkpoint_commit_completed" with
        checkpointId := input.request.checkpointId.or attempt.checkpointId
        outputRef := input.requestedOutput.or attempt.outputRef
        selectedBranchKey := attempt.selectedBranchKey }
  | .parallelJoin =>
    if input.request.payload.map (·.timedOut) = some true then
      { input.result .completed "workflow_parallel_join_timeout" with selectedBranchKey := some "timeout" }
    else input.result .completed "workflow_parallel_join_continued"
  | .loopBackoff =>
    { input.result .completed "workflow_loop_backoff_resolved" with selectedBranchKey := some "loop" }
  | .retryBackoff =>
    { input.corrected .blocked (if input.request.action = .reprompt then .reprompt else .retry)
        "workflow_retry_backoff_resolution_required" with
      checkpointId := attempt.checkpointId }

end ResolveWorkflowContinuationInput

def resolveWorkflowContinuation (input : ResolveWorkflowContinuationInput) :
    Except String WorkflowNodeExecutionResult :=
  match input.nodeState.activeWaitState with
  | none => .error s!"Workflow node {input.nodeDefinition.id} is not waiting"
  | some waitState =>
    if input.request.tokenMismatch waitState then
      .ok (input.corrected .blocked .resume "workflow_continuation_token_mismatch")
    else
      match input.request.controlState with
      | .hardStopped => .ok (input.corrected .blocked .resume "workflow_resume_denied_hard_stopped")
      | .pausedReview =>
        .ok (input.stillWaiting
          { waitState with reasonCode := "workflow_wait_paused_review", evidenceRefs := input.evidenceRefs }
          "workflow_wait_paused_review")
      | .resuming =>
        .ok (input.stillWaiting
          { waitState with reasonCode := "workflow_wait_resuming", evidenceRefs := input.evidenceRefs }
          "workflow_wait_resuming")
      | .running => .ok (input.byKind waitState)

end NousCore.Workflow
