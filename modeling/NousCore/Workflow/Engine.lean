import NousCore.Lib.Interleave
import NousCore.Workflow.Coordinator

/-!
# The workflow engine

`workflows/src/workflow-engine.ts`: the calls on one run, each a program on the stored run state. The calls that wait
for nothing read and write in one turn; `executeReadyNode` and `continueNode` await in between.

* `EngineCall`, `EngineCall.program` : the calls and their programs;
* `engineCall_transaction` : each reads the run state once, and at last stores what it made of it.
-/

namespace NousCore.Workflow

open Program (get set lift awaited)

abbrev EngineProgram := Program WorkflowRunState String WorkflowRunState

inductive EngineCall where
  | executeReadyNode (deps : WorkflowEngineDependencies) (request : WorkflowExecuteNodeRequest)
  | continueNode (deps : WorkflowEngineDependencies) (request : WorkflowContinueNodeRequest)
  | completeNode (nodeDefinitionId : WorkflowNodeDefinitionId) (transition : WorkflowTransitionInput)
  | pause (transition : WorkflowTransitionInput)
  | resume (transition : WorkflowTransitionInput)
  | cancel (transition : WorkflowTransitionInput)

section

variable (graph : DerivedWorkflowGraph)

def findNodeDefinition (nodeDefinitionId : WorkflowNodeDefinitionId) :
    Except String WorkflowNodeDefinition :=
  match graph.nodes.get? nodeDefinitionId with
  | some node => .ok node.definition
  | none => .error s!"Unknown workflow node definition id: {nodeDefinitionId}"

/-- A member that has to be there. -/
def required {α : Type} (x : Option α) (message : String) : Except String α :=
  match x with
  | some a => .ok a
  | none => .error message

section

variable (deps : WorkflowEngineDependencies)

/-- The result that `executeReadyNode` records: a completed one waits while its checkpoint is not committed. -/
def capturedResult (result : WorkflowNodeExecutionResult)
    (capture : CaptureWorkflowCheckpointResult) : WorkflowNodeExecutionResult :=
  if result.outcome = .completed ∧ capture.checkpointState = .commitPending then
    buildCheckpointPendingResult result capture.checkpointId deps.handlers
  else { result with checkpointId := capture.checkpointId.or result.checkpointId }

def executeReadyNode
    (request : WorkflowExecuteNodeRequest) : EngineProgram := do
  let state ← get
  let parsed ← lift request.parse
  let pfcEngine ← lift (required deps.pfcEngine
    "DeterministicWorkflowEngine requires pfcEngine for executeReadyNode")
  let _ ← lift (required (state.node? parsed.nodeDefinitionId)
    s!"Unknown workflow node definition id: {parsed.nodeDefinitionId}")
  let dispatchLineage ← lift (required (state.lastLineage parsed.nodeDefinitionId)
    s!"Workflow node {parsed.nodeDefinitionId} is missing dispatch lineage")
  let nodeDefinition ← lift (findNodeDefinition graph parsed.nodeDefinitionId)
  let result ← awaited (executeWorkflowNode deps pfcEngine
    ⟨graph, state, nodeDefinition, dispatchLineage, parsed.controlState, parsed.payload⟩)
  let capture ← awaited (captureWorkflowCheckpoint deps.checkpointManager state parsed.nodeDefinitionId
    result.sideEffectStatus (parsed.payload.bind (·.checkpointCommitMode)))
  let nextState ← lift (recordWorkflowNodeExecution
    { state := state
      graph := graph
      nodeDefinitionId := parsed.nodeDefinitionId
      result := capturedResult deps result capture
      transition := parsed.transition
      checkpointState := some capture.checkpointState
      lastPreparedCheckpointId := capture.lastPreparedCheckpointId
      lastCommittedCheckpointId := capture.lastCommittedCheckpointId })
  set nextState
  return nextState

def activeAttempt (nodeState : WorkflowNodeRunState) : Option WorkflowNodeAttempt :=
  nodeState.activeAttempt.bind fun number => nodeState.attempts.find? (·.attempt = number)

/-- A continuation first tries to commit the checkpoint that the node, or the run, waits for. -/
def commitsCheckpoint (state : WorkflowRunState) (nodeState : WorkflowNodeRunState) : Prop :=
  nodeState.activeWaitState.map (·.kind) = some .checkpointCommit ∨ state.checkpointState = .commitPending

instance (state : WorkflowRunState) (nodeState : WorkflowNodeRunState) :
    Decidable (commitsCheckpoint state nodeState) :=
  inferInstanceAs (Decidable (nodeState.activeWaitState.map (·.kind) = some .checkpointCommit ∨
    state.checkpointState = .commitPending))

/-- Commit the checkpoint that a continuation waits for; `none` when it waits for none. -/
def commitAwaited (state : WorkflowRunState) (nodeState : WorkflowNodeRunState)
    (attempt : WorkflowNodeAttempt) (parsed : WorkflowContinueNodeRequest) :
    Program WorkflowRunState String (Option CommitWorkflowCheckpointResult) :=
  if commitsCheckpoint state nodeState then
    awaited ((commitWorkflowCheckpoint deps.checkpointManager state (parsed.checkpointId.or attempt.checkpointId)
      parsed.witnessRef).map some)
  else lift (.ok none)

def continuationResult (state : WorkflowRunState)
    (nodeState : WorkflowNodeRunState) (attempt : WorkflowNodeAttempt) (parsed : WorkflowContinueNodeRequest)
    (checkpointCommit : Option CommitWorkflowCheckpointResult) : Except String WorkflowNodeExecutionResult :=
  if nodeState.activeWaitState.map (·.kind) = some .checkpointCommit ∧
      checkpointCommit.map (·.committed) = some false then
    .ok (buildCheckpointPendingResult
      { outcome := .waiting
        governanceDecision := attempt.governanceDecision
        waitState := nodeState.activeWaitState
        correctionArc := none
        sideEffectStatus := attempt.sideEffectStatus
        checkpointId := attempt.checkpointId
        outputRef := attempt.outputRef
        selectedBranchKey := attempt.selectedBranchKey
        reasonCode := "workflow_checkpoint_commit_pending"
        evidenceRefs := if parsed.transition.evidenceRefs = [] then ["workflow_checkpoint_commit_pending"]
          else parsed.transition.evidenceRefs }
      (checkpointCommit.bind (·.checkpointId)) deps.handlers)
  else do
    let nodeDefinition ← findNodeDefinition graph parsed.nodeDefinitionId
    resolveWorkflowContinuation
      { runState := state
        nodeDefinition := nodeDefinition
        nodeState := nodeState
        activeAttempt := attempt
        request := { parsed with
          checkpointId := (checkpointCommit.bind (·.checkpointId)).or parsed.checkpointId }
        now := deps.handlers.now }

def continueNode
    (request : WorkflowContinueNodeRequest) : EngineProgram := do
  let state ← get
  let parsed ← lift request.parse
  let nodeState ← lift (required (state.node? parsed.nodeDefinitionId)
    s!"Unknown workflow node definition id: {parsed.nodeDefinitionId}")
  let attempt ← lift (required (activeAttempt nodeState)
    s!"Workflow node {parsed.nodeDefinitionId} has no active attempt")
  let checkpointCommit ← commitAwaited deps state nodeState attempt parsed
  let finalResult ← lift (continuationResult graph deps state nodeState attempt parsed checkpointCommit)
  let nextState ← lift (resolveWorkflowNodeContinuation
    { state := state
      graph := graph
      nodeDefinitionId := parsed.nodeDefinitionId
      result := { finalResult with
        checkpointId := (checkpointCommit.bind (·.checkpointId)).or finalResult.checkpointId }
      transition := parsed.transition
      checkpointState := checkpointCommit.map (·.checkpointState)
      lastPreparedCheckpointId := checkpointCommit.bind (·.lastPreparedCheckpointId)
      lastCommittedCheckpointId := checkpointCommit.bind (·.lastCommittedCheckpointId) })
  set nextState
  return nextState

end

/-- A call that awaits nothing between its read and its write. -/
def synchronously (operation : WorkflowRunState → Except String WorkflowRunState) : EngineProgram := do
  let state ← get
  let nextState ← lift (operation state)
  set nextState
  return nextState

def EngineCall.program : EngineCall → EngineProgram
  | executeReadyNode deps request => Workflow.executeReadyNode graph deps request
  | continueNode deps request => Workflow.continueNode graph deps request
  | completeNode n transition => synchronously (completeWorkflowNodeInRunState · graph n transition)
  | pause transition => synchronously (pauseWorkflowRunState · transition)
  | resume transition => synchronously (resumeWorkflowRunState · transition)
  | cancel transition => synchronously (cancelWorkflowRunState · transition)

end

/-! ## The calls as transactions -/

theorem quiet_commitAwaited (deps : WorkflowEngineDependencies) (state : WorkflowRunState)
    (nodeState : WorkflowNodeRunState) (attempt : WorkflowNodeAttempt) (parsed : WorkflowContinueNodeRequest) :
    (commitAwaited deps state nodeState attempt parsed).Quiet := by
  unfold commitAwaited
  split_ifs
  · exact Program.quiet_awaited _
  · exact Program.quiet_lift _

theorem synchronously_transaction (operation : WorkflowRunState → Except String WorkflowRunState) :
    (synchronously operation).Transaction :=
  Program.transaction_get_bind fun _ => (Program.quiet_lift _).commits_bind fun _ => Program.commits_set_return _ _

/-- **Transactions.** Every call reads the run state in its first turn and stores a run state in its last. -/
theorem engineCall_transaction (graph : DerivedWorkflowGraph) (call : EngineCall) :
    (call.program graph).Transaction := by
  cases call with
  | executeReadyNode deps request =>
    refine Program.transaction_get_bind fun state => ?_
    refine (Program.quiet_lift _).commits_bind fun parsed => (Program.quiet_lift _).commits_bind fun pfcEngine => ?_
    refine (Program.quiet_lift _).commits_bind fun _ => (Program.quiet_lift _).commits_bind fun lineage => ?_
    refine (Program.quiet_lift _).commits_bind fun node => (Program.quiet_awaited _).commits_bind fun result => ?_
    refine (Program.quiet_awaited _).commits_bind fun capture => (Program.quiet_lift _).commits_bind fun next => ?_
    exact Program.commits_set_return _ _
  | continueNode deps request =>
    refine Program.transaction_get_bind fun state => ?_
    refine (Program.quiet_lift _).commits_bind fun parsed => (Program.quiet_lift _).commits_bind fun nodeState => ?_
    refine (Program.quiet_lift _).commits_bind fun attempt => ?_
    refine (quiet_commitAwaited deps state nodeState attempt parsed).commits_bind fun commit => ?_
    refine (Program.quiet_lift _).commits_bind fun result => (Program.quiet_lift _).commits_bind fun next => ?_
    exact Program.commits_set_return _ _
  | completeNode | pause | resume | cancel => exact synchronously_transaction _

end NousCore.Workflow
