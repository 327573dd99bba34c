import Mathlib.Algebra.GroupWithZero.Nat
import NousCore.Workflow.Types

/-!
# The run state machine

`workflows/src/run-state.ts`. Each operation works on a clone of the state it is given, so an in-place edit of the
source is a record update here, and a thrown error is `Except.error` and leaves the caller's state as it was.

* `resolveRunStatus` : the run status read off the lists and the node statuses;
* `activateSuccessors` : successors made ready, then the loop node re-activated, then the waiting joins;
* `cancelRaceLosers` : the search that skips the branches a race winner leaves behind;
* `applyAttemptOutcome` : the node moves to the list of its outcome;
* `createInitialWorkflowRunState`, `pauseWorkflowRunState`, `resumeWorkflowRunState`, `cancelWorkflowRunState`,
  `completeWorkflowNodeInRunState`, `recordWorkflowNodeExecution`, `resolveWorkflowNodeContinuation`.

`randomUUID` of a dispatch lineage is the number of lineages before it: unused, as the source relies on.
-/

namespace NousCore.Workflow

/-! ## Reading a state -/

namespace WorkflowRunState

def node? (s : WorkflowRunState) (n : WorkflowNodeDefinitionId) : Option WorkflowNodeRunState :=
  s.nodeStates.get? n

def nodeStatus (s : WorkflowRunState) (n : WorkflowNodeDefinitionId) : Option WorkflowNodeRunStatus :=
  (s.node? n).map (·.status)

def modifyNode (s : WorkflowRunState) (n : WorkflowNodeDefinitionId)
    (f : WorkflowNodeRunState → WorkflowNodeRunState) : WorkflowRunState :=
  { s with nodeStates := s.nodeStates.modify n f }

def lastLineage (s : WorkflowRunState) (n : WorkflowNodeDefinitionId) : Option WorkflowDispatchLineage :=
  (s.node? n).bind fun nodeState =>
    s.dispatchLineage.find? fun lineage => some lineage.id = nodeState.lastDispatchLineageId

end WorkflowRunState

def WorkflowRunStatus.text : WorkflowRunStatus → String
  | admissionBlocked => "admission_blocked"
  | ready => "ready"
  | running => "running"
  | waiting => "waiting"
  | blockedReview => "blocked_review"
  | paused => "paused"
  | canceled => "canceled"
  | completed => "completed"
  | failed => "failed"

def WorkflowNodeRunStatus.text : WorkflowNodeRunStatus → String
  | pending => "pending"
  | ready => "ready"
  | running => "running"
  | waiting => "waiting"
  | completed => "completed"
  | skipped => "skipped"
  | blocked => "blocked"
  | failed => "failed"

/-! ## Helpers -/

def occurredAt (transition : WorkflowTransitionInput) (fallback : Timestamp) : Timestamp :=
  transition.occurredAt.getD fallback

def createDispatchLineage (dispatchLineage : List WorkflowDispatchLineage) (runId : WorkflowExecutionId)
    (nodeDefinitionId : WorkflowNodeDefinitionId) (parentNodeDefinitionId : Option WorkflowNodeDefinitionId)
    (viaEdgeId : Option WorkflowEdgeId) (branchKey : Option String) (attempt : Nat) (reasonCode : String)
    (evidenceRefs : List String) (occurredAt : Timestamp) : WorkflowDispatchLineage where
  id := dispatchLineage.length
  runId := runId
  nodeDefinitionId := nodeDefinitionId
  parentNodeDefinitionId := parentNodeDefinitionId
  viaEdgeId := viaEdgeId
  branchKey := branchKey
  attempt := attempt
  reasonCode := reasonCode
  evidenceRefs := evidenceRefs
  occurredAt := occurredAt

def mapOutcomeToStatus : WorkflowNodeOutcome → WorkflowNodeRunStatus
  | .completed => .completed
  | .waiting => .waiting
  | .blocked => .blocked
  | .failed => .failed

def removeNodeId (values : List WorkflowNodeDefinitionId) (nodeDefinitionId : WorkflowNodeDefinitionId) :
    List WorkflowNodeDefinitionId :=
  values.filter (· ≠ nodeDefinitionId)

variable {values : List WorkflowNodeDefinitionId} {n m : WorkflowNodeDefinitionId}

@[simp] theorem mem_removeNodeId :
    m ∈ removeNodeId values n ↔ m ∈ values ∧ m ≠ n := by
  simp [removeNodeId]

def addNodeId (graph : DerivedWorkflowGraph) (values : List WorkflowNodeDefinitionId)
    (nodeDefinitionId : WorkflowNodeDefinitionId) : List WorkflowNodeDefinitionId :=
  sortNodeIdsByTopology graph (values ++ [nodeDefinitionId])

variable {graph : DerivedWorkflowGraph}

@[simp] theorem mem_addNodeId : m ∈ addNodeId graph values n ↔ m ∈ values ∨ m = n := by
  simp [addNodeId]

/-- `if (!values.includes(nodeId)) values = sortNodeIdsByTopology(graph, [...values, nodeId])`. -/
def includeNodeId (graph : DerivedWorkflowGraph) (values : List WorkflowNodeDefinitionId)
    (nodeDefinitionId : WorkflowNodeDefinitionId) : List WorkflowNodeDefinitionId :=
  if nodeDefinitionId ∈ values then values else addNodeId graph values nodeDefinitionId

@[simp] theorem mem_includeNodeId : m ∈ includeNodeId graph values n ↔ m ∈ values ∨ m = n := by
  unfold includeNodeId
  split_ifs with h
  · exact ⟨Or.inl, fun hm => hm.elim id fun e => e ▸ h⟩
  · exact mem_addNodeId

/-- `['completed', 'skipped'].includes(status)`. -/
def isResolved (status : Option WorkflowNodeRunStatus) : Bool :=
  status = some .completed || status = some .skipped

def resolveRunStatus (state : WorkflowRunState) : WorkflowRunStatus :=
  if state.status = .paused then .paused
  else if state.nodeStates.values.any (·.status = .failed) then .failed
  else if 0 < state.blockedNodeIds.length then .blockedReview
  else if 0 < state.waitingNodeIds.length ∨ state.checkpointState ≠ .idle then .waiting
  else
    let activeNodeIds := if 0 < state.activeNodeIds.length then state.activeNodeIds else state.readyNodeIds
    let allActiveNodesResolved := 0 < activeNodeIds.length ∧ activeNodeIds.all fun n => isResolved (state.nodeStatus n)
    if allActiveNodesResolved ∧ state.readyNodeIds.length = 0 ∧ state.waitingNodeIds.length = 0 ∧
        state.blockedNodeIds.length = 0 then .completed
    else if 0 < state.readyNodeIds.length then
      if state.completedNodeIds.length = 0 then .ready else .running
    else .running

def updateCheckpointFields (state : WorkflowRunState) (checkpointState : Option WorkflowCheckpointState)
    (lastPreparedCheckpointId lastCommittedCheckpointId : Option Uuid) : WorkflowRunState :=
  { state with
    checkpointState := checkpointState.getD state.checkpointState
    lastPreparedCheckpointId := lastPreparedCheckpointId.or state.lastPreparedCheckpointId
    lastCommittedCheckpointId := lastCommittedCheckpointId.or state.lastCommittedCheckpointId }

/-! ## Activating successors -/

/-- The body of the loop over `nextReadyNodeIds`. -/
def readySuccessor (graph : DerivedWorkflowGraph) (nodeDefinitionId : WorkflowNodeDefinitionId)
    (transition : WorkflowTransitionInput) (timestamp : Timestamp) (state : WorkflowRunState)
    (readyNodeId : WorkflowNodeDefinitionId) : Except String WorkflowRunState :=
  match state.node? readyNodeId with
  | none => .error "Cannot set properties of undefined (setting 'status')"
  | some readyNodeState =>
    let viaEdgeId := (graph.outboundEdgeIds nodeDefinitionId).find? fun e => graph.target e = some readyNodeId
    let lineage := createDispatchLineage state.dispatchLineage state.runId readyNodeId (some nodeDefinitionId)
      viaEdgeId ((viaEdgeId.bind graph.edges.get?).bind (·.branchKey)) readyNodeState.attempts.length "node_ready"
      transition.evidenceRefs timestamp
    .ok { state with
      dispatchLineage := state.dispatchLineage ++ [lineage]
      activeNodeIds := addNodeId graph state.activeNodeIds readyNodeId
      readyNodeIds := addNodeId graph state.readyNodeIds readyNodeId
      nodeStates := state.nodeStates.modify readyNodeId fun nodeState =>
        { nodeState with
          status := .ready
          reasonCode := some "node_ready"
          evidenceRefs := transition.evidenceRefs
          lastDispatchLineageId := some lineage.id
          updatedAt := timestamp } }

/-- The loop node that the completion of `nodeDefinitionId` re-activates: the parent of its dispatch lineage, when
that is a loop node whose last choice was to go on. -/
def loopToReactivate (state : WorkflowRunState) (graph : DerivedWorkflowGraph)
    (nodeDefinitionId : WorkflowNodeDefinitionId) : Option WorkflowNodeDefinitionId :=
  ((state.lastLineage nodeDefinitionId).bind (·.parentNodeDefinitionId)).filter fun parentNodeId =>
    graph.nodeType parentNodeId = some .loop ∧
      (state.node? parentNodeId).bind (·.selectedBranchKey) = some "loop"

section

variable (graph : DerivedWorkflowGraph)

/-- The targets of the `loop` branch edges. -/
def loopBodyNodeIds (loopNodeId : WorkflowNodeDefinitionId) :
    List WorkflowNodeDefinitionId :=
  (((graph.outboundEdgeIds loopNodeId).filterMap graph.edges.get?).filter
    fun edge => edge.branchKey = some "loop").map (·.to)

def resetLoopBody (timestamp : Timestamp) (state : WorkflowRunState) (bodyNodeId : WorkflowNodeDefinitionId) :
    WorkflowRunState :=
  { state with
    completedNodeIds := removeNodeId state.completedNodeIds bodyNodeId
    nodeStates := state.nodeStates.modify bodyNodeId fun nodeState =>
      if nodeState.status = .completed then
        { nodeState with status := .pending, activeAttempt := none, activeWaitState := none, updatedAt := timestamp }
      else nodeState }

def uncomplete (state : WorkflowRunState) (nodeDefinitionId : WorkflowNodeDefinitionId) : WorkflowRunState :=
  { state with completedNodeIds := removeNodeId state.completedNodeIds nodeDefinitionId }

/-- The loop node is ready again, under a lineage without parent. It is not taken out of `waitingNodeIds` and
`blockedNodeIds`. -/
def readyLoopNode (transition : WorkflowTransitionInput) (timestamp : Timestamp)
    (state : WorkflowRunState) (parentNodeId : WorkflowNodeDefinitionId) : WorkflowRunState :=
  let lineage := createDispatchLineage state.dispatchLineage state.runId parentNodeId none none none
    (((state.node? parentNodeId).map (·.attempts.length)).getD 0) "loop_reactivation" transition.evidenceRefs timestamp
  { state with
    readyNodeIds := includeNodeId graph state.readyNodeIds parentNodeId
    activeNodeIds := includeNodeId graph state.activeNodeIds parentNodeId
    dispatchLineage := state.dispatchLineage ++ [lineage]
    nodeStates := state.nodeStates.modify parentNodeId fun nodeState =>
      { nodeState with
        status := .ready
        activeAttempt := none
        activeWaitState := none
        updatedAt := timestamp
        lastDispatchLineageId := some lineage.id } }

def reactivateLoop (transition : WorkflowTransitionInput) (timestamp : Timestamp)
    (state : WorkflowRunState) (parentNodeId : WorkflowNodeDefinitionId) : WorkflowRunState :=
  readyLoopNode graph transition timestamp
    ((loopBodyNodeIds graph parentNodeId).foldl (resetLoopBody timestamp) (uncomplete state parentNodeId)) parentNodeId

def reactivateParentLoop (nodeDefinitionId : WorkflowNodeDefinitionId)
    (transition : WorkflowTransitionInput) (timestamp : Timestamp) (state : WorkflowRunState) : WorkflowRunState :=
  match loopToReactivate state graph nodeDefinitionId with
  | some parentNodeId => reactivateLoop graph transition timestamp state parentNodeId
  | none => state

end

/-- The waiting parallel-joins that `nodeDefinitionId` is an upstream of. -/
def waitingJoinNodeIds (state : WorkflowRunState) (graph : DerivedWorkflowGraph)
    (nodeDefinitionId : WorkflowNodeDefinitionId) : List WorkflowNodeDefinitionId :=
  state.waitingNodeIds.filter fun waitingNodeId =>
    graph.nodeType waitingNodeId = some .parallelJoin ∧
      (graph.inboundEdgeIds waitingNodeId).any fun edgeId => graph.source edgeId = some nodeDefinitionId

def JoinProgress.track (progress : JoinProgress) (nodeDefinitionId : WorkflowNodeDefinitionId) : JoinProgress :=
  if nodeDefinitionId ∈ progress.completedUpstreamNodeIds then progress
  else { progress with completedUpstreamNodeIds := progress.completedUpstreamNodeIds ++ [nodeDefinitionId] }

/-- The body of the loop over `waitingJoinNodeIds`. -/
def reactivateJoin (graph : DerivedWorkflowGraph) (nodeDefinitionId : WorkflowNodeDefinitionId)
    (timestamp : Timestamp) (state : WorkflowRunState) (joinNodeId : WorkflowNodeDefinitionId) :
    Except String WorkflowRunState :=
  match state.node? joinNodeId with
  | none => .error "Cannot set properties of undefined (setting 'status')"
  | some _ =>
    .ok { state with
      waitingNodeIds := removeNodeId state.waitingNodeIds joinNodeId
      readyNodeIds := includeNodeId graph state.readyNodeIds joinNodeId
      nodeStates := state.nodeStates.modify joinNodeId fun nodeState =>
        { nodeState with
          status := .ready
          activeAttempt := none
          activeWaitState := none
          joinProgress := nodeState.joinProgress.map (·.track nodeDefinitionId)
          updatedAt := timestamp } }

/-- The successors made ready: candidates that no list holds yet. -/
def nextReadyNodeIds (state : WorkflowRunState) (graph : DerivedWorkflowGraph)
    (nodeDefinitionId : WorkflowNodeDefinitionId) : List WorkflowNodeDefinitionId :=
  (getNextReadyNodeIds graph state.completedNodeIds state.activatedEdgeIds (some nodeDefinitionId)).filter
    fun candidate => candidate ∉ state.readyNodeIds ∧ candidate ∉ state.waitingNodeIds ∧
      candidate ∉ state.blockedNodeIds ∧ candidate ∉ state.completedNodeIds

def activateEdges (graph : DerivedWorkflowGraph) (nodeDefinitionId : WorkflowNodeDefinitionId)
    (selectedBranchKey : Option String) (state : WorkflowRunState) : WorkflowRunState :=
  { state with
    activatedEdgeIds := (state.activatedEdgeIds ++ getActivatedOutboundEdgeIds graph nodeDefinitionId
      selectedBranchKey (graph.nodeType nodeDefinitionId)).eraseDups }

def activateSuccessors (state : WorkflowRunState) (graph : DerivedWorkflowGraph)
    (nodeDefinitionId : WorkflowNodeDefinitionId) (transition : WorkflowTransitionInput)
    (selectedBranchKey : Option String) : Except String WorkflowRunState := do
  let timestamp := occurredAt transition state.updatedAt
  let state := activateEdges graph nodeDefinitionId selectedBranchKey state
  let state ← (nextReadyNodeIds state graph nodeDefinitionId).foldlM
    (readySuccessor graph nodeDefinitionId transition timestamp) state
  let state := reactivateParentLoop graph nodeDefinitionId transition timestamp state
  (waitingJoinNodeIds state graph nodeDefinitionId).foldlM (reactivateJoin graph nodeDefinitionId timestamp) state

/-! ## Race losers -/

def skipNode (completedNodeId : WorkflowNodeDefinitionId) (timestamp : Timestamp) (state : WorkflowRunState)
    (targetId : WorkflowNodeDefinitionId) : WorkflowRunState :=
  { state with
    readyNodeIds := removeNodeId state.readyNodeIds targetId
    waitingNodeIds := removeNodeId state.waitingNodeIds targetId
    blockedNodeIds := removeNodeId state.blockedNodeIds targetId
    activeNodeIds := removeNodeId state.activeNodeIds targetId
    nodeStates := state.nodeStates.modify targetId fun targetState =>
      { targetState with
        status := .skipped
        reasonCode := some "workflow_race_cancelled"
        evidenceRefs := [s!"race_winner={completedNodeId}"]
        activeAttempt := none
        activeWaitState := none
        updatedAt := timestamp } }

/-- The targets of a node's outbound edges. -/
def DerivedWorkflowGraph.successors (graph : DerivedWorkflowGraph) (n : WorkflowNodeDefinitionId) :
    List WorkflowNodeDefinitionId :=
  (graph.outboundEdgeIds n).filterMap graph.target

/-- `while (toCancel.length > 0)`, with the number of turns it may take. -/
def skipDescendants (graph : DerivedWorkflowGraph) (completedNodeId : WorkflowNodeDefinitionId)
    (timestamp : Timestamp) :
    Nat → List WorkflowNodeDefinitionId → List WorkflowNodeDefinitionId → WorkflowRunState → WorkflowRunState
  | 0, _, _, state => state
  | _ + 1, [], _, state => state
  | turns + 1, targetId :: toCancel, cancelled, state =>
    if targetId ∈ cancelled then skipDescendants graph completedNodeId timestamp turns toCancel cancelled state
    else if state.nodeStatus targetId = none ∨ isResolved (state.nodeStatus targetId) then
      skipDescendants graph completedNodeId timestamp turns toCancel cancelled state
    else
      skipDescendants graph completedNodeId timestamp turns (toCancel ++ graph.successors targetId)
        (targetId :: cancelled) (skipNode completedNodeId timestamp state targetId)

/-- The other branches of the race split that dispatched `completedNodeId`. -/
def raceSiblings (state : WorkflowRunState) (graph : DerivedWorkflowGraph)
    (completedNodeId : WorkflowNodeDefinitionId) : List WorkflowNodeDefinitionId :=
  match ((state.lastLineage completedNodeId).bind (·.parentNodeDefinitionId)).bind graph.nodes.get? with
  | none => []
  | some parentNode =>
    if parentNode.definition.type = .parallelSplit ∧ parentNode.definition.config = .parallelSplit .race then
      (parentNode.outboundEdgeIds.filterMap graph.target).filter (· ≠ completedNodeId)
    else []

/-- Every node is skipped once and then puts its successors in the queue. -/
def raceTurns (state : WorkflowRunState) (graph : DerivedWorkflowGraph)
    (toCancel : List WorkflowNodeDefinitionId) : Nat :=
  toCancel.length + (state.nodeStates.keys.map fun n => (graph.successors n).length).sum

def cancelRaceLosers (state : WorkflowRunState) (graph : DerivedWorkflowGraph)
    (completedNodeId : WorkflowNodeDefinitionId) (transition : WorkflowTransitionInput) : WorkflowRunState :=
  let toCancel := raceSiblings state graph completedNodeId
  skipDescendants graph completedNodeId (occurredAt transition state.updatedAt) (raceTurns state graph toCancel)
    toCancel [] state

/-! ## Outcomes -/

/-- The join progress of a parallel-join that begins to wait. -/
def initialJoinProgress (state : WorkflowRunState) (graph : DerivedWorkflowGraph)
    (nodeDefinitionId : WorkflowNodeDefinitionId) (config : WorkflowNodeConfig) : JoinProgress :=
  let upstreamNodeIds := (graph.inboundEdgeIds nodeDefinitionId).filterMap graph.source
  let totalUpstreamCount := upstreamNodeIds.length
  { completedUpstreamNodeIds := upstreamNodeIds.filter fun id => state.nodeStatus id = some .completed
    totalUpstreamCount := totalUpstreamCount
    requiredCount := match config with
      | .parallelJoin .any _ _ => 1
      | .parallelJoin .nOfM (some requiredCount) _ => requiredCount
      | _ => totalUpstreamCount }

/-- The fields an outcome writes to the node, whatever it is. -/
def WorkflowNodeRunState.withResult (nodeState : WorkflowNodeRunState) (result : WorkflowNodeExecutionResult)
    (timestamp : Timestamp) : WorkflowNodeRunState :=
  { nodeState with
    status := mapOutcomeToStatus result.outcome
    latestGovernanceDecision := some result.governanceDecision
    reasonCode := some result.reasonCode
    evidenceRefs := result.evidenceRefs
    activeWaitState := result.waitState
    lastCommittedCheckpointId := result.checkpointId.or nodeState.lastCommittedCheckpointId
    selectedBranchKey := result.selectedBranchKey
    updatedAt := timestamp
    correctionArcs := nodeState.correctionArcs ++ result.correctionArc.toList }

def WorkflowNodeRunState.setActive (nodeState : WorkflowNodeRunState) (attempt : Option Nat) : WorkflowNodeRunState :=
  { nodeState with activeAttempt := attempt }

def WorkflowNodeRunState.clearWait (nodeState : WorkflowNodeRunState) : WorkflowNodeRunState :=
  { nodeState with activeWaitState := none }

def leaveLists (state : WorkflowRunState) (nodeDefinitionId : WorkflowNodeDefinitionId) : WorkflowRunState :=
  { state with
    readyNodeIds := removeNodeId state.readyNodeIds nodeDefinitionId
    waitingNodeIds := removeNodeId state.waitingNodeIds nodeDefinitionId
    blockedNodeIds := removeNodeId state.blockedNodeIds nodeDefinitionId }

section

variable (graph : DerivedWorkflowGraph)

def listCompleted (state : WorkflowRunState)
    (nodeDefinitionId : WorkflowNodeDefinitionId) : WorkflowRunState :=
  { state with completedNodeIds := addNodeId graph state.completedNodeIds nodeDefinitionId }

def listWaiting (state : WorkflowRunState)
    (nodeDefinitionId : WorkflowNodeDefinitionId) : WorkflowRunState :=
  { state with waitingNodeIds := addNodeId graph state.waitingNodeIds nodeDefinitionId }

def listBlocked (state : WorkflowRunState)
    (nodeDefinitionId : WorkflowNodeDefinitionId) : WorkflowRunState :=
  { state with blockedNodeIds := addNodeId graph state.blockedNodeIds nodeDefinitionId }

/-- `joinProgress` is set when a parallel-join begins to wait, and kept when it has one. -/
def trackJoin (state : WorkflowRunState)
    (nodeDefinitionId : WorkflowNodeDefinitionId) : WorkflowRunState :=
  match graph.nodes.get? nodeDefinitionId with
  | none => state
  | some node =>
    if node.definition.type = .parallelJoin then
      state.modifyNode nodeDefinitionId fun nodeState =>
        { nodeState with
          joinProgress := some (nodeState.joinProgress.getD
            (initialJoinProgress state graph nodeDefinitionId node.definition.config)) }
    else state

end

def applyAttemptOutcome (state : WorkflowRunState) (graph : DerivedWorkflowGraph)
    (nodeDefinitionId : WorkflowNodeDefinitionId) (attempt : WorkflowNodeAttempt)
    (result : WorkflowNodeExecutionResult) (transition : WorkflowTransitionInput) :
    Except String WorkflowRunState :=
  let timestamp := occurredAt transition state.updatedAt
  let state := (leaveLists state nodeDefinitionId).modifyNode nodeDefinitionId (·.withResult result timestamp)
  match result.outcome with
  | .completed =>
    let state := state.modifyNode nodeDefinitionId fun nodeState => (nodeState.setActive none).clearWait
    let state := cancelRaceLosers (listCompleted graph state nodeDefinitionId) graph nodeDefinitionId transition
    activateSuccessors state graph nodeDefinitionId transition
      (attempt.selectedBranchKey.or result.selectedBranchKey)
  | .waiting =>
    let state := state.modifyNode nodeDefinitionId (·.setActive (some attempt.attempt))
    .ok (trackJoin graph (listWaiting graph state nodeDefinitionId) nodeDefinitionId)
  | .blocked =>
    let state := state.modifyNode nodeDefinitionId (·.setActive (some attempt.attempt))
    .ok (listBlocked graph state nodeDefinitionId)
  | .failed => .ok (state.modifyNode nodeDefinitionId (·.setActive none))

/-! ## Operations -/

/-- The state of one node, and the lineage of its dispatch when it is an entry. -/
def initialNode (runId : WorkflowExecutionId) (readyNodeIds : List WorkflowNodeDefinitionId)
    (transition : WorkflowTransitionInput) (timestamp : Timestamp)
    (built : List (WorkflowNodeDefinitionId × WorkflowNodeRunState) × List WorkflowDispatchLineage)
    (nodeDefinitionId : WorkflowNodeDefinitionId) :
    List (WorkflowNodeDefinitionId × WorkflowNodeRunState) × List WorkflowDispatchLineage :=
  let isReady := decide (nodeDefinitionId ∈ readyNodeIds)
  let lineage := createDispatchLineage built.2 runId nodeDefinitionId none none none 0 transition.reasonCode
    transition.evidenceRefs timestamp
  let nodeState : WorkflowNodeRunState :=
    { nodeDefinitionId := nodeDefinitionId
      status := if isReady then .ready else .pending
      attempts := []
      activeAttempt := none
      latestGovernanceDecision := none
      activeWaitState := none
      lastCommittedCheckpointId := none
      selectedBranchKey := none
      correctionArcs := []
      reasonCode := if isReady then some transition.reasonCode else none
      evidenceRefs := if isReady then transition.evidenceRefs else []
      lastDispatchLineageId := if isReady then some lineage.id else none
      joinProgress := none
      updatedAt := timestamp }
  (built.1 ++ [(nodeDefinitionId, nodeState)], if isReady then built.2 ++ [lineage] else built.2)

structure CreateInitialWorkflowRunStateInput where
  runId : WorkflowExecutionId
  graph : DerivedWorkflowGraph
  admission : WorkflowAdmissionResult
  transition : Option WorkflowTransitionInput
  startedAt : Timestamp

section

variable (input : CreateInitialWorkflowRunStateInput)

/-- The node states and the first lineages, in topological order. -/
def initialBuilt (transition : WorkflowTransitionInput) :
    List (WorkflowNodeDefinitionId × WorkflowNodeRunState) × List WorkflowDispatchLineage :=
  input.graph.topologicalOrder.foldl (initialNode input.runId (getInitialReadyNodeIds input.graph) transition
    (occurredAt transition input.startedAt)) ([], [])

/-- The state of a run before its first step. -/
def initialState (transition : WorkflowTransitionInput) :
    WorkflowRunState :=
  let timestamp := occurredAt transition input.startedAt
  let readyNodeIds := getInitialReadyNodeIds input.graph
  let built := initialBuilt input transition
  { runId := input.runId
    workflowDefinitionId := input.graph.workflowDefinitionId
    projectId := input.graph.projectId
    workflowVersion := input.graph.version
    graphDigest := input.graph.graphDigest
    status := .ready
    admission := input.admission
    reasonCode := some transition.reasonCode
    evidenceRefs := transition.evidenceRefs
    activeNodeIds := readyNodeIds
    activatedEdgeIds := []
    readyNodeIds := readyNodeIds
    waitingNodeIds := []
    blockedNodeIds := []
    completedNodeIds := []
    lastPreparedCheckpointId := none
    lastCommittedCheckpointId := none
    checkpointState := .idle
    nodeStates := Record.ofEntries built.1
    dispatchLineage := built.2
    startedAt := timestamp
    updatedAt := timestamp }

def createInitialWorkflowRunState : Except String WorkflowRunState :=
  if input.admission.allowed = false then .error "Cannot create workflow run state for blocked admission"
  else WorkflowRunStateSchema.parse (initialState input (input.transition.getD ⟨"workflow_started", [], none⟩))

end

/-- The fields every operation takes from its transition. -/
def WorkflowRunState.withTransition (state : WorkflowRunState) (transition : WorkflowTransitionInput)
    (timestamp : Timestamp) : WorkflowRunState :=
  { state with
    reasonCode := some transition.reasonCode
    evidenceRefs := transition.evidenceRefs
    updatedAt := timestamp }

/-- The last edits of an operation that may change what the run status is read off. -/
def WorkflowRunState.settled (state : WorkflowRunState) (transition : WorkflowTransitionInput)
    (timestamp : Timestamp) : WorkflowRunState :=
  { state.withTransition transition timestamp with
    status := resolveRunStatus (state.withTransition transition timestamp) }

def pauseWorkflowRunState (state : WorkflowRunState) (transition : WorkflowTransitionInput) :
    Except String WorkflowRunState :=
  if state.status ∈ [.admissionBlocked, .paused, .completed, .failed, .canceled] then
    .error s!"Workflow run {state.runId} cannot be paused from status {state.status.text}"
  else
    let nextState := { state with status := .paused }
    WorkflowRunStateSchema.parse (nextState.withTransition transition (occurredAt transition state.updatedAt))

def resumeWorkflowRunState (state : WorkflowRunState) (transition : WorkflowTransitionInput) :
    Except String WorkflowRunState :=
  if state.status ≠ .paused then
    .error s!"Workflow run {state.runId} cannot be resumed from status {state.status.text}"
  else
    let nextState := { state with status := .running }
    WorkflowRunStateSchema.parse (nextState.settled transition (occurredAt transition state.updatedAt))

def cancelNode (transition : WorkflowTransitionInput) (timestamp : Timestamp) (state : WorkflowRunState)
    (nodeDefinitionId : WorkflowNodeDefinitionId) : WorkflowRunState :=
  state.modifyNode nodeDefinitionId fun nodeState =>
    { nodeState with
      activeAttempt := none
      activeWaitState := none
      reasonCode := some transition.reasonCode
      evidenceRefs := transition.evidenceRefs
      updatedAt := timestamp }

def affectedNodeIds (state : WorkflowRunState) : List WorkflowNodeDefinitionId :=
  (state.activeNodeIds ++ state.readyNodeIds ++ state.waitingNodeIds ++ state.blockedNodeIds).eraseDups

/-- Every list of outstanding nodes is emptied; the node statuses stay as they are. -/
def clearRun (state : WorkflowRunState) : WorkflowRunState :=
  { state with
    status := .canceled
    activeNodeIds := []
    readyNodeIds := []
    waitingNodeIds := []
    blockedNodeIds := []
    checkpointState := .idle }

def cancelWorkflowRunState (state : WorkflowRunState) (transition : WorkflowTransitionInput) :
    Except String WorkflowRunState :=
  if state.status ∈ [.completed, .failed, .canceled] then
    .error s!"Workflow run {state.runId} cannot be canceled from status {state.status.text}"
  else
    let timestamp := occurredAt transition state.updatedAt
    let nextState := clearRun ((affectedNodeIds state).foldl (cancelNode transition timestamp) state)
    WorkflowRunStateSchema.parse (nextState.withTransition transition timestamp)

def WorkflowNodeRunState.completeWith (nodeState : WorkflowNodeRunState) (transition : WorkflowTransitionInput)
    (timestamp : Timestamp) : WorkflowNodeRunState :=
  { nodeState with
    status := .completed
    reasonCode := some transition.reasonCode
    evidenceRefs := transition.evidenceRefs
    updatedAt := timestamp
    activeWaitState := none }

def completeWorkflowNodeInRunState (state : WorkflowRunState) (graph : DerivedWorkflowGraph)
    (nodeDefinitionId : WorkflowNodeDefinitionId) (transition : WorkflowTransitionInput) :
    Except String WorkflowRunState :=
  match state.node? nodeDefinitionId with
  | none => .error s!"Unknown workflow node definition id: {nodeDefinitionId}"
  | some nodeState =>
    if nodeState.status ∉ [.ready, .running] then
      .error s!"Workflow node {nodeDefinitionId} cannot be completed from status {nodeState.status.text}"
    else do
      let timestamp := occurredAt transition state.updatedAt
      let nextState := (leaveLists state nodeDefinitionId).modifyNode nodeDefinitionId
        (·.completeWith transition timestamp)
      let nextState ← activateSuccessors (listCompleted graph nextState nodeDefinitionId) graph nodeDefinitionId
        transition nodeState.selectedBranchKey
      WorkflowRunStateSchema.parse (nextState.settled transition timestamp)

structure RecordWorkflowNodeExecutionInput where
  state : WorkflowRunState
  graph : DerivedWorkflowGraph
  nodeDefinitionId : WorkflowNodeDefinitionId
  result : WorkflowNodeExecutionResult
  transition : WorkflowTransitionInput
  checkpointState : Option WorkflowCheckpointState
  lastPreparedCheckpointId : Option Uuid
  lastCommittedCheckpointId : Option Uuid

abbrev ResolveWorkflowNodeContinuationInput := RecordWorkflowNodeExecutionInput

/-- The attempt that an execution result opens. -/
def newAttempt (attempt : Nat) (dispatchLineageId : WorkflowDispatchLineageId)
    (result : WorkflowNodeExecutionResult) (timestamp : Timestamp) : WorkflowNodeAttempt where
  attempt := attempt
  status := mapOutcomeToStatus result.outcome
  dispatchLineageId := dispatchLineageId
  governanceDecision := result.governanceDecision
  waitState := result.waitState
  sideEffectStatus := result.sideEffectStatus
  checkpointId := result.checkpointId
  outputRef := result.outputRef
  selectedBranchKey := result.selectedBranchKey
  reasonCode := result.reasonCode
  evidenceRefs := result.evidenceRefs
  startedAt := timestamp
  updatedAt := timestamp
  completedAt := if result.outcome = .completed then some timestamp else none

def openAttempt (state : WorkflowRunState) (nodeDefinitionId : WorkflowNodeDefinitionId)
    (lineage : WorkflowDispatchLineage) (attempt : WorkflowNodeAttempt) : WorkflowRunState :=
  { state with
    dispatchLineage := state.dispatchLineage ++ [lineage]
    nodeStates := state.nodeStates.modify nodeDefinitionId fun nodeState =>
      { nodeState with
        attempts := nodeState.attempts ++ [attempt]
        lastDispatchLineageId := some lineage.id } }

/-- The lineage of one more attempt: it keeps the parent, the edge and the branch of the last dispatch. -/
def attemptLineage (state : WorkflowRunState) (nodeDefinitionId : WorkflowNodeDefinitionId) (attempt : Nat)
    (transition : WorkflowTransitionInput) (timestamp : Timestamp) : WorkflowDispatchLineage :=
  let previous := state.lastLineage nodeDefinitionId
  createDispatchLineage state.dispatchLineage state.runId nodeDefinitionId
    (previous.bind (·.parentNodeDefinitionId)) (previous.bind (·.viaEdgeId)) (previous.bind (·.branchKey))
    attempt transition.reasonCode transition.evidenceRefs timestamp

def recordWorkflowNodeExecution (input : RecordWorkflowNodeExecutionInput) : Except String WorkflowRunState :=
  let state := input.state
  match state.node? input.nodeDefinitionId with
  | none => .error s!"Unknown workflow node definition id: {input.nodeDefinitionId}"
  | some nodeState =>
    if nodeState.status ≠ .ready then
      .error s!"Workflow node {input.nodeDefinitionId} cannot be executed from status {nodeState.status.text}"
    else do
      let timestamp := occurredAt input.transition state.updatedAt
      let lineage := attemptLineage state input.nodeDefinitionId (nodeState.attempts.length + 1) input.transition timestamp
      let attempt := newAttempt (nodeState.attempts.length + 1) lineage.id input.result timestamp
      let nextState := updateCheckpointFields (openAttempt state input.nodeDefinitionId lineage attempt)
        input.checkpointState input.lastPreparedCheckpointId input.lastCommittedCheckpointId
      let nextState ← applyAttemptOutcome nextState input.graph input.nodeDefinitionId attempt input.result
        input.transition
      WorkflowRunStateSchema.parse (nextState.settled input.transition timestamp)

def WorkflowNodeAttempt.continued (attempt : WorkflowNodeAttempt) (result : WorkflowNodeExecutionResult)
    (timestamp : Timestamp) : WorkflowNodeAttempt :=
  { attempt with
    status := mapOutcomeToStatus result.outcome
    waitState := result.waitState
    sideEffectStatus := result.sideEffectStatus
    checkpointId := result.checkpointId.or attempt.checkpointId
    outputRef := result.outputRef.or attempt.outputRef
    selectedBranchKey := result.selectedBranchKey.or attempt.selectedBranchKey
    reasonCode := result.reasonCode
    evidenceRefs := result.evidenceRefs
    updatedAt := timestamp
    completedAt := if result.outcome = .completed then some timestamp else none }

/-- Edit the first attempt that carries a number. -/
def continueAttempt (number : Nat) (f : WorkflowNodeAttempt → WorkflowNodeAttempt) :
    List WorkflowNodeAttempt → List WorkflowNodeAttempt
  | [] => []
  | attempt :: attempts =>
    if attempt.attempt = number then f attempt :: attempts else attempt :: continueAttempt number f attempts

def editActiveAttempt (state : WorkflowRunState) (nodeDefinitionId : WorkflowNodeDefinitionId) (activeAttempt : Nat)
    (result : WorkflowNodeExecutionResult) (timestamp : Timestamp) : WorkflowRunState :=
  state.modifyNode nodeDefinitionId fun nodeState =>
    { nodeState with attempts := continueAttempt activeAttempt (·.continued result timestamp) nodeState.attempts }

def resolveWorkflowNodeContinuation (input : ResolveWorkflowNodeContinuationInput) : Except String WorkflowRunState :=
  let state := input.state
  match state.node? input.nodeDefinitionId with
  | none => .error s!"Unknown workflow node definition id: {input.nodeDefinitionId}"
  | some nodeState =>
    match nodeState.activeAttempt with
    | none => .error s!"Workflow node {input.nodeDefinitionId} has no active attempt to continue"
    | some activeAttempt =>
      match nodeState.attempts.find? (·.attempt = activeAttempt) with
      | none => .error s!"Workflow node {input.nodeDefinitionId} is missing active attempt {activeAttempt}"
      | some attempt => do
        let timestamp := occurredAt input.transition state.updatedAt
        let nextState := updateCheckpointFields
          (editActiveAttempt state input.nodeDefinitionId activeAttempt input.result timestamp)
          input.checkpointState input.lastPreparedCheckpointId input.lastCommittedCheckpointId
        let nextState ← applyAttemptOutcome nextState input.graph input.nodeDefinitionId
          (attempt.continued input.result timestamp) input.result input.transition
        WorkflowRunStateSchema.parse (nextState.settled input.transition timestamp)

end NousCore.Workflow
