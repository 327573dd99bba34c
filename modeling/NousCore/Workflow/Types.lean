import NousCore.Lib.Record

/-!
# Workflow runs

The records of `shared/src/types/workflow.ts`, with the fields that the modelled functions read or write.

Identifiers are UUID strings. They are compared for equality and ordered by `localeCompare`, which is a linear
order on them, so a natural number stands for each.

`workflows/src/traversal.ts`: which edges a completed node activates, and which nodes become ready.

* `sortNodeIdsByTopology` : the set of the ids in topological order (`mem_sortNodeIdsByTopology`,
  `nodup_sortNodeIdsByTopology`);
* `getNextReadyNodeIds` : the successors whose activated inbound sources are completed
  (`mem_getNextReadyNodeIds`).
-/

namespace NousCore.Workflow

abbrev Uuid := Nat

abbrev WorkflowNodeDefinitionId := Uuid
abbrev WorkflowEdgeId := Uuid
abbrev WorkflowExecutionId := Uuid
abbrev WorkflowDispatchLineageId := Uuid

/-- An ISO datetime. Timestamps are copied, and compared only when runs are listed. -/
abbrev Timestamp := Nat

/-! ## Definitions and graphs -/

inductive WorkflowNodeKind where
  | modelCall
  | toolExecution
  | qualityGate
  | humanDecision
  | condition
  | transform
  | parallelSplit
  | parallelJoin
  | loop
  | errorHandler
  | subworkflow
  deriving DecidableEq

inductive ExecutionModel where
  | synchronous
  | streaming
  | asyncBatch
  | scheduled
  deriving DecidableEq

inductive FailureAction where
  | block
  | reprompt
  | rollback
  deriving DecidableEq

inductive SplitMode where
  | all
  | race
  deriving DecidableEq

inductive JoinMode where
  | all
  | any
  | nOfM
  deriving DecidableEq

inductive CatchScope where
  | upstream
  | specific
  deriving DecidableEq

inductive WorkflowNodeConfig where
  | modelCall (modelRole promptRef : String) (outputSchemaRef : Option String)
  | toolExecution (toolName inputMappingRef : String) (resultSchemaRef : Option String)
  | condition (predicateRef trueBranchKey falseBranchKey : String)
  | transform (transformRef inputMappingRef : String)
  | qualityGate (evaluatorRef passThresholdRef : String) (failureAction : FailureAction)
  | humanDecision (decisionRef : String)
  | parallelSplit (splitMode : SplitMode)
  | parallelJoin (joinMode : JoinMode) (requiredCount timeoutMs : Option Nat)
  | loop (maxIterations : Nat) (exitConditionRef : String) (backoffMs : Option Nat)
  | errorHandler (catchScope : CatchScope) (targetNodeIds : Option (List WorkflowNodeDefinitionId))
  | subworkflow
  deriving DecidableEq

def WorkflowNodeConfig.type : WorkflowNodeConfig → WorkflowNodeKind
  | modelCall .. => .modelCall
  | toolExecution .. => .toolExecution
  | condition .. => .condition
  | transform .. => .transform
  | qualityGate .. => .qualityGate
  | humanDecision .. => .humanDecision
  | parallelSplit .. => .parallelSplit
  | parallelJoin .. => .parallelJoin
  | loop .. => .loop
  | errorHandler .. => .errorHandler
  | subworkflow => .subworkflow

structure WorkflowNodeDefinition where
  id : WorkflowNodeDefinitionId
  name : String
  type : WorkflowNodeKind
  executionModel : ExecutionModel
  inputSchemaRef : Option String
  outputSchemaRef : Option String
  config : WorkflowNodeConfig

structure WorkflowEdgeDefinition where
  id : WorkflowEdgeId
  «from» : WorkflowNodeDefinitionId
  «to» : WorkflowNodeDefinitionId
  branchKey : Option String
  priority : Nat
  deriving DecidableEq

structure WorkflowDefinition where
  id : Uuid
  projectId : Uuid
  version : String
  name : String
  entryNodeIds : List WorkflowNodeDefinitionId
  nodes : List WorkflowNodeDefinition
  edges : List WorkflowEdgeDefinition

structure DerivedWorkflowNode where
  definition : WorkflowNodeDefinition
  inboundEdgeIds : List WorkflowEdgeId
  outboundEdgeIds : List WorkflowEdgeId
  topologicalIndex : Nat

structure DerivedWorkflowGraph where
  workflowDefinitionId : Uuid
  projectId : Uuid
  version : String
  graphDigest : String
  entryNodeIds : List WorkflowNodeDefinitionId
  topologicalOrder : List WorkflowNodeDefinitionId
  nodes : Record WorkflowNodeDefinitionId DerivedWorkflowNode
  edges : Record WorkflowEdgeId WorkflowEdgeDefinition

/-! ## Governance -/

inductive ConfidenceGovernanceDecisionOutcome where
  | allowAutonomy
  | allowWithFlag
  | escalate
  | defer
  | deny
  deriving DecidableEq

inductive ProjectControlState where
  | running
  | pausedReview
  | hardStopped
  | resuming
  deriving DecidableEq

/-- What the governance engine decides about one node execution. The evidence references are kept as the JSON
texts that the coordinator makes of them. -/
structure ConfidenceGovernanceEvaluationResult where
  outcome : ConfidenceGovernanceDecisionOutcome
  reasonCode : String
  autonomyAllowed : Bool
  requiresConfirmation : Bool
  highRiskOverrideApplied : Bool
  evidenceRefs : List String
  escalationSignal : Bool
  deriving DecidableEq

/-! ## Runs -/

inductive WorkflowNodeRunStatus where
  | pending
  | ready
  | running
  | waiting
  | completed
  | skipped
  | blocked
  | failed
  deriving DecidableEq

inductive WorkflowRunStatus where
  | admissionBlocked
  | ready
  | running
  | waiting
  | blockedReview
  | paused
  | canceled
  | completed
  | failed
  deriving DecidableEq

inductive WorkflowCheckpointState where
  | idle
  | preparePending
  | commitPending
  deriving DecidableEq

inductive WorkflowNodeWaitKind where
  | asyncBatch
  | humanDecision
  | retryBackoff
  | checkpointCommit
  | parallelJoin
  | loopBackoff
  deriving DecidableEq

inductive WorkflowCorrectionArcType where
  | retry
  | rollback
  | reprompt
  | resume
  deriving DecidableEq

inductive WorkflowExternalEffectStatus where
  | none
  | idempotent
  | compensatable
  | unknownExternalEffect
  deriving DecidableEq

structure WorkflowTransitionInput where
  reasonCode : String
  evidenceRefs : List String
  occurredAt : Option Timestamp

structure WorkflowAdmissionResult where
  allowed : Bool
  reasonCode : String
  evidenceRefs : List String
  policyRef : Option String
  deriving DecidableEq

structure WorkflowDispatchLineage where
  id : WorkflowDispatchLineageId
  runId : WorkflowExecutionId
  nodeDefinitionId : WorkflowNodeDefinitionId
  parentNodeDefinitionId : Option WorkflowNodeDefinitionId
  viaEdgeId : Option WorkflowEdgeId
  branchKey : Option String
  attempt : Nat
  reasonCode : String
  evidenceRefs : List String
  occurredAt : Timestamp
  deriving DecidableEq

structure WorkflowNodeWaitState where
  kind : WorkflowNodeWaitKind
  reasonCode : String
  evidenceRefs : List String
  requestedAt : Timestamp
  resumeToken : Option String
  externalRef : Option String
  deriving DecidableEq

structure WorkflowCorrectionArc where
  runId : WorkflowExecutionId
  nodeDefinitionId : WorkflowNodeDefinitionId
  type : WorkflowCorrectionArcType
  sourceAttempt : Nat
  checkpointId : Option Uuid
  reasonCode : String
  evidenceRefs : List String
  occurredAt : Timestamp
  deriving DecidableEq

structure WorkflowNodeAttempt where
  attempt : Nat
  status : WorkflowNodeRunStatus
  dispatchLineageId : WorkflowDispatchLineageId
  governanceDecision : ConfidenceGovernanceEvaluationResult
  waitState : Option WorkflowNodeWaitState
  sideEffectStatus : WorkflowExternalEffectStatus
  checkpointId : Option Uuid
  outputRef : Option String
  selectedBranchKey : Option String
  reasonCode : String
  evidenceRefs : List String
  startedAt : Timestamp
  updatedAt : Timestamp
  completedAt : Option Timestamp
  deriving DecidableEq

structure JoinProgress where
  completedUpstreamNodeIds : List WorkflowNodeDefinitionId
  totalUpstreamCount : Nat
  requiredCount : Nat
  deriving DecidableEq

structure WorkflowNodeRunState where
  nodeDefinitionId : WorkflowNodeDefinitionId
  status : WorkflowNodeRunStatus
  attempts : List WorkflowNodeAttempt
  activeAttempt : Option Nat
  latestGovernanceDecision : Option ConfidenceGovernanceEvaluationResult
  activeWaitState : Option WorkflowNodeWaitState
  lastCommittedCheckpointId : Option Uuid
  selectedBranchKey : Option String
  correctionArcs : List WorkflowCorrectionArc
  reasonCode : Option String
  evidenceRefs : List String
  lastDispatchLineageId : Option WorkflowDispatchLineageId
  joinProgress : Option JoinProgress
  updatedAt : Timestamp
  deriving DecidableEq

structure WorkflowRunState where
  runId : WorkflowExecutionId
  workflowDefinitionId : Uuid
  projectId : Uuid
  workflowVersion : String
  graphDigest : String
  status : WorkflowRunStatus
  admission : WorkflowAdmissionResult
  reasonCode : Option String
  evidenceRefs : List String
  activeNodeIds : List WorkflowNodeDefinitionId
  activatedEdgeIds : List WorkflowEdgeId
  readyNodeIds : List WorkflowNodeDefinitionId
  waitingNodeIds : List WorkflowNodeDefinitionId
  blockedNodeIds : List WorkflowNodeDefinitionId
  completedNodeIds : List WorkflowNodeDefinitionId
  lastPreparedCheckpointId : Option Uuid
  lastCommittedCheckpointId : Option Uuid
  checkpointState : WorkflowCheckpointState
  nodeStates : Record WorkflowNodeDefinitionId WorkflowNodeRunState
  dispatchLineage : List WorkflowDispatchLineage
  startedAt : Timestamp
  updatedAt : Timestamp
  deriving DecidableEq

inductive WorkflowNodeOutcome where
  | completed
  | waiting
  | blocked
  | failed
  deriving DecidableEq

structure WorkflowNodeExecutionResult where
  outcome : WorkflowNodeOutcome
  governanceDecision : ConfidenceGovernanceEvaluationResult
  waitState : Option WorkflowNodeWaitState
  correctionArc : Option WorkflowCorrectionArc
  sideEffectStatus : WorkflowExternalEffectStatus
  outputRef : Option String
  checkpointId : Option Uuid
  selectedBranchKey : Option String
  reasonCode : String
  evidenceRefs : List String

/-! ## Run state refinements -/

/-- `z.string().min(1)`. -/
def nonEmpty (text : String) : Bool := text != ""

/-- `z.string().min(1).optional()`. -/
def optionalNonEmpty (text : Option String) : Bool := text.all nonEmpty

/-- `z.array(z.string().min(1))`. -/
def refs (texts : List String) : Bool := texts.all nonEmpty

/-- `z.array(z.string().min(1)).min(1)`. -/
def someRefs (texts : List String) : Bool := !texts.isEmpty && refs texts

def WorkflowNodeWaitState.isValid (w : WorkflowNodeWaitState) : Bool :=
  nonEmpty w.reasonCode && someRefs w.evidenceRefs && optionalNonEmpty w.resumeToken &&
    optionalNonEmpty w.externalRef

def WorkflowCorrectionArc.isValid (a : WorkflowCorrectionArc) : Bool :=
  0 < a.sourceAttempt && nonEmpty a.reasonCode && someRefs a.evidenceRefs

def ConfidenceGovernanceEvaluationResult.isValid (d : ConfidenceGovernanceEvaluationResult) : Bool :=
  !d.evidenceRefs.isEmpty &&
  (d.outcome == .allowAutonomy) == d.autonomyAllowed &&
  (!d.highRiskOverrideApplied || d.reasonCode == "CGR-DEFER-HIGH-RISK-CONFIRMATION") &&
  (!d.requiresConfirmation || d.reasonCode == "CGR-DEFER-HIGH-RISK-CONFIRMATION") &&
  (d.reasonCode != "CGR-DEFER-HIGH-RISK-CONFIRMATION" ||
    (d.highRiskOverrideApplied && d.requiresConfirmation && d.outcome == .defer)) &&
  (d.outcome != .escalate || d.escalationSignal) &&
  (d.reasonCode != "CGR-DENY-MISSING-ESCALATION-CONTEXT" || !d.escalationSignal)

def WorkflowNodeAttempt.isValid (a : WorkflowNodeAttempt) : Bool :=
  0 < a.attempt && a.governanceDecision.isValid && a.waitState.all (·.isValid) &&
    optionalNonEmpty a.outputRef && optionalNonEmpty a.selectedBranchKey && nonEmpty a.reasonCode &&
    someRefs a.evidenceRefs

def WorkflowDispatchLineage.isValid (l : WorkflowDispatchLineage) : Bool :=
  optionalNonEmpty l.branchKey && nonEmpty l.reasonCode && refs l.evidenceRefs

def WorkflowNodeRunState.isValid (n : WorkflowNodeRunState) : Bool :=
  n.attempts.all (·.isValid) && n.activeAttempt.all (0 < ·) &&
    n.latestGovernanceDecision.all (·.isValid) && n.activeWaitState.all (·.isValid) &&
    optionalNonEmpty n.selectedBranchKey && n.correctionArcs.all (·.isValid) &&
    optionalNonEmpty n.reasonCode && refs n.evidenceRefs && n.joinProgress.all (0 < ·.requiredCount)

def WorkflowAdmissionResult.isValid (a : WorkflowAdmissionResult) : Bool :=
  nonEmpty a.reasonCode && refs a.evidenceRefs && (a.allowed || !a.evidenceRefs.isEmpty) &&
    optionalNonEmpty a.policyRef

def WorkflowRunState.isValid (s : WorkflowRunState) : Bool :=
  nonEmpty s.workflowVersion && s.admission.isValid && optionalNonEmpty s.reasonCode && refs s.evidenceRefs &&
    s.nodeStates.values.all (·.isValid) && s.dispatchLineage.all (·.isValid)

/-- `WorkflowRunStateSchema.parse`: a run state that meets the refinements is returned as it is. -/
def WorkflowRunStateSchema.parse (s : WorkflowRunState) : Except String WorkflowRunState :=
  if s.isValid then .ok s else .error "ZodError"

theorem WorkflowRunStateSchema.parse_ok {s s' : WorkflowRunState} (h : parse s = .ok s') : s' = s := by
  unfold parse at h
  split_ifs at h
  exact (Except.ok.inj h).symm


/-! ## Orders -/

/-- `left.priority - right.priority || left.id.localeCompare(right.id) || left.to.localeCompare(right.to)`. -/
def edgeOrder (left right : WorkflowEdgeDefinition) : Prop :=
  left.priority < right.priority ∨ left.priority = right.priority ∧
    (left.id < right.id ∨ left.id = right.id ∧ left.to ≤ right.to)

instance : DecidableRel edgeOrder := fun left right =>
  inferInstanceAs (Decidable (left.priority < right.priority ∨ left.priority = right.priority ∧
    (left.id < right.id ∨ left.id = right.id ∧ left.to ≤ right.to)))

def sortEdges (edges : List WorkflowEdgeDefinition) : List WorkflowEdgeDefinition :=
  edges.insertionSort edgeOrder

@[simp] theorem mem_sortEdges {edges : List WorkflowEdgeDefinition} {e : WorkflowEdgeDefinition} :
    e ∈ sortEdges edges ↔ e ∈ edges :=
  List.mem_insertionSort edgeOrder

section

variable (graph : DerivedWorkflowGraph)

section

variable (nodeId : WorkflowNodeDefinitionId)

/-- `graph.nodes[nodeId]?.topologicalIndex ?? Number.MAX_SAFE_INTEGER`. -/
def DerivedWorkflowGraph.index : Nat :=
  ((graph.nodes.get? nodeId).map (·.topologicalIndex)).getD 9007199254740991

def DerivedWorkflowGraph.nodeType :
    Option WorkflowNodeKind :=
  (graph.nodes.get? nodeId).map (·.definition.type)

/-- `graph.nodes[nodeId]?.outboundEdgeIds ?? []`. -/
def DerivedWorkflowGraph.outboundEdgeIds :
    List WorkflowEdgeId :=
  ((graph.nodes.get? nodeId).map (·.outboundEdgeIds)).getD []

/-- `graph.nodes[nodeId]?.inboundEdgeIds ?? []`. -/
def DerivedWorkflowGraph.inboundEdgeIds :
    List WorkflowEdgeId :=
  ((graph.nodes.get? nodeId).map (·.inboundEdgeIds)).getD []

end

def DerivedWorkflowGraph.source (edgeId : WorkflowEdgeId) :
    Option WorkflowNodeDefinitionId :=
  (graph.edges.get? edgeId).map (·.from)

/-- The sources of the inbound edges of a node, an edge at a time. -/
def DerivedWorkflowGraph.upstreamNodeIds (n : WorkflowNodeDefinitionId) :
    List WorkflowNodeDefinitionId :=
  (graph.inboundEdgeIds n).filterMap graph.source

def DerivedWorkflowGraph.config (n : WorkflowNodeDefinitionId) :
    Option WorkflowNodeConfig :=
  (graph.nodes.get? n).map (·.definition.config)

def DerivedWorkflowGraph.target (edgeId : WorkflowEdgeId) :
    Option WorkflowNodeDefinitionId :=
  (graph.edges.get? edgeId).map (·.to)

def topologyOrder (left right : WorkflowNodeDefinitionId) : Prop :=
  graph.index left < graph.index right ∨ graph.index left = graph.index right ∧ left ≤ right

end

instance (graph : DerivedWorkflowGraph) : DecidableRel (topologyOrder graph) := fun left right =>
  inferInstanceAs (Decidable
    (graph.index left < graph.index right ∨ graph.index left = graph.index right ∧ left ≤ right))

def sortNodeIdsByTopology (graph : DerivedWorkflowGraph) (nodeIds : List WorkflowNodeDefinitionId) :
    List WorkflowNodeDefinitionId :=
  nodeIds.eraseDups.insertionSort (topologyOrder graph)

variable {graph : DerivedWorkflowGraph} {n : WorkflowNodeDefinitionId}

@[simp] theorem mem_sortNodeIdsByTopology {nodeIds : List WorkflowNodeDefinitionId} :
    n ∈ sortNodeIdsByTopology graph nodeIds ↔ n ∈ nodeIds := by
  rw [sortNodeIdsByTopology, List.mem_insertionSort, List.mem_eraseDups]

theorem nodup_sortNodeIdsByTopology (graph : DerivedWorkflowGraph)
    (nodeIds : List WorkflowNodeDefinitionId) : (sortNodeIdsByTopology graph nodeIds).Nodup :=
  (List.perm_insertionSort _ _).nodup_iff.mpr (nodup_eraseDups nodeIds)

/-! ## Activation -/

section

variable (graph : DerivedWorkflowGraph)

def getInitialReadyNodeIds : List WorkflowNodeDefinitionId :=
  sortNodeIdsByTopology graph graph.entryNodeIds

/-- Branch keys are non-empty where they are checked; the empty key counts as none, as it does in a condition. -/
def truthy (key : Option String) : Option String := key.filter (· ≠ "")

def getActivatedOutboundEdgeIds (fromNodeId : WorkflowNodeDefinitionId)
    (selectedBranchKey : Option String) (nodeType : Option WorkflowNodeKind) : List WorkflowEdgeId :=
  let outboundEdges := sortEdges ((graph.outboundEdgeIds fromNodeId).filterMap graph.edges.get?)
  -- a split without a key activates every branch
  if nodeType = some .parallelSplit ∧ truthy selectedBranchKey = none then outboundEdges.map (·.id)
  else
    match truthy selectedBranchKey with
    | some key => (outboundEdges.filter fun edge => edge.branchKey = none ∨ edge.branchKey = some key).map (·.id)
    | none => (outboundEdges.filter fun edge => edge.branchKey = none).map (·.id)

/-- A candidate is ready when its activated inbound sources are completed: one of them for a parallel-join, whose
handler evaluates the join condition, and all of them for any other node. -/
def candidateIsReady (completed : List WorkflowNodeDefinitionId)
    (activatedEdges : List WorkflowEdgeId) (candidateNodeId : WorkflowNodeDefinitionId) : Bool :=
  let activatedInboundEdgeIds := (graph.inboundEdgeIds candidateNodeId).filter (· ∈ activatedEdges)
  let sourceCompleted := fun edgeId => (graph.source edgeId).any (· ∈ completed)
  candidateNodeId ∉ completed && !activatedInboundEdgeIds.isEmpty &&
    if graph.nodeType candidateNodeId = some .parallelJoin then activatedInboundEdgeIds.any sourceCompleted
    else activatedInboundEdgeIds.all sourceCompleted

def getNextReadyNodeIds (completedNodeIds : List WorkflowNodeDefinitionId)
    (activatedEdgeIds : List WorkflowEdgeId) (fromNodeId : Option WorkflowNodeDefinitionId) :
    List WorkflowNodeDefinitionId :=
  let candidateNodeIds := match fromNodeId with
    | none => graph.topologicalOrder.filter (· ∉ completedNodeIds)
    | some nodeId => ((graph.outboundEdgeIds nodeId).filter (· ∈ activatedEdgeIds)).filterMap graph.target
  sortNodeIdsByTopology graph (candidateNodeIds.filter (candidateIsReady graph completedNodeIds activatedEdgeIds))

end

theorem mem_getNextReadyNodeIds {completed : List WorkflowNodeDefinitionId}
    {activated : List WorkflowEdgeId} {m : WorkflowNodeDefinitionId} :
    m ∈ getNextReadyNodeIds graph completed activated (some n) ↔
      (∃ e ∈ graph.outboundEdgeIds n, e ∈ activated ∧ graph.target e = some m) ∧
        candidateIsReady graph completed activated m = true := by
  simp only [getNextReadyNodeIds, mem_sortNodeIdsByTopology, List.mem_filter, List.mem_filterMap,
    decide_eq_true_eq, and_assoc]

end NousCore.Workflow
