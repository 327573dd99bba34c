import NousCore.Workflow.Engine

/-!
# The dispatch harness

`workflows/src/workflow-dispatch-harness.ts`: the loop that drives one run of the engine. Internal nodes are executed
one after the other; dispatched nodes are handed to agents, a batch at a time, and reported to the engine as their
dispatches settle.

* `workflowNodeDispatchMap`, `mapAgentResultToNodeOutcome` : who executes a node, and what its agent's answer means;
* `HarnessPhase`, `HarnessState` : where the loop stands, and what it has counted;
* `HarnessState.step` : one turn of the loop, up to the next `await` of a call on the engine or of a dispatch.

No other call on the engine runs beside the harness, so each of its calls on the engine is one step.
-/

namespace NousCore.Workflow

/-! ## Dispatch decisions -/

inductive WorkflowExecutionMode where
  | internal
  | dispatched
  deriving DecidableEq

inductive WorkflowDispatchAgentClass where
  | worker
  | orchestrator

structure WorkflowNodeDispatchMapping where
  executionMode : WorkflowExecutionMode
  agentClass : Option WorkflowDispatchAgentClass

def workflowNodeDispatchMap : WorkflowNodeKind → WorkflowNodeDispatchMapping
  | .modelCall => ⟨.dispatched, some .worker⟩
  | .toolExecution => ⟨.dispatched, some .worker⟩
  | .subworkflow => ⟨.dispatched, some .orchestrator⟩
  | .condition => ⟨.internal, none⟩
  | .transform => ⟨.internal, none⟩
  | .qualityGate => ⟨.internal, none⟩
  | .humanDecision => ⟨.internal, none⟩
  | .parallelSplit => ⟨.internal, none⟩
  | .parallelJoin => ⟨.internal, none⟩
  | .loop => ⟨.internal, none⟩
  | .errorHandler => ⟨.internal, none⟩

def DerivedWorkflowGraph.executionMode (graph : DerivedWorkflowGraph) (n : WorkflowNodeDefinitionId) :
    Option WorkflowExecutionMode :=
  (graph.nodeType n).map fun kind => (workflowNodeDispatchMap kind).executionMode

inductive AgentResultStatus where
  | completed
  | escalated
  | aborted
  | budgetExhausted
  | error
  | suspended
  deriving DecidableEq

structure AgentResult where
  status : AgentResultStatus
  tokensUsed : Nat

inductive NodeOutcomeStatus where
  | completed
  | failed
  deriving DecidableEq

structure NodeOutcome where
  status : NodeOutcomeStatus
  reasonCode : String

def mapAgentResultToNodeOutcome (result : AgentResult) : NodeOutcome :=
  match result.status with
  | .completed => ⟨.completed, "node_completed_by_agent"⟩
  | .escalated => ⟨.failed, "agent_escalated"⟩
  | .aborted => ⟨.failed, "agent_aborted"⟩
  | .budgetExhausted => ⟨.failed, "agent_budget_exhausted"⟩
  | .error => ⟨.failed, "agent_error"⟩
  | .suspended => ⟨.failed, "agent_suspended"⟩

/-- How a dispatch ends: the promise is rejected, or an agent answers. -/
inductive DispatchOutcome where
  | threw
  | returned (result : AgentResult)

/-! ## The state of the loop -/

structure WorkflowDispatchHarnessConfig where
  concurrencyLimit : Option Nat
  maxNodeAttempts : Option Nat

namespace WorkflowDispatchHarnessConfig

/-- `config.concurrencyLimit ?? DEFAULT_CONCURRENCY_LIMIT`. -/
def limit (config : WorkflowDispatchHarnessConfig) : Nat := config.concurrencyLimit.getD 6

/-- `config.maxNodeAttempts ?? DEFAULT_MAX_NODE_ATTEMPTS`. -/
def attempts (config : WorkflowDispatchHarnessConfig) : Nat := config.maxNodeAttempts.getD 3

end WorkflowDispatchHarnessConfig

structure HarnessNodeResult where
  nodeDefinitionId : WorkflowNodeDefinitionId
  executionMode : WorkflowExecutionMode
  agentResult : Option AgentResult
  engineResult : Option WorkflowRunState
  usage : Option Nat

structure HarnessUsage where
  inputTokens : Nat
  outputTokens : Nat
  totalTokens : Nat

/-- Where the loop stands: at its head, in the loop over the internal nodes, in the loop over the batches with the
nodes of the batch still to start and those in flight, or past the loop. -/
inductive HarnessPhase where
  | deciding
  | executing (internalNodes dispatchedNodes : List WorkflowNodeDefinitionId)
  | dispatching (batch inFlight : List WorkflowNodeDefinitionId) (batches : List (List WorkflowNodeDefinitionId))
  | ended (suspended : Bool)
  | rejected (message : String)

/-- What the loop did, as far as a caller can tell. A completion tells whether it was one over the attempt limit. -/
inductive HarnessAction where
  | iterate
  | dispatch (n : WorkflowNodeDefinitionId)
  | answer (n : WorkflowNodeDefinitionId) (outcome : DispatchOutcome)
  | complete (n : WorkflowNodeDefinitionId) (overLimit : Bool)

structure HarnessState where
  engine : WorkflowRunState
  currentState : WorkflowRunState
  nodeResults : Record WorkflowNodeDefinitionId HarnessNodeResult
  nodeAttemptCounts : Record WorkflowNodeDefinitionId Nat
  totalUsage : HarnessUsage
  phase : HarnessPhase
  actions : List HarnessAction

/-- What the loop waits for: nothing, the execution of a node by the engine, or a dispatch. -/
inductive HarnessEvent where
  | proceed
  | execute (deps : WorkflowEngineDependencies)
  | settle (n : WorkflowNodeDefinitionId) (outcome : DispatchOutcome)

/-- `batchNodes`, with the number of turns its loop may take. A loop over batches of no node does not end. -/
def batchNodes (batchSize : Nat) : Nat → List WorkflowNodeDefinitionId → List (List WorkflowNodeDefinitionId)
  | 0, _ => []
  | _ + 1, [] => []
  | turns + 1, n :: nodes =>
    (n :: nodes).take batchSize :: batchNodes batchSize turns ((n :: nodes).drop batchSize)

namespace HarnessState

/-- `run(input)` on a run whose state is what the engine stores. -/
def start (state : WorkflowRunState) : HarnessState where
  engine := state
  currentState := state
  nodeResults := .empty
  nodeAttemptCounts := .empty
  totalUsage := ⟨0, 0, 0⟩
  phase := .deciding
  actions := []

section

variable (graph : DerivedWorkflowGraph) (config : WorkflowDispatchHarnessConfig) (h : HarnessState)

/-- `nodeAttemptCounts.get(nodeId) ?? 0`. -/
def attempts (n : WorkflowNodeDefinitionId) : Nat := (h.nodeAttemptCounts.get? n).getD 0

def countAttempt (n : WorkflowNodeDefinitionId) : HarnessState :=
  { h with nodeAttemptCounts := h.nodeAttemptCounts.set n (h.attempts n + 1) }

def act (action : HarnessAction) : HarnessState := { h with actions := h.actions ++ [action] }

def enter (phase : HarnessPhase) : HarnessState := { h with phase := phase }

def setResult (n : WorkflowNodeDefinitionId) (executionMode : WorkflowExecutionMode)
    (agentResult : Option AgentResult) (engineResult : Option WorkflowRunState) : HarnessState :=
  { h with
    nodeResults := h.nodeResults.set n
      ⟨n, executionMode, agentResult, engineResult, agentResult.map (·.tokensUsed)⟩ }

/-- The state after a call on the engine that returned `state`. -/
def engaged (state : WorkflowRunState) : HarnessState := { h with engine := state, currentState := state }

/-! ### The head of the loop -/

/-- The ready nodes in one execution mode; nodes the graph does not know are in neither. -/
def readyIn (mode : WorkflowExecutionMode) : List WorkflowNodeDefinitionId :=
  h.currentState.readyNodeIds.filter fun n => graph.executionMode n = some mode

def decide : HarnessState :=
  let readyNodeIds := h.currentState.readyNodeIds
  if readyNodeIds.length = 0 then (h.act .iterate).enter (.ended false)
  else if 0 < (readyNodeIds.filter fun n => graph.nodeType n = some .humanDecision).length then
    (h.act .iterate).enter (.ended true)
  else (h.act .iterate).enter (.executing (h.readyIn graph .internal) (h.readyIn graph .dispatched))

/-! ### Internal nodes -/

def completeNode (n : WorkflowNodeDefinitionId) (reasonCode : String) : Except String WorkflowRunState :=
  ((EngineCall.completeNode n ⟨reasonCode, [], none⟩).program graph).effect h.engine

/-- An internal node whose attempts are used up. Nothing catches the rejection of this call. -/
def exceedInternal (n : WorkflowNodeDefinitionId) (internalNodes dispatchedNodes : List WorkflowNodeDefinitionId) :
    HarnessState :=
  match h.completeNode graph n "max_node_attempts_exceeded" with
  | .ok state =>
    (((h.engaged state).act (.complete n true)).setResult n .internal none none).enter
      (.executing internalNodes dispatchedNodes)
  | .error message => h.enter (.rejected message)

def executeReadyNode (deps : WorkflowEngineDependencies) (n : WorkflowNodeDefinitionId) :
    Except String WorkflowRunState :=
  ((EngineCall.executeReadyNode deps ⟨n, .running, none, ⟨"harness_execute_internal", [], none⟩⟩).program graph).effect
    h.engine

/-- An execution completes its node when the attempt that it adds is completed. -/
def actExecuted (n : WorkflowNodeDefinitionId) (state : WorkflowRunState) : HarnessState :=
  if ((state.node? n).bind fun nodeState => nodeState.attempts.getLast?.map (·.status)) = some .completed then
    h.act (.complete n false)
  else h

/-- The loop over the batches begins when the loop over the internal nodes is over, or breaks. -/
def toBatches (dispatchedNodes : List WorkflowNodeDefinitionId) : HarnessState :=
  h.enter (.dispatching [] [] (batchNodes config.limit dispatchedNodes.length dispatchedNodes))

def executeInternal (deps : WorkflowEngineDependencies) (n : WorkflowNodeDefinitionId)
    (internalNodes dispatchedNodes : List WorkflowNodeDefinitionId) : HarnessState :=
  match h.executeReadyNode graph deps n with
  | .ok state =>
    (((h.engaged state).actExecuted n state).setResult n .internal none (some state)).enter
      (.executing internalNodes dispatchedNodes)
  | .error _ =>
    match h.completeNode graph n "engine_execution_error" with
    | .ok state =>
      (((h.engaged state).act (.complete n false)).setResult n .internal none none).enter
        (.executing internalNodes dispatchedNodes)
    | .error _ => h.toBatches config dispatchedNodes

/-! ### Dispatched nodes -/

/-- Report a dispatched node to the engine. A rejection of this call is dropped with the dispatch's own. -/
def report (n : WorkflowNodeDefinitionId) (reasonCode : String) (overLimit : Bool)
    (agentResult : Option AgentResult) : HarnessState :=
  match h.completeNode graph n reasonCode with
  | .ok state => ((h.engaged state).act (.complete n overLimit)).setResult n .dispatched agentResult none
  | .error _ => h

def startDispatch (n : WorkflowNodeDefinitionId) (batch inFlight : List WorkflowNodeDefinitionId)
    (batches : List (List WorkflowNodeDefinitionId)) : HarnessState :=
  let h := h.countAttempt n
  if config.attempts < h.attempts n then
    (h.report graph n "max_node_attempts_exceeded" true none).enter (.dispatching batch inFlight batches)
  else (h.act (.dispatch n)).enter (.dispatching batch (inFlight ++ [n]) batches)

def addUsage (tokensUsed : Nat) : HarnessState :=
  { h with
    totalUsage := { h.totalUsage with
      inputTokens := h.totalUsage.inputTokens + tokensUsed
      totalTokens := h.totalUsage.totalTokens + tokensUsed } }

/-- A dispatch that settles. A suspended agent is not reported: its node stays as it is. -/
def settleDispatch (n : WorkflowNodeDefinitionId) (outcome : DispatchOutcome) : HarnessState :=
  let h := h.act (.answer n outcome)
  match outcome with
  | .threw => h.report graph n "dispatch_exception" false none
  | .returned result =>
    if result.status = .suspended then h.setResult n .dispatched (some result) none
    else
      match h.completeNode graph n (mapAgentResultToNodeOutcome result).reasonCode with
      | .ok state =>
        (((h.engaged state).act (.complete n false)).addUsage result.tokensUsed).setResult n .dispatched (some result)
          none
      | .error _ => h

/-- The end of the loop body: the state is fetched from the engine, and a terminal one leaves the loop. -/
def refresh : HarnessState :=
  let h := { h with currentState := h.engine }
  h.enter (if h.currentState.status ∈ [.completed, .failed, .canceled] then .ended false else .deciding)

/-- One step, where the event is one that the loop waits for. -/
def step (event : HarnessEvent) : Option HarnessState :=
  match h.phase, event with
  | .deciding, .proceed => some (h.decide graph)
  | .executing (n :: internalNodes) dispatchedNodes, .proceed =>
    if config.attempts < (h.countAttempt n).attempts n then
      some ((h.countAttempt n).exceedInternal graph n internalNodes dispatchedNodes)
    else none
  | .executing (n :: internalNodes) dispatchedNodes, .execute deps =>
    if config.attempts < (h.countAttempt n).attempts n then none
    else some ((h.countAttempt n).executeInternal graph config deps n internalNodes dispatchedNodes)
  | .executing [] dispatchedNodes, .proceed =>
    if config.limit = 0 ∧ dispatchedNodes ≠ [] then none else some (h.toBatches config dispatchedNodes)
  | .dispatching (n :: batch) inFlight batches, .proceed => some (h.startDispatch graph config n batch inFlight batches)
  | .dispatching [] inFlight batches, .settle n outcome =>
    if n ∈ inFlight then some ((h.settleDispatch graph n outcome).enter (.dispatching [] (inFlight.erase n) batches))
    else none
  | .dispatching [] [] (batch :: batches), .proceed => some (h.enter (.dispatching batch [] batches))
  | .dispatching [] [] [], .proceed => some h.refresh
  | _, _ => none

end

end HarnessState

def HarnessStep (graph : DerivedWorkflowGraph) (config : WorkflowDispatchHarnessConfig) (h : HarnessState)
    (event : HarnessEvent) (h' : HarnessState) : Prop :=
  h.step graph config event = some h'

end NousCore.Workflow
