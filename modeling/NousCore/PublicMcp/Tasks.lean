import NousCore.Lib.Async
import NousCore.PublicMcp.Types

/-!
# Tasks of the external clients

* `PublicMcpTaskProjectionRecord`, `PublicMcpTaskResult` : what is stored of a task, and the schemas' checks;
* `PublicMcpTaskProjectionStore.create`, …, `getTaskResult` : the store of the tasks;
* `invokeAsync`, `executeAsyncTask` : a task is accepted, and is executed.
-/

namespace NousCore.PublicMcp

open Async

/-! ## Tasks -/

inductive PublicMcpTaskStatus where
  | queued
  | running
  | waiting
  | completed
  | failed
  | blocked
  | canceled
  deriving DecidableEq

inductive PublicMcpTaskWaitReason where
  | humanDecision
  | retryBackoff
  | checkpointCommit
  | asyncBatch
  deriving DecidableEq

inductive PublicMcpTaskResultStatus where
  | completed
  | failed
  | blocked
  | canceled
  deriving DecidableEq

def PublicMcpTaskResultStatus.toTaskStatus : PublicMcpTaskResultStatus → PublicMcpTaskStatus
  | .completed => .completed
  | .failed => .failed
  | .blocked => .blocked
  | .canceled => .canceled

def PublicMcpTaskStatus.terminal : PublicMcpTaskStatus → Bool
  | .completed | .failed | .blocked | .canceled => true
  | .queued | .running | .waiting => false

/-- What the service observes of an output: the string that it is, the string that its property `response` is, and
whether it is an object (arrays are, `null` is not). -/
class RuntimeValue (Value : Type) where
  asString : Value → Option String
  response : Value → Option String
  isObject : Value → Bool

/-- An item of the outputs; the payload is the value itself, or an object with the value as its only property. -/
inductive PublicMcpAgentOutputItem (Value : Type) where
  | text (text : String)
  | json (payload : Value)
  | wrapped (value : Value)
  deriving DecidableEq

structure AgentRun (Value : Type) where
  runId : String
  outputs : List (PublicMcpAgentOutputItem Value)
  deriving DecidableEq

structure PublicMcpTaskError where
  code : Int
  message : String
  deriving DecidableEq

structure PublicMcpTaskResult (Value : Type) where
  taskId : String
  status : PublicMcpTaskResultStatus
  result : Option (AgentRun Value)
  error : Option PublicMcpTaskError
  deriving DecidableEq

structure PublicMcpTaskProjection where
  taskId : String
  toolName : String
  subjectNamespace : String
  canonicalRunId : String
  status : PublicMcpTaskStatus
  waitReason : Option PublicMcpTaskWaitReason
  submittedAt : IsoTime
  updatedAt : IsoTime
  completedAt : Option IsoTime
  errorCode : Option String
  deriving DecidableEq

structure PublicMcpTaskProjectionRecord (Value : Type) extends PublicMcpTaskProjection where
  subjectClientId : String
  result : Option (PublicMcpTaskResult Value)
  deriving DecidableEq

variable {Value : Type}

def parseTaskResult (taskId : String) (status : PublicMcpTaskResultStatus) (result : Option (AgentRun Value))
    (error : Option (Json × String)) : Except String (PublicMcpTaskResult Value) :=
  if taskId = "" then .error "Invalid PublicMcpTaskResult"
  else
    match error with
    | none => .ok ⟨taskId, status, result, none⟩
    | some (.number code, message) =>
      if code.den = 1 ∧ message ≠ "" then .ok ⟨taskId, status, result, some ⟨code.num, message⟩⟩
      else .error "Invalid PublicMcpTaskResult"
    | some _ => .error "Invalid PublicMcpTaskResult"

/-- `/^ortho\.[a-z0-9.]+$/` -/
def isToolName (s : String) : Bool :=
  let rest := s.toList.drop 6
  s.toList.take 6 = "ortho.".toList && !rest.isEmpty &&
    rest.all fun c => c.isDigit || ('a' ≤ c && c ≤ 'z') || c = '.'

/-- What the schema checks of a record. -/
def ValidTask (record : PublicMcpTaskProjectionRecord Value) : Prop :=
  record.taskId ≠ "" ∧ isToolName record.toolName = true ∧ isNamespace record.subjectNamespace = true ∧ record.canonicalRunId ≠ "" ∧
    record.errorCode ≠ some "" ∧ record.subjectClientId ≠ "" ∧
      ∀ result ∈ record.result, result.taskId ≠ "" ∧ ∀ error ∈ result.error, error.message ≠ ""

instance (record : PublicMcpTaskProjectionRecord Value) : Decidable (ValidTask record) :=
  inferInstanceAs (Decidable (_ ∧ _ ∧ _ ∧ _ ∧ _ ∧ _ ∧ _))

def parseTaskRecord (record : PublicMcpTaskProjectionRecord Value) :
    Except String (PublicMcpTaskProjectionRecord Value) :=
  if ValidTask record then .ok record else .error "Invalid PublicMcpTaskProjectionRecord"

def taskKey (record : PublicMcpTaskProjectionRecord Value) : String := record.taskId

/-! ## The runtime -/

inductive PublicMcpTargetClass where
  | worker
  | orchestrator

structure PublicMcpAgentMemoryBinding where
  «namespace» : Option String
  readTiers : List PublicMcpMemoryTier
  writeTiers : List PublicMcpMemoryTier

/-- An invocation: the request, its client, and the arguments that the service itself reads. -/
structure PublicMcpAgentInvokeCommand where
  requestId : String
  subject : PublicMcpSubject
  memory : Option PublicMcpAgentMemoryBinding

structure ContextFrame where
  role : String
  content : String

structure PublicMcpRuntimeInvocationLike (Value : Type) where
  requestId : String
  runId : String
  targetClass : PublicMcpTargetClass
  taskInstructions : String
  payload : Option Value
  context : List ContextFrame

inductive RuntimeStatus where
  | completed
  | failed
  | blocked
  deriving DecidableEq

def RuntimeStatus.text : RuntimeStatus → String
  | .completed => "completed"
  | .failed => "failed"
  | .blocked => "blocked"

def RuntimeStatus.toTaskStatus : RuntimeStatus → PublicMcpTaskStatus
  | .completed => .completed
  | .failed => .failed
  | .blocked => .blocked

structure RuntimeError where
  code : String
  message : String

structure PublicMcpRuntimeInvocationResultLike (Value : Type) where
  runId : String
  status : RuntimeStatus
  output : Value
  error : Option RuntimeError

/-- The functions of an agent may throw. -/
structure PublicMcpRuntimeAgentDefinition (Value : Type) where
  targetClass : PublicMcpTargetClass
  buildTaskInstructions : PublicMcpAgentInvokeCommand → Except String String
  buildPayload : Option (PublicMcpAgentInvokeCommand → Except String Value)

/-! ## Operations -/

structure TaskAuditRecord where
  requestId : String
  timestamp : IsoTime
  oauthClientId : String
  «namespace» : String
  outcome : String
  rejectReason : Option String

structure QueuedExecution (Value : Type) where
  taskId : String
  runId : String
  agent : PublicMcpRuntimeAgentDefinition Value
  request : PublicMcpAgentInvokeCommand

inductive TaskOp (Value : Type) where
  | makeId
  | now
  | getTask (id : String)
  | putTask (record : PublicMcpTaskProjectionRecord Value)
  | saveAudit (record : TaskAuditRecord)
  | queueMicrotask (execution : QueuedExecution Value)
  | runAgent (invocation : PublicMcpRuntimeInvocationLike Value)

@[reducible] def TaskOp.Answer : TaskOp Value → Type
  | .makeId => String
  | .now => IsoTime
  | .getTask _ => Option (PublicMcpTaskProjectionRecord Value)
  | .putTask _ | .queueMicrotask _ => Unit
  | .saveAudit _ => Except String Unit
  | .runAgent _ => Except String (PublicMcpRuntimeInvocationResultLike Value)

structure TaskState (Value : Type) where
  tasks : Collection (@taskKey Value)

/-- What other calls do to the tasks before an operation, and how what is not modelled answers it. -/
structure TaskEnv (Value : Type) where
  others : TaskState Value → TaskState Value
  id : String
  now : IsoTime
  auditRejected : Option String
  ran : Except String (PublicMcpRuntimeInvocationResultLike Value)

/-- The store of the tasks works; the audit may be rejected. -/
def answerTask (env : TaskEnv Value) (s : TaskState Value) : (o : TaskOp Value) → o.Answer × TaskState Value
  | .makeId => (env.id, s)
  | .now => (env.now, s)
  | .getTask id => (s.tasks.find? id, s)
  | .putTask record => ((), { s with tasks := s.tasks.put record })
  | .saveAudit _ => (match env.auditRejected with | some message => .error message | none => .ok (), s)
  | .queueMicrotask _ => ((), s)
  | .runAgent _ => (env.ran, s)

def taskAnswers : Answers (@TaskOp.Answer Value) (TaskEnv Value) (TaskState Value) := fun o env s =>
  some (answerTask env (env.others s) o)

/-- The id that an operation has made. -/
def madeBy : Sigma (@TaskOp.Answer Value) → Option String
  | ⟨.makeId, id⟩ => some id
  | _ => none

/-- Other calls leave the tasks alone whose ids this call has made. -/
def OwnTasks : Allowance (@TaskOp.Answer Value) (TaskEnv Value) (TaskState Value) := fun l _ env s =>
  ∀ id ∈ l.filterMap madeBy, (env.others s).tasks.find? id = s.tasks.find? id

instance [DecidableEq Value] (l : Log (@TaskOp.Answer Value)) (o : TaskOp Value) (env : TaskEnv Value)
    (s : TaskState Value) : Decidable (OwnTasks l o env s) :=
  inferInstanceAs (Decidable (∀ id ∈ l.filterMap madeBy, (env.others s).tasks.find? id = s.tasks.find? id))

abbrev TaskCall (Value : Type) := Async (@TaskOp.Answer Value) String

def saveAudit (record : TaskAuditRecord) : TaskCall Value Unit := do
  let answer ← perform (TaskOp.saveAudit record)
  unwrap answer

def runAgent (invocation : PublicMcpRuntimeInvocationLike Value) :
    TaskCall Value (PublicMcpRuntimeInvocationResultLike Value) := do
  let answer ← perform (TaskOp.runAgent invocation)
  unwrap answer

/-! ## The store of the tasks -/

namespace PublicMcpTaskProjectionStore

structure CreatePublicTaskInput where
  taskId : String
  toolName : String
  subject : PublicMcpSubject
  canonicalRunId : String
  status : PublicMcpTaskStatus
  submittedAt : IsoTime

def newRecord (input : CreatePublicTaskInput) : PublicMcpTaskProjectionRecord Value where
  taskId := input.taskId
  toolName := input.toolName
  subjectNamespace := input.subject.namespace
  canonicalRunId := input.canonicalRunId
  status := input.status
  waitReason := none
  submittedAt := input.submittedAt
  updatedAt := input.submittedAt
  completedAt := none
  errorCode := none
  subjectClientId := input.subject.clientId
  result := none

def create (input : CreatePublicTaskInput) : TaskCall Value PublicMcpTaskProjection := do
  let record ← unwrap (parseTaskRecord (newRecord input))
  perform (TaskOp.putTask record)
  return record.toPublicMcpTaskProjection

/-- A task that is not there is left alone. -/
def update (taskId : String) (patch : PublicMcpTaskProjectionRecord Value → PublicMcpTaskProjectionRecord Value) :
    TaskCall Value (Option PublicMcpTaskProjection) := do
  match ← perform (TaskOp.getTask taskId) with
  | none => return none
  | some raw => do
    let next ← unwrap (parseTaskRecord (patch raw))
    perform (TaskOp.putTask next)
    return some next.toPublicMcpTaskProjection

def markRunning (taskId : String) (updatedAt : IsoTime) : TaskCall Value (Option PublicMcpTaskProjection) :=
  update taskId fun record =>
    { record with status := .running, updatedAt := updatedAt, waitReason := none, errorCode := none }

def complete (taskId : String) (result : PublicMcpTaskResult Value) (updatedAt : IsoTime) :
    TaskCall Value (Option PublicMcpTaskProjection) :=
  update taskId fun record =>
    { record with
      status := result.status.toTaskStatus
      updatedAt := updatedAt
      completedAt := some updatedAt
      errorCode := result.error.map (·.message)
      result := some result }

def getOwnedRecord (subject : PublicMcpSubject) (taskId : String) :
    TaskCall Value (Option (PublicMcpTaskProjectionRecord Value)) := do
  let raw ← perform (TaskOp.getTask taskId)
  return raw.filter fun record =>
    record.subjectNamespace = subject.namespace ∧ record.subjectClientId = subject.clientId

def getTaskResult (subject : PublicMcpSubject) (taskId : String) :
    TaskCall Value (Option (PublicMcpTaskResult Value)) := do
  let record ← getOwnedRecord subject taskId
  return record.bind (·.result)

end PublicMcpTaskProjectionStore

/-! ## The surface service -/

/-- Whether there is an audit store. -/
structure PublicMcpSurfaceService where
  auditStore : Bool

variable (service : PublicMcpSurfaceService)

def audit (request : PublicMcpAgentInvokeCommand) (requestId : String) (timestamp : IsoTime) (outcome : String)
    (rejectReason : Option String) : TaskCall Value Unit :=
  if service.auditStore then
    saveAudit ⟨requestId, timestamp, request.subject.clientId, request.subject.namespace, outcome, rejectReason⟩
  else return ()

/-- The audit at the end of an execution, with an id of its own. -/
def auditEnd (request : PublicMcpAgentInvokeCommand) (timestamp : IsoTime) (outcome : String)
    (rejectReason : Option String) : TaskCall Value Unit :=
  if service.auditStore then do
    let requestId ← perform TaskOp.makeId
    audit service request requestId timestamp outcome rejectReason
  else return ()

structure PublicMcpAgentInvokeTaskAccepted where
  taskId : String
  runId : String

def invokeAsync (agent : PublicMcpRuntimeAgentDefinition Value) (request : PublicMcpAgentInvokeCommand) :
    TaskCall Value PublicMcpAgentInvokeTaskAccepted := do
  let taskId ← perform TaskOp.makeId
  let runId ← perform TaskOp.makeId
  let submittedAt ← perform TaskOp.now
  let _ ← PublicMcpTaskProjectionStore.create
    ⟨taskId, "ortho.agents.v1.invoke", request.subject, runId, .queued, submittedAt⟩
  audit service request taskId submittedAt "admitted" none
  perform (TaskOp.queueMicrotask ⟨taskId, runId, agent, request⟩)
  return ⟨taskId, runId⟩

/-- `JSON.stringify` of a binding; its strings have nothing to escape. -/
def stringifyBinding (binding : PublicMcpAgentMemoryBinding) : String :=
  let quoted (s : String) := "\"" ++ s ++ "\""
  let tiers (ts : List PublicMcpMemoryTier) := "[" ++ ",".intercalate (ts.map fun t => quoted t.text) ++ "]"
  let fields := (binding.namespace.map fun s => "\"namespace\":" ++ quoted s).toList ++
    ["\"readTiers\":" ++ tiers binding.readTiers, "\"writeTiers\":" ++ tiers binding.writeTiers]
  "\x7b" ++ ",".intercalate fields ++ "\x7d"

def buildRuntimeContext (request : PublicMcpAgentInvokeCommand) : List ContextFrame :=
  ⟨"system", s!"Authenticated public subject namespace: {request.subject.namespace}"⟩ ::
    (request.memory.map fun binding =>
      ⟨"system", "Authorized memory binding: " ++ stringifyBinding binding⟩ : Option ContextFrame).toList

def normalizeOutput [RuntimeValue Value] (output : Value) : List (PublicMcpAgentOutputItem Value) :=
  match RuntimeValue.asString output, RuntimeValue.response output with
  | some text, _ => [.text text]
  | none, some response => [.text response]
  | none, none => if RuntimeValue.isObject output then [.json output] else [.wrapped output]

/-- What is stored when the runtime has answered. -/
def settleTask [RuntimeValue Value] (taskId runId : String) (request : PublicMcpAgentInvokeCommand)
    (result : PublicMcpRuntimeInvocationResultLike Value) (completedAt : IsoTime) : TaskCall Value Unit :=
  if result.status = .completed then do
    let taskResult ← unwrap (parseTaskResult taskId .completed (some ⟨runId, normalizeOutput result.output⟩) none)
    let _ ← PublicMcpTaskProjectionStore.complete taskId taskResult completedAt
    auditEnd service request completedAt "completed" none
  else do
    let code := (result.error.map (·.code)).getD result.status.text
    let message := (result.error.map (·.message)).getD "Public agent invocation failed"
    let taskResult ← unwrap (parseTaskResult taskId (if result.status = .blocked then .blocked else .failed) none
      (some (.string code, message)))
    let _ ← PublicMcpTaskProjectionStore.complete taskId taskResult completedAt
    auditEnd service request completedAt "blocked" (some "tool_not_available")

def executeAsyncTask [RuntimeValue Value] (taskId runId : String) (agent : PublicMcpRuntimeAgentDefinition Value)
    (request : PublicMcpAgentInvokeCommand) : TaskCall Value Unit := do
  let startedAt ← perform TaskOp.now
  let _ ← PublicMcpTaskProjectionStore.markRunning taskId startedAt
  let taskInstructions ← unwrap (agent.buildTaskInstructions request)
  let payload ← unwrap (agent.buildPayload.mapM fun build => build request)
  let result ← runAgent ⟨request.requestId, runId, agent.targetClass, taskInstructions, payload,
    buildRuntimeContext request⟩
  let completedAt ← perform TaskOp.now
  settleTask service taskId runId request result completedAt

end NousCore.PublicMcp
