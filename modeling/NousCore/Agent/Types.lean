import NousCore.Lib.JsNumber
import NousCore.Witness.Types

/-!
# The agent gateway

* `Thrown` : an `Error`, and what the gateway reads of it;
* `estimateBudgetUnits`, `estimateUsageUnits` : the units of a budget that is asked for, and of what was used;
* `getExhaustedReason` : why a run may not go on.
-/

namespace NousCore.Agent

/-! ## Errors -/

/-- An `Error`; the code and the context are those of a `NousError`. -/
structure Thrown where
  message : String
  code : Option String
  context : List (String × Json)

def Thrown.error (message : String) : Thrown := ⟨message, none, []⟩

/-- A `ZodError`; its message lists its issues, of which the path is kept here. -/
def Thrown.invalid (path : String) : Thrown := .error s!"[path: {path}]"

def Thrown.isWitnessFailure (thrown : Thrown) : Bool :=
  thrown.code = some "WITNESS_AUTHORIZATION_FAILED" || thrown.code = some "WITNESS_COMPLETION_FAILED"

def Thrown.toolErrorKind (thrown : Thrown) : Option String :=
  match thrown.code, thrown.context.lookup "tool_error_kind", thrown.context.lookup "requested_tool" with
  | some _, some (.string kind), some (.string _) =>
    if kind = "unknown_tool" ∨ kind = "arguments_invalid" ∨ kind = "tool_runtime_error" then some kind else none
  | _, _, _ => none

/-! ## Budgets -/

structure GatewayBudget where
  maxTurns : Nat
  maxTokens : Nat
  timeoutMs : Nat
  maxTurns_pos : 0 < maxTurns
  maxTokens_pos : 0 < maxTokens
  timeoutMs_pos : 0 < timeoutMs

/-- What a dispatch may ask for; every field is optional. -/
structure GatewayBudgetOverride where
  maxTurns : Option Nat
  maxTokens : Option Nat
  timeoutMs : Option Nat

structure GatewayBudgetUsage where
  turnsUsed : JsNumber
  tokensUsed : JsNumber
  elapsedMs : JsNumber
  spawnUnitsUsed : JsNumber

def GatewayBudgetUsage.accepted (usage : GatewayBudgetUsage) : Bool :=
  usage.turnsUsed.isCount && usage.tokensUsed.isCount && usage.elapsedMs.isCount && usage.spawnUnitsUsed.isCount

inductive GatewayBudgetExhaustionReason where
  | turns | tokens | timeout | spawnBudget

/-! ## Correlation and evidence -/

structure GatewayCorrelation where
  runId : String
  parentId : Option String
  sequence : Nat

/-- An id that the witness service has given: a UUID, nothing, or another value, which may be falsy. -/
inductive EventId where
  | uuid (text : String)
  | undefined
  | malformed (truthy : Bool)
  deriving DecidableEq

def EventId.accepted : EventId → Bool
  | .uuid _ | .undefined => true
  | .malformed _ => false

def EventId.truthy : EventId → Bool
  | .uuid _ => true
  | .undefined => false
  | .malformed truthy => truthy

structure TraceEvidenceReference where
  actionCategory : Witness.CriticalActionCategory
  authorizationEventId : EventId
  completionEventId : EventId

def TraceEvidenceReference.accepted (ref : TraceEvidenceReference) : Bool :=
  ref.authorizationEventId.accepted && ref.completionEventId.accepted

/-! ## Contexts -/

inductive GatewayContextRole where
  | system | user | assistant | tool

inductive GatewayContextSource where
  | initialPayload | initialContext | modelOutput | toolResult | toolError | inbox | runtime | childResult

structure GatewayContextFrame where
  role : GatewayContextRole
  source : GatewayContextSource
  content : String
  name : Option String
  metadata : Option (List (String × Json))

def createContextFrame (role : GatewayContextRole) (source : GatewayContextSource) (content : Option String)
    (name : Option String) (metadata : Option (List (String × Json))) : Except Thrown GatewayContextFrame :=
  match content with
  | none => .error (.invalid "content")
  | some content => if name = some "" then .error (.invalid "name") else .ok ⟨role, source, content, name, metadata⟩

/-! ## Inputs -/

structure GatewayExecutionContext where
  projectId : Option String
  traceId : Option String

/-- What `AgentInputSchema` accepts; the payload is a JSON document. -/
structure AgentInput where
  taskInstructions : String
  payload : Option Json
  context : List GatewayContextFrame
  budget : GatewayBudget
  spawnBudgetCeiling : Nat
  correlation : GatewayCorrelation
  execution : Option GatewayExecutionContext

structure ToolCall where
  name : String
  params : Json
  id : Option String

structure ToolDefinition where
  name : String
  isConcurrencySafe : Option Bool

/-! ## Results -/

inductive EscalationPriority where
  | low | medium | high | critical

structure GatewayRunSnapshot where
  correlation : GatewayCorrelation
  budget : GatewayBudget
  usage : GatewayBudgetUsage
  contextFrameCount : Nat
  execution : Option GatewayExecutionContext

/-- The fields of a result that depend on its status. -/
inductive AgentOutcome where
  | completed (output v3Packet : Json) (summary : Option String) (artifactRefs : List String)
  | escalated (reason : String) (severity : EscalationPriority) (detail : List (String × Json))
      (contextSnapshot : Option String)
  | aborted (reason : String)
  | budgetExhausted (exhausted : GatewayBudgetExhaustionReason) (partialState : GatewayRunSnapshot)
      (turnsUsed tokensUsed : JsNumber)
  | error (reason : String) (detail : List (String × Json))
  | suspended (reason : String) (detail : List (String × Json))

structure AgentResult where
  outcome : AgentOutcome
  correlation : GatewayCorrelation
  usage : GatewayBudgetUsage
  evidenceRefs : List TraceEvidenceReference

def AgentResult.isError (result : AgentResult) : Bool :=
  match result.outcome with
  | .error _ _ => true
  | _ => false

def AgentResult.status (result : AgentResult) : String :=
  match result.outcome with
  | .completed _ _ _ _ => "completed"
  | .escalated _ _ _ _ => "escalated"
  | .aborted _ => "aborted"
  | .budgetExhausted _ _ _ _ => "budget_exhausted"
  | .error _ _ => "error"
  | .suspended _ _ => "suspended"

/-- `acceptsPacket` is what `GatewayStampedPacketSchema` accepts. -/
def AgentOutcome.accepted (acceptsPacket : Json → Bool) : AgentOutcome → Bool
  | .completed _ v3Packet summary artifactRefs =>
    acceptsPacket v3Packet && summary ≠ some "" && artifactRefs.all fun ref => ref ≠ ""
  | .escalated reason _ _ contextSnapshot => reason ≠ "" && contextSnapshot ≠ some ""
  | .aborted reason | .error reason _ | .suspended reason _ => reason ≠ ""
  | .budgetExhausted _ partialState turnsUsed tokensUsed =>
    partialState.usage.accepted && turnsUsed.isCount && tokensUsed.isCount

/-- `AgentResultSchema`; the ids of a correlation are those of the input. -/
def AgentResult.accepted (acceptsPacket : Json → Bool) (result : AgentResult) : Bool :=
  result.outcome.accepted acceptsPacket && result.usage.accepted && result.evidenceRefs.all (·.accepted)


/-! ## The budget of a run -/

/-- `Math.ceil(n / 1000)` -/
def thousands (n : Nat) : Nat := (n + 999) / 1000

def estimateBudgetUnits : Option GatewayBudgetOverride → Nat
  | none => 0
  | some budget =>
    budget.maxTurns.getD 0 + thousands (budget.maxTokens.getD 0) + thousands (budget.timeoutMs.getD 0)

def estimateUsageUnits (usage : GatewayBudgetUsage) : JsNumber :=
  ((usage.turnsUsed.add usage.tokensUsed.perThousand.ceil).add usage.elapsedMs.perThousand.ceil).add usage.spawnUnitsUsed

/-- The token counts that a model provider reports; a count that is absent counts as 0. -/
structure ModelUsage where
  inputTokens : JsNumber
  outputTokens : JsNumber

structure BudgetTracker where
  budget : GatewayBudget
  spawnBudgetCeiling : Nat
  turnsUsed : Nat
  tokensUsed : JsNumber
  spawnUnitsUsed : JsNumber
  spawnBudgetExceeded : Bool

namespace BudgetTracker

def new (budget : GatewayBudget) (spawnBudgetCeiling : Nat) : BudgetTracker :=
  ⟨budget, spawnBudgetCeiling, 0, .ofNat 0, .ofNat 0, false⟩

variable (tracker : BudgetTracker)

def recordModelUsage : Option ModelUsage → BudgetTracker
  | none => tracker
  | some usage =>
    { tracker with tokensUsed := (tracker.tokensUsed.add usage.inputTokens.max0).add usage.outputTokens.max0 }

def recordTurn : BudgetTracker := { tracker with turnsUsed := tracker.turnsUsed + 1 }

/-- Whether so many units may be spawned; nothing is reserved. -/
def requestSpawn (units : Nat) : Bool × BudgetTracker :=
  if units = 0 then (true, tracker)
  else if (JsNumber.ofNat tracker.spawnBudgetCeiling).lt (tracker.spawnUnitsUsed.add (.ofNat units)) then
    (false, { tracker with spawnBudgetExceeded := true })
  else (true, tracker)

def consumeSpawnUnits (units : JsNumber) : BudgetTracker :=
  { tracker with spawnUnitsUsed := tracker.spawnUnitsUsed.add units.ceil.max0 }

def getUsage (elapsedMs : Nat) : GatewayBudgetUsage :=
  ⟨.ofNat tracker.turnsUsed, tracker.tokensUsed, .ofNat elapsedMs, tracker.spawnUnitsUsed⟩

def getExhaustedReason (elapsedMs : Nat) : Option GatewayBudgetExhaustionReason :=
  if tracker.spawnBudgetExceeded then some .spawnBudget
  else if tracker.budget.maxTurns ≤ tracker.turnsUsed then some .turns
  else if (JsNumber.ofNat tracker.budget.maxTokens).le tracker.tokensUsed then some .tokens
  else if tracker.budget.timeoutMs ≤ elapsedMs then some .timeout
  else none

variable {tracker}

@[simp] theorem accepted_getUsage {elapsedMs : Nat} : (tracker.getUsage elapsedMs).accepted =
    (tracker.tokensUsed.isCount && tracker.spawnUnitsUsed.isCount) := by
  unfold getUsage GatewayBudgetUsage.accepted
  simp

end BudgetTracker

end NousCore.Agent
