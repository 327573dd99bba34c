import NousCore.Agent.Types

/-!
# The tool calls of a turn

* `ToolHandlingResult`, `buildToolErrorFrame` : what a tool call comes to, and the frame of one that fails;
* `handleToolCalls` : the frames of a turn in the order of its calls, and its terminal result.
-/

namespace NousCore.Agent

def dispatchOrchestratorToolName : String := "dispatch_orchestrator"

def dispatchWorkerToolName : String := "dispatch_worker"

def taskCompleteToolName : String := "task_complete"

def requestEscalationToolName : String := "request_escalation"

def flagObservationToolName : String := "flag_observation"

def isDispatchToolName (name : String) : Bool := name = dispatchOrchestratorToolName || name = dispatchWorkerToolName

/-- A call comes to a frame, or it ends the run. -/
inductive ToolHandlingResult where
  | frame (frame : GatewayContextFrame)
  | terminal (result : AgentResult)

def ToolHandlingResult.isTerminal : ToolHandlingResult → Bool
  | .frame _ => false
  | .terminal _ => true

def normalizeToolError (toolName : String) (thrown : Thrown) : String := s!"Tool {toolName} failed: {thrown.message}"

/-- An empty id counts as none. -/
def toolCallIdEntry (toolCallId : Option String) : List (String × Json) :=
  match toolCallId with
  | none => []
  | some id => if id = "" then [] else [("tool_call_id", .string id)]

def metadataOf (entries : List (String × Json)) : Option (List (String × Json)) :=
  if entries.isEmpty then none else some entries

def buildToolErrorFrame (toolName : String) (toolCallId : Option String) (thrown : Thrown) :
    Except Thrown GatewayContextFrame :=
  let kind := thrown.toolErrorKind
  let content := if kind.isSome then thrown.message else normalizeToolError toolName thrown
  createContextFrame .tool .toolError (some content) (some toolName)
    (metadataOf (toolCallIdEntry toolCallId ++ kind.toList.map fun kind => ("tool_error_kind", .string kind)))

/-! ## Concurrency -/

structure ToolConcurrencyConfig where
  maxConcurrent : Option Nat
  partitionBySafety : Option Bool

def ToolConcurrencyConfig.enabled (config : ToolConcurrencyConfig) : Bool :=
  config.partitionBySafety = some true && 1 < config.maxConcurrent.getD 1

def isSafe (toolDefinitions : List ToolDefinition) (name : String) : Bool :=
  (Record.ofEntries (toolDefinitions.map fun d => (d.name, d.isConcurrencySafe == some true))).get? name = some true

/-- At most `size` of them at a time. -/
def chunks {α : Type} (size : Nat) : Nat → List α → List (List α)
  | 0, _ => []
  | n + 1, l => if l.isEmpty then [] else l.take size :: chunks size n (l.drop size)

abbrev IndexedCall := Nat × ToolCall

/-- What the calls that were handled have come to, by index. -/
abbrev Handled := Record Nat ToolHandlingResult

/-- How calls are handled. -/
structure ToolHandlers (m : Type → Type) where
  handleToolCall : Nat → ToolCall → m ToolHandlingResult
  handleDispatchBatch : List IndexedCall → m Handled

section Handling

variable {m : Type → Type} [Monad m] [MonadExcept Thrown m] (handlers : ToolHandlers m)

def resolve (dispatchResults : Handled) (index : Nat) (call : ToolCall) : m ToolHandlingResult :=
  match dispatchResults.get? index with
  | some result => pure result
  | none => handlers.handleToolCall index call

/-- Call after call, until one ends the run. -/
def handleInOrder (dispatchResults : Handled) : List IndexedCall → Handled → m Handled
  | [], handled => pure handled
  | (index, call) :: rest, handled => do
    let result ← resolve handlers dispatchResults index call
    if result.isTerminal then return handled.set index result
    else handleInOrder dispatchResults rest (handled.set index result)

def settle {α : Type} (promise : m α) : m (Except Thrown α) :=
  tryCatch (Except.ok <$> promise) fun thrown => pure (.error thrown)

/-- A rejected call of a chunk comes to an error frame. -/
def recordSettled (handled : Handled) (index : Nat) (call : ToolCall) :
    Except Thrown ToolHandlingResult → m Handled
  | .ok result => return handled.set index result
  | .error thrown => do
    let frame ← MonadExcept.ofExcept (buildToolErrorFrame call.name call.id thrown)
    return handled.set index (.frame frame)

/-- The calls of a chunk share nothing that their results depend on, and are settled one after the other. -/
def settleChunk : List IndexedCall → m (List (IndexedCall × Except Thrown ToolHandlingResult))
  | [] => pure []
  | e :: rest => do
    let result ← settle (handlers.handleToolCall e.1 e.2)
    let settled ← settleChunk rest
    return (e, result) :: settled

def recordChunk : List (IndexedCall × Except Thrown ToolHandlingResult) → Handled → m Handled
  | [], handled => pure handled
  | (e, result) :: rest, handled => do
    let handled ← recordSettled handled e.1 e.2 result
    recordChunk rest handled

def handleChunks : List (List IndexedCall) → Handled → m Handled
  | [], handled => pure handled
  | chunk :: rest, handled => do
    let settled ← settleChunk handlers chunk
    let handled ← recordChunk settled handled
    handleChunks rest handled

/-- The safe calls in chunks, and then the others, unless a safe one ends the run. -/
def handlePartitioned (toolDefinitions : List ToolDefinition) (maxConcurrent : Nat) (dispatchResults : Handled)
    (calls : List IndexedCall) : m Handled := do
  let calls := calls.filter fun e => !isDispatchToolName e.2.name && (dispatchResults.get? e.1).isNone
  let concurrent := calls.filter fun e => isSafe toolDefinitions e.2.name
  let serial := calls.filter fun e => !isSafe toolDefinitions e.2.name
  let handled ← handleChunks handlers (chunks maxConcurrent concurrent.length concurrent) .empty
  if handled.values.any (·.isTerminal) then return handled
  else handleInOrder handlers dispatchResults serial handled

/-- The frames in the order of the calls, up to the first terminal result. -/
def collect (handled : Handled) : List Nat → List GatewayContextFrame × Option AgentResult
  | [] => ([], none)
  | index :: rest =>
    match handled.get? index with
    | none => collect handled rest
    | some (.frame frame) => (frame :: (collect handled rest).1, (collect handled rest).2)
    | some (.terminal result) => ([], some result)

def indexed (toolCalls : List ToolCall) : List IndexedCall := toolCalls.zipIdx.map Prod.swap

def dispatchesOf (toolCalls : List ToolCall) : List IndexedCall :=
  (indexed toolCalls).filter fun e => isDispatchToolName e.2.name

/-- A turn with several dispatch calls has them in a batch. -/
def handleDispatches (toolCalls : List ToolCall) : m Handled :=
  if 1 < (dispatchesOf toolCalls).length then handlers.handleDispatchBatch (dispatchesOf toolCalls)
  else pure .empty

def handleCalls (concurrency : Option ToolConcurrencyConfig) (toolDefinitions : List ToolDefinition)
    (dispatchResults : Handled) (calls : List IndexedCall) : m Handled :=
  if concurrency.any (·.enabled) then
    handlePartitioned handlers toolDefinitions ((concurrency.bind (·.maxConcurrent)).getD 1) dispatchResults calls
  else handleInOrder handlers dispatchResults calls .empty

def handleToolCalls (concurrency : Option ToolConcurrencyConfig) (toolDefinitions : List ToolDefinition)
    (toolCalls : List ToolCall) : m (List GatewayContextFrame × Option AgentResult) := do
  let dispatchResults ← handleDispatches handlers toolCalls
  let handled ← handleCalls handlers concurrency toolDefinitions dispatchResults (indexed toolCalls)
  return collect handled (List.range toolCalls.length)

end Handling

theorem mem_indexed {toolCalls : List ToolCall} {e : IndexedCall} :
    e ∈ indexed toolCalls ↔ toolCalls[e.1]? = some e.2 := by
  obtain ⟨i, call⟩ := e
  simp [indexed, List.mem_zipIdx_iff_getElem?]

end NousCore.Agent
