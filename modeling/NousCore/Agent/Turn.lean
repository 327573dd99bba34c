import NousCore.Agent.Types
import NousCore.Agent.ToolCalls
import NousCore.Lib.Fallible

/-!
# The handlers of the gateway

* `TurnState` : the budget of the run, its correlation, and what the calls of a turn have done;
* `handleStandardTool`, `handleDispatchTool`, `handleTaskCompleteTool`, `handleEscalationTool`, `handleObservationTool` :
  the handling of one call.
-/

namespace NousCore.Agent

open Fallible

/-! ## States and environments -/

/-- What is done for the call of an index. -/
inductive TurnStep where
  | executed (index : Nat)
  | dispatched (index : Nat)
  | charged (index : Nat) (units : JsNumber)

def TurnStep.index : TurnStep → Nat
  | .executed index | .dispatched index | .charged index _ => index

structure TurnState where
  tracker : BudgetTracker
  correlation : GatewayCorrelation
  steps : List TurnStep

abbrev Turn := Fallible Thrown TurnState

structure EscalationRequest where
  reason : String
  severity : EscalationPriority
  detail : List (String × Json)
  contextSnapshot : Option String

structure TaskCompletion where
  output : Json
  v3Packet : Json
  summary : Option String
  artifactRefs : List String
  evidenceRefs : List TraceEvidenceReference

/-- What the schemas make of the params of each lifecycle tool: of a dispatch the budget, of an observation its type. -/
structure ToolParams where
  dispatch : String → Json → Except Thrown (Option GatewayBudgetOverride)
  taskCompletion : Json → Except Thrown Unit
  escalation : Json → Except Thrown EscalationRequest
  observation : Json → Except Thrown String

/-- The tools, the hooks that there are, and the outbox; a call of a turn meets each of them once at most. -/
structure GatewayRuntime where
  executeTool : Nat → ToolCall → Except Thrown String
  dispatchOrchestrator : Option (Nat → Except Thrown AgentResult)
  dispatchWorker : Option (Nat → Except Thrown AgentResult)
  taskComplete : Option (Nat → Except Thrown TaskCompletion)
  requestEscalation : Option (Nat → Except Thrown Unit)
  flagObservation : Option (Nat → Except Thrown Unit)
  emit : Nat → Except Thrown Unit
  /-- The text of what a child run came to. -/
  childContent : AgentResult → String
  acceptsPacket : Json → Bool
  evidenceRefs : List TraceEvidenceReference
  elapsedMs : Nat
  snapshot : GatewayBudgetUsage → GatewayRunSnapshot

/-! ## Frames and results -/

def note (step : TurnStep) : Turn Unit := modify fun s => { s with steps := s.steps ++ [step] }

def toolFrame (source : GatewayContextSource) (content name : String) (toolCallId : Option String) :
    Turn ToolHandlingResult := do
  let frame ← MonadExcept.ofExcept
    (createContextFrame .tool source (some content) (some name) (metadataOf (toolCallIdEntry toolCallId)))
  return .frame frame

def toolErrorFrame (name : String) (toolCallId : Option String) (thrown : Thrown) : Turn ToolHandlingResult := do
  let frame ← MonadExcept.ofExcept (buildToolErrorFrame name toolCallId thrown)
  return .frame frame

def getLifecycleUnavailableMessage (name : String) : String :=
  s!"Lifecycle tool {name} is not available in this gateway instance"

section

variable (params : ToolParams) (runtime : GatewayRuntime)

/-- `AgentResultSchema.parse`, of a result with the usage and the correlation so far. -/
def terminate (outcome : AgentOutcome) (evidenceRefs : List TraceEvidenceReference) : Turn ToolHandlingResult := do
  let s ← get
  let result : AgentResult :=
    ⟨outcome, s.correlation, s.tracker.getUsage runtime.elapsedMs, runtime.evidenceRefs ++ evidenceRefs⟩
  if result.accepted runtime.acceptsPacket then return .terminal result else throw (.invalid "usage")

/-- `buildErrorResult` -/
def failWith (toolName : String) (thrown : Thrown) : Turn ToolHandlingResult :=
  terminate runtime (.error thrown.message [("toolName", .string toolName)]) []

/-- What is thrown on behalf of the witness service ends the run. -/
def failOrFrame (toolName : String) (frame : Turn ToolHandlingResult) (thrown : Thrown) : Turn ToolHandlingResult :=
  if thrown.isWitnessFailure then failWith runtime toolName thrown else frame

/-! ## One call -/

section

variable (index : Nat)

section

variable (call : ToolCall)

def handleStandardTool : Turn ToolHandlingResult :=
  tryCatch (do
    note (.executed index)
    let content ← MonadExcept.ofExcept (runtime.executeTool index call)
    toolFrame .toolResult content call.name call.id)
    fun thrown => failOrFrame runtime call.name (toolErrorFrame call.name call.id thrown) thrown

def refused (toolName : String) (thrown : Thrown) : Turn ToolHandlingResult :=
  toolFrame .toolError (normalizeToolError toolName thrown) toolName none

def unavailable (toolName : String) : Turn ToolHandlingResult :=
  toolFrame .toolError (getLifecycleUnavailableMessage toolName) toolName none

def lifecycleHook (toolName : String) : Option (Nat → Except Thrown AgentResult) :=
  if toolName = dispatchOrchestratorToolName then runtime.dispatchOrchestrator else runtime.dispatchWorker

def spawnBudgetExhausted : Turn ToolHandlingResult := do
  let s ← get
  let usage := s.tracker.getUsage runtime.elapsedMs
  terminate runtime (.budgetExhausted .spawnBudget (runtime.snapshot usage) usage.turnsUsed usage.tokensUsed) []

def requestSpawn (units : Nat) : Turn Bool :=
  modifyGet fun s => ((s.tracker.requestSpawn units).1, { s with tracker := (s.tracker.requestSpawn units).2 })

def prepareDispatchTool (batchMode : Bool) : Turn (Option ToolHandlingResult) :=
  match lifecycleHook runtime call.name with
  | none => some <$> unavailable call.name
  | some _ =>
    match params.dispatch call.name call.params with
    | .error thrown => some <$> refused call.name thrown
    | .ok budget => do
      if ← requestSpawn (estimateBudgetUnits budget) then return none
      else if batchMode then
        some <$> toolFrame .toolError s!"Tool {call.name} failed: spawn budget exceeded" call.name none
      else some <$> spawnBudgetExhausted runtime

def executePreparedDispatch : Turn ToolHandlingResult :=
  tryCatch (do
    note (.dispatched index)
    let value ← MonadExcept.ofExcept
      ((lifecycleHook runtime call.name).elim (.error (.error "lifecycleHook is not a function")) (· index))
    let units := estimateUsageUnits value.usage
    modify fun s => { s with tracker := s.tracker.consumeSpawnUnits units }
    note (.charged index units)
    toolFrame .childResult (runtime.childContent value) call.name none)
    fun thrown => failOrFrame runtime call.name (refused call.name thrown) thrown

def handleDispatchTool : Turn ToolHandlingResult := do
  match ← prepareDispatchTool params runtime call false with
  | some immediate => return immediate
  | none => executePreparedDispatch runtime index call

def handleTaskCompleteTool : Turn ToolHandlingResult :=
  match runtime.taskComplete with
  | none => unavailable taskCompleteToolName
  | some taskComplete =>
    match params.taskCompletion call.params with
    | .error thrown => refused taskCompleteToolName thrown
    | .ok _ => tryCatch (do
      note (.executed index)
      let value ← MonadExcept.ofExcept (taskComplete index)
      terminate runtime (.completed value.output value.v3Packet value.summary value.artifactRefs) value.evidenceRefs)
      fun thrown => failOrFrame runtime taskCompleteToolName (refused taskCompleteToolName thrown) thrown

def handleEscalationTool : Turn ToolHandlingResult :=
  match params.escalation call.params with
  | .error thrown => refused requestEscalationToolName thrown
  | .ok request => do
    note (.executed index)
    let outcome : AgentOutcome := .escalated request.reason request.severity request.detail request.contextSnapshot
    match (runtime.requestEscalation.elim (.ok ()) (· index) : Except Thrown Unit) with
    | .error thrown => failWith runtime requestEscalationToolName thrown
    | .ok _ => terminate runtime outcome []

def handleObservationTool : Turn ToolHandlingResult :=
  match params.observation call.params with
  | .error thrown => refused flagObservationToolName thrown
  | .ok observationType => tryCatch (do
    modify fun s => { s with correlation := { s.correlation with sequence := s.correlation.sequence + 1 } }
    note (.executed index)
    MonadExcept.ofExcept (runtime.emit index)
    MonadExcept.ofExcept (runtime.flagObservation.elim (.ok ()) (· index))
    toolFrame .runtime s!"Observation emitted: {observationType}" flagObservationToolName none)
    fun thrown => failWith runtime flagObservationToolName thrown

def handleToolCall : Turn ToolHandlingResult :=
  if isDispatchToolName call.name then handleDispatchTool params runtime index call
  else if call.name = taskCompleteToolName then handleTaskCompleteTool params runtime index call
  else if call.name = requestEscalationToolName then handleEscalationTool params runtime index call
  else if call.name = flagObservationToolName then handleObservationTool params runtime index call
  else handleStandardTool runtime index call

end

end

/-! ## Dispatch calls in a batch -/

def prepareBatch : List IndexedCall → Handled → Turn (Handled × List IndexedCall)
  | [], immediate => pure (immediate, [])
  | e :: rest, immediate => do
    match ← prepareDispatchTool params runtime e.2 true with
    | some result => prepareBatch rest (immediate.set e.1 result)
    | none => do
      let (immediate, pending) ← prepareBatch rest immediate
      return (immediate, e :: pending)

/-- The prepared calls at once; the calls of a batch have no ids. -/
def handleDispatchBatch (calls : List IndexedCall) : Turn Handled := do
  let (immediate, pending) ← prepareBatch params runtime (calls.map fun e => (e.1, { e.2 with id := none })) .empty
  let settled ← settleChunk ⟨executePreparedDispatch runtime, fun _ => pure .empty⟩ pending
  recordChunk settled immediate

def gatewayHandlers : ToolHandlers Turn := ⟨handleToolCall params runtime, handleDispatchBatch params runtime⟩

/-! ## All calls of a turn -/

/-- What the calls come to, before it is put into the order of the calls. -/
def handledCalls (concurrency : Option ToolConcurrencyConfig) (toolDefinitions : List ToolDefinition)
    (toolCalls : List ToolCall) : Turn Handled := do
  let dispatchResults ← handleDispatches (gatewayHandlers params runtime) toolCalls
  handleCalls (gatewayHandlers params runtime) concurrency toolDefinitions dispatchResults (indexed toolCalls)

theorem handleToolCalls_eq (concurrency : Option ToolConcurrencyConfig) (toolDefinitions : List ToolDefinition)
    (toolCalls : List ToolCall) : handleToolCalls (gatewayHandlers params runtime) concurrency toolDefinitions toolCalls =
      (collect · (List.range toolCalls.length)) <$> handledCalls params runtime concurrency toolDefinitions toolCalls := by
  unfold handleToolCalls handledCalls
  simp only [map_eq_pure_bind, bind_assoc]

end

/-! ## What the loops do -/

section

variable {handlers : ToolHandlers Turn} {dispatchResults handled : Handled} {calls : List IndexedCall} {s : TurnState}
  {E : Prop} {toolCalls : List ToolCall}

theorem sorted_indexed (toolCalls : List ToolCall) : (indexed toolCalls).Pairwise (·.1 < ·.1) := by
  unfold indexed
  rw [List.pairwise_map]
  have hrange : ((toolCalls.zipIdx).map Prod.snd).Pairwise (· < ·) := by
    rw [List.zipIdx_map_snd]
    exact List.pairwise_lt_range'
  exact List.pairwise_map.mp hrange

/-- The loop in the order of the calls: `Q` is what a call comes to, and `I n` holds before the calls from `n` on. -/
theorem ends_handleInOrder {Q : IndexedCall → ToolHandlingResult → Prop} {I : Nat → TurnState → Prop}
    (hmono : ∀ m n s, m ≤ n → I m s → I n s)
    (h : ∀ e ∈ calls, ∀ s, I e.1 s →
      Ends (resolve handlers dispatchResults e.1 e.2) s (fun r s' => Q e r ∧ I (e.1 + 1) s') fun _ _ => E)
    (hsorted : calls.Pairwise (·.1 < ·.1)) (hs : ∀ e ∈ calls, I e.1 s) :
    Ends (handleInOrder handlers dispatchResults calls handled) s (fun handled' s' =>
      (∀ i, (∀ e ∈ calls, e.1 ≠ i) → handled'.get? i = handled.get? i) ∧
      ∀ e ∈ calls, (∃ r, handled'.get? e.1 = some r ∧ Q e r ∧ (r.isTerminal = true → I (e.1 + 1) s')) ∨
        handled'.get? e.1 = handled.get? e.1 ∧
          ∃ e' ∈ calls, e'.1 < e.1 ∧ ∃ r, handled'.get? e'.1 = some r ∧ r.isTerminal = true) fun _ _ => E := by
  induction calls generalizing handled s with
  | nil => exact ends_pure ⟨fun _ _ => rfl, fun _ he => absurd he List.not_mem_nil⟩
  | cons head rest ih =>
    obtain ⟨hhead, hrest⟩ := List.pairwise_cons.mp hsorted
    refine ends_bind (h head List.mem_cons_self s (hs head List.mem_cons_self)) fun r s' hr => ?_
    obtain ⟨hQ, hI⟩ := hr
    by_cases hterminal : r.isTerminal = true
    · rw [if_pos hterminal]
      refine ends_pure ⟨fun i hi => ?_, fun e he => ?_⟩
      · rw [Record.get?_set, if_neg (hi head List.mem_cons_self).symm]
      · rcases List.mem_cons.mp he with rfl | he
        · exact .inl ⟨r, by rw [Record.get?_set, if_pos rfl], hQ, fun _ => hI⟩
        · refine .inr ⟨?_, head, List.mem_cons_self, hhead e he, r, ?_, hterminal⟩
          · rw [Record.get?_set, if_neg (hhead e he).ne']
          · rw [Record.get?_set, if_pos rfl]
    · rw [if_neg hterminal]
      refine (ih (fun e he => h e (List.mem_cons_of_mem _ he)) hrest fun e he => hmono _ _ _ (hhead e he) hI).mono
        (fun handled' s'' h' => ?_) fun _ _ hE => hE
      obtain ⟨hother, hcalls⟩ := h'
      refine ⟨fun i hi => ?_, fun e he => ?_⟩
      · rw [hother i fun e he => hi e (List.mem_cons_of_mem _ he), Record.get?_set,
          if_neg (hi head List.mem_cons_self).symm]
      · rcases List.mem_cons.mp he with rfl | he
        · refine .inl ⟨r, ?_, hQ, fun hr => absurd hr hterminal⟩
          rw [hother _ fun e' he' => (hhead e' he').ne', Record.get?_set, if_pos rfl]
        · refine (hcalls e he).imp id fun ⟨hget, e', he', hlt, hr⟩ => ⟨?_, e', List.mem_cons_of_mem _ he', hlt, hr⟩
          rw [hget, Record.get?_set, if_neg (hhead e he).ne']

/-- The calls of a chunk: each is settled with what it comes to, a rejection included; `I` knows the calls so far. -/
theorem ends_settleChunk {R : IndexedCall → Except Thrown ToolHandlingResult → Prop}
    {I : List IndexedCall → TurnState → Prop} {done : List IndexedCall}
    (h : ∀ e ∈ calls, ∀ done s, I done s → Ends (handlers.handleToolCall e.1 e.2) s
      (fun r s' => R e (.ok r) ∧ I (done ++ [e]) s') fun thrown s' => R e (.error thrown) ∧ I (done ++ [e]) s')
    (hs : I done s) : Ends (settleChunk handlers calls) s
      (fun settled s' => I (done ++ calls) s' ∧ ∀ x ∈ settled, x.1 ∈ calls ∧ R x.1 x.2) fun _ _ => False := by
  induction calls generalizing done s with
  | nil => exact ends_pure ⟨(List.append_nil done).symm ▸ hs, fun _ hx => absurd hx List.not_mem_nil⟩
  | cons head rest ih =>
    have hsettle : Ends (settle (handlers.handleToolCall head.1 head.2)) s (fun y s' => R head y ∧ I (done ++ [head]) s')
        fun _ _ => False := ends_attempt (h head List.mem_cons_self done s hs)
    refine ends_bind hsettle fun y s' hy => ?_
    refine ends_bind (ih (fun e he => h e (List.mem_cons_of_mem _ he)) hy.2) fun settled s'' hsettled => ?_
    rw [List.append_assoc] at hsettled
    refine ends_pure ⟨hsettled.1, fun x hx => ?_⟩
    rcases List.mem_cons.mp hx with rfl | hx
    · exact ⟨List.mem_cons_self, hy.1⟩
    · exact (hsettled.2 x hx).imp_left (List.mem_cons_of_mem _)

theorem ends_recordChunk {V : Nat → ToolHandlingResult → Prop}
    {settled : List (IndexedCall × Except Thrown ToolHandlingResult)}
    (hok : ∀ e r, (e, Except.ok r) ∈ settled → V e.1 r)
    (hframe : ∀ e thrown frame, (e, Except.error thrown) ∈ settled →
      buildToolErrorFrame e.2.name e.2.id thrown = .ok frame → V e.1 (.frame frame))
    (herror : ∀ e thrown thrown', (e, Except.error thrown) ∈ settled →
      buildToolErrorFrame e.2.name e.2.id thrown = .error thrown' → E)
    (hhandled : ∀ i r, handled.get? i = some r → V i r) :
    Ends (recordChunk settled handled : Turn Handled) s
      (fun handled' s' => s' = s ∧ ∀ i r, handled'.get? i = some r → V i r) fun _ _ => E := by
  have hset : ∀ {handled : Handled} {i : Nat} {r : ToolHandlingResult}, (∀ j q, handled.get? j = some q → V j q) →
      V i r → ∀ j q, (handled.set i r).get? j = some q → V j q := by
    intro handled i r hhandled hr j q hq
    rw [Record.get?_set] at hq
    split_ifs at hq with hj
    · exact hj ▸ Option.some.inj hq ▸ hr
    · exact hhandled j q hq
  induction settled generalizing handled with
  | nil => exact ends_pure ⟨rfl, hhandled⟩
  | cons head rest ih =>
    obtain ⟨e, y⟩ := head
    have ih' := fun {handled : Handled} => @ih handled (fun e r h => hok e r (List.mem_cons_of_mem _ h))
      (fun e t f h => hframe e t f (List.mem_cons_of_mem _ h)) fun e t t' h => herror e t t' (List.mem_cons_of_mem _ h)
    have hrecord : Ends (recordSettled handled e.1 e.2 y : Turn Handled) s
        (fun handled' s' => s' = s ∧ ∀ i r, handled'.get? i = some r → V i r) fun _ _ => E := by
      cases y with
      | ok r => exact ends_pure ⟨rfl, hset hhandled (hok e r List.mem_cons_self)⟩
      | error thrown =>
        unfold recordSettled
        cases hbuilt : buildToolErrorFrame e.2.name e.2.id thrown with
        | ok frame =>
          simp only [hbuilt]
          exact ends_pure ⟨rfl, hset hhandled (hframe e thrown frame List.mem_cons_self hbuilt)⟩
        | error thrown' =>
          simp only [hbuilt]
          exact ends_throw (herror e thrown thrown' List.mem_cons_self hbuilt)
    refine ends_bind hrecord fun handled' s' h => ?_
    obtain ⟨rfl, h⟩ := h
    exact ih' h

end

end NousCore.Agent
