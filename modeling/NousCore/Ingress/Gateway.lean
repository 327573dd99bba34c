import NousCore.Ingress.Store
import NousCore.Lib.System

/-!
# The ingress gateway

* `waitForCommittedDuplicate`, `claim` : the claim of an envelope, with its wait for the first claimant;
* `admitTrigger` : the gates, the dispatch of a task or a workflow, and the commit or release of the claim;
* `submit` : validation, authentication, authorization, claim and admission.
-/

namespace NousCore.Ingress

open Async

structure IngressDispatchAdmissionOptions where
  /-- Which of the optional dependencies are there. -/
  opctl : Bool
  taskStore : Bool
  documentStore : Bool
  submitTaskToSystem : Bool
  sourceActor : Option String

structure IngressGatewayOptions where
  authz : IngressAuthzEvaluatorOptions
  store : IngressIdempotencyStoreOptions
  admission : IngressDispatchAdmissionOptions

/-! ## The claim -/

/-- A timer takes a millisecond at least, so that there are at most as many of them as milliseconds to wait. -/
def waitForCommittedDuplicate (key : String) (waitUntil : Int) : Nat → DedupRecord →
    IngressCall IngressIdempotencyClaimResult
  | 0, record => return toDuplicateResult record
  | timers + 1, record => do
    let (latest, inTime) ← poll key waitUntil
    match latest with
    | none => return toDuplicateResult record
    | some latest =>
      if latest.status = .claimed ∧ inTime then waitForCommittedDuplicate key waitUntil timers latest
      else return toDuplicateResult latest

def claim (options : IngressIdempotencyStoreOptions) (envelope : IngressTriggerEnvelope) :
    IngressCall IngressIdempotencyClaimResult := do
  match ← claimOrWait envelope with
  | .result result => return result
  | .wait record waitUntil =>
    waitForCommittedDuplicate (dedupKey envelope) waitUntil options.pendingClaimWaitMs record

/-! ## Admission -/

section Admission

variable (options : IngressDispatchAdmissionOptions) (envelope : IngressTriggerEnvelope) (claim : Claim)

def rejectAndRelease (reason : IngressRejectReason) (reasonCode : String) (evidenceRefs : List String) :
    IngressCall IngressDispatchOutcome := do
  releaseClaim claim.reservationId reasonCode
  return .rejected reason (some reasonCode) s!"ingress:{envelope.triggerId}" evidenceRefs

def dispatchRefOf : String := s!"dispatch:{claim.runId}"

def evidenceRefOf : String := s!"evidence:{envelope.triggerId}:{claim.runId}"

def buildTriggerContext : WorkflowRunTriggerContext where
  triggerId := envelope.triggerId
  triggerType := envelope.triggerType
  sourceId := envelope.sourceId
  workflowRef := envelope.ref.text
  workmodeId := envelope.workmodeId
  idempotencyKey := envelope.idempotencyKey
  dispatchRef := dispatchRefOf claim
  evidenceRef := evidenceRefOf envelope claim
  occurredAt := envelope.occurredAt

/-- A rejected dispatch releases the claim; what was thrown is read before. -/
def catchAndRelease (reasonCode : String) (dispatch : IngressCall IngressDispatchOutcome) :
    IngressCall IngressDispatchOutcome := do
  match ← dispatch.attempt with
  | .ok outcome => return outcome
  | .error thrown =>
    let message ← unwrap thrown.message
    rejectAndRelease envelope claim .workflowAdmissionBlocked reasonCode [message]

def taskTriggerType : TaskTriggerType := if envelope.triggerType = .scheduler then .heartbeat else .webhook

def dispatchTask (taskRef : String) (taskDef : TaskDefinition) : IngressCall IngressDispatchOutcome := do
  let (executionId, now) ← makeExecution
  putExecution
    { id := executionId
      taskDefinitionId := taskDef.id
      projectId := envelope.projectId
      triggeredAt := now
      triggerType := taskTriggerType envelope }
  let receipt ← submitTaskToSystem
    { task := taskDef.orchestratorInstructions
      projectId := envelope.projectId
      taskDefinitionId := taskDef.id
      taskName := taskDef.name
      triggerType := taskTriggerType envelope
      executionId := executionId
      context := taskDef.context.getD [] }
  commitDispatch claim.reservationId (dispatchRefOf claim) (evidenceRefOf envelope claim)
  return .acceptedDispatched receipt.runId (dispatchRefOf claim) taskRef s!"policy:task:{taskRef}"
    (evidenceRefOf envelope claim)

def dispatchWorkflow (workflowRef : String) (projectConfig : Json) (controlState : ProjectControlState) :
    IngressCall IngressDispatchOutcome := do
  let startResult ← startWorkflow
    { projectConfig := projectConfig
      workflowDefinitionId := some workflowRef
      runId := claim.runId
      workmodeId := envelope.workmodeId
      sourceActor := options.sourceActor.getD "orchestration_agent"
      controlState := controlState
      triggerContext := buildTriggerContext envelope claim
      admissionEvidenceRefs := [evidenceRefOf envelope claim]
      startedAt := envelope.occurredAt }
  match startResult with
  | .admissionBlocked reasonCode evidenceRefs =>
    rejectAndRelease envelope claim .workflowAdmissionBlocked reasonCode evidenceRefs
  | .started policyRef =>
    commitDispatch claim.reservationId (dispatchRefOf claim) (evidenceRefOf envelope claim)
    return .acceptedDispatched claim.runId (dispatchRefOf claim) workflowRef
      (policyRef.getD s!"policy:{workflowRef}") (evidenceRefOf envelope claim)

/-- The task of the envelope, where there is a task store. -/
def findTask (taskRef : String) : IngressCall (Option TaskDefinition) :=
  if options.taskStore then getTask envelope.projectId taskRef else return none

def admitTask (taskRef : String) : IngressCall IngressDispatchOutcome :=
  if !options.submitTaskToSystem || !options.documentStore then
    rejectAndRelease envelope claim .workflowAdmissionBlocked "task_dispatch_unavailable"
      ["submitTaskToSystem or documentStore not configured for task dispatch"]
  else do
    match ← findTask options envelope taskRef with
    | none =>
      rejectAndRelease envelope claim .workflowAdmissionBlocked "task_definition_not_found"
        [s!"task_ref={taskRef} not found in project {envelope.projectId}"]
    | some taskDef =>
      catchAndRelease envelope claim "task_dispatch_failed" (dispatchTask envelope claim taskRef taskDef)

/-- `admitTrigger`, for an envelope that has obtained a claim. -/
def admitClaimed : IngressCall IngressDispatchOutcome :=
  if !options.opctl then
    rejectAndRelease envelope claim .controlStateBlocked "opctl_unavailable"
      ["opctl unavailable; cannot verify control state"]
  else do
    let controlState ← getProjectControlState envelope.projectId
    if controlState = .hardStopped ∨ controlState = .pausedReview then
      rejectAndRelease envelope claim .controlStateBlocked s!"project_control_state_{controlState.text}"
        [s!"control_state={controlState.text} blocks dispatch"]
    else
      match ← getProject envelope.projectId with
      | none =>
        rejectAndRelease envelope claim .workflowAdmissionBlocked "project_not_found"
          [s!"project_id={envelope.projectId} not found"]
      | some projectConfig =>
        match envelope.ref with
        | .task taskRef => admitTask options envelope claim taskRef
        | .workflow workflowRef =>
          catchAndRelease envelope claim "workflow_start_failed"
            (dispatchWorkflow options envelope claim workflowRef projectConfig controlState)

end Admission

def admitTrigger (options : IngressDispatchAdmissionOptions) (envelope : IngressTriggerEnvelope)
    (idempotencyResult : IngressIdempotencyClaimResult) : IngressCall IngressDispatchOutcome :=
  match idempotencyResult with
  | .duplicate runId dispatchRef evidenceRef => return .acceptedAlreadyDispatched runId dispatchRef evidenceRef
  | .replay =>
    return .rejected .replayDetected none s!"ingress:{envelope.triggerId}"
      [s!"replay:{envelope.sourceId}:{envelope.nonce}"]
  | .claimed claim => admitClaimed options envelope claim

/-! ## Submission -/

variable (options : IngressGatewayOptions)

def claimAndAdmit (envelope : IngressTriggerEnvelope) : IngressCall IngressDispatchOutcome := do
  let result ← claim options.store envelope
  admitTrigger options.admission envelope result

def submit (payload : IngressPayload) : IngressCall IngressDispatchOutcome :=
  match payload with
  | .malformed triggerId =>
    return .rejected .invalidEnvelope none s!"ingress:{triggerId}" ["ingress validation failed"]
  | .parsed envelope =>
    match verify envelope with
    | none =>
      return .rejected .unauthenticated none s!"ingress:{envelope.triggerId}"
        [s!"authn failed for trigger {envelope.triggerId}"]
    | some authContextRef =>
      match evaluate options.authz envelope authContextRef with
      | some reason =>
        return .rejected reason none s!"ingress:{envelope.triggerId}" [s!"authz blocked: {reason.text}"]
      | none => claimAndAdmit options envelope

/-- Any number of submissions on one idempotency store. -/
def gateway : System IngressPayload IngressOp.Answer IngressEnv IngressState Thrown IngressDispatchOutcome where
  body := submit options
  answers := answers options.store
  spawned := fun _ => []
  exclusive := fun _ => false

/-- All dependencies are there, and nothing is forbidden. -/
def openGateway : IngressGatewayOptions := ⟨⟨none, none⟩, defaultStoreOptions, ⟨true, true, true, true, none⟩⟩

/-- 2026-03-06T20:30:00.000Z. -/
def evening : Int := 1772829000000

def triggerOf (sourceId idempotencyKey nonce : String) (ref : IngressRef) : IngressTriggerEnvelope where
  triggerId := "550e8400-e29b-41d4-a716-446655440000"
  triggerType := .scheduler
  sourceId := sourceId
  projectId := "550e8400-e29b-41d4-a716-446655440001"
  ref := ref
  workmodeId := "system:implementation"
  eventName := "scheduled_run"
  idempotencyKey := idempotencyKey
  nonce := nonce
  occurredAt := ⟨"2026-03-06T20:30:00.000Z", evening⟩
  authContextRef := none

/-- Every dependency answers, and every dispatcher accepts. -/
def acceptingEnv (elapsed : Nat) (id : String) : IngressEnv where
  elapsed := elapsed
  reservationId := id
  runId := "run-" ++ id
  controlState := .ok .running
  project := .ok (some .null)
  task := .ok (some ⟨"550e8400-e29b-41d4-a716-446655440002", "task", "do it", none⟩)
  stored := .ok ()
  receipt := .ok ⟨"run-" ++ id⟩
  started := .ok (.started none)

abbrev IngressThread := Thread IngressPayload IngressOp.Answer Thrown IngressDispatchOutcome

abbrev IngressConfig := Config IngressPayload IngressOp.Answer IngressState Thrown IngressDispatchOutcome

end NousCore.Ingress
