import NousCore.Lib.Async
import NousCore.Lib.Calendar
import NousCore.Lib.Json

/-!
# Ingress triggers and the idempotency store

* `IngressTriggerEnvelope`, `IngressPayload` : what is submitted;
* `DedupRecord`, `IngressState` : the claims and commits, the nonces, and the clock that the store reads;
* `pruneExpired`, `claim`, `commitDispatch`, `releaseClaim` : the operations of the store.
-/

namespace NousCore.Ingress

inductive IngressTriggerType where
  | scheduler | hook | webhook | systemEvent
  deriving DecidableEq

/-- Exactly one of `workflow_ref` and `task_ref` is present. -/
inductive IngressRef where
  | workflow (ref : String)
  | task (ref : String)
  deriving DecidableEq

def IngressRef.text : IngressRef → String
  | .workflow ref | .task ref => ref

def IngressRef.workflowRef : IngressRef → Option String
  | .workflow ref => some ref
  | .task _ => none

structure IngressTriggerEnvelope where
  triggerId : String
  triggerType : IngressTriggerType
  sourceId : String
  projectId : String
  ref : IngressRef
  workmodeId : String
  eventName : String
  idempotencyKey : String
  nonce : String
  occurredAt : IsoTime
  authContextRef : Option String
  deriving DecidableEq

/-- What `IngressTriggerEnvelopeSchema` makes of the argument; of one that it refuses, its trigger id. -/
inductive IngressPayload where
  | parsed (envelope : IngressTriggerEnvelope)
  | malformed (triggerId : String)
  deriving DecidableEq

inductive IngressRejectReason where
  | unauthenticated | scopeMismatch | eventForbidden | policyBlocked | replayDetected | rateLimited | invalidEnvelope
  | controlStateBlocked | workflowAdmissionBlocked

def IngressRejectReason.text : IngressRejectReason → String
  | .unauthenticated => "unauthenticated"
  | .scopeMismatch => "scope_mismatch"
  | .eventForbidden => "event_forbidden"
  | .policyBlocked => "policy_blocked"
  | .replayDetected => "replay_detected"
  | .rateLimited => "rate_limited"
  | .invalidEnvelope => "invalid_envelope"
  | .controlStateBlocked => "control_state_blocked"
  | .workflowAdmissionBlocked => "workflow_admission_blocked"

/-- What an envelope has been given when it obtains a claim. -/
structure Claim where
  reservationId : String
  runId : String
  recordedAt : Int

inductive IngressIdempotencyClaimResult where
  | claimed (claim : Claim)
  | duplicate (runId dispatchRef evidenceRef : String)
  | replay

inductive IngressDispatchOutcome where
  | acceptedDispatched (runId dispatchRef workflowRef policyRef evidenceRef : String)
  | acceptedAlreadyDispatched (runId dispatchRef evidenceRef : String)
  | rejected (reason : IngressRejectReason) (reasonCode : Option String) (evidenceRef : String)
      (evidenceRefs : List String)

/-- What a dependency may be rejected with. -/
inductive Thrown where
  | error (message : String)
  | null
  | undefined

/-- `(error as Error).message`; of `null` and `undefined`, the error that this throws. -/
def Thrown.message : Thrown → Except Thrown String
  | .error message => .ok message
  | .null => .error (.error "Cannot read properties of null (reading 'message')")
  | .undefined => .error (.error "Cannot read properties of undefined (reading 'message')")

/-! ## Authentication and authorization -/

/-- The auth context of an envelope that is authenticated. -/
def verify (envelope : IngressTriggerEnvelope) : Option String :=
  match envelope.triggerType with
  | .scheduler | .hook => some s!"internal:{envelope.sourceId}:{envelope.triggerId}"
  | .systemEvent => some s!"system:{envelope.sourceId}:{envelope.triggerId}"
  | .webhook => envelope.authContextRef

structure IngressCredentialScope where
  projectId : String
  workflowRef : String
  allowedEventNames : List String

structure IngressAuthzEvaluatorOptions where
  credentialScopes : Option (Record String IngressCredentialScope)
  allowExternalTrigger : Option (String → String → Bool)

variable (options : IngressAuthzEvaluatorOptions)

def allowsExternalTrigger (envelope : IngressTriggerEnvelope) : Bool :=
  match options.allowExternalTrigger with
  | some allow => allow envelope.projectId envelope.ref.text
  | none => true

/-- Why the envelope is not allowed, or nothing when it is. -/
def evaluate (envelope : IngressTriggerEnvelope) (authContextRef : String) : Option IngressRejectReason :=
  match envelope.triggerType with
  | .scheduler | .hook | .systemEvent =>
    if allowsExternalTrigger options envelope then none else some .policyBlocked
  | .webhook =>
    match options.credentialScopes with
    | none => some .policyBlocked
    | some scopes =>
      let keyId := ((authContextRef.splitOn ":")[1]?).getD authContextRef
      match scopes.get? keyId with
      | none => some .scopeMismatch
      | some scope =>
        if scope.projectId ≠ envelope.projectId ∨ some scope.workflowRef ≠ envelope.ref.workflowRef then
          some .scopeMismatch
        else if envelope.eventName ∉ scope.allowedEventNames then some .eventForbidden
        else if allowsExternalTrigger options envelope then none
        else some .policyBlocked

/-! ## Dispatchers -/

inductive ProjectControlState where
  | running | pausedReview | hardStopped | resuming
  deriving DecidableEq

def ProjectControlState.text : ProjectControlState → String
  | .running => "running"
  | .pausedReview => "paused_review"
  | .hardStopped => "hard_stopped"
  | .resuming => "resuming"

structure TaskDefinition where
  id : String
  name : String
  orchestratorInstructions : String
  context : Option (List (String × Json))

inductive TaskTriggerType where
  | heartbeat | webhook

/-- A record whose status is `running`. -/
structure TaskExecutionRecord where
  id : String
  taskDefinitionId : String
  projectId : String
  triggeredAt : Int
  triggerType : TaskTriggerType

structure SystemTaskSubmission where
  task : String
  projectId : String
  taskDefinitionId : String
  taskName : String
  triggerType : TaskTriggerType
  executionId : String
  context : List (String × Json)

structure SystemSubmissionReceipt where
  runId : String

structure WorkflowRunTriggerContext where
  triggerId : String
  triggerType : IngressTriggerType
  sourceId : String
  workflowRef : String
  workmodeId : String
  idempotencyKey : String
  dispatchRef : String
  evidenceRef : String
  occurredAt : IsoTime

structure WorkflowStartRequest where
  projectConfig : Json
  workflowDefinitionId : Option String
  runId : String
  workmodeId : String
  sourceActor : String
  controlState : ProjectControlState
  triggerContext : WorkflowRunTriggerContext
  admissionEvidenceRefs : List String
  startedAt : IsoTime

inductive WorkflowStartResult where
  | started (policyRef : Option String)
  | admissionBlocked (reasonCode : String) (evidenceRefs : List String)

end NousCore.Ingress

namespace NousCore.Ingress

/-! ## The in-memory idempotency store -/

open Async

structure IngressIdempotencyStoreOptions where
  ttlMs : Nat
  replayWindowMs : Nat
  pendingClaimWaitMs : Nat

def defaultStoreOptions : IngressIdempotencyStoreOptions := ⟨24 * 60 * 60 * 1000, 5 * 60 * 1000, 25⟩

inductive DedupStatus where
  | claimed
  | committed (dispatchRef evidenceRef : String)
  deriving DecidableEq

structure DedupRecord where
  claim : Claim
  status : DedupStatus

structure NonceRecord where
  nonce : String
  recordedAt : Int

/-- The state of the store, what the clock was read to be, and the reservation ids that were made. -/
structure IngressState where
  dedup : Record String DedupRecord
  reservations : Record String String
  nonces : Record String (List NonceRecord)
  now : Int
  made : List String

def IngressState.start (now : Int) : IngressState := ⟨.empty, .empty, .empty, now, []⟩

def dedupKey (envelope : IngressTriggerEnvelope) : String := s!"{envelope.sourceId}:{envelope.idempotencyKey}"

def IngressState.noncesOf (s : IngressState) (sourceId : String) : List NonceRecord :=
  (s.nonces.get? sourceId).getD []

variable (options : IngressIdempotencyStoreOptions)

namespace IngressState

/-- The record is past its retention. -/
def expired (s : IngressState) (record : DedupRecord) : Prop := options.ttlMs < s.now - record.claim.recordedAt

instance (s : IngressState) (record : DedupRecord) : Decidable (s.expired options record) :=
  inferInstanceAs (Decidable (_ < _))

def pruneExpired (s : IngressState) : IngressState :=
  { s with
    dedup := s.dedup.filterMap fun _ record => if s.expired options record then none else some record
    reservations := s.reservations.filterMap fun id key =>
      if s.dedup.values.any fun record => s.expired options record ∧ record.claim.reservationId = id then none
      else some key
    nonces := s.nonces.filterMap fun _ list =>
      match list.filter fun item => s.now - item.recordedAt ≤ options.replayWindowMs with
      | [] => none
      | kept => some kept }

end IngressState

def toDuplicateResult (record : DedupRecord) : IngressIdempotencyClaimResult :=
  match record.status with
  | .claimed => .duplicate record.claim.runId s!"dispatch:{record.claim.runId}" s!"evidence:{record.claim.runId}"
  | .committed dispatchRef evidenceRef => .duplicate record.claim.runId dispatchRef evidenceRef

/-- What `claim` comes to before it waits: a result, or a record to wait for. -/
inductive ClaimAnswer where
  | result (result : IngressIdempotencyClaimResult)
  | wait (record : DedupRecord) (waitUntil : Int)

namespace IngressState

/-- `claim`, as far as the first timer. -/
def claim (s : IngressState) (envelope : IngressTriggerEnvelope) (reservationId runId : String) :
    ClaimAnswer × IngressState :=
  let s := s.pruneExpired options
  match s.dedup.get? (dedupKey envelope) with
  | some existing =>
    if existing.status = .claimed ∧ 0 < options.pendingClaimWaitMs then
      (.wait existing (s.now + options.pendingClaimWaitMs), s)
    else (.result (toDuplicateResult existing), s)
  | none =>
    if options.replayWindowMs < (s.now - envelope.occurredAt.instant).natAbs then (.result .replay, s)
    else if (s.noncesOf envelope.sourceId).any fun record => record.nonce = envelope.nonce then (.result .replay, s)
    else
      let claim : Claim := ⟨reservationId, runId, s.now⟩
      (.result (.claimed claim),
        { s with
          dedup := s.dedup.set (dedupKey envelope) ⟨claim, .claimed⟩
          reservations := s.reservations.set reservationId (dedupKey envelope)
          nonces := s.nonces.set envelope.sourceId (s.noncesOf envelope.sourceId ++ [⟨envelope.nonce, s.now⟩])
          made := reservationId :: s.made })

def commitDispatch (s : IngressState) (reservationId dispatchRef evidenceRef : String) : IngressState :=
  match s.reservations.get? reservationId with
  | none => s
  | some key =>
    match s.dedup.get? key with
    | none => s
    | some existing =>
      if existing.claim.reservationId ≠ reservationId then s
      else { s with dedup := s.dedup.set key { existing with status := .committed dispatchRef evidenceRef } }

def releaseClaim (s : IngressState) (reservationId : String) : IngressState :=
  match s.reservations.get? reservationId with
  | none => s
  | some key =>
    let dedup := match s.dedup.get? key with
      | some existing =>
        if existing.claim.reservationId = reservationId ∧ existing.status = .claimed then s.dedup.erase key else s.dedup
      | none => s.dedup
    { s with dedup := dedup, reservations := s.reservations.erase reservationId }

end IngressState

/-! ## Operations -/

inductive IngressOp where
  | claim (envelope : IngressTriggerEnvelope)
  /-- A timer has gone off. -/
  | poll (key : String) (waitUntil : Int)
  | commitDispatch (reservationId dispatchRef evidenceRef : String)
  | releaseClaim (reservationId reasonCode : String)
  | getProjectControlState (projectId : String)
  | getProject (projectId : String)
  | getTask (projectId taskRef : String)
  | makeExecution
  | putExecution (record : TaskExecutionRecord)
  | submitTaskToSystem (submission : SystemTaskSubmission)
  | startWorkflow (request : WorkflowStartRequest)

@[reducible] def IngressOp.Answer : IngressOp → Type
  | .claim _ => ClaimAnswer
  | .poll _ _ => Option DedupRecord × Bool
  | .commitDispatch _ _ _ | .releaseClaim _ _ => Unit
  | .getProjectControlState _ => Except Thrown ProjectControlState
  | .getProject _ => Except Thrown (Option Json)
  | .getTask _ _ => Except Thrown (Option TaskDefinition)
  | .makeExecution => String × Int
  | .putExecution _ => Except Thrown Unit
  | .submitTaskToSystem _ => Except Thrown SystemSubmissionReceipt
  | .startWorkflow _ => Except Thrown WorkflowStartResult

/-- What the environment chooses: the time that has passed, the ids that are made, and what the dependencies answer. -/
structure IngressEnv where
  elapsed : Nat
  reservationId : String
  runId : String
  controlState : Except Thrown ProjectControlState
  project : Except Thrown (Option Json)
  task : Except Thrown (Option TaskDefinition)
  stored : Except Thrown Unit
  receipt : Except Thrown SystemSubmissionReceipt
  started : Except Thrown WorkflowStartResult

def IngressState.after (s : IngressState) (elapsed : Nat) : IngressState := { s with now := s.now + elapsed }

def answers : Answers IngressOp.Answer IngressEnv IngressState
  | .claim envelope, env, s => some ((s.after env.elapsed).claim options envelope env.reservationId env.runId)
  | .poll key waitUntil, env, s =>
    let s := s.after (env.elapsed + 1)
    some ((s.dedup.get? key, decide (s.now < waitUntil)), s)
  | .commitDispatch reservationId dispatchRef evidenceRef, _, s =>
    some ((), s.commitDispatch reservationId dispatchRef evidenceRef)
  | .releaseClaim reservationId _, _, s => some ((), s.releaseClaim reservationId)
  | .getProjectControlState _, env, s => some (env.controlState, s)
  | .getProject _, env, s => some (env.project, s)
  | .getTask _ _, env, s => some (env.task, s)
  | .makeExecution, env, s => some ((env.runId, (s.after env.elapsed).now), s.after env.elapsed)
  | .putExecution _, env, s => some (env.stored, s)
  | .submitTaskToSystem _, env, s => some (env.receipt, s)
  | .startWorkflow _, env, s => some (env.started, s)

/-- A claim is given a reservation id that was not made before. -/
def NewIds : Allowance IngressOp.Answer IngressEnv IngressState
  | _, .claim _, env, s => env.reservationId ∉ s.made
  | _, _, _, _ => True

instance (l : Log IngressOp.Answer) (o : IngressOp) (env : IngressEnv) (s : IngressState) :
    Decidable (NewIds l o env s) := by
  unfold NewIds
  split <;> infer_instance

abbrev IngressCall := Async IngressOp.Answer Thrown

/-! ## The operations as calls -/

def claimOrWait (envelope : IngressTriggerEnvelope) : IngressCall ClaimAnswer := perform (IngressOp.claim envelope)

def poll (key : String) (waitUntil : Int) : IngressCall (Option DedupRecord × Bool) :=
  perform (IngressOp.poll key waitUntil)

def commitDispatch (reservationId dispatchRef evidenceRef : String) : IngressCall Unit :=
  perform (IngressOp.commitDispatch reservationId dispatchRef evidenceRef)

def releaseClaim (reservationId reasonCode : String) : IngressCall Unit :=
  perform (IngressOp.releaseClaim reservationId reasonCode)

def getProjectControlState (projectId : String) : IngressCall ProjectControlState := do
  let answer ← perform (IngressOp.getProjectControlState projectId)
  unwrap answer

def getProject (projectId : String) : IngressCall (Option Json) := do
  let answer ← perform (IngressOp.getProject projectId)
  unwrap answer

def getTask (projectId taskRef : String) : IngressCall (Option TaskDefinition) := do
  let answer ← perform (IngressOp.getTask projectId taskRef)
  unwrap answer

/-- An execution id, and the time. -/
def makeExecution : IngressCall (String × Int) := perform IngressOp.makeExecution

def putExecution (record : TaskExecutionRecord) : IngressCall Unit := do
  let answer ← perform (IngressOp.putExecution record)
  unwrap answer

def submitTaskToSystem (submission : SystemTaskSubmission) : IngressCall SystemSubmissionReceipt := do
  let answer ← perform (IngressOp.submitTaskToSystem submission)
  unwrap answer

def startWorkflow (request : WorkflowStartRequest) : IngressCall WorkflowStartResult := do
  let answer ← perform (IngressOp.startWorkflow request)
  unwrap answer

end NousCore.Ingress
