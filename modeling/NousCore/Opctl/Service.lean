import NousCore.Opctl.Types
import NousCore.Lib.System

/-!
# The operator control service

* `validateEnvelope` : structure, expiry and replay of an envelope;
* `submitCommand` : a control command, from its validation to its effect;
* `setStartLock`, `getProjectControlState` : the start lock of a project, and what dispatch reads of it.
-/

namespace NousCore.Opctl

open Async
open Witness (Timestamp WitnessActor)

/-- Which of the optional dependencies are there. -/
structure OpctlServiceDeps where
  projectControlStateStore : Bool
  witnessService : Bool

/-- What `ControlCommandEnvelopeSchema` makes of the argument; of one that it refuses, whether its id is a UUID. -/
inductive RawEnvelope where
  | parsed (envelope : ControlCommandEnvelope)
  | malformed (controlCommandId : Option ControlCommandId)

inductive EnvelopeValidation where
  | valid (envelope : ControlCommandEnvelope)
  | invalid (reason reasonCode : String)

def validateEnvelope (raw : RawEnvelope) (now : Timestamp) : OpctlCall EnvelopeValidation :=
  match raw with
  | .malformed _ => return .invalid "Invalid envelope structure" "OPCTL-001"
  | .parsed envelope =>
    if envelope.expiresAt < now then return .invalid "Command expired" "OPCTL-002"
    else do
      let used ← isCommandIdUsed envelope.controlCommandId
      if used then return .invalid "Replay detected: command ID already used" "OPCTL-002"
      let nonceUsed ← isNonceUsed envelope.nonce
      if nonceUsed then return .invalid "Replay detected: nonce reused" "OPCTL-002"
      let lastSeq ← getLastActorSeq envelope.actorSessionId
      if lastSeq.any fun last => envelope.actorSeq ≤ last then
        return .invalid "Out-of-order actor_seq" "OPCTL-002"
      return .valid envelope

def RawEnvelope.controlCommandId : RawEnvelope → Option ControlCommandId
  | .parsed envelope => some envelope.controlCommandId
  | .malformed id => id

def blocked (envelope : ControlCommandEnvelope) (reason reasonCode : String) : OpctlSubmitResult :=
  ⟨.blocked, envelope.controlCommandId, some reason, some reasonCode, none, none⟩

variable (hashes : Hashes) (deps : OpctlServiceDeps)

section

variable (envelope : ControlCommandEnvelope)

def isEmergencyHardStop : Bool :=
  envelope.action = .hardStop && !deps.witnessService

/-- The two witness records of a command; whether both were written. -/
def witnessCommand (snapshot : ScopeSnapshot) : OpctlCall Bool := do
  let authEvent ← appendAuthorization
    { actionCategory := .opctlCommand
      actionRef := "opctl_command_received"
      traceId := none
      projectId := envelope.scope.projectId
      actor := mapActorToWitness envelope.actorType
      status := .approved
      detail := Record.ofEntries [("control_command_id", .string envelope.controlCommandId),
        ("action", .string envelope.action.text), ("target_ids_hash", .string snapshot.targetIdsHash)]
      occurredAt := none }
  match authEvent with
  | none => return false
  | some id =>
    let completion ← appendCompletion
      { actionCategory := .opctlCommand
        actionRef := "opctl_applied"
        authorizationRef := id
        traceId := none
        projectId := envelope.scope.projectId
        actor := mapActorToWitness envelope.actorType
        status := .succeeded
        detail := Record.ofEntries [("control_command_id", .string envelope.controlCommandId),
          ("target_ids_hash", .string snapshot.targetIdsHash)]
        occurredAt := none }
    return completion.isSome

def applyStateChanges : OpctlCall Unit :=
  match envelope.scope.projectId with
  | none => return ()
  | some projectId =>
    if deps.projectControlStateStore then
      match envelope.action with
      | .pause => storeSet projectId .pausedReview
      | .resume => do
        storeSetStartLock projectId false
        storeSet projectId .resuming
      | .hardStop => do
        storeSetStartLock projectId true
        storeClear projectId
      | _ => return ()
    else if envelope.action = .hardStop then storeSetStartLock projectId true
    else return ()

/-- What happens under the lock of the scope. -/
def applyCommand (snapshot : ScopeSnapshot) : OpctlCall OpctlSubmitResult := do
  markCommandIdUsed envelope.controlCommandId
  markNonceUsed envelope.nonce
  setActorSeq envelope.actorSessionId envelope.actorSeq
  if !isEmergencyHardStop deps envelope && deps.witnessService then
    if ← witnessCommand envelope snapshot then
      applyStateChanges deps envelope
      return ⟨.applied, envelope.controlCommandId, none, none, some snapshot.targetIdsHash, none⟩
    else return blocked envelope "Witness write failed" "OPCTL-006"
  else if !isEmergencyHardStop deps envelope && !deps.witnessService then
    return blocked envelope "Witness service unavailable" "OPCTL-006"
  else do
    applyStateChanges deps envelope
    return ⟨.applied, envelope.controlCommandId, none, none, some snapshot.targetIdsHash, some true⟩

def submitValidated : OpctlCall OpctlSubmitResult := do
  let snapshot := resolveScope hashes envelope.scope
  let scopeKey := snapshot.targetIdsHash
  match ← acquire scopeKey envelope.action envelope.controlCommandId with
  | some holderAction =>
    return blocked envelope
      s!"Concurrent command conflict: holder has higher precedence ({holderAction.text})" "opctl_conflict_resolved"
  | none =>
    let result ← applyCommand deps envelope snapshot
    release scopeKey
    return result

end

def confirmation (now : Timestamp) (confirmationProof : Option ConfirmationProof) (envelope : ControlCommandEnvelope) :
    Option OpctlSubmitResult :=
  if getRequiredTier envelope.action ≠ .T0 then
    match confirmationProof with
    | none => some (blocked envelope "Confirmation proof required" "OPCTL-003")
    | some proof =>
      if validateConfirmationProof hashes now proof envelope then none
      else some (blocked envelope "Invalid or expired confirmation proof" "OPCTL-003")
  else none

def submitCommand (raw : RawEnvelope) (confirmationProof : Option ConfirmationProof) (now later : Timestamp) :
    OpctlCall OpctlSubmitResult := do
  match ← validateEnvelope raw now with
  | .invalid reason reasonCode =>
    match raw.controlCommandId with
    | none => .throw .invalidResult
    | some id => return ⟨.rejected, id, some reason, some reasonCode, none, none⟩
  | .valid envelope =>
    match confirmation hashes later confirmationProof envelope with
    | some result => return result
    | none => submitValidated hashes deps envelope

def setStartLock (projectId : ProjectId) (locked : Bool) (actor : ControlActorType) : OpctlCall Unit :=
  if actor ≠ .principal ∧ locked = false then .throw .onlyPrincipalReleases
  else do
    storeSetStartLock projectId locked
    if !locked && deps.projectControlStateStore then
      storeClear projectId
    else return ()

def getProjectControlState (projectId : ProjectId) : OpctlCall ProjectControlState := do
  if ← hasStartLock projectId then return .hardStopped
  else if deps.projectControlStateStore then
    match ← storeGet projectId with
    | some .pausedReview => return .pausedReview
    | some .resuming => return .resuming
    | _ => return .running
  else return .running

/-! ## The service -/

inductive OpctlTask where
  | submitCommand (raw : RawEnvelope) (confirmationProof : Option ConfirmationProof) (now later : Timestamp)
  | setStartLock (projectId : ProjectId) (locked : Bool) (actor : ControlActorType)

inductive OpctlResult where
  | submitted (result : OpctlSubmitResult)
  | done

def taskBody : OpctlTask → OpctlCall OpctlResult
  | .submitCommand raw confirmationProof now later =>
    .submitted <$> submitCommand hashes deps raw confirmationProof now later
  | .setStartLock projectId locked actor => (fun _ => .done) <$> setStartLock deps projectId locked actor

/-- One `OpctlService` over in-memory stores. -/
def service : System OpctlTask OpctlOp.Answer (Option String) OpctlState OpctlError OpctlResult where
  body := taskBody hashes deps
  answers := answers
  spawned := fun _ => []
  exclusive := fun _ => false

def firstTarget : Hashes := ⟨fun scope => scope.targetIds.headD "", fun targetIds => targetIds.headD ""⟩

def withWitness : OpctlServiceDeps := ⟨true, true⟩

abbrev OpctlThread := Thread OpctlTask OpctlOp.Answer OpctlError OpctlResult

abbrev OpctlConfig := Config OpctlTask OpctlOp.Answer OpctlState OpctlError OpctlResult

end NousCore.Opctl
