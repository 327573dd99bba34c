import NousCore.EndpointTrust.Types

/-!
# The endpoint trust service

* `checkAuthorization` : why a request is blocked, `decide` the engine's result;
* `requestPairing`, `reviewPairing`, `registerEndpoint`, `grantCapability`, `revokeCapability`, `establishSession`,
  `rotateSession`, `authorize`, `reportIncident` : the calls; `TrustCall.run` the call of a request.
-/

namespace NousCore.EndpointTrust

open Async
open Witness (Timestamp)
open Opctl (Hashes)
open Registry (RegistryInstallEligibilitySnapshot)

abbrev TrustM (α : Type) := Async TrustOp.Answer TrustError α

structure TrustServices where
  registry : Bool
  opctl : Bool
  escalation : Bool
  witness : Bool

def orFail {α : Type} (outcome : Except String α) : TrustM α := unwrap (outcome.mapError .failed)

def found {α : Type} (record : Option α) (message : String) : TrustM α :=
  match record with
  | some record => pure record
  | none => .throw (.failed message)

def timeOr (given : Option Timestamp) : TrustM Timestamp :=
  match given with
  | some timestamp => pure timestamp
  | none => perform TrustOp.now

def idOr (given : Option String) : TrustM String :=
  match given with
  | some id => pure id
  | none => perform TrustOp.nextId

def recordWitness (services : TrustServices) (actionRef : String) (succeeded : Bool) : TrustM Unit :=
  if services.witness then do
    let authorization ← perform (TrustOp.appendAuthorization actionRef)
    let authorizationRef ← orFail authorization
    let completion ← perform (TrustOp.appendCompletion actionRef authorizationRef succeeded)
    orFail completion
  else pure ()

def requirePeripheral (peripheralId : String) : TrustM EndpointTrustPeripheral := do
  let peripheral ← perform (TrustOp.getPeripheral peripheralId)
  found peripheral s!"Peripheral not found: {peripheralId}"

def requireEndpoint (endpointId : String) : TrustM EndpointTrustEndpoint := do
  let endpoint ← perform (TrustOp.getEndpoint endpointId)
  found endpoint s!"Endpoint not found: {endpointId}"

def merge (refs refs' : List String) : List String := (refs ++ refs').eraseDups

/-! ## Pairings -/

def pendingPeripheral (input : EndpointPairingRequestInput) (existing : Option EndpointTrustPeripheral)
    (timestamp : Timestamp) : EndpointTrustPeripheral where
  peripheralId := input.peripheralId
  projectId := input.projectId
  displayName := input.displayName
  principalId := input.principalId
  trustState := .pending
  connectorPackageId := input.connectorPackageId.or (existing.bind (·.connectorPackageId))
  connectorReleaseId := input.connectorReleaseId.or (existing.bind (·.connectorReleaseId))
  pairedAt := existing.bind (·.pairedAt)
  lastSeenAt := some timestamp
  evidenceRefs := merge ((existing.map (·.evidenceRefs)).getD []) input.evidenceRefs
  createdAt := (existing.map (·.createdAt)).getD timestamp
  updatedAt := timestamp

def pendingPairing (input : EndpointPairingRequestInput) (pairingId : String) (timestamp : Timestamp) :
    EndpointPairingRecord where
  pairingId := pairingId
  peripheralId := input.peripheralId
  projectId := input.projectId
  principalId := input.principalId
  status := .pending
  approvalEvidenceRef := none
  denialReasonCode := none
  evidenceRefs := input.evidenceRefs
  requestedAt := timestamp
  reviewedAt := none

def requestPairing (services : TrustServices) (input : EndpointPairingRequestInput) : TrustM EndpointPairingRecord := do
  let parsed ← unwrap input.parse
  let timestamp ← timeOr parsed.requestedAt
  let existing ← perform (TrustOp.getPeripheral parsed.peripheralId)
  let pairingId ← idOr parsed.pairingId
  let pairing := pendingPairing parsed pairingId timestamp
  perform (TrustOp.savePeripheral (pendingPeripheral parsed existing timestamp))
  perform (TrustOp.savePairing pairing)
  recordWitness services s!"endpoint-trust:pairing:{pairing.pairingId}" true
  pure pairing

def reviewedPairing (input : EndpointPairingReviewInput) (timestamp : Timestamp) (existing : EndpointPairingRecord) :
    EndpointPairingRecord :=
  { existing with
    status := if input.approved then .approved else .denied
    approvalEvidenceRef := if input.approved then input.approvalEvidenceRef else existing.approvalEvidenceRef
    denialReasonCode := if input.approved then none else input.denialReasonCode
    evidenceRefs := merge existing.evidenceRefs input.evidenceRefs
    reviewedAt := some timestamp }

def reviewedPeripheral (input : EndpointPairingReviewInput) (timestamp : Timestamp) (existing : EndpointTrustPeripheral) :
    EndpointTrustPeripheral :=
  { existing with
    trustState := if input.approved then .trusted else .denied
    pairedAt := if input.approved then some timestamp else existing.pairedAt
    updatedAt := timestamp
    evidenceRefs := merge existing.evidenceRefs input.evidenceRefs }

def reviewPairing (services : TrustServices) (input : EndpointPairingReviewInput) : TrustM EndpointPairingRecord := do
  let parsed ← unwrap input.parse
  let pairing ← perform (TrustOp.getPairing parsed.pairingId)
  let existingPairing ← found pairing s!"Pairing not found: {parsed.pairingId}"
  let peripheral ← perform (TrustOp.getPeripheral existingPairing.peripheralId)
  let existingPeripheral ← found peripheral s!"Peripheral not found: {existingPairing.peripheralId}"
  let timestamp ← timeOr parsed.reviewedAt
  let reviewed := reviewedPairing parsed timestamp existingPairing
  perform (TrustOp.savePairing reviewed)
  perform (TrustOp.savePeripheral (reviewedPeripheral parsed timestamp existingPeripheral))
  recordWitness services s!"endpoint-trust:pairing-review:{reviewed.pairingId}" true
  pure reviewed

/-! ## Endpoints -/

/-- The registry lets the connector be used. -/
def registryAllowed (eligibility : RegistryInstallEligibilitySnapshot) : Bool :=
  eligibility.distributionStatus = .active && eligibility.blockReasonCodes.isEmpty && !eligibility.requiresPrincipalOverride

def evaluateRegistryEligibility (services : TrustServices) (projectId : String) (packageId releaseId : Option String) :
    TrustM (Option RegistryInstallEligibilitySnapshot) :=
  match packageId, releaseId with
  | some packageId, some releaseId =>
    if services.registry then do
      let eligibility ← perform (TrustOp.evaluateInstallEligibility projectId packageId releaseId)
      some <$> orFail eligibility
    else pure none
  | _, _ => pure none

def registeredEndpoint (input : EndpointRegistrationInput) (peripheral : EndpointTrustPeripheral)
    (eligibility : Option RegistryInstallEligibilitySnapshot) (endpointId : String) (timestamp : Timestamp) :
    EndpointTrustEndpoint where
  endpointId := endpointId
  peripheralId := input.peripheralId
  projectId := input.projectId
  displayName := input.displayName
  direction := input.direction
  capabilityKeys := input.capabilityKeys
  trustState := if peripheral.trustState = .trusted ∧ eligibility.all registryAllowed = true then .trusted else .suspended
  connectorPackageId := input.connectorPackageId.or peripheral.connectorPackageId
  connectorReleaseId := input.connectorReleaseId.or peripheral.connectorReleaseId
  registryEligibility := eligibility
  evidenceRefs := input.evidenceRefs
  createdAt := timestamp
  updatedAt := timestamp

def registerEndpoint (services : TrustServices) (input : EndpointRegistrationInput) : TrustM EndpointTrustEndpoint := do
  let parsed ← unwrap input.parse
  let peripheral ← requirePeripheral parsed.peripheralId
  let eligibility ← evaluateRegistryEligibility services parsed.projectId
    (parsed.connectorPackageId.or peripheral.connectorPackageId)
    (parsed.connectorReleaseId.or peripheral.connectorReleaseId)
  let timestamp ← timeOr parsed.registeredAt
  let endpointId ← idOr parsed.endpointId
  let endpoint := registeredEndpoint parsed peripheral eligibility endpointId timestamp
  perform (TrustOp.saveEndpoint endpoint)
  recordWitness services s!"endpoint-trust:endpoint:{endpoint.endpointId}" true
  pure endpoint

/-! ## Grants -/

def activeGrant (input : EndpointCapabilityGrantInput) (grantId : String) (timestamp : Timestamp) :
    EndpointCapabilityGrantRecord where
  grantId := grantId
  endpointId := input.endpointId
  peripheralId := input.peripheralId
  projectId := input.projectId
  capabilityKey := input.capabilityKey
  capabilityClass := input.capabilityClass
  policyRef := input.policyRef
  grantedBy := input.grantedBy
  status := .active
  reasonCode := input.reasonCode
  evidenceRefs := input.evidenceRefs
  grantedAt := timestamp
  revokedAt := none

def assertGrantable (input : EndpointCapabilityGrantInput) (endpoint : EndpointTrustEndpoint) : Except TrustError Unit :=
  if endpoint.direction ≠ input.capabilityClass then .error (.failed "NDT-403-DIRECTION_CAPABILITY_MISMATCH")
  else if endpoint.trustState ≠ .trusted then .error (.failed "NDT-402-ENDPOINT_NOT_TRUSTED")
  else .ok ()

def grantCapability (services : TrustServices) (input : EndpointCapabilityGrantInput) :
    TrustM EndpointCapabilityGrantRecord := do
  let parsed ← unwrap input.parse
  let endpoint ← requireEndpoint parsed.endpointId
  unwrap (assertGrantable parsed endpoint)
  let grantId ← idOr parsed.grantId
  let timestamp ← timeOr parsed.grantedAt
  let grant := activeGrant parsed grantId timestamp
  perform (TrustOp.saveGrant grant)
  recordWitness services s!"endpoint-trust:grant:{grant.grantId}" true
  pure grant

def revokedGrant (input : EndpointCapabilityRevocationInput) (timestamp : Timestamp)
    (existing : EndpointCapabilityGrantRecord) : EndpointCapabilityGrantRecord :=
  { existing with
    status := .revoked
    reasonCode := some input.reasonCode
    evidenceRefs := merge existing.evidenceRefs input.evidenceRefs
    revokedAt := some timestamp }

def revokeCapability (services : TrustServices) (input : EndpointCapabilityRevocationInput) :
    TrustM EndpointCapabilityGrantRecord := do
  let parsed ← unwrap input.parse
  let grant ← perform (TrustOp.getGrant parsed.grantId)
  let existing ← found grant s!"Capability grant not found: {parsed.grantId}"
  let timestamp ← timeOr parsed.revokedAt
  let revoked := revokedGrant parsed timestamp existing
  perform (TrustOp.saveGrant revoked)
  recordWitness services s!"endpoint-trust:grant-revoke:{revoked.grantId}" true
  pure revoked

def findActiveGrant (grants : List EndpointCapabilityGrantRecord) (capabilityKey : String) :
    Option EndpointCapabilityGrantRecord :=
  grants.find? fun grant => grant.capabilityKey = capabilityKey && grant.status = .active

/-! ## Sessions -/

def activeSession (input : EndpointSessionStartInput) (sessionId : String) (timestamp : Timestamp) :
    EndpointSessionRecord where
  sessionId := sessionId
  endpointId := input.endpointId
  peripheralId := input.peripheralId
  projectId := input.projectId
  status := .active
  establishedBy := input.establishedBy
  lastNonce := none
  lastSequence := 0
  evidenceRefs := input.evidenceRefs
  establishedAt := timestamp
  expiresAt := input.expiresAt
  rotatedAt := none
  revokedAt := none

def assertTrusted (peripheral : EndpointTrustPeripheral) (endpoint : EndpointTrustEndpoint) : Except TrustError Unit :=
  if peripheral.trustState ≠ .trusted ∨ endpoint.trustState ≠ .trusted then
    .error (.failed "NDT-402-ENDPOINT_NOT_TRUSTED")
  else .ok ()

def establishSession (services : TrustServices) (input : EndpointSessionStartInput) : TrustM EndpointSessionRecord := do
  let parsed ← unwrap input.parse
  let peripheral ← requirePeripheral parsed.peripheralId
  let endpoint ← requireEndpoint parsed.endpointId
  unwrap (assertTrusted peripheral endpoint)
  let timestamp ← timeOr parsed.establishedAt
  let sessionId ← idOr parsed.sessionId
  let session := activeSession parsed sessionId timestamp
  perform (TrustOp.saveSession session)
  recordWitness services s!"endpoint-trust:session:{session.sessionId}" true
  pure session

def rotatedSession (input : EndpointSessionRotateInput) (timestamp : Timestamp) (existing : EndpointSessionRecord) :
    EndpointSessionRecord :=
  { existing with
    status := .rotated
    lastNonce := none
    lastSequence := 0
    rotatedAt := some timestamp
    evidenceRefs := merge existing.evidenceRefs input.evidenceRefs }

def rotateSession (services : TrustServices) (input : EndpointSessionRotateInput) : TrustM EndpointSessionRecord := do
  let parsed ← unwrap input.parse
  let session ← perform (TrustOp.getSession parsed.sessionId)
  let existing ← found session s!"Session not found: {parsed.sessionId}"
  let timestamp ← timeOr parsed.rotatedAt
  let rotated := rotatedSession parsed timestamp existing
  perform (TrustOp.saveSession rotated)
  recordWitness services s!"endpoint-trust:session-rotate:{rotated.sessionId}" true
  pure rotated

/-! ## Transport -/

/-- The first check of an envelope that fails. -/
def transportReason (peripheral : EndpointTrustPeripheral) (endpoint : EndpointTrustEndpoint)
    (session : Option EndpointSessionRecord) (envelope : EndpointTransportEnvelope) (observedAt : Timestamp) :
    Option String :=
  if peripheral.trustState ≠ .trusted then some "NDT-301-PERIPHERAL_NOT_TRUSTED"
  else if endpoint.trustState ≠ .trusted then some "NDT-302-ENDPOINT_NOT_TRUSTED"
  else match session with
    | none => some "NDT-303-SESSION_MISSING"
    | some session =>
      if session.status ≠ .active then some "NDT-304-SESSION_NOT_ACTIVE"
      else if envelope.sessionId ≠ session.sessionId ∨ envelope.endpointId ≠ session.endpointId ∨
          envelope.peripheralId ≠ session.peripheralId then some "NDT-305-SESSION_MISMATCH"
      else if envelope.expiresAt ≤ observedAt then some "NDT-306-ENVELOPE_EXPIRED"
      else if session.expiresAt.any (· ≤ observedAt) = true then some "NDT-307-SESSION_EXPIRED"
      else if envelope.sequence ≤ session.lastSequence then some "NDT-308-SEQUENCE_REGRESSION"
      else if session.lastNonce = some envelope.nonce then some "NDT-309-NONCE_REPLAY"
      else none

def touchedSession (session : EndpointSessionRecord) (envelope : EndpointTransportEnvelope) : EndpointSessionRecord :=
  { session with
    lastNonce := some envelope.nonce
    lastSequence := envelope.sequence
    evidenceRefs := merge session.evidenceRefs [s!"transport:{envelope.envelopeId}"] }

def touchAcceptedEnvelope (reason : Option String) (session : Option EndpointSessionRecord)
    (envelope : EndpointTransportEnvelope) : TrustM Unit :=
  match reason, session with
  | none, some session => perform (TrustOp.saveSession (touchedSession session envelope))
  | _, _ => pure ()

/-- The reason why the envelope is blocked. -/
def validateTransport (services : TrustServices) (peripheral : EndpointTrustPeripheral) (endpoint : EndpointTrustEndpoint)
    (session : Option EndpointSessionRecord) (envelope : EndpointTransportEnvelope) (observedAt : Timestamp) :
    TrustM (Option String) := do
  let reason := transportReason peripheral endpoint session envelope observedAt
  touchAcceptedEnvelope reason session envelope
  recordWitness services s!"endpoint-trust:transport:{envelope.envelopeId}" reason.isNone
  pure reason

/-! ## Authorization -/

structure AuthorizationDecisionInput where
  request : EndpointAuthorizationRequest
  peripheral : Option EndpointTrustPeripheral
  endpoint : Option EndpointTrustEndpoint
  grant : Option EndpointCapabilityGrantRecord
  session : Option EndpointSessionRecord
  transportReason : Option String
  confirmationValidated : Bool
  requestId : String
  evaluatedAt : Timestamp

/-- The grant of an input that passes the checks, or the reason why it is blocked. -/
def checkAuthorization (input : AuthorizationDecisionInput) : Except String EndpointCapabilityGrantRecord :=
  let request := input.request
  if input.peripheral.all (·.trustState ≠ .trusted) = true then .error "NDT-401-PERIPHERAL_NOT_TRUSTED"
  else match input.endpoint with
    | none => .error "NDT-402-ENDPOINT_NOT_TRUSTED"
    | some endpoint =>
      if endpoint.trustState ≠ .trusted then .error "NDT-402-ENDPOINT_NOT_TRUSTED"
      else if endpoint.direction ≠ request.capabilityClass then .error "NDT-403-DIRECTION_CAPABILITY_MISMATCH"
      else if endpoint.registryEligibility.any (!registryAllowed ·) = true then .error "NDT-404-REGISTRY_GATE_BLOCKED"
      else match input.grant with
        | none => .error "NDT-405-CAPABILITY_NOT_GRANTED"
        | some grant =>
          if grant.status ≠ .active ∨ grant.capabilityKey ≠ request.capabilityKey ∨ grant.policyRef ≠ request.policyRef then
            .error "NDT-405-CAPABILITY_NOT_GRANTED"
          else if request.sessionId.isSome ∧ input.session.all (·.status ≠ .active) = true then .error "NDT-406-SESSION_REQUIRED"
          else match input.transportReason with
            | some reason => .error reason
            | none =>
              if request.risk = .high ∧ input.confirmationValidated = false then .error "NDT-408-CONFIRMATION_REQUIRED"
              else .ok grant

def engineResult (input : AuthorizationDecisionInput) : EndpointAuthorizationResult :=
  let request := input.request
  match checkAuthorization input with
  | .error reasonCode =>
    { decision := .blocked
      reasonCode := some reasonCode
      requestId := input.requestId
      endpointId := request.endpointId
      peripheralId := request.peripheralId
      projectId := request.projectId
      grantId := none
      sessionId := request.sessionId
      evidenceRefs := request.evidenceRefs ++ [s!"reason:{reasonCode}"]
      evaluatedAt := input.evaluatedAt }
  | .ok grant =>
    { decision := .allowed
      reasonCode := none
      requestId := input.requestId
      endpointId := request.endpointId
      peripheralId := request.peripheralId
      projectId := request.projectId
      grantId := some grant.grantId
      sessionId := input.session.map (·.sessionId)
      evidenceRefs := merge request.evidenceRefs grant.evidenceRefs
      evaluatedAt := input.evaluatedAt }

def grantFor (request : EndpointAuthorizationRequest) (endpoint : Option EndpointTrustEndpoint) :
    TrustM (Option EndpointCapabilityGrantRecord) :=
  if endpoint.isSome then do
    let grants ← perform (TrustOp.listGrantsByEndpoint request.endpointId)
    pure (findActiveGrant grants request.capabilityKey)
  else pure none

def sessionFor (request : EndpointAuthorizationRequest) : TrustM (Option EndpointSessionRecord) :=
  match request.sessionId with
  | some sessionId => perform (TrustOp.getSession sessionId)
  | none => pure none

/-- The reason of a transport that is blocked; nothing where there is no envelope or a record is missing. -/
def transportFor (services : TrustServices) (request : EndpointAuthorizationRequest)
    (peripheral : Option EndpointTrustPeripheral) (endpoint : Option EndpointTrustEndpoint)
    (session : Option EndpointSessionRecord) (requestedAt : Timestamp) : TrustM (Option String) :=
  match request.transportEnvelope, peripheral, endpoint with
  | some envelope, some peripheral, some endpoint =>
    validateTransport services peripheral endpoint session envelope requestedAt
  | _, _, _ => pure none

def validateConfirmation (services : TrustServices) (request : EndpointAuthorizationRequest) : TrustM Bool :=
  if request.risk ≠ .high then pure true
  else match request.confirmationProof, request.controlCommandEnvelope with
    | some proof, some envelope =>
      if services.opctl then perform (TrustOp.validateConfirmationProof proof envelope) else pure false
    | _, _ => pure false

def authorize (services : TrustServices) (request : EndpointAuthorizationRequest) :
    TrustM EndpointAuthorizationResult := do
  let requestId ← idOr request.requestId
  let requestedAt ← timeOr request.requestedAt
  let parsed ← unwrap request.parse
  let peripheral ← perform (TrustOp.getPeripheral parsed.peripheralId)
  let endpoint ← perform (TrustOp.getEndpoint parsed.endpointId)
  let grant ← grantFor parsed endpoint
  let session ← sessionFor parsed
  let transportReason ← transportFor services parsed peripheral endpoint session requestedAt
  let confirmationValidated ← validateConfirmation services parsed
  let result := engineResult
    { request := parsed
      peripheral := peripheral
      endpoint := endpoint
      grant := grant
      session := session
      transportReason := transportReason
      confirmationValidated := confirmationValidated
      requestId := requestId
      evaluatedAt := requestedAt }
  recordWitness services s!"endpoint-trust:authorize:{result.requestId}" (result.decision = .allowed)
  pure result

/-! ## Incidents -/

def EndpointIncidentType.severe : EndpointIncidentType → Bool
  | .compromisedDevice | .mitmDetected | .manualRevoke => true
  | .lostDevice | .manualSuspend => false

def EndpointIncidentType.trustState (type : EndpointIncidentType) : EndpointTrustState :=
  if type.severe then .revoked else .suspended

def EndpointIncidentType.actionTaken (type : EndpointIncidentType) : List EndpointIncidentAction :=
  if type.severe then [.revokePeripheral, .revokeEndpoints, .revokeSessions, .escalate]
  else [.suspendPeripheral, .suspendEndpoints, .revokeSessions, .escalate]

def setTrustState (trustState : EndpointTrustState) (evidenceRefs : List String) : List EndpointTrustEndpoint → TrustM Unit
  | [] => pure ()
  | endpoint :: endpoints => do
    let updatedAt ← perform TrustOp.now
    perform (TrustOp.saveEndpoint { endpoint with
      trustState := trustState
      updatedAt := updatedAt
      evidenceRefs := merge endpoint.evidenceRefs evidenceRefs })
    setTrustState trustState evidenceRefs endpoints

def revokedSession (revokedAt : Timestamp) (evidenceRefs : List String) (session : EndpointSessionRecord) :
    EndpointSessionRecord :=
  { session with
    status := if session.status = .expired then .expired else .revoked
    revokedAt := some revokedAt
    evidenceRefs := merge session.evidenceRefs evidenceRefs }

def revokeSessions (evidenceRefs : List String) : List EndpointSessionRecord → TrustM Unit
  | [] => pure ()
  | session :: sessions => do
    let revokedAt ← perform TrustOp.now
    perform (TrustOp.saveSession (revokedSession revokedAt evidenceRefs session))
    revokeSessions evidenceRefs sessions

def escalateIncident (services : TrustServices) (displayName reasonCode : String) : TrustM (Option String) :=
  if services.escalation then do
    let outcome ← perform (TrustOp.notify s!"Endpoint trust incident for {displayName}" reasonCode)
    some <$> orFail outcome
  else pure none

def incidentRefs (input : EndpointIncidentReportInput) : List String := merge input.evidenceRefs [s!"reason:{input.reasonCode}"]

def distrustedPeripheral (input : EndpointIncidentReportInput) (reportedAt : Timestamp)
    (peripheral : EndpointTrustPeripheral) : EndpointTrustPeripheral :=
  { peripheral with
    trustState := input.incidentType.trustState
    updatedAt := reportedAt
    evidenceRefs := merge peripheral.evidenceRefs (incidentRefs input) }

def incidentRecord (input : EndpointIncidentReportInput) (incidentId : String) (reportedAt : Timestamp)
    (escalationId : Option String) : EndpointIncidentRecord where
  incidentId := incidentId
  peripheralId := input.peripheralId
  endpointId := input.endpointId
  projectId := input.projectId
  incidentType := input.incidentType
  reportedBy := input.reportedBy
  severity := input.severity
  reasonCode := input.reasonCode
  actionTaken := input.incidentType.actionTaken
  escalationId := escalationId
  evidenceRefs := incidentRefs input ++ escalationId.toList.map fun id => s!"escalation:{id}"
  reportedAt := reportedAt

/-- The peripheral first, then its endpoints, then its sessions. -/
def handleIncident (services : TrustServices) (input : EndpointIncidentReportInput) (peripheral : EndpointTrustPeripheral) :
    TrustM EndpointIncidentRecord := do
  let reportedAt ← timeOr input.reportedAt
  perform (TrustOp.savePeripheral (distrustedPeripheral input reportedAt peripheral))
  let endpoints ← perform (TrustOp.listEndpointsByPeripheral peripheral.peripheralId)
  setTrustState input.incidentType.trustState (incidentRefs input) endpoints
  let sessions ← perform (TrustOp.listSessionsByPeripheral peripheral.peripheralId)
  revokeSessions (incidentRefs input) sessions
  let escalationId ← escalateIncident services peripheral.displayName input.reasonCode
  let incidentId ← idOr input.incidentId
  let incident := incidentRecord input incidentId reportedAt escalationId
  perform (TrustOp.saveIncident incident)
  pure incident

def reportIncident (services : TrustServices) (input : EndpointIncidentReportInput) : TrustM EndpointIncidentRecord := do
  let parsed ← unwrap input.parse
  let peripheral ← requirePeripheral parsed.peripheralId
  let incident ← handleIncident services parsed peripheral
  recordWitness services s!"endpoint-trust:incident:{incident.incidentId}" false
  pure incident

/-! ## Calls -/

inductive TrustCall where
  | requestPairing (input : EndpointPairingRequestInput)
  | reviewPairing (input : EndpointPairingReviewInput)
  | registerEndpoint (input : EndpointRegistrationInput)
  | grantCapability (input : EndpointCapabilityGrantInput)
  | revokeCapability (input : EndpointCapabilityRevocationInput)
  | establishSession (input : EndpointSessionStartInput)
  | rotateSession (input : EndpointSessionRotateInput)
  | authorize (request : EndpointAuthorizationRequest)
  | reportIncident (input : EndpointIncidentReportInput)

inductive TrustResult where
  | pairing (record : EndpointPairingRecord)
  | endpoint (record : EndpointTrustEndpoint)
  | grant (record : EndpointCapabilityGrantRecord)
  | session (record : EndpointSessionRecord)
  | authorization (result : EndpointAuthorizationResult)
  | incident (record : EndpointIncidentRecord)

def TrustCall.run (services : TrustServices) : TrustCall → TrustM TrustResult
  | .requestPairing input => .pairing <$> EndpointTrust.requestPairing services input
  | .reviewPairing input => .pairing <$> EndpointTrust.reviewPairing services input
  | .registerEndpoint input => .endpoint <$> EndpointTrust.registerEndpoint services input
  | .grantCapability input => .grant <$> EndpointTrust.grantCapability services input
  | .revokeCapability input => .grant <$> EndpointTrust.revokeCapability services input
  | .establishSession input => .session <$> EndpointTrust.establishSession services input
  | .rotateSession input => .session <$> EndpointTrust.rotateSession services input
  | .authorize request => .authorization <$> EndpointTrust.authorize services request
  | .reportIncident input => .incident <$> EndpointTrust.reportIncident services input

end NousCore.EndpointTrust
