import NousCore.Opctl.Types
import NousCore.Registry.Types

/-!
# Peripherals, endpoints, grants and sessions

* `EndpointTrustPeripheral`, `EndpointPairingRecord`, `EndpointTrustEndpoint`, `EndpointCapabilityGrantRecord`,
  `EndpointSessionRecord`, `EndpointIncidentRecord` : what the stores keep;
* `EndpointTransportEnvelope`, `EndpointAuthorizationRequest`, … : what the calls take, and `parse` what the schemas
  check of its texts;
* `TrustOp`, `TrustState`, `trustAnswers` : the clock, the ids, the other services and the stores.

Times are texts, and are compared as texts.
-/

namespace NousCore.EndpointTrust

open Witness (Timestamp)
open Opctl (ControlCommandEnvelope ConfirmationProof Hashes)
open Registry (RegistryInstallEligibilitySnapshot)

inductive EndpointTrustState where
  | pending | trusted | suspended | revoked | denied
  deriving DecidableEq

inductive EndpointDirection where
  | sensory | action
  deriving DecidableEq

abbrev EndpointCapabilityClass := EndpointDirection

inductive EndpointPairingStatus where
  | pending | approved | denied | expired | cancelled

inductive EndpointCapabilityGrantStatus where
  | active | revoked | expired
  deriving DecidableEq

inductive EndpointSessionStatus where
  | active | rotated | revoked | expired
  deriving DecidableEq

inductive EndpointAuthorizationRisk where
  | standard | high
  deriving DecidableEq

inductive EndpointIncidentType where
  | lostDevice | compromisedDevice | mitmDetected | manualSuspend | manualRevoke

inductive EndpointIncidentSeverity where
  | medium | high | critical

inductive EndpointIncidentAction where
  | none | suspendPeripheral | revokePeripheral | suspendEndpoints | revokeEndpoints | revokeSessions | escalate

/-! ## Records -/

structure EndpointTrustPeripheral where
  peripheralId : String
  projectId : String
  displayName : String
  principalId : String
  trustState : EndpointTrustState
  connectorPackageId : Option String
  connectorReleaseId : Option String
  pairedAt : Option Timestamp
  lastSeenAt : Option Timestamp
  evidenceRefs : List String
  createdAt : Timestamp
  updatedAt : Timestamp

structure EndpointPairingRecord where
  pairingId : String
  peripheralId : String
  projectId : String
  principalId : String
  status : EndpointPairingStatus
  approvalEvidenceRef : Option String
  denialReasonCode : Option String
  evidenceRefs : List String
  requestedAt : Timestamp
  reviewedAt : Option Timestamp

structure EndpointTrustEndpoint where
  endpointId : String
  peripheralId : String
  projectId : String
  displayName : String
  direction : EndpointDirection
  capabilityKeys : List String
  trustState : EndpointTrustState
  connectorPackageId : Option String
  connectorReleaseId : Option String
  registryEligibility : Option RegistryInstallEligibilitySnapshot
  evidenceRefs : List String
  createdAt : Timestamp
  updatedAt : Timestamp

structure EndpointCapabilityGrantRecord where
  grantId : String
  endpointId : String
  peripheralId : String
  projectId : String
  capabilityKey : String
  capabilityClass : EndpointCapabilityClass
  policyRef : String
  grantedBy : String
  status : EndpointCapabilityGrantStatus
  reasonCode : Option String
  evidenceRefs : List String
  grantedAt : Timestamp
  revokedAt : Option Timestamp

structure EndpointSessionRecord where
  sessionId : String
  endpointId : String
  peripheralId : String
  projectId : String
  status : EndpointSessionStatus
  establishedBy : String
  lastNonce : Option String
  lastSequence : Nat
  evidenceRefs : List String
  establishedAt : Timestamp
  expiresAt : Option Timestamp
  rotatedAt : Option Timestamp
  revokedAt : Option Timestamp

structure EndpointIncidentRecord where
  incidentId : String
  peripheralId : String
  endpointId : Option String
  projectId : String
  incidentType : EndpointIncidentType
  reportedBy : String
  severity : EndpointIncidentSeverity
  reasonCode : String
  actionTaken : List EndpointIncidentAction
  escalationId : Option String
  evidenceRefs : List String
  reportedAt : Timestamp

/-! ## Inputs -/

structure EndpointPairingRequestInput where
  pairingId : Option String
  peripheralId : String
  projectId : String
  displayName : String
  principalId : String
  connectorPackageId : Option String
  connectorReleaseId : Option String
  evidenceRefs : List String
  requestedAt : Option Timestamp

structure EndpointPairingReviewInput where
  pairingId : String
  approved : Bool
  reviewedBy : String
  approvalEvidenceRef : Option String
  denialReasonCode : Option String
  evidenceRefs : List String
  reviewedAt : Option Timestamp

structure EndpointRegistrationInput where
  endpointId : Option String
  peripheralId : String
  projectId : String
  displayName : String
  direction : EndpointDirection
  capabilityKeys : List String
  connectorPackageId : Option String
  connectorReleaseId : Option String
  registeredAt : Option Timestamp
  evidenceRefs : List String

structure EndpointCapabilityGrantInput where
  grantId : Option String
  endpointId : String
  peripheralId : String
  projectId : String
  capabilityKey : String
  capabilityClass : EndpointCapabilityClass
  policyRef : String
  grantedBy : String
  reasonCode : Option String
  evidenceRefs : List String
  grantedAt : Option Timestamp

structure EndpointCapabilityRevocationInput where
  grantId : String
  revokedBy : String
  reasonCode : String
  evidenceRefs : List String
  revokedAt : Option Timestamp

structure EndpointSessionStartInput where
  sessionId : Option String
  endpointId : String
  peripheralId : String
  projectId : String
  establishedBy : String
  expiresAt : Option Timestamp
  establishedAt : Option Timestamp
  evidenceRefs : List String

structure EndpointSessionRotateInput where
  sessionId : String
  rotatedBy : String
  rotatedAt : Option Timestamp
  evidenceRefs : List String

structure EndpointTransportEnvelope where
  envelopeId : String
  endpointId : String
  peripheralId : String
  projectId : String
  sessionId : String
  nonce : String
  sequence : Nat
  expiresAt : Timestamp

structure EndpointAuthorizationRequest where
  requestId : Option String
  endpointId : String
  peripheralId : String
  projectId : String
  capabilityKey : String
  capabilityClass : EndpointCapabilityClass
  risk : EndpointAuthorizationRisk
  policyRef : String
  sessionId : Option String
  transportEnvelope : Option EndpointTransportEnvelope
  confirmationProof : Option ConfirmationProof
  controlCommandEnvelope : Option ControlCommandEnvelope
  evidenceRefs : List String
  requestedAt : Option Timestamp

inductive EndpointAuthorizationDecision where
  | allowed | blocked
  deriving DecidableEq

structure EndpointAuthorizationResult where
  decision : EndpointAuthorizationDecision
  reasonCode : Option String
  requestId : String
  endpointId : String
  peripheralId : String
  projectId : String
  grantId : Option String
  sessionId : Option String
  evidenceRefs : List String
  evaluatedAt : Timestamp

structure EndpointIncidentReportInput where
  incidentId : Option String
  peripheralId : String
  endpointId : Option String
  projectId : String
  incidentType : EndpointIncidentType
  reportedBy : String
  severity : EndpointIncidentSeverity
  reasonCode : String
  evidenceRefs : List String
  reportedAt : Option Timestamp

/-! ## Schemas -/

inductive TrustError where
  | invalid (paths : List String)
  | failed (message : String)

/-- A record whose texts must not be empty. -/
def parseTexts {α : Type} (fields : List (String × String)) (record : α) : Except TrustError α :=
  if emptyFields fields = [] then .ok record else .error (.invalid (emptyFields fields))

theorem parseTexts_eq {α : Type} {fields : List (String × String)} {record parsed : α}
    (h : parseTexts fields record = .ok parsed) : parsed = record := by
  unfold parseTexts at h
  split_ifs at h
  exact (Except.ok.inj h).symm

def EndpointPairingRequestInput.parse (input : EndpointPairingRequestInput) :
    Except TrustError EndpointPairingRequestInput :=
  parseTexts (required "display_name" input.displayName ++ required "principal_id" input.principalId ++
    optional "connector_package_id" input.connectorPackageId ++
    optional "connector_release_id" input.connectorReleaseId ++ each "evidence_refs" input.evidenceRefs) input

def EndpointPairingReviewInput.parse (input : EndpointPairingReviewInput) : Except TrustError EndpointPairingReviewInput :=
  parseTexts (required "reviewed_by" input.reviewedBy ++ optional "approval_evidence_ref" input.approvalEvidenceRef ++
    each "evidence_refs" input.evidenceRefs) input

def EndpointRegistrationInput.parse (input : EndpointRegistrationInput) : Except TrustError EndpointRegistrationInput :=
  parseTexts (required "display_name" input.displayName ++ nonempty "capability_keys" input.capabilityKeys ++
    optional "connector_package_id" input.connectorPackageId ++
    optional "connector_release_id" input.connectorReleaseId ++ each "evidence_refs" input.evidenceRefs) input

def EndpointCapabilityGrantInput.parse (input : EndpointCapabilityGrantInput) :
    Except TrustError EndpointCapabilityGrantInput :=
  parseTexts (required "capability_key" input.capabilityKey ++ required "policy_ref" input.policyRef ++
    required "granted_by" input.grantedBy ++ each "evidence_refs" input.evidenceRefs) input

def EndpointCapabilityRevocationInput.parse (input : EndpointCapabilityRevocationInput) :
    Except TrustError EndpointCapabilityRevocationInput :=
  parseTexts (required "revoked_by" input.revokedBy ++ each "evidence_refs" input.evidenceRefs) input

def EndpointSessionStartInput.parse (input : EndpointSessionStartInput) : Except TrustError EndpointSessionStartInput :=
  parseTexts (required "established_by" input.establishedBy ++ each "evidence_refs" input.evidenceRefs) input

def EndpointSessionRotateInput.parse (input : EndpointSessionRotateInput) : Except TrustError EndpointSessionRotateInput :=
  parseTexts (required "rotated_by" input.rotatedBy ++ each "evidence_refs" input.evidenceRefs) input

def EndpointAuthorizationRequest.parse (request : EndpointAuthorizationRequest) :
    Except TrustError EndpointAuthorizationRequest :=
  parseTexts (required "capability_key" request.capabilityKey ++ required "policy_ref" request.policyRef ++
    each "evidence_refs" request.evidenceRefs) request

def EndpointIncidentReportInput.parse (input : EndpointIncidentReportInput) :
    Except TrustError EndpointIncidentReportInput :=
  parseTexts (required "reported_by" input.reportedBy ++ each "evidence_refs" input.evidenceRefs) input

/-! ## Stores -/

structure TrustState where
  peripherals : Collection EndpointTrustPeripheral.peripheralId
  pairings : Collection EndpointPairingRecord.pairingId
  endpoints : Collection EndpointTrustEndpoint.endpointId
  grants : Collection EndpointCapabilityGrantRecord.grantId
  sessions : Collection EndpointSessionRecord.sessionId
  incidents : Collection EndpointIncidentRecord.incidentId

def TrustState.empty : TrustState := ⟨.empty, .empty, .empty, .empty, .empty, .empty⟩

inductive TrustOp where
  | now
  | nextId
  | appendAuthorization (actionRef : String)
  | appendCompletion (actionRef authorizationRef : String) (succeeded : Bool)
  | evaluateInstallEligibility (projectId packageId releaseId : String)
  | validateConfirmationProof (proof : ConfirmationProof) (envelope : ControlCommandEnvelope)
  | notify (context triggerReason : String)
  | getPeripheral (peripheralId : String)
  | savePeripheral (record : EndpointTrustPeripheral)
  | getPairing (pairingId : String)
  | savePairing (record : EndpointPairingRecord)
  | getEndpoint (endpointId : String)
  | saveEndpoint (record : EndpointTrustEndpoint)
  | listEndpointsByPeripheral (peripheralId : String)
  | getGrant (grantId : String)
  | saveGrant (record : EndpointCapabilityGrantRecord)
  | listGrantsByEndpoint (endpointId : String)
  | getSession (sessionId : String)
  | saveSession (record : EndpointSessionRecord)
  | listSessionsByPeripheral (peripheralId : String)
  | saveIncident (record : EndpointIncidentRecord)

@[reducible] def TrustOp.Answer : TrustOp → Type
  | .now => Timestamp
  | .nextId => String
  | .appendAuthorization _ => Except String String
  | .appendCompletion _ _ _ => Except String Unit
  | .evaluateInstallEligibility _ _ _ => Except String RegistryInstallEligibilitySnapshot
  | .validateConfirmationProof _ _ => Bool
  | .notify _ _ => Except String String
  | .getPeripheral _ => Option EndpointTrustPeripheral
  | .getPairing _ => Option EndpointPairingRecord
  | .getEndpoint _ => Option EndpointTrustEndpoint
  | .listEndpointsByPeripheral _ => List EndpointTrustEndpoint
  | .getGrant _ => Option EndpointCapabilityGrantRecord
  | .listGrantsByEndpoint _ => List EndpointCapabilityGrantRecord
  | .getSession _ => Option EndpointSessionRecord
  | .listSessionsByPeripheral _ => List EndpointSessionRecord
  | .savePeripheral _ | .savePairing _ | .saveEndpoint _ | .saveGrant _ | .saveSession _ | .saveIncident _ => Unit

/-- What the clock, the ids, and the witness, registry and escalation services answer. -/
structure TrustEnv where
  now : Timestamp
  id : String
  authorization : Except String String
  completion : Except String Unit
  eligibility : Except String RegistryInstallEligibilitySnapshot
  escalation : Except String String

/-- The documents that a query finds, in its order. -/
def ordered {α : Type} (records : List α) (found : α → Bool) (before : α → α → Bool) : List α :=
  (records.filter found).insertionSort fun a b => before a b = true

/-- Proofs are validated by the `opctl` service, that reads the clock. -/
def trustAnswers (hashes : Hashes) : Answers TrustOp.Answer TrustEnv TrustState
  | .now, env, s => some (env.now, s)
  | .nextId, env, s => some (env.id, s)
  | .appendAuthorization _, env, s => some (env.authorization, s)
  | .appendCompletion _ _ _, env, s => some (env.completion, s)
  | .evaluateInstallEligibility _ _ _, env, s => some (env.eligibility, s)
  | .validateConfirmationProof proof envelope, env, s =>
    some (Opctl.validateConfirmationProof hashes env.now proof envelope, s)
  | .notify _ _, env, s => some (env.escalation, s)
  | .getPeripheral peripheralId, _, s => some (s.peripherals.find? peripheralId, s)
  | .savePeripheral record, _, s => some ((), { s with peripherals := s.peripherals.put record })
  | .getPairing pairingId, _, s => some (s.pairings.find? pairingId, s)
  | .savePairing record, _, s => some ((), { s with pairings := s.pairings.put record })
  | .getEndpoint endpointId, _, s => some (s.endpoints.find? endpointId, s)
  | .saveEndpoint record, _, s => some ((), { s with endpoints := s.endpoints.put record })
  | .listEndpointsByPeripheral peripheralId, _, s =>
    some (ordered s.endpoints.all (·.peripheralId = peripheralId) (fun a b => a.createdAt ≤ b.createdAt), s)
  | .getGrant grantId, _, s => some (s.grants.find? grantId, s)
  | .saveGrant record, _, s => some ((), { s with grants := s.grants.put record })
  | .listGrantsByEndpoint endpointId, _, s =>
    some (ordered s.grants.all (·.endpointId = endpointId) (fun a b => b.grantedAt ≤ a.grantedAt), s)
  | .getSession sessionId, _, s => some (s.sessions.find? sessionId, s)
  | .saveSession record, _, s => some ((), { s with sessions := s.sessions.put record })
  | .listSessionsByPeripheral peripheralId, _, s =>
    some (ordered s.sessions.all (·.peripheralId = peripheralId) (fun a b => b.establishedAt ≤ a.establishedAt), s)
  | .saveIncident record, _, s => some ((), { s with incidents := s.incidents.put record })

end NousCore.EndpointTrust
