import Mathlib.Data.Rat.Floor
import NousCore.EndpointTrust.Types

/-!
# Voice turns

* `VoiceTurnSignalBundle`, `VoiceIntentCandidate`, `VoiceTurnEvaluationInput` : what is evaluated;
* `VoiceTurnDecisionRecord`, `VoiceDegradedModeState` : what is decided;
* `DegradedModeController.apply` : how a session becomes degraded, and recovers.

Scores are rational numbers; the formats of ids and times are left out.
-/

namespace NousCore.VoiceControl

open Witness (Timestamp CriticalActionCategory)
open Opctl (ControlCommandEnvelope ConfirmationProof ConfirmationTier ProjectControlState)
open EndpointTrust (EndpointCapabilityClass EndpointTransportEnvelope)

inductive VoiceTurnState where
  | listening | evaluating | awaitingTextConfirmation | continuationRequired | completed | blocked

inductive VoiceDegradedModeReason where
  | lowAsrConfidence | lowIntentConfidence | handoffInstability | transportDegraded | bargeInRecoveryRequired

def VoiceDegradedModeReason.text : VoiceDegradedModeReason → String
  | .lowAsrConfidence => "low_asr_confidence"
  | .lowIntentConfidence => "low_intent_confidence"
  | .handoffInstability => "handoff_instability"
  | .transportDegraded => "transport_degraded"
  | .bargeInRecoveryRequired => "barge_in_recovery_required"

inductive VoiceDecisionOutcome where
  | continueListening | clarify | textConfirmationRequired | dualChannelConfirmationRequired | blocked
  | readyForCanonicalExecution
  deriving DecidableEq

inductive VoiceIntentClass where
  | escalationAcknowledgement | projectControl | assistantContinuation | clarificationResponse | nonControlMessage
  deriving DecidableEq

def VoiceIntentClass.text : VoiceIntentClass → String
  | .escalationAcknowledgement => "escalation_acknowledgement"
  | .projectControl => "project_control"
  | .assistantContinuation => "assistant_continuation"
  | .clarificationResponse => "clarification_response"
  | .nonControlMessage => "non_control_message"

inductive VoiceIntentActionCategory where
  | opctlCommand | communicationAck | tracePersist | none
  deriving DecidableEq

inductive VoiceIntentRiskLevel where
  | low | medium | high | critical
  deriving DecidableEq

/-! ## Inputs -/

structure VoiceTurnSignalBundle where
  transcriptHash : String
  handoffKeywordsDetected : List String
  semanticCompletionScore : ℚ
  silenceWindowMs : Nat
  silenceThresholdMs : Nat
  explicitHandoffDetected : Bool
  asrConfidence : ℚ
  intentConfidence : ℚ
  handoffConfidence : ℚ
  observedAt : Timestamp

structure VoiceIntentCandidate where
  intentId : String
  turnId : String
  projectId : String
  intentClass : VoiceIntentClass
  actionCategory : VoiceIntentActionCategory
  riskLevel : VoiceIntentRiskLevel
  routeRef : Option String
  escalationId : Option String
  requestedActionRef : Option String
  evidenceRefs : List String

structure VoiceEndpointAuthorizationContext where
  peripheralId : String
  endpointId : String
  capabilityKey : String
  capabilityClass : EndpointCapabilityClass
  policyRef : String
  sessionId : Option String
  transportEnvelope : Option EndpointTransportEnvelope

structure VoiceTurnEvaluationInput where
  turnId : String
  sessionId : String
  projectId : String
  principalId : String
  signals : VoiceTurnSignalBundle
  intents : List VoiceIntentCandidate
  activePrincipalSessionRef : Option String
  confirmationProof : Option ConfirmationProof
  controlCommandEnvelope : Option ControlCommandEnvelope
  endpointAuthorization : Option VoiceEndpointAuthorizationContext
  requestedAt : Option Timestamp
  evidenceRefs : List String

structure VoiceTurnStateRecord where
  turnId : String
  sessionId : String
  projectId : String
  principalId : String
  state : VoiceTurnState
  routeRef : Option String
  escalationId : Option String
  startedAt : Timestamp
  updatedAt : Timestamp
  evidenceRefs : List String

/-! ## Confidence governance -/

inductive GovernanceLevel where
  | must | should | may
  deriving DecidableEq

inductive ConfidenceTier where
  | low | medium | high
  deriving DecidableEq

inductive ConfidenceDecayState where
  | stable | decaying | flaggedRetirement
  deriving DecidableEq

inductive EscalationSignalReasonCode where
  | confLow | confContradiction | confStaleness | confRetirement
  deriving DecidableEq

structure EscalationSignal where
  reasonCode : EscalationSignalReasonCode
  traceId : String
  patternId : Option String
  deriving DecidableEq

structure LearnedBehaviorExplanation where
  patternId : String
  outcomeRef : String
  deriving DecidableEq

structure Phase6DistilledPatternExport where
  id : String
  content : String
  confidence : ℚ
  projectId : Option String
  tags : List String
  createdAt : Timestamp
  updatedAt : Timestamp

structure Phase6ConfidenceSignalExport where
  tier : ConfidenceTier
  confidence : ℚ
  supportingSignals : Int
  patternId : Option String
  entryId : Option String
  decayState : Option ConfidenceDecayState

structure ConfidenceGovernanceEvaluationInput where
  governance : GovernanceLevel
  actionCategory : CriticalActionCategory
  projectControlState : Option ProjectControlState
  pattern : Phase6DistilledPatternExport
  confidenceSignal : Phase6ConfidenceSignalExport
  explanation : LearnedBehaviorExplanation
  escalationSignal : Option EscalationSignal

inductive ConfidenceGovernanceDecisionOutcome where
  | allowAutonomy | allowWithFlag | escalate | defer | deny
  deriving DecidableEq

inductive ConfidenceGovernanceDecisionReasonCode where
  | allowAutonomy | allowWithFlag | escalateLowConfidence | escalateContradiction | escalateStaleness
  | escalateRetirement | deferHighRiskConfirmation | deferPausedReview | deferResuming | denyHardStopped
  | denyGovernanceCeiling | denyMissingEscalationContext
  deriving DecidableEq

structure ConfidenceGovernanceEvaluationResult where
  outcome : ConfidenceGovernanceDecisionOutcome
  reasonCode : ConfidenceGovernanceDecisionReasonCode
  governance : GovernanceLevel
  actionCategory : CriticalActionCategory
  projectControlState : Option ProjectControlState
  patternId : String
  confidence : ℚ
  confidenceTier : ConfidenceTier
  supportingSignals : Int
  decayState : Option ConfidenceDecayState
  autonomyAllowed : Bool
  requiresConfirmation : Bool
  highRiskOverrideApplied : Bool
  explanation : LearnedBehaviorExplanation
  escalationSignal : Option EscalationSignal
  deriving DecidableEq

inductive VoiceError where
  | invalid (paths : List String)
  | failed (message : String)
  deriving DecidableEq

section

variable (result : ConfidenceGovernanceEvaluationResult)

/-- The fields that are out of range. -/
def ConfidenceGovernanceEvaluationResult.rangeIssues : List String :=
  (if 0 ≤ result.confidence ∧ result.confidence ≤ 1 then [] else ["confidence"]) ++
    (if 0 ≤ result.supportingSignals then [] else ["supportingSignals"])

/-- The fields that do not go with the others. -/
def ConfidenceGovernanceEvaluationResult.refinementIssues :
    List String :=
  (if result.outcome = .allowAutonomy ∧ result.autonomyAllowed = false then ["autonomyAllowed"] else []) ++
  (if result.outcome ≠ .allowAutonomy ∧ result.autonomyAllowed = true then ["autonomyAllowed"] else []) ++
  (if result.highRiskOverrideApplied = true ∧ result.reasonCode ≠ .deferHighRiskConfirmation then ["reasonCode"]
    else []) ++
  (if result.requiresConfirmation = true ∧ result.reasonCode ≠ .deferHighRiskConfirmation then ["requiresConfirmation"]
    else []) ++
  (if result.reasonCode = .deferHighRiskConfirmation ∧ (result.highRiskOverrideApplied = false ∨
      result.requiresConfirmation = false ∨ result.outcome ≠ .defer) then ["reasonCode"] else []) ++
  (if result.outcome = .escalate ∧ result.escalationSignal = none then ["escalationSignal"] else []) ++
  (if result.reasonCode = .denyMissingEscalationContext ∧ result.escalationSignal ≠ none then ["escalationSignal"]
    else [])

/-- What goes together is checked of a result whose fields are in range. -/
def ConfidenceGovernanceEvaluationResult.issues : List String :=
  if result.rangeIssues = [] then result.refinementIssues else result.rangeIssues

def ConfidenceGovernanceEvaluationResult.parse :
    Except VoiceError ConfidenceGovernanceEvaluationResult :=
  if result.issues = [] then .ok result else .error (.invalid result.issues)

end

/-! ## Decisions -/

inductive TextSurfaceTarget where
  | chat | projects | mao | mobile

structure VoiceConfirmationRequirement where
  required : Bool
  confirmationTier : Option ConfirmationTier
  dualChannelRequired : Bool
  activePrincipalSessionRef : Option String
  textSurfaceTargets : List TextSurfaceTarget
  reasonCode : Option String

structure VoiceTurnDecisionRecord where
  decisionId : String
  turnId : String
  sessionId : String
  projectId : String
  outcome : VoiceDecisionOutcome
  intent : Option VoiceIntentCandidate
  signals : VoiceTurnSignalBundle
  confidenceDecision : Option ConfidenceGovernanceEvaluationResult
  confirmation : VoiceConfirmationRequirement
  degradedModeActive : Bool
  degradedReason : Option VoiceDegradedModeReason
  routeRef : Option String
  escalationId : Option String
  decisionRef : String
  evidenceRefs : List String
  decidedAt : Timestamp

/-- Of a decision only what the engine has answered is not yet checked. -/
def VoiceTurnDecisionRecord.parse (record : VoiceTurnDecisionRecord) : Except VoiceError VoiceTurnDecisionRecord :=
  let issues := record.confidenceDecision.toList.flatMap (·.issues)
  if issues = [] then .ok record else .error (.invalid (issues.map ("confidence_decision." ++ ·)))

/-! ## Degraded mode -/

structure VoiceDegradedModeState where
  sessionId : String
  projectId : String
  active : Bool
  reason : Option VoiceDegradedModeReason
  enteredAt : Option Timestamp
  recoveryWindowStartedAt : Option Timestamp
  lastRecoveredAt : Option Timestamp
  evidenceRefs : List String

structure DegradedModeTransitionInput where
  current : Option VoiceDegradedModeState
  sessionId : String
  projectId : String
  reason : Option VoiceDegradedModeReason
  now : Timestamp
  evidenceRefs : List String

/-- `parseDate` is `Date.parse`. -/
structure DegradedModeController where
  recoveryWindowMs : Int
  parseDate : Timestamp → Int

namespace DegradedModeController

variable (controller : DegradedModeController) (input : DegradedModeTransitionInput)

/-- A session that has been degraded, and for which there is no reason now. -/
def recover (current : VoiceDegradedModeState) : VoiceDegradedModeState :=
  let recoveryWindowStartedAt := current.recoveryWindowStartedAt.getD input.now
  let readyToRecover :=
    controller.recoveryWindowMs ≤ controller.parseDate input.now - controller.parseDate recoveryWindowStartedAt
  if readyToRecover then
    { sessionId := input.sessionId
      projectId := input.projectId
      active := false
      reason := none
      enteredAt := current.enteredAt
      recoveryWindowStartedAt := some recoveryWindowStartedAt
      lastRecoveredAt := some input.now
      evidenceRefs := input.evidenceRefs }
  else
    { sessionId := input.sessionId
      projectId := input.projectId
      active := true
      reason := current.reason
      enteredAt := current.enteredAt
      recoveryWindowStartedAt := some recoveryWindowStartedAt
      lastRecoveredAt := current.lastRecoveredAt
      evidenceRefs := input.evidenceRefs }

def apply : VoiceDegradedModeState :=
  match input.reason, input.current.filter (·.active) with
  | some reason, _ =>
    { sessionId := input.sessionId
      projectId := input.projectId
      active := true
      reason := some reason
      enteredAt := some ((input.current.bind (·.enteredAt)).getD input.now)
      recoveryWindowStartedAt := none
      lastRecoveredAt := input.current.bind (·.lastRecoveredAt)
      evidenceRefs := input.evidenceRefs }
  | none, none =>
    { sessionId := input.sessionId
      projectId := input.projectId
      active := false
      reason := none
      enteredAt := none
      recoveryWindowStartedAt := none
      lastRecoveredAt := none
      evidenceRefs := input.evidenceRefs }
  | none, some current => recover controller input current

end DegradedModeController

end NousCore.VoiceControl
