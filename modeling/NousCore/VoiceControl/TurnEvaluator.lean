import NousCore.VoiceControl.Types

/-!
# Evaluation of a voice turn

* `validateRouteReference`, `validateEscalationReference`, `validateEndpointAuthorization` : the references;
* `createFallbackConfidenceDecision`, `buildConfidenceInput` : the decision on confidence;
* `determineConfirmationRequirement` : whether a confirmation is required, and of which tier;
* `decideOutcome` : the outcome from what has been checked;
* `evaluate` : the evaluation.

Every service is asked at most once in an evaluation, so that a service is a function from what it is asked.
-/

namespace NousCore.VoiceControl

open Witness (Timestamp CriticalActionCategory)
open Opctl (ControlCommandEnvelope ConfirmationProof ConfirmationTier)
open EndpointTrust (EndpointAuthorizationRequest EndpointAuthorizationResult EndpointAuthorizationRisk)

/-- The services, the clock and the ids. Of a decision on a route and of an escalation only their presence is read. -/
structure TurnEvaluatorOptions (Route Escalation : Type) where
  evaluateConfidenceGovernance :
    Option (ConfidenceGovernanceEvaluationInput → Except VoiceError ConfidenceGovernanceEvaluationResult)
  validateConfirmationProof : Option (ConfirmationProof → ControlCommandEnvelope → Except VoiceError Bool)
  authorize : Option (EndpointAuthorizationRequest → Except VoiceError EndpointAuthorizationResult)
  getRouteDecision : Option (String → Except VoiceError (Option Route))
  getEscalation : Option (String → Except VoiceError (Option Escalation))
  degradedModeController : DegradedModeController
  now : Timestamp
  newId : String
  requestId : String
  hashScope : VoiceTurnSignalBundle → String

structure TurnEvaluationResult where
  decision : VoiceTurnDecisionRecord
  nextTurnState : VoiceTurnState
  degradedMode : VoiceDegradedModeState

def DESTRUCTIVE_ACTIONS : List String :=
  ["hardstop", "hard_stop", "hard-stop", "delete", "revoke", "destroy", "wipe"]

/-- `DESTRUCTIVE_ACTION_MATCHER.test(ref)` -/
def isDestructive (ref : String) : Bool :=
  DESTRUCTIVE_ACTIONS.any fun word => decide (word.toList <:+: ref.toList.map Char.toLower)

/-- References without repetitions. -/
def toEvidenceRefs (input : VoiceTurnEvaluationInput) (intent : Option VoiceIntentCandidate) (extra : List String) :
    List String :=
  (input.evidenceRefs ++ input.intents.flatMap (·.evidenceRefs) ++ intent.toList.flatMap (·.evidenceRefs) ++
    extra).eraseDups

def isCombinedTurnReady (input : VoiceTurnEvaluationInput) : Bool :=
  7 / 10 ≤ input.signals.semanticCompletionScore ∧
    input.signals.silenceThresholdMs ≤ input.signals.silenceWindowMs ∧
    input.signals.explicitHandoffDetected = true ∧
    65 / 100 ≤ input.signals.handoffConfidence

def deriveDegradedReason (input : VoiceTurnEvaluationInput) : Option VoiceDegradedModeReason :=
  if input.signals.asrConfidence < 65 / 100 then some .lowAsrConfidence
  else if input.signals.intentConfidence < 65 / 100 then some .lowIntentConfidence
  else if input.signals.handoffConfidence < 65 / 100 then some .handoffInstability
  else none

namespace VoiceIntentCandidate

variable (intent : VoiceIntentCandidate)

/-- `risk_level === 'high' || risk_level === 'critical'` -/
def highOrCritical : Bool := intent.riskLevel = .high ∨ intent.riskLevel = .critical

def destructive : Bool := intent.requestedActionRef.any isDestructive

def highRisk : Bool := intent.highOrCritical ∨ intent.actionCategory = .opctlCommand

def dualChannelRequired : Bool := intent.riskLevel = .critical ∨ intent.destructive

end VoiceIntentCandidate

/-! ## Confidence -/

def confidenceTierOf (confidence : ℚ) : ConfidenceTier :=
  if 9 / 10 ≤ confidence then .high else if 6 / 10 ≤ confidence then .medium else .low

def governanceOf (intent : Option VoiceIntentCandidate) : GovernanceLevel :=
  if intent.any (·.highOrCritical) then .must else .may

def actionCategoryOf (intent : Option VoiceIntentCandidate) : CriticalActionCategory :=
  if intent.any (·.actionCategory = .opctlCommand) then .opctlCommand else .tracePersist

section

variable (input : VoiceTurnEvaluationInput)

/-- `intent?.intent_id ?? input.turn_id` -/
def patternIdOf (intent : Option VoiceIntentCandidate) : String :=
  (intent.map (·.intentId)).getD input.turnId

def explanationOf (intent : Option VoiceIntentCandidate) :
    LearnedBehaviorExplanation where
  patternId := patternIdOf input intent
  outcomeRef := "voice-turn:" ++ input.turnId

/-- `Math.round(semantic_completion_score * 20)` -/
def supportingSignalsOf : Int :=
  ⌊input.signals.semanticCompletionScore * 20 + 1 / 2⌋

def decayStateOf (confidence : ℚ) : ConfidenceDecayState := if confidence < 6 / 10 then .decaying else .stable

def fallbackOutcome (confidence : ℚ) (intent : Option VoiceIntentCandidate) : ConfidenceGovernanceDecisionOutcome :=
  if confidence < 6 / 10 then .defer
  else if intent.any (·.riskLevel = .critical) then .defer
  else .allowAutonomy

def fallbackReasonCode (outcome : ConfidenceGovernanceDecisionOutcome) (intent : Option VoiceIntentCandidate) :
    ConfidenceGovernanceDecisionReasonCode :=
  if outcome = .allowAutonomy then .allowAutonomy
  else if intent.any (·.riskLevel = .critical) then .deferHighRiskConfirmation
  else .escalateLowConfidence

def createFallbackConfidenceDecision (intent : Option VoiceIntentCandidate) :
    Except VoiceError ConfidenceGovernanceEvaluationResult :=
  let confidence := input.signals.intentConfidence
  let outcome := fallbackOutcome confidence intent
  let reasonCode := fallbackReasonCode outcome intent
  ConfidenceGovernanceEvaluationResult.parse
    { outcome := outcome
      reasonCode := reasonCode
      governance := governanceOf intent
      actionCategory := actionCategoryOf intent
      projectControlState := none
      patternId := patternIdOf input intent
      confidence := confidence
      confidenceTier := confidenceTierOf confidence
      supportingSignals := supportingSignalsOf input
      decayState := some (decayStateOf confidence)
      autonomyAllowed := outcome = .allowAutonomy
      requiresConfirmation := reasonCode = .deferHighRiskConfirmation
      highRiskOverrideApplied := reasonCode = .deferHighRiskConfirmation
      explanation := explanationOf input intent
      escalationSignal :=
        if outcome = .defer ∧ confidence < 6 / 10 then some ⟨.confLow, input.turnId, none⟩ else none }

def buildConfidenceInput (intent : Option VoiceIntentCandidate) :
    ConfidenceGovernanceEvaluationInput where
  governance := governanceOf intent
  actionCategory := actionCategoryOf intent
  projectControlState := some .running
  pattern :=
    { id := patternIdOf input intent
      content := ((intent.bind (·.requestedActionRef)).orElse fun _ => intent.map (·.intentClass.text)).getD "voice_turn"
      confidence := input.signals.intentConfidence
      projectId := some input.projectId
      tags := ["voice-control"]
      createdAt := input.signals.observedAt
      updatedAt := input.signals.observedAt }
  confidenceSignal :=
    { tier := confidenceTierOf input.signals.intentConfidence
      confidence := input.signals.intentConfidence
      supportingSignals := supportingSignalsOf input
      patternId := some (patternIdOf input intent)
      entryId := some (patternIdOf input intent)
      decayState := some (decayStateOf input.signals.intentConfidence) }
  explanation := explanationOf input intent
  escalationSignal :=
    if input.signals.intentConfidence < 6 / 10 then
      some ⟨.confLow, input.turnId, some (patternIdOf input intent)⟩
    else none

end

section Services

variable {Route Escalation : Type} (options : TurnEvaluatorOptions Route Escalation) (input : VoiceTurnEvaluationInput)

/-- A decision is made on what may be a control message. -/
def decideConfidence (intent : Option VoiceIntentCandidate) :
    Except VoiceError (Option ConfidenceGovernanceEvaluationResult) :=
  if intent.any (·.intentClass ≠ .nonControlMessage) then
    match options.evaluateConfidenceGovernance with
    | some evaluateConfidenceGovernance => some <$> evaluateConfidenceGovernance (buildConfidenceInput input intent)
    | none => some <$> createFallbackConfidenceDecision input intent
  else .ok none

/-! ## References -/

/-- A reference that is absent or empty is not looked up. -/
def validateReference {α : Type} (lookup : Option (String → Except VoiceError (Option α))) (ref : Option String) :
    Except VoiceError Bool :=
  match lookup, ref.filter (· ≠ "") with
  | some lookup, some ref => Option.isSome <$> lookup ref
  | _, _ => .ok true

def validateRouteReference (routeRef : Option String) : Except VoiceError Bool :=
  validateReference options.getRouteDecision routeRef

def validateEscalationReference (escalationId : Option String) : Except VoiceError Bool :=
  validateReference options.getEscalation escalationId

def authorizationRequest (context : VoiceEndpointAuthorizationContext) : EndpointAuthorizationRequest where
  requestId := some options.requestId
  endpointId := context.endpointId
  peripheralId := context.peripheralId
  projectId := input.projectId
  capabilityKey := context.capabilityKey
  capabilityClass := context.capabilityClass
  risk := if input.intents.head?.any (·.highOrCritical) then .high else .standard
  policyRef := context.policyRef
  sessionId := context.sessionId
  transportEnvelope := context.transportEnvelope
  confirmationProof := input.confirmationProof
  controlCommandEnvelope := input.controlCommandEnvelope
  evidenceRefs := input.evidenceRefs
  requestedAt := input.requestedAt

def validateEndpointAuthorization : Except VoiceError Bool :=
  match options.authorize, input.endpointAuthorization with
  | some authorize, some context => (fun result => decide (result.decision = .allowed)) <$>
      authorize (authorizationRequest options input context)
  | _, _ => .ok true

/-! ## Confirmation -/

/-- The proof and the envelope are those that come with the turn. -/
def checkConfirmation : Except VoiceError Bool :=
  match options.validateConfirmationProof, input.confirmationProof, input.controlCommandEnvelope with
  | some validateConfirmationProof, some proof, some envelope => validateConfirmationProof proof envelope
  | _, _, _ => .ok false

end Services

def determineConfirmationRequirement (input : VoiceTurnEvaluationInput) (intent : Option VoiceIntentCandidate)
    (confidenceDecision : Option ConfidenceGovernanceEvaluationResult) (confirmationSatisfied degradedModeActive : Bool) :
    VoiceConfirmationRequirement :=
  let highRisk := intent.any (·.highRisk)
  let dualChannelRequired := intent.any (·.dualChannelRequired)
  let required := !confirmationSatisfied &&
    (degradedModeActive || dualChannelRequired || highRisk || confidenceDecision.any (·.requiresConfirmation))
  { required := required
    confirmationTier :=
      if required then if dualChannelRequired then some .T3 else if highRisk then some .T2 else none else none
    dualChannelRequired := required && dualChannelRequired
    activePrincipalSessionRef := input.activePrincipalSessionRef
    textSurfaceTargets := if required then [.chat, .projects, .mao, .mobile] else []
    reasonCode :=
      if required then
        some (if degradedModeActive then "voice_degraded_mode_active"
          else if dualChannelRequired then "voice_dual_channel_confirmation_required"
          else "voice_text_confirmation_required")
      else none }

/-! ## The outcome -/

structure TurnChecks where
  readyBySignals : Bool
  routeValid : Bool
  escalationValid : Bool
  endpointAuthorized : Bool
  confidenceDecision : Option ConfidenceGovernanceEvaluationResult
  confirmation : VoiceConfirmationRequirement

def confirmationOutcome (confirmation : VoiceConfirmationRequirement) (otherwise : VoiceDecisionOutcome) :
    VoiceDecisionOutcome :=
  if confirmation.dualChannelRequired then .dualChannelConfirmationRequired else otherwise

def decideOutcome (input : VoiceTurnEvaluationInput) (intent : Option VoiceIntentCandidate) (degraded : Bool)
    (checks : TurnChecks) : VoiceDecisionOutcome × VoiceTurnState :=
  if ¬checks.readyBySignals then (if degraded then .clarify else .continueListening, .listening)
  else if ¬checks.routeValid ∨ ¬checks.escalationValid ∨ ¬checks.endpointAuthorized then (.blocked, .blocked)
  else if checks.confidenceDecision.any (·.outcome = .deny) then (.blocked, .blocked)
  else if checks.confidenceDecision.any (·.outcome = .defer) ∨ checks.confidenceDecision.any (·.outcome = .escalate) ∨
      input.signals.intentConfidence < 7 / 10 then
    let outcome := confirmationOutcome checks.confirmation
      (if intent.any (·.highOrCritical) then .textConfirmationRequired else .clarify)
    (outcome, if outcome = .clarify then .listening else .awaitingTextConfirmation)
  else if checks.confirmation.required then
    (confirmationOutcome checks.confirmation .textConfirmationRequired, .awaitingTextConfirmation)
  else (.readyForCanonicalExecution, .completed)

section Evaluate

variable {Route Escalation : Type} (options : TurnEvaluatorOptions Route Escalation) (input : VoiceTurnEvaluationInput)
  (currentTurn : VoiceTurnStateRecord) (currentDegradedMode : Option VoiceDegradedModeState)

/-- The mode after the turn. -/
def nextDegradedMode (now : Timestamp) : VoiceDegradedModeState :=
  let reason := deriveDegradedReason input
  options.degradedModeController.apply
    { current := currentDegradedMode
      sessionId := input.sessionId
      projectId := input.projectId
      reason := reason
      now := now
      evidenceRefs :=
        toEvidenceRefs input input.intents.head? (reason.toList.map fun r => "voice_degraded:" ++ r.text) }

/-- `intent?.route_ref ?? currentTurn.route_ref` -/
def routeRefOf : Option String := (input.intents.head?.bind (·.routeRef)).orElse fun _ => currentTurn.routeRef

def escalationIdOf : Option String := (input.intents.head?.bind (·.escalationId)).orElse fun _ => currentTurn.escalationId

def decisionRecord (now : Timestamp) (degradedMode : VoiceDegradedModeState) (checks : TurnChecks) :
    VoiceTurnDecisionRecord where
  decisionId := options.newId
  turnId := input.turnId
  sessionId := input.sessionId
  projectId := input.projectId
  outcome := (decideOutcome input input.intents.head? degradedMode.active checks).1
  intent := input.intents.head?
  signals := input.signals
  confidenceDecision := checks.confidenceDecision
  confirmation := checks.confirmation
  degradedModeActive := degradedMode.active
  degradedReason := degradedMode.reason
  routeRef := routeRefOf input currentTurn
  escalationId := escalationIdOf input currentTurn
  decisionRef := "voice-decision:" ++ input.turnId
  evidenceRefs := toEvidenceRefs input input.intents.head?
    ["voice_turn:" ++ input.turnId, "voice_signals:" ++ options.hashScope input.signals]
  decidedAt := now

def evaluate : Except VoiceError TurnEvaluationResult := do
  let now := input.requestedAt.getD options.now
  let intent := input.intents.head?
  let degradedMode := nextDegradedMode options input currentDegradedMode now
  let routeValid ← validateRouteReference options (routeRefOf input currentTurn)
  let escalationValid ← validateEscalationReference options (escalationIdOf input currentTurn)
  let endpointAuthorized ← validateEndpointAuthorization options input
  let confidenceDecision ← decideConfidence options input intent
  let confirmationSatisfied ← checkConfirmation options input
  let checks : TurnChecks :=
    { readyBySignals := isCombinedTurnReady input
      routeValid := routeValid
      escalationValid := escalationValid
      endpointAuthorized := endpointAuthorized
      confidenceDecision := confidenceDecision
      confirmation := determineConfirmationRequirement input intent confidenceDecision confirmationSatisfied
        (degradedMode.active && intent.any (·.actionCategory = .opctlCommand)) }
  let decision ← (decisionRecord options input currentTurn now degradedMode checks).parse
  return ⟨decision, (decideOutcome input intent degradedMode.active checks).2, degradedMode⟩

end Evaluate

end NousCore.VoiceControl
