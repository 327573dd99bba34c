import NousCore.VoiceControl.TurnEvaluator

/-!
# Which turns are ready for execution

* `decideOutcome_ready_iff`, `required_eq_false_iff` : what a turn that is ready has passed;
* `Confirmed` : a confirmation of an intent's own action, in the project of the turn and of the tier demanded.
-/

namespace NousCore.VoiceControl

open Opctl (ControlAction ControlCommandEnvelope ConfirmationProof ConfirmationTier Hashes)

/-! ## The cascade -/

/-- Neither denied nor put off. -/
def ConfidenceGovernanceEvaluationResult.Allows (result : ConfidenceGovernanceEvaluationResult) : Prop :=
  result.outcome ≠ .deny ∧ result.outcome ≠ .defer ∧ result.outcome ≠ .escalate

structure TurnChecks.Pass (checks : TurnChecks) (input : VoiceTurnEvaluationInput) : Prop where
  signals : checks.readyBySignals = true
  route : checks.routeValid = true
  escalation : checks.escalationValid = true
  endpoint : checks.endpointAuthorized = true
  confidence : ∀ result ∈ checks.confidenceDecision, result.Allows
  confident : 7 / 10 ≤ input.signals.intentConfidence
  confirmed : checks.confirmation.required = false

theorem confirmationOutcome_ne_ready {confirmation : VoiceConfirmationRequirement} {otherwise : VoiceDecisionOutcome}
    (h : otherwise ≠ .readyForCanonicalExecution) :
    confirmationOutcome confirmation otherwise ≠ .readyForCanonicalExecution := by
  unfold confirmationOutcome
  split_ifs
  · nofun
  · exact h

variable {decision : Option ConfidenceGovernanceEvaluationResult}

theorem allows_iff : (∀ result ∈ decision, result.Allows) ↔ ¬decision.any (·.outcome = .deny) = true ∧
      ¬decision.any (·.outcome = .defer) = true ∧ ¬decision.any (·.outcome = .escalate) = true := by
  unfold ConfidenceGovernanceEvaluationResult.Allows
  cases decision with
  | none | some => simp

variable {intent : Option VoiceIntentCandidate}

theorem decideOutcome_ready_iff {input : VoiceTurnEvaluationInput} {degraded : Bool} {checks : TurnChecks} :
    (decideOutcome input intent degraded checks).1 = .readyForCanonicalExecution ↔ checks.Pass input := by
  constructor
  · intro h
    unfold decideOutcome at h
    split_ifs at h with hsignals hreferences hdeny hconfidence hintent hrequired
    · exact absurd h (confirmationOutcome_ne_ready nofun)
    · exact absurd h (confirmationOutcome_ne_ready nofun)
    · exact absurd h (confirmationOutcome_ne_ready nofun)
    · push Not at hreferences hconfidence
      obtain ⟨hroute, hescalation, hendpoint⟩ := hreferences
      obtain ⟨hdefer, hescalate, hconfident⟩ := hconfidence
      exact ⟨hsignals, hroute, hescalation, hendpoint, allows_iff.mpr ⟨hdeny, hdefer, hescalate⟩, hconfident,
        Bool.eq_false_iff.mpr hrequired⟩
  · intro h
    obtain ⟨hdeny, hdefer, hescalate⟩ := allows_iff.mp h.confidence
    have hreferences : ¬(¬checks.routeValid ∨ ¬checks.escalationValid ∨ ¬checks.endpointAuthorized) := by
      simp [h.route, h.escalation, h.endpoint]
    have hconfidence : ¬(checks.confidenceDecision.any (·.outcome = .defer) ∨
        checks.confidenceDecision.any (·.outcome = .escalate) ∨ input.signals.intentConfidence < 7 / 10) := by
      rintro (hany | hany | hlt)
      · exact hdefer hany
      · exact hescalate hany
      · exact absurd h.confident (not_le.mpr hlt)
    unfold decideOutcome
    rw [if_neg (not_not.mpr h.signals), if_neg hreferences, if_neg hdeny, if_neg hconfidence,
      if_neg (Bool.eq_false_iff.mp h.confirmed)]

/-! ## Confirmation -/

/-- High or critical risk, a control command, or destructive. -/
def VoiceIntentCandidate.Risky (intent : VoiceIntentCandidate) : Prop :=
  intent.highRisk = true ∨ intent.dualChannelRequired = true

def demandedTier (input : VoiceTurnEvaluationInput) (intent : VoiceIntentCandidate) : Option ConfirmationTier :=
  (determineConfirmationRequirement input (some intent) none false false).confirmationTier

theorem required_eq_false_iff {input : VoiceTurnEvaluationInput} {satisfied degraded : Bool} :
    (determineConfirmationRequirement input intent decision satisfied degraded).required = false ↔ satisfied = true ∨
      (degraded = false ∧ (∀ i ∈ intent, ¬i.Risky) ∧ ∀ result ∈ decision, result.requiresConfirmation = false) := by
  unfold determineConfirmationRequirement VoiceIntentCandidate.Risky
  cases satisfied with
  | true => simp
  | false =>
    cases intent with
    | none => cases decision <;> simp
    | some i =>
      cases decision with
      | none => simp [and_comm, and_assoc]
      | some result => simp [and_comm, and_assoc, and_left_comm]

section Justified

variable {Route Escalation : Type} (own : VoiceIntentCandidate → ControlAction → Prop)
  (options : TurnEvaluatorOptions Route Escalation) (input : VoiceTurnEvaluationInput)
  (currentTurn : VoiceTurnStateRecord) (currentDegradedMode : Option VoiceDegradedModeState)

/-- The envelope is for the intent's own action and for the project of the turn, and the proof is of the tier demanded.
`own` says which control actions are those of an intent. -/
structure Linked (intent : VoiceIntentCandidate) (proof : ConfirmationProof) (envelope : ControlCommandEnvelope) :
    Prop where
  action : own intent envelope.action
  project : envelope.scope.projectId = some input.projectId
  tier : ∀ tier ∈ demandedTier input intent, tier.rank ≤ proof.tier.rank

structure Validated (proof : ConfirmationProof) (envelope : ControlCommandEnvelope) : Prop where
  proof_eq : input.confirmationProof = some proof
  envelope_eq : input.controlCommandEnvelope = some envelope
  accepted : ∃ v, options.validateConfirmationProof = some v ∧ v proof envelope = .ok true

def Confirmed (intent : VoiceIntentCandidate) : Prop :=
  ∃ proof envelope, Validated options input proof envelope ∧ Linked own input intent proof envelope

/-- What a decision that is ready stands for. -/
structure Justified (decision : VoiceTurnDecisionRecord) : Prop where
  signals : isCombinedTurnReady input = true
  route : validateRouteReference options decision.routeRef = .ok true
  escalation : validateEscalationReference options decision.escalationId = .ok true
  endpoint : validateEndpointAuthorization options input = .ok true
  confidence : ∀ result ∈ decision.confidenceDecision, result.Allows
  confirmed : ∀ intent ∈ decision.intent, intent.Risky → Confirmed own options input intent

def ReadyJustified : Prop :=
  ∀ result, evaluate options input currentTurn currentDegradedMode = .ok result →
    result.decision.outcome = .readyForCanonicalExecution → Justified own options input result.decision

/-- All checks but that of the confirmation pass. -/
structure Admitted : Prop where
  signals : isCombinedTurnReady input = true
  confident : 7 / 10 ≤ input.signals.intentConfidence
  route : validateRouteReference options (routeRefOf input currentTurn) = .ok true
  escalation : validateEscalationReference options (escalationIdOf input currentTurn) = .ok true
  endpoint : validateEndpointAuthorization options input = .ok true
  confidence : ∃ decision, decideConfidence options input input.intents.head? = .ok decision ∧
    ∀ result ∈ decision, result.Allows ∧ result.issues = []

/-- Of a risky intent that the other checks admit, the proof that is accepted is linked to it. -/
def LinksConfirmation : Prop :=
  Admitted options input currentTurn → ∀ intent ∈ input.intents.head?, intent.Risky →
    ∀ proof envelope, Validated options input proof envelope → Linked own input intent proof envelope

structure Answered (checks : TurnChecks) (degraded : Bool) : Prop where
  signals : checks.readyBySignals = isCombinedTurnReady input
  route : validateRouteReference options (routeRefOf input currentTurn) = .ok checks.routeValid
  escalation : validateEscalationReference options (escalationIdOf input currentTurn) = .ok checks.escalationValid
  endpoint : validateEndpointAuthorization options input = .ok checks.endpointAuthorized
  confidence : decideConfidence options input input.intents.head? = .ok checks.confidenceDecision
  confirmation : ∃ satisfied, checkConfirmation options input = .ok satisfied ∧
    checks.confirmation = determineConfirmationRequirement input input.intents.head? checks.confidenceDecision satisfied
      (degraded && input.intents.head?.any (·.actionCategory = .opctlCommand))

variable {own options input currentTurn currentDegradedMode}

theorem checkConfirmation_eq_true_iff :
    checkConfirmation options input = .ok true ↔ ∃ proof envelope, Validated options input proof envelope := by
  unfold checkConfirmation
  constructor
  · intro h
    split at h
    · rename_i validate proof envelope hvalidate hproof henvelope
      exact ⟨proof, envelope, hproof, henvelope, validate, hvalidate, h⟩
    · cases h
  · rintro ⟨proof, envelope, hproof, henvelope, validate, hvalidate, haccepted⟩
    rw [hvalidate, hproof, henvelope]
    exact haccepted

theorem Validated.unique {proof proof' : ConfirmationProof} {envelope envelope' : ControlCommandEnvelope}
    (h : Validated options input proof envelope) (h' : Validated options input proof' envelope') :
    proof = proof' ∧ envelope = envelope' :=
  ⟨Option.some.inj (h.proof_eq.symm.trans h'.proof_eq), Option.some.inj (h.envelope_eq.symm.trans h'.envelope_eq)⟩

theorem parse_eq_ok {record parsed : VoiceTurnDecisionRecord} :
    record.parse = .ok parsed ↔ (∀ result ∈ record.confidenceDecision, result.issues = []) ∧ parsed = record := by
  unfold VoiceTurnDecisionRecord.parse
  have hissues : record.confidenceDecision.toList.flatMap (·.issues) = [] ↔
      ∀ result ∈ record.confidenceDecision, result.issues = [] := by
    simp [List.flatMap_eq_nil_iff]
  dsimp only
  constructor
  · intro h
    split_ifs at h with hnil
    exact ⟨hissues.mp hnil, (Except.ok.inj h).symm⟩
  · rintro ⟨hall, rfl⟩
    exact if_pos (hissues.mpr hall)

variable {result : TurnEvaluationResult}

/-- **An evaluation that succeeds** decides on what the services have answered. -/
theorem evaluate_eq_ok :
    evaluate options input currentTurn currentDegradedMode = .ok result ↔
      ∃ checks, Answered options input currentTurn checks result.degradedMode.active ∧
        (∀ r ∈ checks.confidenceDecision, r.issues = []) ∧
        result.degradedMode =
          nextDegradedMode options input currentDegradedMode (input.requestedAt.getD options.now) ∧
        result.decision = decisionRecord options input currentTurn (input.requestedAt.getD options.now)
          result.degradedMode checks ∧
        result.nextTurnState = (decideOutcome input input.intents.head? result.degradedMode.active checks).2 := by
  obtain ⟨decision, nextTurnState, degradedMode⟩ := result
  dsimp only
  constructor
  · intro h
    obtain ⟨routeValid, hroute, h⟩ := bind_eq_ok.mp h
    obtain ⟨escalationValid, hescalation, h⟩ := bind_eq_ok.mp h
    obtain ⟨endpointAuthorized, hendpoint, h⟩ := bind_eq_ok.mp h
    obtain ⟨confidenceDecision, hconfidence, h⟩ := bind_eq_ok.mp h
    obtain ⟨satisfied, hsatisfied, h⟩ := bind_eq_ok.mp h
    obtain ⟨parsed, hparsed, h⟩ := bind_eq_ok.mp h
    obtain ⟨hissues, rfl⟩ := parse_eq_ok.1 hparsed
    obtain ⟨rfl, rfl, rfl⟩ := TurnEvaluationResult.mk.inj (Except.ok.inj h)
    exact ⟨_, ⟨rfl, hroute, hescalation, hendpoint, hconfidence, satisfied, hsatisfied, rfl⟩, hissues, rfl, rfl, rfl⟩
  · rintro ⟨⟨ready, routeValid, escalationValid, endpointAuthorized, confidenceDecision, confirmation⟩,
      ⟨hready, hroute, hescalation, hendpoint, hconfidence, satisfied, hsatisfied, hconfirmation⟩, hissues, rfl, rfl, rfl⟩
    dsimp only at hready hconfirmation
    subst hready hconfirmation
    refine bind_eq_ok.mpr ⟨_, hroute, bind_eq_ok.mpr ⟨_, hescalation, bind_eq_ok.mpr ⟨_, hendpoint,
      bind_eq_ok.mpr ⟨_, hconfidence, bind_eq_ok.mpr ⟨_, hsatisfied, bind_eq_ok.mpr ⟨_, parse_eq_ok.2 ⟨hissues, rfl⟩,
        rfl⟩⟩⟩⟩⟩⟩

theorem ready_of_admitted (hadmitted : Admitted options input currentTurn)
    (hsatisfied : checkConfirmation options input = .ok true) :
    ∃ result, evaluate options input currentTurn currentDegradedMode = .ok result ∧
      result.decision.outcome = .readyForCanonicalExecution := by
  obtain ⟨decision, hdecision, hallows⟩ := hadmitted.confidence
  let degradedMode := nextDegradedMode options input currentDegradedMode (input.requestedAt.getD options.now)
  let checks : TurnChecks :=
    { readyBySignals := isCombinedTurnReady input
      routeValid := true
      escalationValid := true
      endpointAuthorized := true
      confidenceDecision := decision
      confirmation := determineConfirmationRequirement input input.intents.head? decision true
        (degradedMode.active && input.intents.head?.any (·.actionCategory = .opctlCommand)) }
  have hanswered : Answered options input currentTurn checks degradedMode.active :=
    ⟨rfl, hadmitted.route, hadmitted.escalation, hadmitted.endpoint, hdecision, true, hsatisfied, rfl⟩
  have hpass : checks.Pass input :=
    ⟨hadmitted.signals, rfl, rfl, rfl, fun result hresult => (hallows result hresult).1, hadmitted.confident,
      required_eq_false_iff.2 (.inl rfl)⟩
  refine ⟨⟨decisionRecord options input currentTurn (input.requestedAt.getD options.now) degradedMode checks,
    (decideOutcome input input.intents.head? degradedMode.active checks).2, degradedMode⟩, ?_, ?_⟩
  · exact evaluate_eq_ok.2
      ⟨checks, hanswered, fun result hresult => (hallows result hresult).2, rfl, rfl, rfl⟩
  · exact decideOutcome_ready_iff.2 hpass

/-- **What a turn that is ready has passed**: every check, and a risky intent has a proof that was accepted. -/
theorem admitted_of_ready (h : evaluate options input currentTurn currentDegradedMode = .ok result)
    (hready : result.decision.outcome = .readyForCanonicalExecution) :
    Admitted options input currentTurn ∧ (∀ r ∈ result.decision.confidenceDecision, r.Allows) ∧
      ∀ intent ∈ input.intents.head?, intent.Risky → ∃ proof envelope, Validated options input proof envelope := by
  obtain ⟨checks, hanswered, hissues, -, hdecision, -⟩ := evaluate_eq_ok.1 h
  rw [hdecision] at hready
  have hpass : checks.Pass input := decideOutcome_ready_iff.1 hready
  refine ⟨⟨hanswered.signals ▸ hpass.signals, hpass.confident, hpass.route ▸ hanswered.route,
    hpass.escalation ▸ hanswered.escalation, hpass.endpoint ▸ hanswered.endpoint, checks.confidenceDecision,
    hanswered.confidence, fun r hr => ⟨hpass.confidence r hr, hissues r hr⟩⟩, ?_, fun intent hintent hrisky => ?_⟩
  · rw [hdecision]
    exact hpass.confidence
  · obtain ⟨satisfied, hsatisfied, hconfirmation⟩ := hanswered.confirmation
    have hrequired := hpass.confirmed
    rw [hconfirmation] at hrequired
    rcases required_eq_false_iff.1 hrequired with rfl | ⟨-, hnone, -⟩
    · exact checkConfirmation_eq_true_iff.1 hsatisfied
    · exact absurd hrisky (hnone intent hintent)

theorem decision_of_evaluate (h : evaluate options input currentTurn currentDegradedMode = .ok result) :
    result.decision.intent = input.intents.head? ∧ result.decision.routeRef = routeRefOf input currentTurn ∧
      result.decision.escalationId = escalationIdOf input currentTurn := by
  obtain ⟨checks, -, -, -, hdecision, -⟩ := evaluate_eq_ok.1 h
  rw [hdecision]
  exact ⟨rfl, rfl, rfl⟩

/-- **No risky command runs unconfirmed**: decisions that are ready are justified exactly if, where the other checks
pass, the accepted proof of a risky intent is of the tier demanded, and the envelope is for its own action and project. -/
theorem evaluate_justified_iff : ReadyJustified own options input currentTurn currentDegradedMode ↔
    LinksConfirmation own options input currentTurn := by
  constructor
  · intro h hadmitted intent hintent hrisky proof envelope hvalidated
    have hsatisfied := checkConfirmation_eq_true_iff.2 ⟨proof, envelope, hvalidated⟩
    obtain ⟨result, hevaluate, hready⟩ := ready_of_admitted hadmitted hsatisfied
    have hjustified := h result hevaluate hready
    rw [← (decision_of_evaluate hevaluate).1] at hintent
    obtain ⟨proof', envelope', hvalidated', hlinked⟩ := hjustified.confirmed intent hintent hrisky
    obtain ⟨rfl, rfl⟩ := hvalidated.unique hvalidated'
    exact hlinked
  · intro h result hevaluate hready
    obtain ⟨hadmitted, hallows, hvalidated⟩ := admitted_of_ready hevaluate hready
    obtain ⟨hintent, hroute, hescalation⟩ := decision_of_evaluate hevaluate
    refine ⟨hadmitted.signals, hroute ▸ hadmitted.route, hescalation ▸ hadmitted.escalation, hadmitted.endpoint, hallows,
      fun intent hmem hrisky => ?_⟩
    rw [hintent] at hmem
    obtain ⟨proof, envelope, hvalid⟩ := hvalidated intent hmem hrisky
    exact ⟨proof, envelope, hvalid, h hadmitted intent hmem hrisky proof envelope hvalid⟩

end Justified

/-! ## A command confirmed by a proof for another -/

def noHashes : Hashes := ⟨fun _ => "", fun _ => ""⟩

/-- Accepts what `validateConfirmationProof` of the control service accepts, at a fixed time. -/
def opctlOnly : TurnEvaluatorOptions Unit Unit where
  evaluateConfidenceGovernance := none
  validateConfirmationProof := some fun proof envelope =>
    .ok (Opctl.validateConfirmationProof noHashes "2026-03-11T00:00:01.000Z" proof envelope)
  authorize := none
  getRouteDecision := none
  getEscalation := none
  degradedModeController := ⟨30000, fun _ => 0⟩
  now := "2026-03-11T00:00:01.000Z"
  newId := "decision-1"
  requestId := "request-1"
  hashScope := fun signals => signals.transcriptHash

def hardStopIntent : VoiceIntentCandidate :=
  ⟨"intent-1", "turn-1", "project-1", .projectControl, .opctlCommand, .high, none, none, some "project.hard_stop",
    ["intent:evidence"]⟩

/-- Pausing one agent of another project. -/
def pauseEnvelope : ControlCommandEnvelope where
  controlCommandId := "command-1"
  actorType := .principal
  actorSessionId := "session-1"
  actorSeq := 0
  nonce := "nonce-1"
  expiresAt := "2026-03-11T00:05:00.000Z"
  scope := ⟨.executionScope, .singleAgent, ["agent-1"], some "project-2"⟩
  action := .pause

def pauseProof : ConfirmationProof :=
  Opctl.issueConfirmationProof noHashes "proof-1" "2026-03-11T00:00:00.000Z" "2026-03-11T00:05:00.000Z"
    ⟨pauseEnvelope.scope, .pause, .T1⟩

def hardStopTurn : VoiceTurnEvaluationInput where
  turnId := "turn-1"
  sessionId := "session-1"
  projectId := "project-1"
  principalId := "principal"
  signals := ⟨"hash", ["done"], 95 / 100, 1000, 500, true, 95 / 100, 93 / 100, 9 / 10, "2026-03-11T00:00:00.000Z"⟩
  intents := [hardStopIntent]
  activePrincipalSessionRef := none
  confirmationProof := some pauseProof
  controlCommandEnvelope := some pauseEnvelope
  endpointAuthorization := none
  requestedAt := none
  evidenceRefs := ["voice:evaluate"]

def listeningTurn : VoiceTurnStateRecord :=
  ⟨"turn-1", "session-1", "project-1", "principal", .listening, none, none, "2026-03-11T00:00:00.000Z",
    "2026-03-11T00:00:00.000Z", []⟩

def hardStopConfidence : ConfidenceGovernanceEvaluationResult where
  outcome := .allowAutonomy
  reasonCode := .allowAutonomy
  governance := .must
  actionCategory := .opctlCommand
  projectControlState := none
  patternId := "intent-1"
  confidence := 93 / 100
  confidenceTier := .high
  supportingSignals := 19
  decayState := some .stable
  autonomyAllowed := true
  requiresConfirmation := false
  highRiskOverrideApplied := false
  explanation := ⟨"intent-1", "voice-turn:turn-1"⟩
  escalationSignal := none

theorem hardStop_admitted : Admitted opctlOnly hardStopTurn listeningTurn where
  signals := by decide +kernel
  confident := by decide +kernel
  route := rfl
  escalation := rfl
  endpoint := rfl
  confidence := by
    have hfallback : createFallbackConfidenceDecision hardStopTurn (some hardStopIntent) = .ok hardStopConfidence := by
      decide +kernel
    refine ⟨some hardStopConfidence, ?_, fun result hresult => ?_⟩
    · exact congrArg (some <$> ·) hfallback
    · cases hresult
      exact ⟨⟨nofun, nofun, nofun⟩, by decide +kernel⟩

theorem pauseProof_validated : Validated opctlOnly hardStopTurn pauseProof pauseEnvelope where
  proof_eq := rfl
  envelope_eq := rfl
  accepted := ⟨_, rfl, by decide +kernel⟩

def projectAction (intent : VoiceIntentCandidate) (action : ControlAction) : Prop :=
  intent.requestedActionRef = some ("project." ++ action.text)

/-- A hard stop of a project is ready for execution after a pause in another one has been confirmed. -/
theorem hardStop_confirmed_by_pause :
    ¬ReadyJustified projectAction opctlOnly hardStopTurn listeningTurn none := by
  intro h
  obtain ⟨result, hevaluate, hready⟩ :=
    ready_of_admitted hardStop_admitted (checkConfirmation_eq_true_iff.2 ⟨_, _, pauseProof_validated⟩)
  have hjustified := h result hevaluate hready
  have hrisky : hardStopIntent.Risky := .inl (by decide +kernel)
  have hintent : hardStopIntent ∈ result.decision.intent := by
    rw [(decision_of_evaluate hevaluate).1]
    rfl
  obtain ⟨proof, envelope, hvalidated', hlinked⟩ := hjustified.confirmed hardStopIntent hintent hrisky
  obtain ⟨rfl, rfl⟩ := (pauseProof_validated).unique hvalidated'
  exact absurd (Option.some.inj hlinked.project) (by decide +kernel)

end NousCore.VoiceControl
