import NousCore.CommunicationGateway.Types
import NousCore.Lib.Follows

/-!
# Dispatching a message

* `evaluateEgress` : whether the recipient may be written to;
* `resolveEgress` : the route of a message, read from its payload reference;
* `performSend`, `tryFailover`, `dispatch` : sends with retries, a failover target, and the query for a former attempt;
* `dispatchEgress` : the call; `DispatchCall.run` the call of a message.
-/

namespace NousCore.CommunicationGateway

open Async
open Witness (Timestamp)

abbrev CommunicationM (α : Type) := Async CommunicationOp.Answer CommunicationError α

/-- The optional services that are there, and the settings. -/
structure CommunicationOptions where
  authorizedAccountIds : List String
  deliveryProvider : Bool
  nudgeDiscovery : Bool
  witness : Bool
  defaultRetryBudget : Nat

def orFail {α : Type} (outcome : Except String α) : CommunicationM α := unwrap (outcome.mapError .failed)

def storeAttempt (attempt : CommunicationDeliveryAttempt) : CommunicationM CommunicationDeliveryAttempt := do
  let saved ← perform (CommunicationOp.saveDeliveryAttempt attempt)
  orFail saved
  pure attempt

def recordWitness (options : CommunicationOptions) (actionRef : String) (succeeded : Bool) : CommunicationM Unit :=
  if options.witness then do
    let authorization ← perform (CommunicationOp.appendAuthorization actionRef)
    let authorizationRef ← orFail authorization
    let completion ← perform (CommunicationOp.appendCompletion actionRef authorizationRef succeeded)
    orFail completion
  else pure ()

/-! ## Policy -/

def isAccountAuthorized (options : CommunicationOptions) (accountId : String) : Bool :=
  options.authorizedAccountIds = [] ∨ accountId ∈ options.authorizedAccountIds

def egressReasonCodes (authorized : Bool) (binding : Option CommunicationIdentityBindingRecord) :
    List CommunicationRejectReason :=
  (if authorized then [] else [.unauthorizedChannel]) ++
    match binding with
    | none => [.unknownAccountBinding]
    | some binding => if binding.state = .active then [] else [.identityUnbound]

def evaluateEgress (options : CommunicationOptions) (envelope : ChannelEgressEnvelope)
    (binding : Option CommunicationIdentityBindingRecord) (decisionId : String) (evaluatedAt : Timestamp) :
    CommunicationPolicyDecision where
  decisionId := decisionId
  egressId := some envelope.egressId
  connectorAuthenticated := true
  accountAuthorized := isAccountAuthorized options envelope.accountId
  bindingState := (binding.map (·.state)).getD .unbound
  mentionPolicyAllowed := true
  conversationPolicyAllowed := true
  threadPolicyAllowed := true
  reasonCodes := egressReasonCodes (isAccountAuthorized options envelope.accountId) binding
  evidenceRefs := ["policy:" ++ envelope.egressId]
  evaluatedAt := evaluatedAt

def isEgressAllowed (decision : CommunicationPolicyDecision) : Bool :=
  decision.connectorAuthenticated && decision.accountAuthorized && decision.bindingState = .active

/-! ## Routes -/

def isHexDigit (c : Char) : Bool :=
  c.isDigit || ('a' ≤ c && c ≤ 'f') || ('A' ≤ c && c ≤ 'F')

/-- Five groups of hexadecimal digits, with dashes in between. -/
def isUuid (text : List Char) : Bool :=
  text.length = 36 &&
    text.zipIdx.all fun e => if e.2 = 8 ∨ e.2 = 13 ∨ e.2 = 18 ∨ e.2 = 23 then e.1 = '-' else isHexDigit e.1

def afterPrefix (start text : String) : Option String :=
  if start.toList <+: text.toList then some (String.ofList (text.toList.drop start.length)) else none

/-- The first id in a text. -/
def parseProjectId (value : String) : Option String :=
  ((value.toList.tails.map (·.take 36)).find? isUuid).map String.ofList

def routeOf (policy : CommunicationPolicyDecision) (payloadRef : String) (kind : CommunicationRouteKind)
    (rank : Nat) (ruleId routeId : String) (createdAt : Timestamp) : CommunicationRouteDecision where
  routeId := routeId
  routeKind := kind
  routeKey := payloadRef
  policyDecisionId := policy.decisionId
  projectId := none
  escalationId := none
  nudgeCandidateId := none
  precedenceRank := rank
  ruleId := ruleId
  evidenceRefs := ["route:" ++ payloadRef]
  createdAt := createdAt

/-- The route, but for its id and its time; `conflict:` and an acknowledgement without an id have none. -/
def resolvePayloadRoute (payloadRef conversationId : String) (policy : CommunicationPolicyDecision) :
    Except CommunicationError (String → Timestamp → CommunicationRouteDecision) :=
  if (afterPrefix "conflict:" payloadRef).isSome then .error (.failed "route_conflict")
  else match afterPrefix "escalation_ack:" payloadRef, afterPrefix "advisory:" payloadRef,
      afterPrefix "system:" payloadRef with
    | some escalationId, _, _ =>
      if isUuid escalationId.toList then .ok fun routeId createdAt =>
        { routeOf policy payloadRef .escalationAcknowledgement 0 "route:escalation-acknowledgement" routeId createdAt with
          escalationId := some escalationId }
      else .error (.failed "route_conflict")
    | none, some nudgeCandidateId, _ => .ok fun routeId createdAt =>
      { routeOf policy payloadRef .advisoryDelivery 1 "route:advisory-delivery" routeId createdAt with
        projectId := parseProjectId conversationId
        nudgeCandidateId := some nudgeCandidateId }
    | none, none, some _ => .ok (routeOf policy payloadRef .systemNotice 2 "route:system-notice")
    | none, none, none => .ok fun routeId createdAt =>
      { routeOf policy payloadRef .projectMessage 3 "route:project-message" routeId createdAt with
        projectId := (parseProjectId conversationId).orElse fun _ => parseProjectId payloadRef }

def resolveEgress (envelope : ChannelEgressEnvelope) (policy : CommunicationPolicyDecision) :
    CommunicationM CommunicationRouteDecision := do
  let route ← unwrap (resolvePayloadRoute envelope.payloadRef envelope.conversationId policy)
  let routeId ← perform CommunicationOp.newId
  let createdAt ← perform CommunicationOp.now
  unwrap (route routeId createdAt).parse

def saveRouteDecision (route : CommunicationRouteDecision) : CommunicationM CommunicationRouteDecision := do
  let saved ← perform (CommunicationOp.saveRouteDecision route)
  orFail saved
  pure route

/-! ## Attempts that are blocked before any send -/

def blockedAttempt (egressId : String) (reasonCodes : List CommunicationRejectReason) (evidenceRefs : List String)
    (deliveryAttemptId routeId : String) (occurredAt : Timestamp) : CommunicationDeliveryAttempt where
  deliveryAttemptId := deliveryAttemptId
  routeId := routeId
  egressId := egressId
  outcome := .deliveryBlocked
  failureClass := none
  retryBudgetRemaining := 0
  providerMessageRef := none
  failoverTargetBindingRef := none
  reasonCodes := reasonCodes
  evidenceRefs := evidenceRefs
  occurredAt := occurredAt

def saveRefused (egressId : String) (policy : CommunicationPolicyDecision) :
    CommunicationM CommunicationDeliveryAttempt := do
  let deliveryAttemptId ← perform CommunicationOp.newId
  let routeId ← perform CommunicationOp.newId
  let occurredAt ← perform CommunicationOp.now
  storeAttempt (blockedAttempt egressId policy.reasonCodes
    (policy.evidenceRefs ++ ["delivery:" ++ egressId]).eraseDups deliveryAttemptId routeId occurredAt)

def saveAdvisoryBlock (egressId routeId : String) : CommunicationM CommunicationDeliveryAttempt := do
  let deliveryAttemptId ← perform CommunicationOp.newId
  let occurredAt ← perform CommunicationOp.now
  storeAttempt (blockedAttempt egressId [.policyBlocked] ["delivery:" ++ egressId] deliveryAttemptId routeId occurredAt)

def maybeBlockAdvisory (options : CommunicationOptions) (route : CommunicationRouteDecision) (egressId : String) :
    CommunicationM (Option CommunicationDeliveryAttempt) :=
  if route.routeKind ≠ .advisoryDelivery ∨ ¬options.nudgeDiscovery then pure none
  else do
    let feed ← perform (CommunicationOp.prepareSurfaceFeed route.projectId [route.nudgeCandidateId.getD route.routeKey])
    let cards ← orFail feed
    if 0 < cards then pure none else some <$> saveAdvisoryBlock egressId route.routeId

/-! ## Sends -/

structure DeliveryAttemptInput where
  routeId : String
  egressId : String
  outcome : CommunicationDeliveryAttemptOutcome
  retryBudgetRemaining : Nat
  providerMessageRef : Option String := none
  failoverTargetBindingRef : Option String := none
  reasonCodes : List CommunicationRejectReason
  failureClass : Option RecoveryFailureClass := none

def DeliveryAttemptInput.attempt (input : DeliveryAttemptInput) (deliveryAttemptId : String) (occurredAt : Timestamp) :
    CommunicationDeliveryAttempt where
  deliveryAttemptId := deliveryAttemptId
  routeId := input.routeId
  egressId := input.egressId
  outcome := input.outcome
  failureClass := input.failureClass
  retryBudgetRemaining := input.retryBudgetRemaining
  providerMessageRef := input.providerMessageRef
  failoverTargetBindingRef := input.failoverTargetBindingRef
  reasonCodes := input.reasonCodes
  evidenceRefs := ["delivery:" ++ input.egressId]
  occurredAt := occurredAt

def saveAttempt (input : DeliveryAttemptInput) : CommunicationM CommunicationDeliveryAttempt := do
  let deliveryAttemptId ← perform CommunicationOp.newId
  let occurredAt ← perform CommunicationOp.now
  let attempt ← unwrap (input.attempt deliveryAttemptId occurredAt).parse
  storeAttempt attempt

/-- The first digits of the reference. -/
def parseRetryBudget (options : CommunicationOptions) (retryPolicyRef : String) : Nat :=
  let digits := (retryPolicyRef.toList.dropWhile fun c => !c.isDigit).takeWhile Char.isDigit
  if digits = [] then options.defaultRetryBudget
  else digits.foldl (fun n c => 10 * n + (c.toNat - '0'.toNat)) 0

def send (envelope : ChannelEgressEnvelope) : CommunicationM CommunicationProviderSendResult := do
  perform (CommunicationOp.startSend envelope)
  perform (CommunicationOp.awaitSend envelope)

def mayTakeOver (source : CommunicationIdentityBindingRecord) (target : CommunicationIdentityBindingRecord) : Bool :=
  target.state = .active ∧ target.failoverGroupRef.any (· ≠ "") = true ∧
    target.failoverGroupRef = source.failoverGroupRef

section Failover

variable (envelope : ChannelEgressEnvelope) (route : CommunicationRouteDecision) (retryBudgetRemaining : Nat)

def saveFailoverResult (targetBindingId : String) :
    CommunicationProviderSendResult → CommunicationM CommunicationDeliveryAttempt
  | .delivered providerMessageRef => saveAttempt
    { routeId := route.routeId
      egressId := envelope.egressId
      outcome := .delivered
      retryBudgetRemaining := retryBudgetRemaining
      providerMessageRef := providerMessageRef
      failoverTargetBindingRef := some targetBindingId
      reasonCodes := [] }
  | .unknownExternalEffect _ => saveAttempt
    { routeId := route.routeId
      egressId := envelope.egressId
      outcome := .reviewRequired
      failureClass := some .unknownExternalEffect
      retryBudgetRemaining := retryBudgetRemaining
      failoverTargetBindingRef := some targetBindingId
      reasonCodes := [.unknownExternalEffect] }
  | .blocked reason => saveAttempt
    { routeId := route.routeId
      egressId := envelope.egressId
      outcome := .deliveryBlocked
      retryBudgetRemaining := retryBudgetRemaining
      failoverTargetBindingRef := some targetBindingId
      reasonCodes := [reason] }
  | .failed _ failureClass reason _ => saveAttempt
    { routeId := route.routeId
      egressId := envelope.egressId
      outcome := .deliveryFailed
      failureClass := some (failureClass.getD .nonRetryableDeterministic)
      retryBudgetRemaining := retryBudgetRemaining
      failoverTargetBindingRef := some targetBindingId
      reasonCodes := [reason.getD .permanentDeliveryFailure] }

/-- The message to the target, or an attempt that is blocked. -/
def failoverTo (sourceBinding : CommunicationIdentityBindingRecord) (targetBindingRef : String) :
    CommunicationM CommunicationDeliveryAttempt := do
  let found ← perform (CommunicationOp.getBinding targetBindingRef)
  let targetBinding ← orFail found
  match targetBinding.filter (mayTakeOver sourceBinding) with
  | none =>
    saveAttempt
      { routeId := route.routeId
        egressId := envelope.egressId
        outcome := .deliveryBlocked
        retryBudgetRemaining := retryBudgetRemaining
        failoverTargetBindingRef := some targetBindingRef
        reasonCodes := [.policyBlocked] }
  | some target => do
    let result ← send { envelope with recipientBindingRef := target.bindingId }
    saveFailoverResult envelope route retryBudgetRemaining target.bindingId result

def tryFailover (targetBindingRef : Option String) (sourceBinding : CommunicationIdentityBindingRecord) :
    CommunicationM (Option CommunicationDeliveryAttempt) :=
  match targetBindingRef.filter (· ≠ "") with
  | none => pure none
  | some targetBindingRef => some <$> failoverTo envelope route retryBudgetRemaining sourceBinding targetBindingRef

end Failover

section Send

variable (envelope : ChannelEgressEnvelope) (route : CommunicationRouteDecision)
  (binding : CommunicationIdentityBindingRecord)

/-- What follows a send that has failed: the failover target, else another send if there is one left. -/
def afterFailure (retryBudgetRemaining : Nat) (again : Option (CommunicationM CommunicationDeliveryAttempt))
    (retryable : Bool) (failureClass : Option RecoveryFailureClass) (reason : Option CommunicationRejectReason)
    (suggestedFailoverBindingRef : Option String) : CommunicationM CommunicationDeliveryAttempt := do
  let failoverResult ← tryFailover envelope route retryBudgetRemaining suggestedFailoverBindingRef binding
  match failoverResult, again, retryable with
  | some attempt, _, _ => pure attempt
  | none, some again, true => again
  | none, _, _ =>
    saveAttempt
      { routeId := route.routeId
        egressId := envelope.egressId
        outcome := .deliveryFailed
        failureClass :=
          some (failureClass.getD (if retryable then .retryableTransient else .nonRetryableDeterministic))
        retryBudgetRemaining := retryBudgetRemaining
        reasonCodes := [reason.getD .permanentDeliveryFailure] }

def afterSend (retryBudgetRemaining : Nat) (again : Option (CommunicationM CommunicationDeliveryAttempt)) :
    CommunicationProviderSendResult → CommunicationM CommunicationDeliveryAttempt
  | .delivered providerMessageRef => saveAttempt
    { routeId := route.routeId
      egressId := envelope.egressId
      outcome := .delivered
      retryBudgetRemaining := retryBudgetRemaining
      providerMessageRef := providerMessageRef
      reasonCodes := [] }
  | .blocked reason => saveAttempt
    { routeId := route.routeId
      egressId := envelope.egressId
      outcome := .deliveryBlocked
      retryBudgetRemaining := retryBudgetRemaining
      reasonCodes := [reason] }
  | .unknownExternalEffect suggestedFailoverBindingRef => saveAttempt
    { routeId := route.routeId
      egressId := envelope.egressId
      outcome := .reviewRequired
      failureClass := some .unknownExternalEffect
      retryBudgetRemaining := retryBudgetRemaining
      failoverTargetBindingRef := suggestedFailoverBindingRef
      reasonCodes := [.unknownExternalEffect] }
  | .failed retryable failureClass reason suggestedFailoverBindingRef =>
    afterFailure envelope route binding retryBudgetRemaining again retryable failureClass reason
      suggestedFailoverBindingRef

/-- Another send is left while the budget is not used up. -/
def performSend : Nat → CommunicationM CommunicationDeliveryAttempt
  | 0 => do
    let result ← send envelope
    afterSend envelope route binding 0 none result
  | retryBudgetRemaining + 1 => do
    let result ← send envelope
    afterSend envelope route binding (retryBudgetRemaining + 1) (some (performSend retryBudgetRemaining)) result

def dispatch (options : CommunicationOptions) : CommunicationM CommunicationDeliveryAttempt := do
  let found ← perform (CommunicationOp.getLatestDeliveryAttemptByEgressId envelope.egressId)
  let existing ← orFail found
  match existing with
  | some existing => do
    let deliveryAttemptId ← perform CommunicationOp.newId
    let occurredAt ← perform CommunicationOp.now
    unwrap (CommunicationDeliveryAttempt.parse
      { existing with
        deliveryAttemptId := deliveryAttemptId
        outcome := .deduplicated
        occurredAt := occurredAt })
  | none => performSend envelope route binding (parseRetryBudget options envelope.retryPolicyRef)

end Send

/-! ## The call -/

def outcomeOf (attempt : CommunicationDeliveryAttempt) : CommunicationEgressOutcome :=
  match attempt.outcome with
  | .deduplicated => .deduplicated attempt
  | .delivered => .delivered attempt
  | .reviewRequired => .failedReviewRequired attempt
  | .deliveryBlocked | .deliveryFailed => .blocked attempt

section

variable (options : CommunicationOptions)

section

variable (envelope : ChannelEgressEnvelope)

def dispatchAllowed
    (binding : CommunicationIdentityBindingRecord) (policy : CommunicationPolicyDecision) :
    CommunicationM CommunicationEgressOutcome := do
  let resolved ← resolveEgress envelope policy
  let route ← saveRouteDecision resolved
  let advisoryBlock ← maybeBlockAdvisory options route envelope.egressId
  match advisoryBlock with
  | some attempt => do
    recordWitness options ("communication-egress:" ++ envelope.egressId) false
    pure (.blocked attempt)
  | none => do
    let attempt ← dispatch envelope route binding options
    recordWitness options ("communication-egress:" ++ envelope.egressId) (attempt.outcome ≠ .reviewRequired)
    pure (outcomeOf attempt)

def dispatchRefused
    (policy : CommunicationPolicyDecision) : CommunicationM CommunicationEgressOutcome := do
  let attempt ← saveRefused envelope.egressId policy
  recordWitness options ("communication-egress:" ++ envelope.egressId) false
  pure (.blocked attempt)

def dispatchParsed :
    CommunicationM CommunicationEgressOutcome := do
  let found ← perform (CommunicationOp.getBinding envelope.recipientBindingRef)
  let binding ← orFail found
  let decisionId ← perform CommunicationOp.newId
  let evaluatedAt ← perform CommunicationOp.now
  let policy := evaluateEgress options envelope binding decisionId evaluatedAt
  match binding, isEgressAllowed policy with
  | some binding, true => dispatchAllowed options envelope binding policy
  | _, _ => dispatchRefused options envelope policy

def dispatchEgress :
    CommunicationM CommunicationEgressOutcome := do
  let parsed ← unwrap envelope.parse
  if options.deliveryProvider then dispatchParsed options parsed
  else .throw (.failed "dispatchEgress requires a delivery provider")

end

/-- Any number of messages that are dispatched at the same time. -/
def communicationSystem : System ChannelEgressEnvelope CommunicationOp.Answer
    CommunicationEnv CommunicationState CommunicationError CommunicationEgressOutcome where
  body := dispatchEgress options
  answers := communicationAnswers
  spawned _ := []
  exclusive _ := false

end

end NousCore.CommunicationGateway
