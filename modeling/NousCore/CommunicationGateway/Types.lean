import NousCore.Lib.Async
import NousCore.Lib.Collection
import NousCore.Lib.Json
import NousCore.Witness.Types

/-!
# Outgoing messages and their deliveries

* `ChannelEgressEnvelope`, `CommunicationIdentityBindingRecord`, `CommunicationRouteDecision`,
  `CommunicationDeliveryAttempt` : a message, its recipient, its route, and an attempt to deliver it;
* `CommunicationProviderSendResult` : how a send ends;
* `CommunicationOp`, `CommunicationState`, `communicationAnswers` : the clock, the ids, the provider, the other services
  and the stores; the state also keeps what the provider has been asked, and has answered.

The formats of ids and times, and the sessions of the connectors, are left out.
-/

namespace NousCore.CommunicationGateway

open Witness (Timestamp)

inductive CommunicationChannel where
  | telegram | matrix | slack

inductive CommunicationBindingState where
  | unbound | active | revoked
  deriving DecidableEq

inductive CommunicationRouteKind where
  | approvalIntake | projectMessage | escalationAcknowledgement | advisoryDelivery | systemNotice
  deriving DecidableEq

inductive CommunicationRejectReason where
  | unauthenticatedConnector | unknownAccountBinding | unauthorizedChannel | identityUnbound | mentionRequired
  | conversationNotAllowed | threadNotAllowed | policyBlocked | routeConflict | duplicateEgress
  | permanentDeliveryFailure | unknownExternalEffect
  deriving DecidableEq

inductive CommunicationMessageClass where
  | response | alert | escalation | systemNotice

inductive RecoveryFailureClass where
  | retryableTransient | nonRetryableDeterministic | policyOrInvariantViolation | unknownExternalEffect
  deriving DecidableEq

structure ChannelEgressEnvelope where
  egressId : String
  channel : CommunicationChannel
  channelId : String
  workspaceId : Option String
  accountId : String
  conversationId : String
  threadId : Option String
  recipientBindingRef : String
  messageClass : CommunicationMessageClass
  payloadRef : String
  deliveryPolicyRef : String
  retryPolicyRef : String
  requestedAt : Timestamp
  traceParent : Option String

structure CommunicationIdentityBindingRecord where
  bindingId : String
  channel : CommunicationChannel
  accountId : String
  channelIdentity : String
  principalId : Option String
  state : CommunicationBindingState
  failoverGroupRef : Option String

structure CommunicationPolicyDecision where
  decisionId : String
  egressId : Option String
  connectorAuthenticated : Bool
  accountAuthorized : Bool
  bindingState : CommunicationBindingState
  mentionPolicyAllowed : Bool
  conversationPolicyAllowed : Bool
  threadPolicyAllowed : Bool
  reasonCodes : List CommunicationRejectReason
  evidenceRefs : List String
  evaluatedAt : Timestamp

structure CommunicationRouteDecision where
  routeId : String
  routeKind : CommunicationRouteKind
  routeKey : String
  policyDecisionId : String
  projectId : Option String
  escalationId : Option String
  nudgeCandidateId : Option String
  precedenceRank : Nat
  ruleId : String
  evidenceRefs : List String
  createdAt : Timestamp

inductive CommunicationDeliveryAttemptOutcome where
  | deduplicated | delivered | deliveryBlocked | deliveryFailed | reviewRequired
  deriving DecidableEq

structure CommunicationDeliveryAttempt where
  deliveryAttemptId : String
  routeId : String
  egressId : String
  outcome : CommunicationDeliveryAttemptOutcome
  failureClass : Option RecoveryFailureClass
  retryBudgetRemaining : Nat
  providerMessageRef : Option String
  failoverTargetBindingRef : Option String
  reasonCodes : List CommunicationRejectReason
  evidenceRefs : List String
  occurredAt : Timestamp
  deriving DecidableEq

/-- The answer to a message that is dispatched. -/
inductive CommunicationEgressOutcome where
  | deduplicated (attempt : CommunicationDeliveryAttempt)
  | delivered (attempt : CommunicationDeliveryAttempt)
  | blocked (attempt : CommunicationDeliveryAttempt)
  | failedReviewRequired (attempt : CommunicationDeliveryAttempt)

inductive CommunicationProviderSendResult where
  | delivered (providerMessageRef : Option String)
  | blocked (reason : CommunicationRejectReason)
  | failed (retryable : Bool) (failureClass : Option RecoveryFailureClass) (reason : Option CommunicationRejectReason)
      (suggestedFailoverBindingRef : Option String)
  | unknownExternalEffect (suggestedFailoverBindingRef : Option String)

/-- A send that has delivered the message, or may have. -/
def CommunicationProviderSendResult.effective : CommunicationProviderSendResult → Bool
  | .delivered _ | .unknownExternalEffect _ => true
  | .blocked _ | .failed _ _ _ _ => false

/-! ## Schemas -/

inductive CommunicationError where
  | invalid (paths : List String)
  | failed (message : String)

/-- A record whose texts must not be empty. -/
def parseTexts {α : Type} (fields : List (String × String)) (record : α) : Except CommunicationError α :=
  if emptyFields fields = [] then .ok record else .error (.invalid (emptyFields fields))

theorem parseTexts_eq {α : Type} {fields : List (String × String)} {record parsed : α}
    (h : parseTexts fields record = .ok parsed) : parsed = record := by
  unfold parseTexts at h
  split_ifs at h
  exact (Except.ok.inj h).symm

def ChannelEgressEnvelope.parse (envelope : ChannelEgressEnvelope) : Except CommunicationError ChannelEgressEnvelope :=
  parseTexts (required "channel_id" envelope.channelId ++ optional "workspace_id" envelope.workspaceId ++
    required "account_id" envelope.accountId ++ required "conversation_id" envelope.conversationId ++
    optional "thread_id" envelope.threadId ++ required "recipient_binding_ref" envelope.recipientBindingRef ++
    required "payload_ref" envelope.payloadRef ++ required "delivery_policy_ref" envelope.deliveryPolicyRef ++
    required "retry_policy_ref" envelope.retryPolicyRef) envelope

def CommunicationRouteDecision.parse (route : CommunicationRouteDecision) :
    Except CommunicationError CommunicationRouteDecision :=
  parseTexts (required "route_key" route.routeKey ++ optional "nudge_candidate_id" route.nudgeCandidateId ++
    required "rule_id" route.ruleId ++ each "evidence_refs" route.evidenceRefs) route

def CommunicationDeliveryAttempt.parse (attempt : CommunicationDeliveryAttempt) :
    Except CommunicationError CommunicationDeliveryAttempt :=
  parseTexts (optional "provider_message_ref" attempt.providerMessageRef ++
    optional "failover_target_binding_ref" attempt.failoverTargetBindingRef ++
    each "evidence_refs" attempt.evidenceRefs) attempt

/-! ## Operations -/

/-- What the provider is asked, and answers. -/
inductive ProviderEvent where
  | started (envelope : ChannelEgressEnvelope)
  | ended (envelope : ChannelEgressEnvelope) (result : CommunicationProviderSendResult)

structure CommunicationState where
  routes : Collection CommunicationRouteDecision.routeId
  attempts : Collection CommunicationDeliveryAttempt.deliveryAttemptId
  provider : List ProviderEvent

def CommunicationState.empty : CommunicationState := ⟨.empty, .empty, []⟩

/-- `startSend` and `awaitSend` are the beginning and the end of `provider.send`. -/
inductive CommunicationOp where
  | now
  | newId
  | getBinding (bindingId : String)
  | saveRouteDecision (route : CommunicationRouteDecision)
  | prepareSurfaceFeed (projectId : Option String) (signalRefs : List String)
  | getLatestDeliveryAttemptByEgressId (egressId : String)
  | saveDeliveryAttempt (attempt : CommunicationDeliveryAttempt)
  | startSend (envelope : ChannelEgressEnvelope)
  | awaitSend (envelope : ChannelEgressEnvelope)
  | appendAuthorization (actionRef : String)
  | appendCompletion (actionRef authorizationRef : String) (succeeded : Bool)

/-- The store and the other services may fail; a feed is answered with the number of its cards. -/
@[reducible] def CommunicationOp.Answer : CommunicationOp → Type
  | .now => Timestamp
  | .newId => String
  | .getBinding _ => Except String (Option CommunicationIdentityBindingRecord)
  | .saveRouteDecision _ => Except String Unit
  | .prepareSurfaceFeed _ _ => Except String Nat
  | .getLatestDeliveryAttemptByEgressId _ => Except String (Option CommunicationDeliveryAttempt)
  | .saveDeliveryAttempt _ => Except String Unit
  | .startSend _ => Unit
  | .awaitSend _ => CommunicationProviderSendResult
  | .appendAuthorization _ => Except String String
  | .appendCompletion _ _ _ => Except String Unit

/-- What the environment answers; the bindings are what the other calls make of them. An operation whose `failure` is
given fails; of the latest attempts a query finds `latest`. -/
structure CommunicationEnv where
  now : Timestamp
  id : String
  failure : Option String
  binding : Option CommunicationIdentityBindingRecord
  cards : Nat
  latest : Option CommunicationDeliveryAttempt
  result : CommunicationProviderSendResult
  authorizationRef : String

def CommunicationEnv.answer {α : Type} (env : CommunicationEnv) (a : α) : Except String α :=
  match env.failure with
  | some message => .error message
  | none => .ok a

def attemptsOf (egressId : String) (s : CommunicationState) : List CommunicationDeliveryAttempt :=
  s.attempts.all.filter (·.egressId = egressId)

/-- What a query for the latest attempt may find: of several that are latest, any one. -/
def IsLatest (attempts : List CommunicationDeliveryAttempt) : Option CommunicationDeliveryAttempt → Prop
  | some attempt => attempt ∈ attempts ∧ ∀ other ∈ attempts, ¬attempt.occurredAt < other.occurredAt
  | none => attempts = []

instance (attempts : List CommunicationDeliveryAttempt) : DecidablePred (IsLatest attempts)
  | some attempt =>
    inferInstanceAs (Decidable (attempt ∈ attempts ∧ ∀ other ∈ attempts, ¬attempt.occurredAt < other.occurredAt))
  | none => inferInstanceAs (Decidable (attempts = []))

/-- A document that is saved, unless the store fails. -/
def CommunicationEnv.save (env : CommunicationEnv) (s saved : CommunicationState) :
    Option (Except String Unit × CommunicationState) :=
  match env.failure with
  | some message => some (.error message, s)
  | none => some (.ok (), saved)

/-- The latest attempt for a message, unless the store fails. -/
def CommunicationEnv.query (env : CommunicationEnv) (egressId : String) (s : CommunicationState) :
    Option (Except String (Option CommunicationDeliveryAttempt) × CommunicationState) :=
  if env.failure.isSome = true ∨ IsLatest (attemptsOf egressId s) env.latest then some (env.answer env.latest, s)
  else none

def communicationAnswers : Answers CommunicationOp.Answer CommunicationEnv CommunicationState
  | .now, env, s => some (env.now, s)
  | .newId, env, s => some (env.id, s)
  | .getBinding _, env, s => some (env.answer env.binding, s)
  | .saveRouteDecision route, env, s => env.save s { s with routes := s.routes.put route }
  | .prepareSurfaceFeed _ _, env, s => some (env.answer env.cards, s)
  | .getLatestDeliveryAttemptByEgressId egressId, env, s =>
    env.query egressId s
  | .saveDeliveryAttempt attempt, env, s => env.save s { s with attempts := s.attempts.put attempt }
  | .startSend envelope, _, s => some ((), { s with provider := s.provider ++ [.started envelope] })
  | .awaitSend envelope, env, s =>
    some (env.result, { s with provider := s.provider ++ [.ended envelope env.result] })
  | .appendAuthorization _, env, s => some (env.answer env.authorizationRef, s)
  | .appendCompletion _ _ _, env, s => some (env.answer (), s)

theorem CommunicationEnv.save_cases {env : CommunicationEnv} {s saved s' : CommunicationState} {r : Except String Unit}
    (h : env.save s saved = some (r, s')) : s' = s ∨ s' = saved := by
  unfold CommunicationEnv.save at h
  split at h
  · exact .inl (Prod.mk.inj (Option.some.inj h)).2.symm
  · exact .inr (Prod.mk.inj (Option.some.inj h)).2.symm

theorem CommunicationEnv.query_eq_some {env : CommunicationEnv} {egressId : String} {s s' : CommunicationState}
    {r : Except String (Option CommunicationDeliveryAttempt)} (h : env.query egressId s = some (r, s')) :
    s' = s ∧ (r = .ok none → env.failure = none ∧ attemptsOf egressId s = []) ∧
      ∀ attempt, r = .ok (some attempt) → env.failure = none ∧ attemptsOf egressId s ≠ [] := by
  unfold CommunicationEnv.query CommunicationEnv.answer at h
  split_ifs at h with hlatest
  cases h
  refine ⟨rfl, ?_⟩
  cases hfailure : env.failure with
  | some message => exact ⟨nofun, fun _ h => nomatch h⟩
  | none =>
    have hlatest := hlatest.resolve_left (by rw [hfailure]; exact Bool.false_ne_true)
    refine ⟨fun hr => ⟨rfl, ?_⟩, fun attempt hr => ⟨rfl, ?_⟩⟩
    · rw [Except.ok.inj hr] at hlatest
      exact hlatest
    · rw [Except.ok.inj hr] at hlatest
      exact List.ne_nil_of_mem hlatest.1

end NousCore.CommunicationGateway
