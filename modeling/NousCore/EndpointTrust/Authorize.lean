import NousCore.EndpointTrust.Service
import NousCore.Lib.Isolation

/-!
# What an allowed request has been checked for

* `decisionInput` : what the engine is given, `meets_authorize` : the answer is the engine's;
* `checkAuthorization_eq_ok` : which inputs are allowed;
* `Justified` : what an allowed request stands for.
-/

namespace NousCore.EndpointTrust

open Async
open Witness (Timestamp)
open Opctl (Hashes)

/-! ## The engine -/

structure Allowed (input : AuthorizationDecisionInput) (grant : EndpointCapabilityGrantRecord) : Prop where
  peripheral : ∃ peripheral, input.peripheral = some peripheral ∧ peripheral.trustState = .trusted
  endpoint : ∃ endpoint, input.endpoint = some endpoint ∧ endpoint.trustState = .trusted ∧
    endpoint.direction = input.request.capabilityClass ∧ endpoint.registryEligibility.all registryAllowed = true
  granted : input.grant = some grant
  active : grant.status = .active
  capabilityKey : grant.capabilityKey = input.request.capabilityKey
  policyRef : grant.policyRef = input.request.policyRef
  session : input.request.sessionId.isSome = true → ∃ session, input.session = some session ∧ session.status = .active
  transport : input.transportReason = none
  confirmed : input.request.risk = .high → input.confirmationValidated = true

variable {input : AuthorizationDecisionInput}

theorem checkAuthorization_eq_ok {grant : EndpointCapabilityGrantRecord} :
    checkAuthorization input = .ok grant ↔ Allowed input grant := by
  obtain ⟨request, peripheral, endpoint, grant', session, transportReason, confirmed, requestId, evaluatedAt⟩ := input
  have hany : ∀ eligibility : Option Registry.RegistryInstallEligibilitySnapshot,
      ¬eligibility.any (!registryAllowed ·) = true ↔ eligibility.all registryAllowed = true := by
    intro eligibility
    cases eligibility <;> simp
  have hall : ∀ session : Option EndpointSessionRecord, session.all (·.status ≠ .active) = true ↔
      ¬∃ record, session = some record ∧ record.status = .active := by
    intro session
    cases session <;> simp
  unfold checkAuthorization
  constructor
  · intro h
    obtain ⟨hperipheral, h⟩ := ite_error_eq_ok.mp h
    cases endpoint with
    | none => cases h
    | some endpoint =>
      obtain ⟨hendpoint, h⟩ := ite_error_eq_ok.mp h
      obtain ⟨hdirection, h⟩ := ite_error_eq_ok.mp h
      obtain ⟨hregistry, h⟩ := ite_error_eq_ok.mp h
      cases grant' with
      | none => cases h
      | some grant' =>
        obtain ⟨hgrant, h⟩ := ite_error_eq_ok.mp h
        obtain ⟨hsession, h⟩ := ite_error_eq_ok.mp h
        cases transportReason with
        | some reason => cases h
        | none =>
          obtain ⟨hconfirmed, h⟩ := ite_error_eq_ok.mp h
          cases h
          obtain ⟨hactive, hrest⟩ := not_or.mp hgrant
          obtain ⟨hkey, hpolicy⟩ := not_or.mp hrest
          refine ⟨?_, ⟨endpoint, rfl, not_not.mp hendpoint, not_not.mp hdirection, (hany _).mp hregistry⟩, rfl,
            not_not.mp hactive, not_not.mp hkey, not_not.mp hpolicy, fun hsome => ?_, rfl, fun hhigh => ?_⟩
          · cases peripheral with
            | none => simp at hperipheral
            | some peripheral => exact ⟨peripheral, rfl, by simpa using hperipheral⟩
          · by_contra hnone
            exact hsession ⟨hsome, (hall _).mpr hnone⟩
          · by_contra hfalse
            exact hconfirmed ⟨hhigh, Bool.eq_false_iff.mpr hfalse⟩
  · rintro ⟨⟨peripheral, rfl, hperipheral⟩, ⟨endpoint, rfl, hendpoint, hdirection, hregistry⟩, rfl, hactive, hkey,
      hpolicy, hsession, rfl, hconfirmed⟩
    dsimp only at hdirection hkey hpolicy hsession hconfirmed ⊢
    rw [if_neg (by simp [hperipheral]), if_neg (not_not.mpr hendpoint), if_neg (not_not.mpr hdirection),
      if_neg ((hany _).mpr hregistry), if_neg (by simp [hactive, hkey, hpolicy]), if_neg, if_neg]
    · rintro ⟨hhigh, hfalse⟩
      rw [hconfirmed hhigh] at hfalse
      cases hfalse
    · rintro ⟨hsome, hnone⟩
      exact (hall _).mp hnone (hsession hsome)

theorem engineResult_decision : (engineResult input).decision = .allowed ↔ ∃ grant, Allowed input grant := by
  unfold engineResult
  cases hcheck : checkAuthorization input with
  | error reason =>
    refine ⟨fun h => (by cases h), fun ⟨grant, hallowed⟩ => ?_⟩
    rw [checkAuthorization_eq_ok.mpr hallowed] at hcheck
    cases hcheck
  | ok grant => exact ⟨fun _ => ⟨grant, checkAuthorization_eq_ok.mp hcheck⟩, fun _ => rfl⟩

theorem engineResult_evaluatedAt (input : AuthorizationDecisionInput) :
    (engineResult input).evaluatedAt = input.evaluatedAt := by
  unfold engineResult
  cases checkAuthorization input <;> rfl

/-! ## What the engine is given -/

def grantOf (s : TrustState) (request : EndpointAuthorizationRequest) : Option EndpointCapabilityGrantRecord :=
  if (s.endpoints.find? request.endpointId).isSome then
    findActiveGrant (ordered s.grants.all (·.endpointId = request.endpointId) (fun a b => b.grantedAt ≤ a.grantedAt))
      request.capabilityKey
  else none

def transportOf (s : TrustState) (request : EndpointAuthorizationRequest) (requestedAt : Timestamp) : Option String :=
  match request.transportEnvelope, s.peripherals.find? request.peripheralId, s.endpoints.find? request.endpointId with
  | some envelope, some peripheral, some endpoint =>
    transportReason peripheral endpoint (request.sessionId.bind s.sessions.find?) envelope requestedAt
  | _, _, _ => none

def confirmationOf (services : TrustServices) (hashes : Hashes) (request : EndpointAuthorizationRequest)
    (checkedAt : Timestamp) : Bool :=
  if request.risk ≠ .high then true
  else match request.confirmationProof, request.controlCommandEnvelope with
    | some proof, some envelope => services.opctl && Opctl.validateConfirmationProof hashes checkedAt proof envelope
    | _, _ => false

def decisionInput (services : TrustServices) (hashes : Hashes) (s : TrustState) (request : EndpointAuthorizationRequest)
    (requestId : String) (requestedAt checkedAt : Timestamp) : AuthorizationDecisionInput where
  request := request
  peripheral := s.peripherals.find? request.peripheralId
  endpoint := s.endpoints.find? request.endpointId
  grant := grantOf s request
  session := request.sessionId.bind s.sessions.find?
  transportReason := transportOf s request requestedAt
  confirmationValidated := confirmationOf services hashes request checkedAt
  requestId := requestId
  evaluatedAt := requestedAt

section Meets

variable {services : TrustServices} {hashes : Hashes} {A : TrustOp → TrustEnv → Prop} {s : TrustState}
  {l : Log TrustOp.Answer} {request : EndpointAuthorizationRequest}

/-- The witness service does not fail. -/
def Witnessed (A : TrustOp → TrustEnv → Prop) : Prop :=
  ∀ o x, A o x → (∃ id, x.authorization = .ok id) ∧ x.completion = .ok ()

theorem meets_recordWitness (actionRef : String) (succeeded : Bool) :
    (recordWitness services actionRef succeeded).Meets (trustAnswers hashes) (.within fun _ o x _ => A o x)
      (fun _ y t => t = s ∧ (Witnessed A → y = .ok ())) l s := by
  unfold recordWitness
  split_ifs
  · refine meets_within_call fun x r s₁ hanswers hx => ?_
    cases hanswers
    show (orFail x.authorization >>= _).Meets _ _ _ _ _
    refine meets_bind.mpr ((meets_unwrap _).mpr ?_)
    cases hauthorization : x.authorization with
    | error e =>
      refine ⟨rfl, fun hw => ?_⟩
      obtain ⟨⟨id, hid⟩, -⟩ := hw _ _ hx
      rw [hid] at hauthorization
      cases hauthorization
    | ok id =>
      refine meets_within_call fun x r s₁ hanswers hx => ?_
      cases hanswers
      refine (meets_unwrap _).mpr ⟨rfl, fun hw => ?_⟩
      rw [(hw _ _ hx).2]
      rfl
  · exact ⟨rfl, fun _ => rfl⟩

theorem meets_timeOr (hA : ∀ o, ∃ x, A o x) (given : Option Timestamp) :
    (timeOr given).Meets (trustAnswers hashes) (.within fun _ o x _ => A o x)
      (fun _ y t => t = s ∧ ∃ x, A .now x ∧ y = .ok (given.getD x.now)) l s := by
  cases given with
  | some timestamp =>
    obtain ⟨x, hx⟩ := hA .now
    exact ⟨rfl, x, hx, rfl⟩
  | none =>
    refine meets_within_call fun x r s₁ hanswers hx => ?_
    cases hanswers
    exact ⟨rfl, x, hx, rfl⟩

theorem meets_idOr (given : Option String) :
    (idOr given).Meets (trustAnswers hashes) (.within fun _ o x _ => A o x)
      (fun _ y t => t = s ∧ ∃ id, y = .ok id) l s := by
  cases given with
  | some id => exact ⟨rfl, id, rfl⟩
  | none =>
    refine meets_within_call fun x r s₁ hanswers hx => ?_
    cases hanswers
    exact ⟨rfl, _, rfl⟩

theorem meets_grantFor : (grantFor request (s.endpoints.find? request.endpointId)).Meets (trustAnswers hashes)
    (.within fun _ o x _ => A o x) (fun _ y t => t = s ∧ y = .ok (grantOf s request)) l s := by
  unfold grantFor grantOf
  split_ifs
  · refine meets_within_call fun x r s₁ hanswers hx => ?_
    cases hanswers
    exact ⟨rfl, rfl⟩
  · exact ⟨rfl, rfl⟩

theorem meets_sessionFor : (sessionFor request).Meets (trustAnswers hashes) (.within fun _ o x _ => A o x)
    (fun _ y t => t = s ∧ y = .ok (request.sessionId.bind s.sessions.find?)) l s := by
  unfold sessionFor
  cases request.sessionId with
  | some sessionId =>
    refine meets_within_call fun x r s₁ hanswers hx => ?_
    cases hanswers
    exact ⟨rfl, rfl⟩
  | none => exact ⟨rfl, rfl⟩

theorem meets_validateTransport (peripheral : EndpointTrustPeripheral) (endpoint : EndpointTrustEndpoint)
    (session : Option EndpointSessionRecord) (envelope : EndpointTransportEnvelope) (observedAt : Timestamp) :
    (validateTransport services peripheral endpoint session envelope observedAt).Meets (trustAnswers hashes)
      (.within fun _ o x _ => A o x)
      (fun _ y _ => (∀ reason, y = .ok reason → reason = transportReason peripheral endpoint session envelope observedAt) ∧
        (Witnessed A → ∃ reason, y = .ok reason)) l s := by
  have hwitness : ∀ l t, (recordWitness services s!"endpoint-trust:transport:{envelope.envelopeId}"
      (transportReason peripheral endpoint session envelope observedAt).isNone >>= fun _ =>
        pure (transportReason peripheral endpoint session envelope observedAt)).Meets (trustAnswers hashes)
      (.within fun _ o x _ => A o x)
      (fun _ y _ => (∀ reason, y = .ok reason → reason = transportReason peripheral endpoint session envelope observedAt) ∧
        (Witnessed A → ∃ reason, y = .ok reason)) l t := by
    intro l t
    refine meets_bind.mpr ((meets_recordWitness _ _).mono fun l₁ y t₁ ⟨_, hy⟩ => ?_)
    cases y with
    | error e => exact ⟨fun reason h => (by cases h), fun hw => (by cases hy hw)⟩
    | ok u => exact ⟨fun reason h => (Except.ok.inj h).symm, fun _ => ⟨_, rfl⟩⟩
  show (touchAcceptedEnvelope _ session envelope >>= _).Meets _ _ _ _ _
  unfold touchAcceptedEnvelope
  split
  · exact meets_within_call fun x r s₁ _ _ => hwitness _ s₁
  · exact hwitness l s

theorem meets_transportFor (requestedAt : Timestamp) :
    (transportFor services request (s.peripherals.find? request.peripheralId) (s.endpoints.find? request.endpointId)
      (request.sessionId.bind s.sessions.find?) requestedAt).Meets (trustAnswers hashes) (.within fun _ o x _ => A o x)
      (fun _ y _ => (∀ reason, y = .ok reason → reason = transportOf s request requestedAt) ∧
        (Witnessed A → ∃ reason, y = .ok reason)) l s := by
  unfold transportFor transportOf
  generalize s.peripherals.find? request.peripheralId = peripheral
  generalize s.endpoints.find? request.endpointId = endpoint
  cases request.transportEnvelope with
  | none => exact ⟨fun reason h => (Except.ok.inj h).symm, fun _ => ⟨_, rfl⟩⟩
  | some envelope =>
    cases peripheral with
    | none => exact ⟨fun reason h => (Except.ok.inj h).symm, fun _ => ⟨_, rfl⟩⟩
    | some peripheral =>
      cases endpoint with
      | none => exact ⟨fun reason h => (Except.ok.inj h).symm, fun _ => ⟨_, rfl⟩⟩
      | some endpoint => exact meets_validateTransport _ _ _ _ _

theorem exists_env_of_proof (hA : ∀ o, ∃ x, A o x) (request : EndpointAuthorizationRequest) :
    ∃ x, ∀ proof envelope, request.confirmationProof = some proof → request.controlCommandEnvelope = some envelope →
      A (.validateConfirmationProof proof envelope) x := by
  cases request.confirmationProof with
  | none =>
    obtain ⟨x, -⟩ := hA .now
    exact ⟨x, fun _ _ h _ => (by cases h)⟩
  | some proof =>
    cases request.controlCommandEnvelope with
    | none =>
      obtain ⟨x, -⟩ := hA .now
      exact ⟨x, fun _ _ _ h => (by cases h)⟩
    | some envelope =>
      obtain ⟨x, hx⟩ := hA (.validateConfirmationProof proof envelope)
      refine ⟨x, fun proof' envelope' hproof henvelope => ?_⟩
      cases hproof
      cases henvelope
      exact hx

theorem meets_validateConfirmation (hA : ∀ o, ∃ x, A o x) :
    (validateConfirmation services request).Meets (trustAnswers hashes) (.within fun _ o x _ => A o x)
      (fun _ y _ => ∃ x, (∀ proof envelope, request.confirmationProof = some proof →
        request.controlCommandEnvelope = some envelope → A (.validateConfirmationProof proof envelope) x) ∧
          y = .ok (confirmationOf services hashes request x.now)) l s := by
  obtain ⟨x₀, hx₀⟩ := exists_env_of_proof hA request
  unfold validateConfirmation confirmationOf
  by_cases hrisk : request.risk ≠ .high
  · rw [if_pos hrisk]
    exact ⟨x₀, hx₀, by rw [if_pos hrisk]⟩
  · simp only [if_neg hrisk]
    cases hproof : request.confirmationProof with
    | none => exact ⟨x₀, hproof ▸ hx₀, rfl⟩
    | some proof =>
      cases henvelope : request.controlCommandEnvelope with
      | none => exact ⟨x₀, hproof ▸ henvelope ▸ hx₀, rfl⟩
      | some envelope =>
        cases services.opctl with
        | false => exact ⟨x₀, hproof ▸ henvelope ▸ hx₀, rfl⟩
        | true =>
          refine meets_within_call fun x r s₁ hanswers hx => ?_
          cases hanswers
          refine ⟨x, fun proof' envelope' hproof' henvelope' => ?_, rfl⟩
          cases hproof'
          cases henvelope'
          exact hx

theorem meets_authorize (hA : ∀ o, ∃ x, A o x) :
    (authorize services request).Meets (trustAnswers hashes) (.within fun _ o x _ => A o x)
      (fun _ y _ => ∃ x₁ x₂ requestId, A .now x₁ ∧ (∀ proof envelope, request.confirmationProof = some proof →
          request.controlCommandEnvelope = some envelope → A (.validateConfirmationProof proof envelope) x₂) ∧
        (∀ result, y = .ok result → request.parse = .ok request ∧ result = engineResult
          (decisionInput services hashes s request requestId (request.requestedAt.getD x₁.now) x₂.now)) ∧
        (Witnessed A → request.parse = .ok request → ∃ result, y = .ok result)) l s := by
  refine meets_bind.mpr ((meets_idOr _).mono fun l₁ y s₁ ⟨hs₁, id, hid⟩ => ?_)
  subst hid
  refine meets_bind.mpr ((meets_timeOr hA _).mono fun l₂ y s₂ ⟨hs₂, x₁, hx₁, htime⟩ => ?_)
  subst htime
  obtain rfl : s = s₂ := (hs₂.trans hs₁).symm
  refine meets_bind.mpr ((meets_unwrap _).mpr ?_)
  cases hparse : request.parse with
  | error e =>
    obtain ⟨x₂, hx₂⟩ := exists_env_of_proof hA request
    exact ⟨x₁, x₂, id, hx₁, hx₂, fun _ h => (by cases h), fun _ h => (by cases h)⟩
  | ok parsed =>
    obtain rfl := parseTexts_eq hparse
    refine meets_within_call fun x r s₃ hanswers _ => ?_
    cases hanswers
    refine meets_within_call fun x r s₃ hanswers _ => ?_
    cases hanswers
    show (grantFor parsed _ >>= _).Meets _ _ _ _ _
    refine meets_bind.mpr (meets_grantFor.mono fun l₃ y s₃ ⟨hs₃, hy⟩ => ?_)
    subst hs₃ hy
    refine meets_bind.mpr (meets_sessionFor.mono fun l₄ y s₄ ⟨hs₄, hy⟩ => ?_)
    subst hs₄ hy
    refine meets_bind.mpr ((meets_transportFor _).mono fun l₅ y s₅ ⟨hreason, hok⟩ => ?_)
    cases y with
    | error e =>
      obtain ⟨x₂, hx₂⟩ := exists_env_of_proof hA parsed
      refine ⟨x₁, x₂, id, hx₁, hx₂, fun _ h => (by cases h), fun hw _ => ?_⟩
      obtain ⟨reason, h⟩ := hok hw
      cases h
    | ok reason =>
      obtain rfl := hreason reason rfl
      refine meets_bind.mpr ((meets_validateConfirmation hA).mono fun l₆ y s₆ ⟨x₂, hx₂, hy⟩ => ?_)
      subst hy
      refine meets_bind.mpr ((meets_recordWitness _ _).mono fun l₇ y s₇ ⟨_, hwitness⟩ => ?_)
      cases y with
      | error e => exact ⟨x₁, x₂, id, hx₁, hx₂, fun _ h => (by cases h), fun hw _ => (by cases hwitness hw)⟩
      | ok u => exact ⟨x₁, x₂, id, hx₁, hx₂, fun result h => ⟨rfl, (Except.ok.inj h).symm⟩, fun _ _ => ⟨_, rfl⟩⟩

end Meets

/-! ## What an allowed request stands for -/

structure Accepted (session : EndpointSessionRecord) (envelope : EndpointTransportEnvelope) (observedAt : Timestamp) :
    Prop where
  status : session.status = .active
  sessionId : envelope.sessionId = session.sessionId
  endpointId : envelope.endpointId = session.endpointId
  peripheralId : envelope.peripheralId = session.peripheralId
  envelopeExpiry : ¬envelope.expiresAt ≤ observedAt
  sessionExpiry : ∀ expiresAt ∈ session.expiresAt, ¬expiresAt ≤ observedAt
  sequence : session.lastSequence < envelope.sequence
  nonce : session.lastNonce ≠ some envelope.nonce

theorem exists_accepted {peripheral : EndpointTrustPeripheral} {endpoint : EndpointTrustEndpoint}
    {session : Option EndpointSessionRecord} {envelope : EndpointTransportEnvelope} {observedAt : Timestamp}
    (h : transportReason peripheral endpoint session envelope observedAt = none) :
    ∃ record, session = some record ∧ Accepted record envelope observedAt := by
  unfold transportReason at h
  cases session with
  | none => split_ifs at h
  | some record =>
    rw [ite_some_eq_none, ite_some_eq_none, ite_some_eq_none, ite_some_eq_none, ite_some_eq_none, ite_some_eq_none,
      ite_some_eq_none, ite_some_eq_none] at h
    obtain ⟨-, -, hstatus, hmatch, henvelope, hsession, hsequence, hnonce, -⟩ := h
    obtain ⟨hsessionId, hrest⟩ := not_or.mp hmatch
    obtain ⟨hendpointId, hperipheralId⟩ := not_or.mp hrest
    refine ⟨record, rfl, not_not.mp hstatus, not_not.mp hsessionId, not_not.mp hendpointId, not_not.mp hperipheralId,
      henvelope, fun expiresAt hexpires => ?_, Nat.lt_of_not_le hsequence, hnonce⟩
    rw [Option.mem_def.mp hexpires] at hsession
    simpa using hsession

def Grants (request : EndpointAuthorizationRequest) (grant : EndpointCapabilityGrantRecord) : Prop :=
  grant.status = .active ∧ grant.endpointId = request.endpointId ∧ grant.capabilityKey = request.capabilityKey ∧
    grant.policyRef = request.policyRef ∧ grant.peripheralId = request.peripheralId ∧
    grant.projectId = request.projectId ∧ grant.capabilityClass = request.capabilityClass

structure Justified (hashes : Hashes) (s : TrustState) (request : EndpointAuthorizationRequest)
    (requestedAt : Timestamp) : Prop where
  peripheral : ∃ peripheral, s.peripherals.find? request.peripheralId = some peripheral ∧
    peripheral.trustState = .trusted ∧ peripheral.projectId = request.projectId
  endpoint : ∃ endpoint, s.endpoints.find? request.endpointId = some endpoint ∧ endpoint.trustState = .trusted ∧
    endpoint.peripheralId = request.peripheralId ∧ endpoint.projectId = request.projectId
  grant : ∃ grant ∈ s.grants.all, Grants request grant
  session : ∀ sessionId ∈ request.sessionId, ∃ session, s.sessions.find? sessionId = some session ∧
    session.status = .active ∧ session.endpointId = request.endpointId ∧ session.peripheralId = request.peripheralId ∧
    ∀ expiresAt ∈ session.expiresAt, ¬expiresAt ≤ requestedAt
  transport : ∀ envelope ∈ request.transportEnvelope, ∃ session, request.sessionId = some session.sessionId ∧
    s.sessions.find? session.sessionId = some session ∧ Accepted session envelope requestedAt
  confirmation : request.risk = .high → ∃ proof envelope checkedAt, request.confirmationProof = some proof ∧
    request.controlCommandEnvelope = some envelope ∧
    Opctl.validateConfirmationProof hashes checkedAt proof envelope = true ∧
    envelope.scope.projectId = some request.projectId

/-- The comparisons that the code does not make. -/
structure Consistent (s : TrustState) (request : EndpointAuthorizationRequest) (requestedAt : Timestamp) : Prop where
  peripheral : ∀ peripheral ∈ s.peripherals.find? request.peripheralId, peripheral.projectId = request.projectId
  endpoint : ∀ endpoint ∈ s.endpoints.find? request.endpointId,
    endpoint.peripheralId = request.peripheralId ∧ endpoint.projectId = request.projectId
  grant : ∃ grant ∈ s.grants.all, Grants request grant
  session : ∀ sessionId ∈ request.sessionId, ∀ session ∈ s.sessions.find? sessionId,
    session.endpointId = request.endpointId ∧ session.peripheralId = request.peripheralId ∧
    ∀ expiresAt ∈ session.expiresAt, ¬expiresAt ≤ requestedAt
  scope : request.risk = .high → ∀ envelope ∈ request.controlCommandEnvelope,
    envelope.scope.projectId = some request.projectId

/-- The checks that the code makes of a request at these times. -/
def Passes (services : TrustServices) (hashes : Hashes) (s : TrustState) (request : EndpointAuthorizationRequest)
    (requestedAt checkedAt : Timestamp) : Prop :=
  request.parse = .ok request ∧
    ∃ grant, Allowed (decisionInput services hashes s request "" requestedAt checkedAt) grant

section Sound

variable {services : TrustServices} {hashes : Hashes} {s : TrustState} {request : EndpointAuthorizationRequest}
  {requestedAt checkedAt : Timestamp} {grant : EndpointCapabilityGrantRecord} {requestId : String}

theorem Justified.consistent (h : Justified hashes s request requestedAt) : Consistent s request requestedAt where
  peripheral := by
    intro peripheral hfind
    obtain ⟨stored, hstored, -, hproject⟩ := h.peripheral
    cases hstored.symm.trans hfind
    exact hproject
  endpoint := by
    intro endpoint hfind
    obtain ⟨stored, hstored, -, hids⟩ := h.endpoint
    cases hstored.symm.trans hfind
    exact hids
  grant := h.grant
  session := by
    intro sessionId hid session hfind
    obtain ⟨stored, hstored, -, hids⟩ := h.session sessionId hid
    cases hstored.symm.trans hfind
    exact hids
  scope := by
    intro hhigh envelope henvelope
    obtain ⟨proof, stored, checkedAt, -, hstored, -, hproject⟩ := h.confirmation hhigh
    cases hstored.symm.trans henvelope
    exact hproject

theorem confirmation_of_confirmationOf (hhigh : request.risk = .high)
    (h : confirmationOf services hashes request checkedAt = true) : ∃ proof envelope,
      request.confirmationProof = some proof ∧ request.controlCommandEnvelope = some envelope ∧
      Opctl.validateConfirmationProof hashes checkedAt proof envelope = true := by
  unfold confirmationOf at h
  rw [if_neg (not_not.mpr hhigh)] at h
  split at h
  · rename_i proof envelope hproof henvelope
    exact ⟨proof, envelope, hproof, henvelope, (Bool.and_eq_true_iff.mp h).2⟩
  · cases h

theorem Consistent.justified (h : Consistent s request requestedAt)
    (hallowed : Allowed (decisionInput services hashes s request requestId requestedAt checkedAt) grant) :
    Justified hashes s request requestedAt := by
  obtain ⟨peripheral, hperipheral, htrusted⟩ := hallowed.peripheral
  obtain ⟨endpoint, hendpoint, hendpointTrusted, -, -⟩ := hallowed.endpoint
  refine ⟨⟨peripheral, hperipheral, htrusted, h.peripheral peripheral hperipheral⟩,
    ⟨endpoint, hendpoint, hendpointTrusted, h.endpoint endpoint hendpoint⟩, h.grant, fun sessionId hid => ?_,
    fun envelope henvelope => ?_, fun hhigh => ?_⟩
  · have hid : request.sessionId = some sessionId := hid
    have hsome : request.sessionId.isSome = true := by
      rw [hid]
      rfl
    obtain ⟨session, hsession, hactive⟩ := hallowed.session hsome
    have hfind : s.sessions.find? sessionId = some session := by
      have hbind : request.sessionId.bind s.sessions.find? = some session := hsession
      rwa [hid] at hbind
    exact ⟨session, hfind, hactive, h.session sessionId hid session hfind⟩
  · have htransport : transportOf s request requestedAt = none := hallowed.transport
    have hperipheral : s.peripherals.find? request.peripheralId = some peripheral := hperipheral
    have hendpoint : s.endpoints.find? request.endpointId = some endpoint := hendpoint
    unfold transportOf at htransport
    rw [Option.mem_def.mp henvelope, hperipheral, hendpoint] at htransport
    obtain ⟨session, hbind, haccepted⟩ := exists_accepted htransport
    obtain ⟨sessionId, hid, hfind⟩ := Option.bind_eq_some_iff.mp hbind
    have hkey : session.sessionId = sessionId := s.sessions.keyed _ _ hfind
    subst hkey
    exact ⟨session, hid, hfind, haccepted⟩
  · obtain ⟨proof, envelope, hproof, henvelope, hvalid⟩ := confirmation_of_confirmationOf hhigh (hallowed.confirmed hhigh)
    exact ⟨proof, envelope, checkedAt, hproof, henvelope, hvalid, h.scope hhigh envelope henvelope⟩

theorem allowed_requestId {requestId' : String}
    (h : Allowed (decisionInput services hashes s request requestId requestedAt checkedAt) grant) :
    Allowed (decisionInput services hashes s request requestId' requestedAt checkedAt) grant :=
  ⟨h.peripheral, h.endpoint, h.granted, h.active, h.capabilityKey, h.policyRef, h.session, h.transport, h.confirmed⟩

theorem passes_of_freely {script : List TrustEnv} {result : EndpointAuthorizationResult} {s' : TrustState}
    (hfreely : (authorize services request).freely (trustAnswers hashes) script s = some (.ok result, s'))
    (hdecision : result.decision = .allowed) : ∃ now checkedAt,
      Passes services hashes s request (request.requestedAt.getD now) checkedAt ∧
      result.evaluatedAt = request.requestedAt.getD now := by
  obtain ⟨l, hends⟩ := ends_of_alone hfreely
  obtain ⟨x₁, x₂, requestId, -, -, hresult, -⟩ :=
    (meets_authorize (A := fun _ _ => True) fun _ => ⟨⟨"", "", .ok "", .ok (), .error "", .error ""⟩, trivial⟩).of_within hends
  obtain ⟨hparse, rfl⟩ := hresult result rfl
  obtain ⟨grant, hallowed⟩ := engineResult_decision.mp hdecision
  exact ⟨x₁.now, x₂.now, ⟨hparse, grant, allowed_requestId hallowed⟩, engineResult_evaluatedAt _⟩

theorem trustAnswers_total (hashes : Hashes) (o : TrustOp) (x : TrustEnv) (s : TrustState) :
    ∃ r s', trustAnswers hashes o x s = some (r, s') := by
  cases o <;> exact ⟨_, _, rfl⟩

theorem exists_allowed {now : Timestamp} (hpasses : Passes services hashes s request (request.requestedAt.getD now) checkedAt) :
    ∃ script result s', (authorize services request).freely (trustAnswers hashes) script s = some (.ok result, s') ∧
      result.decision = .allowed ∧ result.evaluatedAt = request.requestedAt.getD now := by
  obtain ⟨hparse, grant, hallowed⟩ := hpasses
  let envAt : Timestamp → TrustEnv := fun time => ⟨time, "", .ok "", .ok (), .error "", .error ""⟩
  let choose : TrustOp → TrustEnv := fun o => match o with
    | .validateConfirmationProof _ _ => envAt checkedAt
    | _ => envAt now
  obtain ⟨script, y, l, s', hfreely, hends⟩ := exists_freely_choosing
    (fun o s => trustAnswers_total hashes o (choose o) s) (authorize services request) s
  obtain ⟨x₁, x₂, requestId, rfl, hx₂, hresult, hok⟩ :=
    (meets_authorize (A := fun o x => x = choose o) fun o => ⟨choose o, rfl⟩).of_within hends
  have hwitnessed : Witnessed fun o x => x = choose o := by
    rintro o x rfl
    cases o <;> exact ⟨⟨"", rfl⟩, rfl⟩
  obtain ⟨result, rfl⟩ := hok hwitnessed hparse
  obtain ⟨-, rfl⟩ := hresult result rfl
  refine ⟨script, _, s', hfreely, engineResult_decision.mpr ⟨grant, ?_⟩, engineResult_evaluatedAt _⟩
  refine ⟨hallowed.peripheral, hallowed.endpoint, hallowed.granted, hallowed.active, hallowed.capabilityKey,
    hallowed.policyRef, hallowed.session, hallowed.transport, fun hhigh => ?_⟩
  have hconfirmed : confirmationOf services hashes request checkedAt = true := hallowed.confirmed hhigh
  obtain ⟨proof, envelope, hproof, henvelope, -⟩ := confirmation_of_confirmationOf hhigh hconfirmed
  rw [hx₂ proof envelope hproof henvelope]
  exact hconfirmed

end Sound

/-! ## A request that is allowed with the records of two projects -/

section Mixed

def noServices : TrustServices := ⟨false, false, false, false⟩

def plainHashes : Hashes := ⟨fun _ => "", fun _ => ""⟩

def trustTime : Timestamp := "2026-03-06T20:30:00.000Z"

def plainEnv : TrustEnv := ⟨trustTime, "", .ok "", .ok (), .error "", .error ""⟩

def pairingInput (pairingId peripheralId projectId : String) : EndpointPairingRequestInput :=
  ⟨some pairingId, peripheralId, projectId, "camera", "principal", none, none, [], some trustTime⟩

def approval (pairingId : String) : EndpointPairingReviewInput :=
  ⟨pairingId, true, "principal", none, none, [], some trustTime⟩

section

variable (endpointId peripheralId projectId : String)

def sensoryInput : EndpointRegistrationInput :=
  ⟨some endpointId, peripheralId, projectId, "lens", .sensory, ["capture"], none, none, some trustTime, []⟩

def captureGrant : EndpointCapabilityGrantInput :=
  ⟨some "grant-1", endpointId, peripheralId, projectId, "capture", .sensory, "policy-1", "principal", none, [],
    some trustTime⟩

def captureRequest : EndpointAuthorizationRequest where
  requestId := some "request-1"
  endpointId := endpointId
  peripheralId := peripheralId
  projectId := projectId
  capabilityKey := "capture"
  capabilityClass := .sensory
  risk := .standard
  policyRef := "policy-1"
  sessionId := none
  transportEnvelope := none
  confirmationProof := none
  controlCommandEnvelope := none
  evidenceRefs := []
  requestedAt := some trustTime

end

/-- A trusted peripheral in each of two projects; the endpoint and the grant are of the second. -/
def twoProjects : List (TrustCall × List TrustEnv) :=
  [(.requestPairing (pairingInput "pairing-1" "peripheral-1" "project-1"), .replicate 3 plainEnv),
    (.reviewPairing (approval "pairing-1"), .replicate 4 plainEnv),
    (.requestPairing (pairingInput "pairing-2" "peripheral-2" "project-2"), .replicate 3 plainEnv),
    (.reviewPairing (approval "pairing-2"), .replicate 4 plainEnv),
    (.registerEndpoint (sensoryInput "endpoint-2" "peripheral-2" "project-2"), .replicate 2 plainEnv),
    (.grantCapability (captureGrant "endpoint-2" "peripheral-2" "project-2"), .replicate 2 plainEnv)]

end Mixed

end NousCore.EndpointTrust
