import NousCore.EndpointTrust.Authorize
import NousCore.Lib.Follows

/-!
# What the calls ask for

* `savedSessions`, `listedSessions` : the sessions that a call has saved, and has listed;
* `AsksNext`, `AsksLast` : what a call may ask for next, and the log that it ends with; `follows_run`.
-/

namespace NousCore.EndpointTrust

open Async
open Witness (Timestamp)

abbrev TrustLog := Log TrustOp.Answer

def sessionSaved : Sigma TrustOp.Answer → List String
  | ⟨.saveSession record, _⟩ => [record.sessionId]
  | _ => []

def sessionsListed : Sigma TrustOp.Answer → List EndpointSessionRecord
  | ⟨.listSessionsByPeripheral _, sessions⟩ => sessions
  | _ => []

def savesPeripheral : Sigma TrustOp.Answer → Bool
  | ⟨.savePeripheral _, _⟩ => true
  | _ => false

def savedSessions (l : TrustLog) : List String := l.flatMap sessionSaved

def listedSessions (l : TrustLog) : List EndpointSessionRecord := l.flatMap sessionsListed

/-- A record that is read is the one that was asked for. -/
def Keyed : Sigma TrustOp.Answer → Prop
  | ⟨.getPeripheral peripheralId, record⟩ => ∀ peripheral ∈ Option.toList record, peripheral.peripheralId = peripheralId
  | ⟨.getSession sessionId, record⟩ => ∀ session ∈ Option.toList record, session.sessionId = sessionId
  | _ => True

/-- Only an authorization and a new session leave a session active. -/
def SavesSession (l : TrustLog) (record : EndpointSessionRecord) : TrustCall → Prop
  | .authorize request => ∃ session envelope observedAt, request.transportEnvelope = some envelope ∧
      (∃ sessionId, ⟨.getSession sessionId, some session⟩ ∈ l) ∧ Accepted session envelope observedAt ∧
      record = touchedSession session envelope
  | .establishSession _ => True
  | .rotateSession _ | .reportIncident _ => record.status ≠ .active
  | _ => False

/-- Only an approving review leaves a peripheral trusted, that of the pairing that it has read. -/
def SavesPeripheral (l : TrustLog) (record : EndpointTrustPeripheral) : TrustCall → Prop
  | .requestPairing _ | .reportIncident _ => record.trustState ≠ .trusted
  | .reviewPairing input => l.any savesPeripheral = false ∧ (input.approved = false → record.trustState ≠ .trusted) ∧
      ∃ pairing, ⟨.getPairing input.pairingId, some pairing⟩ ∈ l ∧
        ((∀ e ∈ l, Keyed e) → record.peripheralId = pairing.peripheralId)
  | _ => False

def ReadsPairing (pairingId : String) : TrustCall → Prop
  | .reviewPairing input => pairingId = input.pairingId
  | _ => False

def AsksNext (call : TrustCall) (l : TrustLog) : TrustOp → Prop
  | .saveSession record => SavesSession l record call
  | .savePeripheral record => SavesPeripheral l record call
  | .getPairing pairingId => ReadsPairing pairingId call
  | _ => True

/-- A call that has returned has saved the sessions that it is about. -/
def AsksLast : TrustCall → TrustLog → Except TrustError TrustResult → Prop
  | .rotateSession input, l, .ok _ => (∀ e ∈ l, Keyed e) → input.sessionId ∈ savedSessions l
  | .reportIncident _, l, .ok _ => ∀ session ∈ listedSessions l, session.sessionId ∈ savedSessions l
  | _, _, _ => True

/-! ## Operations that every call may ask for -/

def TrustOp.neutral : TrustOp → Bool
  | .savePeripheral _ | .saveSession _ | .getPairing _ | .listSessionsByPeripheral _ => false
  | _ => true

section Neutral

variable {services : TrustServices} {α β : Type} {l l' : TrustLog} {call : TrustCall}

theorem asksNext_of_neutral (l : TrustLog) (o : TrustOp) (ho : o.neutral = true) : AsksNext call l o := by
  cases o with
  | savePeripheral | saveSession | getPairing | listSessionsByPeripheral => cases ho
  | _ => trivial

theorem every_orFail {P : TrustOp → Prop} (outcome : Except String α) : (orFail outcome).Every P := every_unwrap _

theorem every_found {P : TrustOp → Prop} (record : Option α) (message : String) : (found record message).Every P := by
  cases record <;> trivial

theorem every_timeOr (given : Option Timestamp) : (timeOr given).Every (TrustOp.neutral · = true) := by
  cases given with
  | none => exact every_perform rfl
  | some timestamp => trivial

theorem every_idOr (given : Option String) : (idOr given).Every (TrustOp.neutral · = true) := by
  cases given with
  | none => exact every_perform rfl
  | some id => trivial

theorem every_recordWitness (actionRef : String) (succeeded : Bool) :
    (recordWitness services actionRef succeeded).Every (TrustOp.neutral · = true) := by
  unfold recordWitness
  split_ifs
  · exact every_bind (every_perform rfl) fun _ => every_bind (every_orFail _) fun _ =>
      every_bind (every_perform rfl) fun _ => every_orFail _
  · trivial

theorem every_requirePeripheral (peripheralId : String) :
    (requirePeripheral peripheralId).Every (TrustOp.neutral · = true) :=
  every_bind (every_perform rfl) fun _ => every_found _ _

theorem every_requireEndpoint (endpointId : String) : (requireEndpoint endpointId).Every (TrustOp.neutral · = true) :=
  every_bind (every_perform rfl) fun _ => every_found _ _

theorem every_evaluateRegistryEligibility (projectId : String) (packageId releaseId : Option String) :
    (evaluateRegistryEligibility services projectId packageId releaseId).Every (TrustOp.neutral · = true) := by
  unfold evaluateRegistryEligibility
  split
  · split_ifs
    · exact every_bind (every_perform rfl) fun _ => every_bind (every_orFail _) fun _ => trivial
    · trivial
  · trivial

theorem every_setTrustState (trustState : EndpointTrustState) (refs : List String)
    (endpoints : List EndpointTrustEndpoint) : (setTrustState trustState refs endpoints).Every (TrustOp.neutral · = true) := by
  induction endpoints with
  | nil => trivial
  | cons endpoint endpoints ih => exact every_bind (every_perform rfl) fun _ => every_bind (every_perform rfl) fun _ => ih

theorem every_escalateIncident (displayName reasonCode : String) :
    (escalateIncident services displayName reasonCode).Every (TrustOp.neutral · = true) := by
  unfold escalateIncident
  split_ifs
  · exact every_bind (every_perform rfl) fun _ => every_bind (every_orFail _) fun _ => trivial
  · trivial

theorem every_grantFor (request : EndpointAuthorizationRequest) (endpoint : Option EndpointTrustEndpoint) :
    (grantFor request endpoint).Every (TrustOp.neutral · = true) := by
  unfold grantFor
  split_ifs
  · exact every_bind (every_perform rfl) fun _ => trivial
  · trivial

theorem every_validateConfirmation (request : EndpointAuthorizationRequest) :
    (validateConfirmation services request).Every (TrustOp.neutral · = true) := by
  unfold validateConfirmation
  split_ifs
  · trivial
  · split
    · exact every_perform rfl
    · trivial
  · split <;> trivial

theorem every_registerEndpoint (input : EndpointRegistrationInput) :
    (registerEndpoint services input).Every (TrustOp.neutral · = true) :=
  every_bind (every_unwrap _) fun _ => every_bind (every_requirePeripheral _) fun _ =>
    every_bind (every_evaluateRegistryEligibility _ _ _) fun _ => every_bind (every_timeOr _) fun _ =>
      every_bind (every_idOr _) fun _ => every_bind (every_perform rfl) fun _ =>
        every_bind (every_recordWitness _ _) fun _ => trivial

theorem every_grantCapability (input : EndpointCapabilityGrantInput) :
    (grantCapability services input).Every (TrustOp.neutral · = true) :=
  every_bind (every_unwrap _) fun _ => every_bind (every_requireEndpoint _) fun _ => every_bind (every_unwrap _) fun _ =>
    every_bind (every_idOr _) fun _ => every_bind (every_timeOr _) fun _ => every_bind (every_perform rfl) fun _ =>
      every_bind (every_recordWitness _ _) fun _ => trivial

theorem every_revokeCapability (input : EndpointCapabilityRevocationInput) :
    (revokeCapability services input).Every (TrustOp.neutral · = true) :=
  every_bind (every_unwrap _) fun _ => every_bind (every_perform rfl) fun _ => every_bind (every_found _ _) fun _ =>
    every_bind (every_timeOr _) fun _ => every_bind (every_perform rfl) fun _ =>
      every_bind (every_recordWitness _ _) fun _ => trivial

end Neutral

/-! ## The calls -/

section Calls

variable {services : TrustServices} {α : Type} {l l' : TrustLog} {call : TrustCall}
  {post : TrustLog → Except TrustError α → Prop}

theorem savedSessions_append (l l' : TrustLog) : savedSessions (l ++ l') = savedSessions l ++ savedSessions l' :=
  List.flatMap_append

theorem listedSessions_append (l l' : TrustLog) : listedSessions (l ++ l') = listedSessions l ++ listedSessions l' :=
  List.flatMap_append

theorem listedSessions_of_grows (h : Grows (TrustOp.neutral · = true) l l') : listedSessions l' = listedSessions l := by
  obtain ⟨l₁, rfl, hl₁⟩ := h
  have hnone : listedSessions l₁ = [] := by
    refine List.flatMap_eq_nil_iff.mpr fun e he => ?_
    obtain ⟨o, r⟩ := e
    have ho := hl₁ _ he
    cases o with
    | listSessionsByPeripheral => cases ho
    | _ => rfl
  rw [listedSessions_append, hnone, List.append_nil]

theorem savesPeripheral_of_grows (h : Grows (TrustOp.neutral · = true) l l') :
    l'.any savesPeripheral = l.any savesPeripheral := by
  obtain ⟨l₁, rfl, hl₁⟩ := h
  have hnone : l₁.any savesPeripheral = false := by
    refine List.any_eq_false.mpr fun e he => ?_
    obtain ⟨o, r⟩ := e
    have ho := hl₁ _ he
    cases o with
    | savePeripheral => cases ho
    | _ => exact nofun
  rw [List.any_append, hnone, Bool.or_false]

theorem mem_savedSessions_of_grows (h : Grows (TrustOp.neutral · = true) l l') {sessionId : String}
    (hmem : sessionId ∈ savedSessions l) : sessionId ∈ savedSessions l' := by
  obtain ⟨l₁, rfl, -⟩ := h
  rw [savedSessions_append]
  exact List.mem_append_left _ hmem

theorem follows_found {record : Option α} {message : String} {β : Type} {f : α → TrustM β}
    {post : TrustLog → Except TrustError β → Prop} (hf : ∀ a, record = some a → (f a).Follows (AsksNext call) post l)
    (herror : ∀ e, post l (.error e)) : (found record message >>= f).Follows (AsksNext call) post l := by
  cases record with
  | none => exact herror _
  | some a => exact hf a rfl

theorem follows_witnessed {a : α} {actionRef : String} {succeeded : Bool}
    (hpost : ∀ l' y, Grows (TrustOp.neutral · = true) l l' → post l' y) :
    (recordWitness services actionRef succeeded >>= fun _ => pure a).Follows (AsksNext call) post l :=
  follows_of_every (every_bind (every_recordWitness _ _) fun _ => trivial) asksNext_of_neutral hpost

theorem follows_requestPairing (input : EndpointPairingRequestInput)
    {post : TrustLog → Except TrustError EndpointPairingRecord → Prop} (hpost : ∀ l y, post l y) :
    (requestPairing services input).Follows (AsksNext (.requestPairing input)) post l := by
  refine follows_bind_of_every (every_unwrap _) asksNext_of_neutral (fun parsed l₁ _ => ?_) fun _ _ _ => hpost _ _
  refine follows_bind_of_every (every_timeOr _) asksNext_of_neutral (fun timestamp l₂ _ => ?_) fun _ _ _ => hpost _ _
  refine ⟨trivial, fun existing => ?_⟩
  show (idOr parsed.pairingId >>= _).Follows _ _ _
  refine follows_bind_of_every (every_idOr _) asksNext_of_neutral (fun pairingId l₃ _ => ?_) fun _ _ _ => hpost _ _
  have hpending : (pendingPeripheral parsed existing timestamp).trustState ≠ .trusted := nofun
  refine ⟨hpending, fun _ => ⟨trivial, fun _ => ?_⟩⟩
  exact follows_witnessed fun _ _ _ => hpost _ _

theorem follows_reviewPairing (input : EndpointPairingReviewInput)
    {post : TrustLog → Except TrustError EndpointPairingRecord → Prop} (hpost : ∀ l y, post l y)
    (hl : l.any savesPeripheral = false) :
    (reviewPairing services input).Follows (AsksNext (.reviewPairing input)) post l := by
  refine follows_bind.mpr (follows_unwrap.mpr ?_)
  cases hparse : input.parse with
  | error e => exact hpost _ _
  | ok parsed =>
    obtain rfl := parseTexts_eq hparse
    refine ⟨rfl, fun pairing => ?_⟩
    refine follows_found (fun existing hpairing => ⟨trivial, fun peripheral => ?_⟩) fun _ => hpost _ _
    refine follows_found (fun stored hperipheral => ?_) fun _ => hpost _ _
    refine follows_bind_of_every (every_timeOr _) asksNext_of_neutral (fun timestamp l₁ hl₁ => ?_) fun _ _ _ => hpost _ _
    subst hpairing hperipheral
    refine ⟨trivial, fun _ => ⟨⟨?_, fun hdenied => ?_, existing, ?_, fun hkeyed => ?_⟩, fun _ => ?_⟩⟩
    · rw [List.any_append, savesPeripheral_of_grows hl₁, List.any_append, List.any_append, hl]
      rfl
    · unfold reviewedPeripheral
      rw [hdenied]
      exact nofun
    · exact List.mem_append_left _ (hl₁.subset (by simp))
    · exact hkeyed ⟨.getPeripheral existing.peripheralId, some stored⟩ (List.mem_append_left _ (hl₁.subset (by simp)))
        stored (List.mem_singleton_self _)
    · exact follows_witnessed fun _ _ _ => hpost _ _

theorem follows_establishSession (input : EndpointSessionStartInput)
    {post : TrustLog → Except TrustError EndpointSessionRecord → Prop} (hpost : ∀ l y, post l y) :
    (establishSession services input).Follows (AsksNext (.establishSession input)) post l := by
  refine follows_bind_of_every (every_unwrap _) asksNext_of_neutral (fun parsed l₁ _ => ?_) fun _ _ _ => hpost _ _
  refine follows_bind_of_every (every_requirePeripheral _) asksNext_of_neutral (fun peripheral l₂ _ => ?_)
    fun _ _ _ => hpost _ _
  refine follows_bind_of_every (every_requireEndpoint _) asksNext_of_neutral (fun endpoint l₃ _ => ?_)
    fun _ _ _ => hpost _ _
  refine follows_bind_of_every (every_unwrap _) asksNext_of_neutral (fun _ l₄ _ => ?_) fun _ _ _ => hpost _ _
  refine follows_bind_of_every (every_timeOr _) asksNext_of_neutral (fun timestamp l₅ _ => ?_) fun _ _ _ => hpost _ _
  refine follows_bind_of_every (every_idOr _) asksNext_of_neutral (fun sessionId l₆ _ => ?_) fun _ _ _ => hpost _ _
  refine ⟨trivial, fun _ => ?_⟩
  exact follows_witnessed fun _ _ _ => hpost _ _

theorem follows_rotateSession (input : EndpointSessionRotateInput) :
    (rotateSession services input).Follows (AsksNext (.rotateSession input))
      (fun l y => y.isOk = true → (∀ e ∈ l, Keyed e) → input.sessionId ∈ savedSessions l) l := by
  refine follows_bind.mpr (follows_unwrap.mpr ?_)
  cases hparse : input.parse with
  | error e => exact nofun
  | ok parsed =>
    obtain rfl := parseTexts_eq hparse
    refine ⟨trivial, fun session => ?_⟩
    refine follows_found (fun existing hsession => ?_) fun _ => nofun
    refine follows_bind_of_every (every_timeOr _) asksNext_of_neutral (fun timestamp l₁ hl₁ => ?_) fun _ _ _ => nofun
    have hrotated : (rotatedSession parsed timestamp existing).status ≠ .active := nofun
    subst hsession
    refine ⟨hrotated, fun r => ?_⟩
    refine follows_witnessed fun l₂ y hl₂ _ hkeyed => mem_savedSessions_of_grows hl₂ ?_
    have hread := hkeyed ⟨.getSession parsed.sessionId, some existing⟩
      (hl₂.subset (List.mem_append_left _ (hl₁.subset (by simp)))) existing (List.mem_singleton_self _)
    rw [← hread, savedSessions_append]
    exact List.mem_append_right _ (List.mem_singleton_self _)

variable {request : EndpointAuthorizationRequest}

theorem follows_sessionFor {f : Option EndpointSessionRecord → TrustM α}
    (hf : ∀ session l', (∀ record, session = some record → ∃ sessionId, ⟨.getSession sessionId, some record⟩ ∈ l') →
      (f session).Follows (AsksNext call) post l') :
    (sessionFor request >>= f).Follows (AsksNext call) post l := by
  unfold sessionFor
  cases request.sessionId with
  | none => exact hf none l nofun
  | some sessionId => exact ⟨trivial, fun session => hf session _ fun record h => ⟨sessionId, by simp [h]⟩⟩

theorem follows_transportFor {peripheral : Option EndpointTrustPeripheral}
    {endpoint : Option EndpointTrustEndpoint} {session : Option EndpointSessionRecord} {requestedAt : Timestamp}
    {f : Option String → TrustM α}
    (hsession : ∀ record, session = some record → ∃ sessionId, ⟨.getSession sessionId, some record⟩ ∈ l)
    (hf : ∀ reason l', (f reason).Follows (AsksNext (.authorize request)) post l') (hpost : ∀ l y, post l y) :
    (transportFor services request peripheral endpoint session requestedAt >>= f).Follows
      (AsksNext (.authorize request)) post l := by
  have hwitness : ∀ (envelope : EndpointTransportEnvelope) (reason : Option String) (l : TrustLog),
      ((recordWitness services s!"endpoint-trust:transport:{envelope.envelopeId}" reason.isNone >>= fun _ =>
        pure reason) >>= f).Follows (AsksNext (.authorize request)) post l := by
    intro envelope reason l
    rw [bind_assoc']
    exact follows_bind_of_every (every_recordWitness _ _) asksNext_of_neutral (fun _ l₁ _ => hf reason l₁)
      fun _ _ _ => hpost _ _
  unfold transportFor
  cases henvelope : request.transportEnvelope with
  | none => exact hf none l
  | some envelope =>
    cases peripheral with
    | none => exact hf none l
    | some peripheral =>
      cases endpoint with
      | none => exact hf none l
      | some endpoint =>
        show ((touchAcceptedEnvelope _ session envelope >>= _) >>= f).Follows _ _ _
        cases hreason : transportReason peripheral endpoint session envelope requestedAt with
        | some reason => exact hwitness envelope (some reason) l
        | none =>
          obtain ⟨record, rfl, haccepted⟩ := exists_accepted hreason
          exact ⟨⟨record, envelope, requestedAt, henvelope, hsession record rfl, haccepted, rfl⟩,
            fun _ => hwitness envelope none _⟩

theorem follows_authorize (request : EndpointAuthorizationRequest)
    {post : TrustLog → Except TrustError EndpointAuthorizationResult → Prop} (hpost : ∀ l y, post l y) :
    (authorize services request).Follows (AsksNext (.authorize request)) post l := by
  refine follows_bind_of_every (every_idOr _) asksNext_of_neutral (fun requestId l₁ _ => ?_) fun _ _ _ => hpost _ _
  refine follows_bind_of_every (every_timeOr _) asksNext_of_neutral (fun requestedAt l₂ _ => ?_) fun _ _ _ => hpost _ _
  refine follows_bind.mpr (follows_unwrap.mpr ?_)
  cases hparse : request.parse with
  | error e => exact hpost _ _
  | ok parsed =>
    obtain rfl := parseTexts_eq hparse
    refine ⟨trivial, fun peripheral => ⟨trivial, fun endpoint => ?_⟩⟩
    show (grantFor parsed endpoint >>= _).Follows _ _ _
    refine follows_bind_of_every (every_grantFor _ _) asksNext_of_neutral (fun grant l₃ _ => ?_) fun _ _ _ => hpost _ _
    refine follows_sessionFor fun session l₄ hsession => follows_transportFor hsession (fun reason l₅ => ?_) hpost
    refine follows_bind_of_every (every_validateConfirmation _) asksNext_of_neutral (fun confirmed l₆ _ => ?_)
      fun _ _ _ => hpost _ _
    exact follows_witnessed fun _ _ _ => hpost _ _

theorem follows_revokeSessions {input : EndpointIncidentReportInput} {refs : List String}
    {sessions : List EndpointSessionRecord} {f : Unit → TrustM α}
    (hf : ∀ l', listedSessions l' = listedSessions l → (∀ id ∈ savedSessions l, id ∈ savedSessions l') →
      (∀ session ∈ sessions, session.sessionId ∈ savedSessions l') →
      (f ()).Follows (AsksNext (.reportIncident input)) post l') :
    (revokeSessions refs sessions >>= f).Follows (AsksNext (.reportIncident input)) post l := by
  induction sessions generalizing l with
  | nil => exact hf l rfl (fun _ h => h) (by simp)
  | cons session sessions ih =>
    refine ⟨trivial, fun revokedAt => ⟨?_, fun r => ih fun l' hlisted hsaved hall => hf l' ?_ (fun id hid => ?_) ?_⟩⟩
    · unfold revokedSession
      split_ifs <;> exact nofun
    · rw [hlisted, listedSessions_append, listedSessions_append]
      simp [listedSessions, sessionsListed]
    · refine hsaved id ?_
      rw [savedSessions_append, savedSessions_append]
      exact List.mem_append_left _ (List.mem_append_left _ hid)
    · refine List.forall_mem_cons.mpr ⟨hsaved _ ?_, hall⟩
      rw [savedSessions_append]
      exact List.mem_append_right _ (List.mem_singleton_self _)

theorem follows_handleIncident (input : EndpointIncidentReportInput) (peripheral : EndpointTrustPeripheral)
    {post : TrustLog → Except TrustError EndpointIncidentRecord → Prop} (hl : listedSessions l = [])
    (hok : ∀ incident l', (∀ session ∈ listedSessions l', session.sessionId ∈ savedSessions l') → post l' (.ok incident))
    (herror : ∀ e l', post l' (.error e)) :
    (handleIncident services input peripheral).Follows (AsksNext (.reportIncident input)) post l := by
  refine follows_bind_of_every (every_timeOr _) asksNext_of_neutral (fun reportedAt l₁ hl₁ => ?_)
    fun _ _ _ => herror _ _
  have hdistrusted : (distrustedPeripheral input reportedAt peripheral).trustState ≠ .trusted := by
    show input.incidentType.trustState ≠ .trusted
    unfold EndpointIncidentType.trustState
    split_ifs <;> exact nofun
  refine ⟨hdistrusted, fun _ => ⟨trivial, fun endpoints => ?_⟩⟩
  show (setTrustState _ _ endpoints >>= _).Follows _ _ _
  refine follows_bind_of_every (every_setTrustState _ _ _) asksNext_of_neutral (fun _ l₂ hl₂ => ?_)
    fun _ _ _ => herror _ _
  have hlisted : listedSessions l₂ = [] := by
    rw [listedSessions_of_grows hl₂, listedSessions_append, listedSessions_append, listedSessions_of_grows hl₁, hl]
    rfl
  refine ⟨trivial, fun sessions => ?_⟩
  refine follows_revokeSessions fun l₃ hlisted₃ _ hsaved => ?_
  have hthree : ∀ session ∈ listedSessions l₃, session.sessionId ∈ savedSessions l₃ := by
    rw [hlisted₃, listedSessions_append, hlisted]
    simpa [listedSessions, sessionsListed] using hsaved
  refine follows_bind_of_every (every_escalateIncident _ _) asksNext_of_neutral (fun escalationId l₄ hl₄ => ?_)
    fun _ _ _ => herror _ _
  refine follows_bind_of_every (every_idOr _) asksNext_of_neutral (fun incidentId l₅ hl₅ => ?_) fun _ _ _ => herror _ _
  refine follows_of_every (P := (TrustOp.neutral · = true)) ⟨rfl, fun _ => trivial⟩ asksNext_of_neutral
    fun l₆ y hl₆ => ?_
  have hgrows := hl₄.trans (hl₅.trans hl₆)
  cases y with
  | error e => exact herror e l₆
  | ok incident =>
    refine hok incident l₆ fun session hsession => mem_savedSessions_of_grows hgrows (hthree session ?_)
    rwa [listedSessions_of_grows hgrows] at hsession

theorem follows_reportIncident (input : EndpointIncidentReportInput) :
    (reportIncident services input).Follows (AsksNext (.reportIncident input))
      (fun l y => y.isOk = true → ∀ session ∈ listedSessions l, session.sessionId ∈ savedSessions l) [] := by
  refine follows_bind.mpr (follows_unwrap.mpr ?_)
  cases hparse : input.parse with
  | error e => exact nofun
  | ok parsed =>
    obtain rfl := parseTexts_eq hparse
    refine follows_bind_of_every (every_requirePeripheral _) asksNext_of_neutral (fun peripheral l₁ hl₁ => ?_)
      fun _ _ _ => nofun
    refine follows_bind.mpr (follows_handleIncident parsed peripheral (listedSessions_of_grows hl₁)
      (fun incident l₂ hsaved => ?_) fun _ _ => nofun)
    refine follows_witnessed fun l₃ y hl₃ _ session hsession => mem_savedSessions_of_grows hl₃ (hsaved session ?_)
    rwa [listedSessions_of_grows hl₃] at hsession

theorem follows_run (services : TrustServices) (call : TrustCall) :
    (call.run services).Follows (AsksNext call) (AsksLast call) [] := by
  cases call with
  | requestPairing input => exact follows_map.mpr (follows_requestPairing input fun _ _ => trivial)
  | reviewPairing input => exact follows_map.mpr (follows_reviewPairing input (fun _ _ => trivial) rfl)
  | registerEndpoint input =>
    exact follows_map.mpr (follows_of_every (every_registerEndpoint input) asksNext_of_neutral fun _ _ _ => trivial)
  | grantCapability input =>
    exact follows_map.mpr (follows_of_every (every_grantCapability input) asksNext_of_neutral fun _ _ _ => trivial)
  | revokeCapability input =>
    exact follows_map.mpr (follows_of_every (every_revokeCapability input) asksNext_of_neutral fun _ _ _ => trivial)
  | establishSession input => exact follows_map.mpr (follows_establishSession input fun _ _ => trivial)
  | rotateSession input =>
    refine follows_map.mpr ((follows_rotateSession input).mono fun l y h => ?_)
    cases y with
    | error e => trivial
    | ok session => exact h rfl
  | authorize request => exact follows_map.mpr (follows_authorize request fun _ _ => trivial)
  | reportIncident input =>
    refine follows_map.mpr ((follows_reportIncident input).mono fun l y h => ?_)
    cases y with
    | error e => trivial
    | ok incident => exact h rfl

end Calls

end NousCore.EndpointTrust
