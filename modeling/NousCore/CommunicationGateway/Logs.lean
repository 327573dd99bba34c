import NousCore.CommunicationGateway.Service

/-!
# What a dispatch asks for

* `AsksNext`, `AsksLast` : what a call may ask for next, and the log that it ends with; `follows_run`.
-/

namespace NousCore.CommunicationGateway

open Async
open Witness (Timestamp)

abbrev CommunicationLog := Log CommunicationOp.Answer

def sent : Sigma CommunicationOp.Answer → List ChannelEgressEnvelope
  | ⟨.startSend envelope, _⟩ => [envelope]
  | _ => []

def endsEffective : Sigma CommunicationOp.Answer → Bool
  | ⟨.awaitSend _, result⟩ => CommunicationProviderSendResult.effective result
  | _ => false

def findsNone : Sigma CommunicationOp.Answer → Bool
  | ⟨.getLatestDeliveryAttemptByEgressId _, .ok none⟩ => true
  | _ => false

def findsSome : Sigma CommunicationOp.Answer → Bool
  | ⟨.getLatestDeliveryAttemptByEgressId _, .ok (some _)⟩ => true
  | _ => false

def sends (l : CommunicationLog) : List ChannelEgressEnvelope := l.flatMap sent

/-- A send has delivered the message, or may have. -/
def isEffective (l : CommunicationLog) : Bool := l.any endsEffective

/-- The query for a former attempt has found none. -/
def hasPassed (l : CommunicationLog) : Bool := l.any findsNone

def hasFound (l : CommunicationLog) : Bool := l.any findsSome

/-- At most `budget` sends after the first one, and at most one to a failover target, the last. -/
def SendsWithin (budget : Nat) (envelope : ChannelEgressEnvelope) (sends : List ChannelEgressEnvelope) : Prop :=
  ∃ k ≤ budget + 1, sends = List.replicate k envelope ∨
    ∃ target, sends = List.replicate k envelope ++ [{ envelope with recipientBindingRef := target }]

def CommunicationDeliveryAttempt.standsForEffect (attempt : CommunicationDeliveryAttempt) : Bool :=
  attempt.outcome = .delivered ∨ attempt.outcome = .reviewRequired

section Options

variable (options : CommunicationOptions)

/-- What a call may ask for after a log. -/
def AsksNext (envelope : ChannelEgressEnvelope) (l : CommunicationLog) : CommunicationOp → Prop
  | .getLatestDeliveryAttemptByEgressId egressId => egressId = envelope.egressId
  | .startSend sending => hasPassed l = true ∧ isEffective l = false ∧ sending.egressId = envelope.egressId ∧
      SendsWithin (parseRetryBudget options envelope.retryPolicyRef) envelope (sends l ++ [sending])
  | .awaitSend sending => hasPassed l = true ∧ isEffective l = false ∧ sending.egressId = envelope.egressId
  | .saveDeliveryAttempt attempt => attempt.egressId = envelope.egressId ∧
      (attempt.standsForEffect = true → isEffective l = true)
  | _ => True

/-- A call that is answered `deduplicated` has found a former attempt, and has sent nothing. -/
def AsksLast (l : CommunicationLog) : Except CommunicationError CommunicationEgressOutcome → Prop
  | .ok (.deduplicated _) => hasFound l = true ∧ sends l = []
  | _ => True

/-! ## Operations that every call may ask for -/

def CommunicationOp.neutral : CommunicationOp → Bool
  | .getLatestDeliveryAttemptByEgressId _ | .startSend _ | .awaitSend _ | .saveDeliveryAttempt _ => false
  | _ => true

variable {options} {envelope : ChannelEgressEnvelope} {α β : Type} {l l' : CommunicationLog}

theorem asksNext_of_neutral (l : CommunicationLog) (o : CommunicationOp) (ho : o.neutral = true) :
    AsksNext options envelope l o := by
  cases o with
  | getLatestDeliveryAttemptByEgressId | startSend | awaitSend | saveDeliveryAttempt => cases ho
  | _ => trivial

/-- Nothing new is sent or seen. -/
structure Same (l l' : CommunicationLog) : Prop where
  sends : sends l' = sends l
  effective : isEffective l' = isEffective l
  passed : hasPassed l' = hasPassed l
  found : hasFound l' = hasFound l

theorem Same.refl (l : CommunicationLog) : Same l l := ⟨rfl, rfl, rfl, rfl⟩

theorem Same.trans {l'' : CommunicationLog} (h : Same l l') (h' : Same l' l'') : Same l l'' :=
  ⟨h'.sends.trans h.sends, h'.effective.trans h.effective, h'.passed.trans h.passed, h'.found.trans h.found⟩

theorem same_snoc {e : Sigma CommunicationOp.Answer} (hsent : sent e = []) (heffective : endsEffective e = false)
    (hnone : findsNone e = false) (hsome : findsSome e = false) : Same l (l ++ [e]) := by
  constructor
  · simp [CommunicationGateway.sends, hsent]
  · simp [isEffective, heffective]
  · simp [hasPassed, hnone]
  · simp [hasFound, hsome]

theorem same_of_neutral {o : CommunicationOp} (ho : o.neutral = true) (r : o.Answer) : Same l (l ++ [⟨o, r⟩]) := by
  cases o with
  | getLatestDeliveryAttemptByEgressId | startSend | awaitSend | saveDeliveryAttempt => cases ho
  | _ => exact same_snoc rfl rfl rfl rfl

theorem same_of_grows (h : Grows (CommunicationOp.neutral · = true) l l') : Same l l' := by
  obtain ⟨l₁, rfl, hall⟩ := h
  induction l₁ using List.reverseRecOn with
  | nil => rw [List.append_nil]; exact .refl l
  | append_singleton l₁ e ih =>
    rw [← List.append_assoc]
    exact (ih fun e' he' => hall e' (List.mem_append_left _ he')).trans
      (same_of_neutral (hall e (List.mem_append_right _ List.mem_cons_self)) e.2)

variable {post : CommunicationLog → Except CommunicationError α → Prop}

theorem follows_bind_of_neutral
    {p : CommunicationM β} {f : β → CommunicationM α} (hp : p.Every (CommunicationOp.neutral · = true))
    (hok : ∀ b l', Same l l' → (f b).Follows (AsksNext options envelope) post l')
    (herror : ∀ e l', post l' (.error e)) : (p >>= f).Follows (AsksNext options envelope) post l :=
  follows_bind_of_every hp asksNext_of_neutral (fun b l' h => hok b l' (same_of_grows h)) fun e l' _ => herror e l'

theorem every_orFail {P : CommunicationOp → Prop} (outcome : Except String α) : (orFail outcome).Every P :=
  every_unwrap _

theorem every_recordWitness (actionRef : String) (succeeded : Bool) :
    (recordWitness options actionRef succeeded).Every (CommunicationOp.neutral · = true) := by
  unfold recordWitness
  split_ifs
  · exact every_bind (every_perform rfl) fun _ => every_bind (every_orFail _) fun _ =>
      every_bind (every_perform rfl) fun _ => every_orFail _
  · trivial

theorem every_resolveEgress (policy : CommunicationPolicyDecision) :
    (resolveEgress envelope policy).Every (CommunicationOp.neutral · = true) :=
  every_bind (every_unwrap _) fun _ => every_bind (every_perform rfl) fun _ =>
    every_bind (every_perform rfl) fun _ => every_unwrap _

theorem every_saveRouteDecision (route : CommunicationRouteDecision) :
    (saveRouteDecision route).Every (CommunicationOp.neutral · = true) :=
  every_bind (every_perform rfl) fun _ => every_bind (every_orFail _) fun _ => trivial

/-! ## Attempts -/

/-- The attempt that a part of a call ends with is not a repetition. -/
def EndsFresh (_ : CommunicationLog) (y : Except CommunicationError CommunicationDeliveryAttempt) : Prop :=
  ∀ attempt, y = .ok attempt → attempt.outcome ≠ .deduplicated

theorem endsFresh_error (e : CommunicationError) (l : CommunicationLog) : EndsFresh l (.error e) := by
  rintro _ ⟨⟩

theorem follows_storeAttempt {post : CommunicationLog → Except CommunicationError CommunicationDeliveryAttempt → Prop}
    {attempt : CommunicationDeliveryAttempt} (hegress : attempt.egressId = envelope.egressId)
    (heffect : attempt.standsForEffect = true → isEffective l = true) (hok : ∀ l', post l' (.ok attempt))
    (herror : ∀ e l', post l' (.error e)) :
    (storeAttempt attempt).Follows (AsksNext options envelope) post l := by
  refine ⟨⟨hegress, heffect⟩, fun saved => ?_⟩
  cases saved with
  | error message => exact herror _ _
  | ok _ => exact hok _

theorem follows_saveAttempt {input : DeliveryAttemptInput} (hegress : input.egressId = envelope.egressId)
    (houtcome : input.outcome ≠ .deduplicated)
    (heffect : input.outcome = .delivered ∨ input.outcome = .reviewRequired → isEffective l = true) :
    (saveAttempt input).Follows (AsksNext options envelope) EndsFresh l := by
  refine follows_bind_of_neutral (every_perform rfl) (fun deliveryAttemptId l₁ h₁ => ?_) endsFresh_error
  refine follows_bind_of_neutral (every_perform rfl) (fun occurredAt l₂ h₂ => ?_) endsFresh_error
  cases hparse : (input.attempt deliveryAttemptId occurredAt).parse with
  | error e => exact endsFresh_error e l₂
  | ok attempt =>
    obtain rfl := parseTexts_eq hparse
    refine follows_storeAttempt hegress (fun hstands => ?_) (fun l' attempt h => Except.ok.inj h ▸ houtcome)
      endsFresh_error
    rw [(h₁.trans h₂).effective]
    exact heffect (of_decide_eq_true hstands)

/-! ## Sends -/

section

variable (e : Sigma CommunicationOp.Answer)

theorem sends_snoc : sends (l ++ [e]) = sends l ++ sent e := by
  unfold sends
  rw [List.flatMap_append, List.flatMap_singleton]

theorem isEffective_snoc : isEffective (l ++ [e]) = (isEffective l || endsEffective e) := by
  unfold isEffective
  rw [List.any_append, List.any_cons, List.any_nil, Bool.or_false]

theorem hasPassed_snoc : hasPassed (l ++ [e]) = (hasPassed l || findsNone e) := by
  unfold hasPassed
  rw [List.any_append, List.any_cons, List.any_nil, Bool.or_false]

theorem hasFound_snoc : hasFound (l ++ [e]) = (hasFound l || findsSome e) := by
  unfold hasFound
  rw [List.any_append, List.any_cons, List.any_nil, Bool.or_false]

end

theorem follows_send {sending : ChannelEgressEnvelope}
    {f : CommunicationProviderSendResult → CommunicationM α} (hpassed : hasPassed l = true)
    (hnone : isEffective l = false) (hegress : sending.egressId = envelope.egressId)
    (hwithin : SendsWithin (parseRetryBudget options envelope.retryPolicyRef) envelope (sends l ++ [sending]))
    (hf : ∀ result l', hasPassed l' = true → isEffective l' = result.effective → sends l' = sends l ++ [sending] →
      (f result).Follows (AsksNext options envelope) post l') :
    (send sending >>= f).Follows (AsksNext options envelope) post l := by
  refine ⟨⟨hpassed, hnone, hegress, hwithin⟩, fun r => ?_⟩
  have hpassed' : hasPassed (l ++ [⟨.startSend sending, r⟩]) = true := by
    rw [hasPassed_snoc, hpassed]
    rfl
  have hnone' : isEffective (l ++ [⟨.startSend sending, r⟩]) = false := by
    rw [isEffective_snoc, hnone]
    rfl
  refine ⟨⟨hpassed', hnone', hegress⟩, fun result => hf result _ ?_ ?_ ?_⟩
  · rw [hasPassed_snoc, hpassed']
    rfl
  · rw [isEffective_snoc, hnone']
    exact Bool.false_or _
  · rw [sends_snoc, sends_snoc]
    exact List.append_nil _

section Send

variable {route : CommunicationRouteDecision} {binding : CommunicationIdentityBindingRecord} {budget : Nat}

variable {result : CommunicationProviderSendResult}

theorem follows_saveFailoverResult {target : String} (heffective : isEffective l = result.effective) :
    (saveFailoverResult envelope route budget target result).Follows (AsksNext options envelope) EndsFresh l := by
  cases result with
  | delivered | unknownExternalEffect => exact follows_saveAttempt rfl nofun fun _ => heffective
  | blocked | failed => exact follows_saveAttempt rfl nofun (by simp)

theorem follows_failoverTo {k : Nat} {target : String} (hpassed : hasPassed l = true) (hnone : isEffective l = false)
    (hsends : sends l = List.replicate k envelope)
    (hk : k ≤ parseRetryBudget options envelope.retryPolicyRef + 1) :
    (failoverTo envelope route budget binding target).Follows (AsksNext options envelope) EndsFresh l := by
  refine follows_bind_of_neutral (every_perform rfl) (fun found l₁ h₁ => ?_) endsFresh_error
  refine follows_bind_of_neutral (every_orFail _) (fun targetBinding l₂ h₂ => ?_) endsFresh_error
  have h := h₁.trans h₂
  cases targetBinding.filter (mayTakeOver binding) with
  | none => exact follows_saveAttempt rfl nofun (by simp)
  | some target =>
    refine follows_send (h.passed.trans hpassed) (h.effective.trans hnone) rfl ?_ fun result l' _ heffective _ =>
      follows_saveFailoverResult heffective
    rw [h.sends, hsends]
    exact ⟨k, hk, .inr ⟨target.bindingId, rfl⟩⟩

theorem follows_afterSend {k : Nat} {again : Option (CommunicationM CommunicationDeliveryAttempt)}
    (hpassed : hasPassed l = true) (heffective : isEffective l = result.effective)
    (hsends : sends l = List.replicate k envelope)
    (hk : k ≤ parseRetryBudget options envelope.retryPolicyRef + 1)
    (hagain : ∀ p ∈ again, ∀ l', Same l l' → isEffective l' = false →
      p.Follows (AsksNext options envelope) EndsFresh l') :
    (afterSend envelope route binding budget again result).Follows (AsksNext options envelope) EndsFresh l := by
  cases result with
  | delivered | unknownExternalEffect => exact follows_saveAttempt rfl nofun fun _ => heffective
  | blocked => exact follows_saveAttempt rfl nofun (by simp)
  | failed retryable failureClass reason suggested =>
    show (tryFailover envelope route budget suggested binding >>= _).Follows _ _ l
    unfold tryFailover
    cases suggested.filter (· ≠ "") with
    | some target =>
      show (some <$> failoverTo envelope route budget binding target >>= _).Follows _ _ l
      rw [map_eq_bind, bind_assoc', follows_bind]
      refine (follows_failoverTo hpassed heffective hsends hk).mono fun l' y hfresh => ?_
      cases y with
      | error e => exact endsFresh_error e l'
      | ok attempt => exact hfresh
    | none =>
      cases again with
      | none => exact follows_saveAttempt rfl nofun (by simp)
      | some again =>
        cases retryable with
        | false => exact follows_saveAttempt rfl nofun (by simp)
        | true => exact hagain again rfl l (.refl l) heffective

/-- **The sends of a call**: after `k` sends, and with `n` that are left, within the budget. -/
theorem follows_performSend {k n : Nat} (hpassed : hasPassed l = true) (hnone : isEffective l = false)
    (hsends : sends l = List.replicate k envelope)
    (hk : k + n ≤ parseRetryBudget options envelope.retryPolicyRef) :
    (performSend envelope route binding n).Follows (AsksNext options envelope) EndsFresh l := by
  have hcons : sends l ++ [envelope] = List.replicate (k + 1) envelope := by
    rw [hsends, List.replicate_succ']
  have hwithin : SendsWithin (parseRetryBudget options envelope.retryPolicyRef) envelope (sends l ++ [envelope]) :=
    ⟨k + 1, by omega, .inl hcons⟩
  induction n generalizing k l with
  | zero =>
    refine follows_send hpassed hnone rfl hwithin fun result l' hpassed' heffective hsends' => ?_
    exact follows_afterSend hpassed' heffective (hsends'.trans hcons) (by omega) (by simp)
  | succ n ih =>
    refine follows_send hpassed hnone rfl hwithin fun result l' hpassed' heffective hsends' => ?_
    refine follows_afterSend hpassed' heffective (hsends'.trans hcons) (by omega) fun p hp l'' hsame hnone' => ?_
    cases hp
    have hsends'' : sends l'' = List.replicate (k + 1) envelope := (hsame.sends.trans hsends').trans hcons
    have hcons' : sends l'' ++ [envelope] = List.replicate (k + 1 + 1) envelope := by
      rw [hsends'', List.replicate_succ' (n := k + 1)]
    exact ih (hsame.passed.trans hpassed') hnone' hsends'' (by omega) hcons' ⟨k + 1 + 1, by omega, .inl hcons'⟩

theorem follows_dispatch (hnone : isEffective l = false) (hsends : sends l = []) :
    (dispatch envelope route binding options).Follows (AsksNext options envelope)
      (fun l' y => ∀ attempt, y = .ok attempt → attempt.outcome = .deduplicated → hasFound l' = true ∧ sends l' = []) l := by
  refine ⟨rfl, fun found => ?_⟩
  rcases found with message | existing
  · rintro _ ⟨⟩
  · cases existing with
    | some existing =>
      refine follows_of_every (P := (CommunicationOp.neutral · = true)) ?_ asksNext_of_neutral fun l' y hgrows _ _ _ => ?_
      · show (perform CommunicationOp.newId >>= _).Every _
        exact every_bind (every_perform rfl) fun _ => every_bind (every_perform rfl) fun _ => every_unwrap _
      · have hsame := same_of_grows hgrows
        rw [hsame.found, hsame.sends, hasFound_snoc, sends_snoc, hsends]
        exact ⟨Bool.or_true _, rfl⟩
    | none =>
      refine (follows_performSend (k := 0) ?_ ?_ ?_ (Nat.zero_add _).le).mono fun l' y hfresh attempt hy hdeduplicated => ?_
      · rw [hasPassed_snoc]
        exact Bool.or_true _
      · rw [isEffective_snoc, hnone]
        rfl
      · rw [sends_snoc, hsends]
        rfl
      · exact absurd hdeduplicated (hfresh attempt hy)

end Send

end Options

/-! ## The call -/

section Call

variable {options : CommunicationOptions} {envelope : ChannelEgressEnvelope} {l : CommunicationLog}

theorem follows_recordWitness {actionRef : String} {succeeded : Bool} {outcome : CommunicationEgressOutcome}
    (h : ∀ attempt, outcome = .deduplicated attempt → hasFound l = true ∧ sends l = []) :
    (recordWitness options actionRef succeeded >>= fun _ => pure outcome : CommunicationM _).Follows
      (AsksNext options envelope) AsksLast l := by
  refine follows_bind_of_neutral (every_recordWitness _ _) (fun _ l' hsame => ?_) fun _ _ => trivial
  cases outcome with
  | deduplicated attempt => exact ⟨hsame.found.trans (h attempt rfl).1, hsame.sends.trans (h attempt rfl).2⟩
  | _ => trivial

theorem follows_blocked {p : CommunicationM CommunicationDeliveryAttempt} {actionRef : String} {succeeded : Bool}
    (hp : p.Follows (AsksNext options envelope) (fun _ _ => True) l) :
    (p >>= fun attempt => recordWitness options actionRef succeeded >>= fun _ =>
      pure (CommunicationEgressOutcome.blocked attempt) : CommunicationM _).Follows (AsksNext options envelope) AsksLast l := by
  refine follows_bind.mpr (hp.mono fun l' y _ => ?_)
  cases y with
  | error e => trivial
  | ok attempt => exact follows_recordWitness fun _ h => nomatch h

variable {policy : CommunicationPolicyDecision}

theorem follows_saveRefused :
    (saveRefused envelope.egressId policy).Follows (AsksNext options envelope) (fun _ _ => True) l := by
  refine follows_bind_of_neutral (every_perform rfl) (fun deliveryAttemptId l₁ _ => ?_) fun _ _ => trivial
  refine follows_bind_of_neutral (every_perform rfl) (fun routeId l₂ _ => ?_) fun _ _ => trivial
  refine follows_bind_of_neutral (every_perform rfl) (fun occurredAt l₃ _ => ?_) fun _ _ => trivial
  exact follows_storeAttempt rfl nofun (fun _ => trivial) fun _ _ => trivial

theorem follows_saveAdvisoryBlock {routeId : String} :
    (saveAdvisoryBlock envelope.egressId routeId).Follows (AsksNext options envelope) (fun _ _ => True) l := by
  refine follows_bind_of_neutral (every_perform rfl) (fun deliveryAttemptId l₁ _ => ?_) fun _ _ => trivial
  refine follows_bind_of_neutral (every_perform rfl) (fun occurredAt l₂ _ => ?_) fun _ _ => trivial
  exact follows_storeAttempt rfl nofun (fun _ => trivial) fun _ _ => trivial

theorem follows_maybeBlockAdvisory {route : CommunicationRouteDecision} :
    (maybeBlockAdvisory options route envelope.egressId).Follows (AsksNext options envelope)
      (fun l' y => y = .ok none → Same l l') l := by
  unfold maybeBlockAdvisory
  split_ifs
  · exact fun _ => .refl l
  · refine follows_bind_of_neutral (every_perform rfl) (fun feed l₁ h₁ => ?_) fun _ _ => nofun
    refine follows_bind_of_neutral (every_orFail _) (fun cards l₂ h₂ => ?_) fun _ _ => nofun
    split_ifs
    · exact fun _ => h₁.trans h₂
    · rw [follows_map]
      refine follows_saveAdvisoryBlock.mono fun l' y _ => ?_
      cases y <;> nofun

theorem follows_dispatchAllowed {binding : CommunicationIdentityBindingRecord}
    (hnone : isEffective l = false) (hsends : sends l = []) :
    (dispatchAllowed options envelope binding policy).Follows (AsksNext options envelope) AsksLast l := by
  refine follows_bind_of_neutral (every_resolveEgress _) (fun resolved l₁ h₁ => ?_) fun _ _ => trivial
  refine follows_bind_of_neutral (every_saveRouteDecision _) (fun route l₂ h₂ => ?_) fun _ _ => trivial
  refine follows_bind.mpr (follows_maybeBlockAdvisory.mono fun l₃ y h₃ => ?_)
  rcases y with e | advisoryBlock
  · trivial
  · cases advisoryBlock with
    | some attempt => exact follows_recordWitness fun _ h => nomatch h
    | none =>
      have h := (h₁.trans h₂).trans (h₃ rfl)
      refine follows_bind.mpr ((follows_dispatch (h.effective.trans hnone) (h.sends.trans hsends)).mono fun l₄ y h₄ => ?_)
      cases y with
      | error e => trivial
      | ok attempt =>
        refine follows_recordWitness fun attempt' houtcome => h₄ attempt rfl ?_
        unfold outcomeOf at houtcome
        split at houtcome
        · assumption
        all_goals cases houtcome

theorem follows_dispatchParsed (hnone : isEffective l = false) (hsends : sends l = []) :
    (dispatchParsed options envelope).Follows (AsksNext options envelope) AsksLast l := by
  refine follows_bind_of_neutral (every_perform rfl) (fun found l₁ h₁ => ?_) fun _ _ => trivial
  refine follows_bind_of_neutral (every_orFail _) (fun binding l₂ h₂ => ?_) fun _ _ => trivial
  refine follows_bind_of_neutral (every_perform rfl) (fun decisionId l₃ h₃ => ?_) fun _ _ => trivial
  refine follows_bind_of_neutral (every_perform rfl) (fun evaluatedAt l₄ h₄ => ?_) fun _ _ => trivial
  have h := ((h₁.trans h₂).trans h₃).trans h₄
  cases binding with
  | none => exact follows_blocked follows_saveRefused
  | some binding =>
    dsimp only
    split
    · exact follows_dispatchAllowed (h.effective.trans hnone) (h.sends.trans hsends)
    · exact follows_blocked follows_saveRefused

theorem follows_run (options : CommunicationOptions) (envelope : ChannelEgressEnvelope) :
    (dispatchEgress options envelope).Follows (AsksNext options envelope) AsksLast [] := by
  unfold dispatchEgress
  cases hparse : envelope.parse with
  | error e => trivial
  | ok parsed =>
    obtain rfl := parseTexts_eq hparse
    split_ifs
    · exact follows_dispatchParsed rfl rfl
    · trivial

end Call

end NousCore.CommunicationGateway
