import NousCore.Ingress.Duplicates

/-!
# One run for each trigger

* `retained_of_answers`, `recorded_of_answers` : what a turn leaves of the records and of the nonces;
* `OneRun`, `oneRun_of_run` : at most one run for each pair.
-/

namespace NousCore.Ingress

open Async NousCore.System

/-- Two envelopes have the same `source_id` and the same `idempotency_key`. -/
def SamePair (envelope envelope' : IngressTriggerEnvelope) : Prop :=
  envelope.sourceId = envelope'.sourceId ∧ envelope.idempotencyKey = envelope'.idempotencyKey

instance (envelope envelope' : IngressTriggerEnvelope) : Decidable (SamePair envelope envelope') :=
  inferInstanceAs (Decidable (_ ∧ _))

variable {envelope' : IngressTriggerEnvelope}

theorem SamePair.dedupKey_eq {envelope : IngressTriggerEnvelope} (h : SamePair envelope envelope') :
    dedupKey envelope = dedupKey envelope' := by
  unfold dedupKey
  rw [h.1, h.2]

/-- An envelope whose pair is different from that of a submission has a different key. -/
def distinct (envelope : IngressTriggerEnvelope) (th : IngressThread) : Prop :=
  match th.task with
  | .parsed envelope' => dedupKey envelope' = dedupKey envelope → SamePair envelope' envelope
  | .malformed _ => True

instance (envelope : IngressTriggerEnvelope) (th : IngressThread) : Decidable (distinct envelope th) := by
  unfold distinct
  split <;> infer_instance

variable (options : IngressGatewayOptions)

/-- When the nonce of an envelope was accepted with the claim of a submission, it is still recorded at `now`. -/
def inTime (now : Int) (envelope : IngressTriggerEnvelope) (th : IngressThread) : Prop :=
  match th.task, claimOf th.log with
  | .parsed envelope', some claim => envelope'.sourceId = envelope.sourceId → envelope'.nonce = envelope.nonce →
    now - claim.recordedAt ≤ options.store.replayWindowMs
  | _, _ => True

instance (now : Int) (envelope : IngressTriggerEnvelope) (th : IngressThread) :
    Decidable (inTime options now envelope th) := by
  unfold inTime
  split <;> infer_instance

/-- Where a submission claims under a key that has no record, before its timestamp is stale, its nonce comes in time. -/
def claimsInTime (c : IngressConfig) (o : IngressOp) (env : IngressEnv) : Prop :=
  match o with
  | .claim envelope =>
    ((c.state.after env.elapsed).pruneExpired options.store).dedup.get? (dedupKey envelope) = none →
    ((c.state.after env.elapsed).now - envelope.occurredAt.instant).natAbs ≤ options.store.replayWindowMs →
    ∀ th ∈ c.threads, inTime options (c.state.after env.elapsed).now envelope th
  | _ => True

instance (c : IngressConfig) (o : IngressOp) (env : IngressEnv) : Decidable (claimsInTime options c o env) :=
  match o with
  | .claim envelope => inferInstanceAs (Decidable (_ → _ → ∀ th ∈ c.threads, inTime options _ envelope th))
  | .poll _ _ | .commitDispatch _ _ _ | .releaseClaim _ _ | .getProjectControlState _ | .getProject _ | .getTask _ _
  | .makeExecution | .putExecution _ | .submitTaskToSystem _ | .startWorkflow _ => instDecidableTrue

/-- The steps in which different pairs have different keys, and nonces that were accepted come again in time. -/
def Aligned (c : IngressConfig) (label : Label IngressPayload IngressEnv) : Prop :=
  Fresh c label ∧ match label with
  | .begin (.parsed envelope) => ∀ th ∈ c.threads, distinct envelope th
  | .begin (.malformed _) => True
  | .turn i env => ∀ th ∈ c.threads[i]?, System.Asks (fun _ _ o env _ => claimsInTime options c o env) env c.state th

instance (c : IngressConfig) (label : Label IngressPayload IngressEnv) : Decidable (Aligned options c label) := by
  unfold Aligned
  split <;> infer_instance

/-! ## What a turn leaves -/

variable {options} {envelope : IngressTriggerEnvelope} {claim : Claim} {log : IngressLog} {c c' : IngressConfig}
  {s s' : IngressState}

/-- The record of the claim is there, or its retention is over. -/
def Retained (options : IngressGatewayOptions) (s : IngressState) (key : String) (claim : Claim) : Prop :=
  options.store.ttlMs < s.now - claim.recordedAt ∨ ∃ status, s.dedup.get? key = some ⟨claim, status⟩

/-- The nonce is recorded, or the replay window is over. -/
def Recorded (options : IngressGatewayOptions) (s : IngressState) (sourceId nonce : String) (recordedAt : Int) : Prop :=
  options.store.replayWindowMs < s.now - recordedAt ∨ ⟨nonce, recordedAt⟩ ∈ s.noncesOf sourceId

variable {key : String}

theorem retained_pruneExpired (h : Retained options s key claim) :
    Retained options (s.pruneExpired options.store) key claim := by
  rcases h with h | ⟨status, h⟩
  · exact .inl h
  · by_cases hexpired : s.expired options.store ⟨claim, status⟩
    · exact .inl hexpired
    · exact .inr ⟨status, get?_pruneExpired_eq_some.mpr ⟨h, hexpired⟩⟩

theorem noncesOf_pruneExpired (sourceId : String) : (s.pruneExpired options.store).noncesOf sourceId =
    (s.noncesOf sourceId).filter fun item => s.now - item.recordedAt ≤ options.store.replayWindowMs := by
  unfold IngressState.noncesOf IngressState.pruneExpired
  rw [Record.get?_filterMap]
  cases s.nonces.get? sourceId with
  | none => rfl
  | some list =>
    rw [Option.bind_some, Option.getD_some]
    split
    · rename_i hkept
      rw [hkept]
      rfl
    · rfl

variable {sourceId nonce : String} {recordedAt : Int}

theorem recorded_pruneExpired (h : Recorded options s sourceId nonce recordedAt) :
    Recorded options (s.pruneExpired options.store) sourceId nonce recordedAt := by
  rcases h with h | h
  · exact .inl h
  · by_cases hin : s.now - recordedAt ≤ options.store.replayWindowMs
    · refine .inr ?_
      rw [noncesOf_pruneExpired]
      exact List.mem_filter.mpr ⟨h, decide_eq_true hin⟩
    · exact .inl (not_le.mp hin)

theorem Retained.after (h : Retained options s key claim) (elapsed : Nat) :
    Retained options (s.after elapsed) key claim := by
  refine h.imp_left fun h => ?_
  show _ < s.now + elapsed - claim.recordedAt
  omega

theorem Recorded.after (h : Recorded options s sourceId nonce recordedAt)
    (elapsed : Nat) : Recorded options (s.after elapsed) sourceId nonce recordedAt := by
  refine h.imp_left fun h => ?_
  show _ < s.now + elapsed - recordedAt
  omega

variable {o : IngressOp} {env : IngressEnv}

theorem recorded_of_answers {r : o.Answer}
    (hanswers : answers options.store o env s = some (r, s'))
    (h : Recorded options s sourceId nonce recordedAt) : Recorded options s' sourceId nonce recordedAt := by
  cases o with
  | claim envelope =>
    have hpruned := recorded_pruneExpired (h.after env.elapsed)
    cases claimEffect (Option.some.inj hanswers) with
    | waits _ _ _ => exact hpruned
    | duplicate _ _ => exact hpruned
    | replay => exact hpruned
    | claimed _ _ _ =>
      refine hpruned.imp_right fun hmem => ?_
      unfold IngressState.noncesOf
      rw [Record.get?_set]
      split_ifs with hsource
      · subst hsource
        exact List.mem_append_left _ hmem
      · exact hmem
  | poll | makeExecution =>
    cases hanswers
    exact h.after _
  | commitDispatch reservationId dispatchRef evidenceRef =>
    cases hanswers
    obtain ⟨-, hnonces, hnow, -⟩ := commitDispatch_frame s reservationId dispatchRef evidenceRef
    unfold Recorded IngressState.noncesOf
    rw [hnonces, hnow]
    exact h
  | releaseClaim reservationId reasonCode =>
    cases hanswers
    obtain ⟨-, hnonces, hnow, -⟩ := releaseClaim_frame s reservationId
    unfold Recorded IngressState.noncesOf
    rw [hnonces, hnow]
    exact h
  | _ =>
    cases hanswers
    exact h

variable {i : Nat}

theorem retained_of_answers {t : IngressPayload} {r : o.Answer}
    {next : o.Answer → IngressCall IngressDispatchOutcome} (hledger : Ledger c)
    (hget : c.threads[i]? = some ⟨t, .call o next, log⟩) (hasks : Asks envelope log o)
    (hanswers : answers options.store o env c.state = some (r, s'))
    (h : Retained options c.state key claim)
    (hrelease : ∀ reservationId reasonCode, o = .releaseClaim reservationId reasonCode →
      claim.reservationId ≠ reservationId) : Retained options s' key claim := by
  obtain ⟨hclosed, hasks⟩ := hasks
  cases o with
  | claim envelope' =>
    have hpruned := retained_pruneExpired (h.after env.elapsed)
    cases claimEffect (Option.some.inj hanswers) with
    | waits _ _ _ => exact hpruned
    | duplicate _ _ => exact hpruned
    | replay => exact hpruned
    | claimed hnone _ _ =>
      rcases hpruned with hover | ⟨status, hstatus⟩
      · exact .inl hover
      · refine .inr ⟨status, ?_⟩
        rw [Record.get?_set, if_neg, hstatus]
        rintro rfl
        rw [hnone] at hstatus
        cases hstatus
  | poll | makeExecution =>
    cases hanswers
    exact h.after _
  | commitDispatch reservationId dispatchRef evidenceRef =>
    cases hanswers
    obtain ⟨claim', hclaim', rfl, -⟩ := hasks
    obtain ⟨-, -, hnow, -⟩ := commitDispatch_frame c.state claim'.reservationId dispatchRef evidenceRef
    rcases h with hover | ⟨status, hstatus⟩
    · refine .inl ?_
      rw [hnow]
      exact hover
    · right
      rw [get?_commitDispatch (hledger.reservedAt hget hclaim' hclosed), hstatus, Option.map_some]
      split_ifs <;> exact ⟨_, rfl⟩
  | releaseClaim reservationId reasonCode =>
    cases hanswers
    obtain ⟨claim', hclaim', rfl, -⟩ := hasks
    obtain ⟨-, -, hnow, -⟩ := releaseClaim_frame c.state claim'.reservationId
    rcases h with hover | ⟨status, hstatus⟩
    · refine .inl ?_
      rw [hnow]
      exact hover
    · right
      rw [get?_releaseClaim (hledger.reservedAt hget hclaim' hclosed) fun key record hkey hid => by
        rw [(hledger.open_record hget hclaim' hclosed hkey hid).1], hstatus, Option.filter_some, if_pos]
      · exact ⟨status, rfl⟩
      · exact decide_eq_true (hrelease _ _ rfl)
  | _ =>
    cases hanswers
    exact h

/-! ## Who holds a claim -/

def releases : Sigma IngressOp.Answer → Bool
  | ⟨.releaseClaim _ _, _⟩ => true
  | _ => false

def released (l : IngressLog) : Bool := l.any releases

/-- The `i`-th submission has obtained the claim. -/
def Claims (c : IngressConfig) (i : Nat) (envelope : IngressTriggerEnvelope) (claim : Claim) : Prop :=
  ∃ th, c.threads[i]? = some th ∧ th.task = .parsed envelope ∧ claimOf th.log = some claim

/-- The `i`-th submission has obtained the claim, and not released it. -/
def Holds (c : IngressConfig) (i : Nat) (envelope : IngressTriggerEnvelope) (claim : Claim) : Prop :=
  ∃ th, c.threads[i]? = some th ∧ th.task = .parsed envelope ∧ claimOf th.log = some claim ∧ released th.log = false

theorem Holds.claims (h : Holds c i envelope claim) : Claims c i envelope claim := by
  obtain ⟨th, hget, htask, hclaim, -⟩ := h
  exact ⟨th, hget, htask, hclaim⟩

/-- What obtaining a claim leaves in the store. -/
structure Obtained (options : IngressGatewayOptions) (c : IngressConfig) (env : IngressEnv)
    (envelope : IngressTriggerEnvelope) (claim : Claim) (s' : IngressState) : Prop where
  absent : ((c.state.after env.elapsed).pruneExpired options.store).dedup.get? (dedupKey envelope) = none
  timely : ((c.state.after env.elapsed).now - envelope.occurredAt.instant).natAbs ≤ options.store.replayWindowMs
  unseen : ∀ record ∈ ((c.state.after env.elapsed).pruneExpired options.store).noncesOf envelope.sourceId,
    record.nonce ≠ envelope.nonce
  recordedAt : claim.recordedAt = (c.state.after env.elapsed).now
  now : s'.now = claim.recordedAt
  record : s'.dedup.get? (dedupKey envelope) = some ⟨claim, .claimed⟩
  nonce : ⟨envelope.nonce, claim.recordedAt⟩ ∈ s'.noncesOf envelope.sourceId

variable {label : Label IngressPayload IngressEnv}

section

variable (h : (gateway options).Stepped c label c')

include h

theorem claims_of_stepped
    (hasks : ∀ th ∈ c.threads, th.program.Obeys (AsksFor th.task) th.log)
    (hclaims : Claims c' i envelope claim) :
    Claims c i envelope claim ∨ ∃ env next, label = .turn i env ∧
      c.threads[i]? = some ⟨.parsed envelope, .call (.claim envelope) next, []⟩ ∧
      Obtained options c env envelope claim c'.state := by
  obtain ⟨th, hget, htask, hclaim⟩ := hclaims
  obtain hold | ⟨hnew, -⟩ | ⟨env, o, next, r, log, rfl, hold, hanswers, hth⟩ := h.threads hget
  · exact .inl ⟨th, hold, htask, hclaim⟩
  · rw [hnew] at hclaim
    cases hclaim
  · rw [hth] at hclaim
    rw [htask] at hold
    cases hlog : claimOf log with
    | some claim' =>
      rw [claimOf_snoc_of_some hlog] at hclaim
      exact .inl ⟨_, hold, rfl, hclaim ▸ hlog⟩
    | none =>
      rw [claimOf_snoc_of_none hlog] at hclaim
      obtain ⟨envelope', henvelope, -, hthis⟩ := asks_of_turn (hasks _ (List.mem_of_getElem? hold))
      obtain rfl := IngressPayload.parsed.inj henvelope
      cases o with
      | claim envelope' =>
        obtain ⟨rfl, rfl⟩ := hthis
        refine .inr ⟨env, next, rfl, hold, ?_⟩
        generalize c'.state = s' at hanswers
        cases claimEffect (Option.some.inj hanswers) with
        | waits _ _ _ => cases hclaim
        | @duplicate record _ _ =>
          unfold toDuplicateResult at hclaim
          split at hclaim <;> cases hclaim
        | replay => cases hclaim
        | claimed hnone htimely hunseen =>
          cases hclaim
          refine ⟨hnone, htimely, hunseen, rfl, rfl, ?_, ?_⟩
          · rw [Record.get?_set, if_pos rfl]
          · unfold IngressState.noncesOf
            dsimp only
            rw [Record.get?_set, if_pos rfl]
            exact List.mem_append_right _ (List.mem_singleton_self _)
      | _ => cases hclaim

omit h in
theorem released_snoc (l : IngressLog) (e : Sigma IngressOp.Answer) :
    released (l ++ [e]) = (released l || releases e) := by simp [released]

theorem holds_of_stepped (hholds : Holds c' i envelope claim)
    (hclaims : Claims c i envelope claim) : Holds c i envelope claim := by
  obtain ⟨th, hget, htask, hclaim⟩ := hclaims
  obtain ⟨th', hget', -, hlog⟩ := h.log hget
  obtain ⟨th'', hget'', -, -, hreleased⟩ := hholds
  cases hget'.symm.trans hget''
  refine ⟨th, hget, htask, hclaim, ?_⟩
  obtain ⟨l, hl⟩ := hlog
  rw [← hl, released, List.any_append, Bool.or_eq_false_iff] at hreleased
  exact hreleased.1

theorem retained_of_stepped (hledger : Ledger c)
    (hasks : ∀ th ∈ c.threads, th.program.Obeys (AsksFor th.task) th.log)
    (hholds : Holds c' i envelope claim) (hclaims : Claims c i envelope claim)
    (hretained : Retained options c.state key claim) : Retained options c'.state key claim := by
  cases h with
  | begin t => exact hretained
  | @turn j env t log o next r s' hget hblocked hanswers =>
    obtain ⟨envelope', rfl, hthis⟩ := asks_of_turn (hasks _ (List.mem_of_getElem? hget))
    refine retained_of_answers hledger hget hthis hanswers hretained ?_
    rintro reservationId reasonCode rfl rfl
    obtain ⟨-, claim', hclaim', hid, -⟩ := hthis
    obtain ⟨th, hget', htask, hclaim⟩ := hclaims
    obtain rfl := hledger.unique i j th _ claim claim' hget' hget hclaim hclaim' hid
    obtain ⟨th', hget'', -, -, hreleased⟩ := hholds
    rw [getElem?_self hget] at hget''
    cases hget''
    rw [released_snoc] at hreleased
    exact absurd hreleased (by simp [releases])

theorem recorded_of_stepped
    (hrecorded : Recorded options c.state sourceId nonce recordedAt) :
    Recorded options c'.state sourceId nonce recordedAt := by
  cases h with
  | begin t => exact hrecorded
  | turn hget hblocked hanswers => exact recorded_of_answers hanswers hrecorded

theorem now_le_of_stepped : c.state.now ≤ c'.state.now := by
  cases h with
  | begin t => exact Int.le_refl _
  | turn hget hblocked hanswers => exact now_le_of_answers hanswers

end

/-! ## The claims of a run -/

/-- Claims that are not released keep their records through their retention, and claims their nonces through the replay
window; two claims of one key that are not released are further apart than the retention, and no nonce of a source was
accepted twice. -/
structure Accounted (options : IngressGatewayOptions) (c : IngressConfig) : Prop where
  past : ∀ i envelope claim, Claims c i envelope claim → claim.recordedAt ≤ c.state.now
  retained : ∀ i envelope claim, Holds c i envelope claim → Retained options c.state (dedupKey envelope) claim
  recorded : ∀ i envelope claim, Claims c i envelope claim →
    Recorded options c.state envelope.sourceId envelope.nonce claim.recordedAt
  spaced : ∀ i j envelope envelope' claim claim', i ≠ j → Holds c i envelope claim → Holds c j envelope' claim' →
    dedupKey envelope = dedupKey envelope' → options.store.ttlMs < (claim.recordedAt - claim'.recordedAt).natAbs
  nonces : ∀ i j envelope envelope' claim claim', i ≠ j → Claims c i envelope claim → Claims c j envelope' claim' →
    envelope.sourceId = envelope'.sourceId → envelope.nonce ≠ envelope'.nonce

theorem Accounted.far (h : Accounted options c)
    {claim' : Claim} {s' : IngressState} (hobtained : Obtained options c env envelope claim s')
    (hholds : Holds c i envelope' claim') (hkey : dedupKey envelope = dedupKey envelope') :
    (options.store.ttlMs : Int) < claim.recordedAt - claim'.recordedAt := by
  rw [hobtained.recordedAt]
  rcases retained_pruneExpired ((h.retained i envelope' claim' hholds).after env.elapsed) with hover | ⟨status, hstatus⟩
  · exact hover
  · rw [← hkey, hobtained.absent] at hstatus
    cases hstatus

theorem Accounted.unseen (h : Accounted options c) {i j : Nat}
    {claim' : Claim} {s' : IngressState} {next : ClaimAnswer → IngressCall IngressDispatchOutcome}
    (hget : c.threads[j]? = some ⟨.parsed envelope, .call (.claim envelope) next, []⟩)
    (haligned : Aligned options c (.turn j env)) (hobtained : Obtained options c env envelope claim s')
    (hclaims : Claims c i envelope' claim') (hsource : envelope'.sourceId = envelope.sourceId) :
    envelope'.nonce ≠ envelope.nonce := by
  intro hnonce
  have hguard : claimsInTime options c (.claim envelope) env := haligned.2 _ hget
  have hintime : (c.state.after env.elapsed).now - claim'.recordedAt ≤ options.store.replayWindowMs := by
    obtain ⟨th, hth, htask, hclaim⟩ := hclaims
    have hth := hguard hobtained.absent hobtained.timely th (List.mem_of_getElem? hth)
    unfold inTime at hth
    rw [htask, hclaim] at hth
    exact hth hsource hnonce
  have hrecorded := recorded_pruneExpired ((h.recorded i envelope' claim' hclaims).after env.elapsed)
  rcases hrecorded with hover | hmem
  · exact absurd hintime (not_le.mpr hover)
  · rw [hsource] at hmem
    exact hobtained.unseen _ hmem hnonce

theorem fresh_of_aligned (h : Aligned options c label) : Fresh c label := h.1

theorem accounted_start (now : Int) : Accounted options (start (IngressState.start now)) where
  past := by simp [start, Claims]
  retained := by simp [start, Holds]
  recorded := by simp [start, Claims]
  spaced := by simp [start, Holds]
  nonces := by simp [start, Claims]

theorem Accounted.step (h : Accounted options c) (hledger : Ledger c)
    (hasks : ∀ th ∈ c.threads, th.program.Obeys (AsksFor th.task) th.log) (haligned : Aligned options c label)
    (hstep : (gateway options).Step c label c') : Accounted options c' := by
  have hstepped := stepped_of_step hstep
  refine ⟨fun i envelope claim hclaims => ?_, fun i envelope claim hholds => ?_, fun i envelope claim hclaims => ?_,
    fun i j envelope envelope' claim claim' hij hi hj hkey => ?_,
    fun i j envelope envelope' claim claim' hij hi hj hsource => ?_⟩
  · rcases claims_of_stepped hstepped hasks hclaims with hold | ⟨env, next, -, -, hobtained⟩
    · exact (h.past i envelope claim hold).trans (now_le_of_stepped hstepped)
    · exact hobtained.now.ge
  · rcases claims_of_stepped hstepped hasks hholds.claims with hold | ⟨env, next, -, -, hobtained⟩
    · exact retained_of_stepped hstepped hledger hasks hholds hold
        (h.retained i envelope claim (holds_of_stepped hstepped hholds hold))
    · exact .inr ⟨_, hobtained.record⟩
  · rcases claims_of_stepped hstepped hasks hclaims with hold | ⟨env, next, -, -, hobtained⟩
    · exact recorded_of_stepped hstepped (h.recorded i envelope claim hold)
    · exact .inr hobtained.nonce
  · -- one of the two claims is new at most, and the other one was there
    rcases claims_of_stepped hstepped hasks hi.claims with hold | ⟨env, next, rfl, -, hobtained⟩
    · rcases claims_of_stepped hstepped hasks hj.claims with hold' | ⟨env, next, rfl, -, hobtained⟩
      · exact h.spaced i j envelope envelope' claim claim' hij (holds_of_stepped hstepped hi hold)
          (holds_of_stepped hstepped hj hold') hkey
      · have hfar := h.far hobtained (holds_of_stepped hstepped hi hold) hkey.symm
        omega
    · rcases claims_of_stepped hstepped hasks hj.claims with hold' | ⟨env', next', hlabel, -, -⟩
      · have hfar := h.far hobtained (holds_of_stepped hstepped hj hold') hkey
        omega
      · exact absurd (Label.turn.inj hlabel).1 hij
  · rcases claims_of_stepped hstepped hasks hi with hold | ⟨env, next, rfl, hget, hobtained⟩
    · rcases claims_of_stepped hstepped hasks hj with hold' | ⟨env, next, rfl, hget, hobtained⟩
      · exact h.nonces i j envelope envelope' claim claim' hij hold hold' hsource
      · exact h.unseen hget haligned hobtained hold hsource
    · rcases claims_of_stepped hstepped hasks hj with hold' | ⟨env', next', hlabel, -, -⟩
      · exact (h.unseen hget haligned hobtained hold' hsource.symm).symm
      · exact absurd (Label.turn.inj hlabel).1 hij

/-! ## Different pairs -/

/-- Submissions of one key have one pair. -/
def Distinct (c : IngressConfig) : Prop :=
  ∀ th ∈ c.threads, ∀ th' ∈ c.threads, ∀ envelope envelope', th.task = .parsed envelope → th'.task = .parsed envelope' →
    dedupKey envelope = dedupKey envelope' → SamePair envelope envelope'

variable {th : IngressThread}

theorem task_of_stepped (h : (gateway options).Stepped c label c') (hth : th ∈ c'.threads) :
    (∃ th₀ ∈ c.threads, th₀.task = th.task) ∨ label = .begin th.task := by
  cases h with
  | begin t =>
    rcases List.mem_append.mp hth with hold | hnew
    · exact .inl ⟨th, hold, rfl⟩
    · obtain rfl := List.mem_singleton.mp hnew
      exact .inr rfl
  | @turn i env t log o next r s' hget hblocked hanswers =>
    rcases List.mem_append.mp hth with hold | hnew
    · rcases List.mem_or_eq_of_mem_set hold with hold | rfl
      · exact .inl ⟨th, hold, rfl⟩
      · exact .inl ⟨_, List.mem_of_getElem? hget, rfl⟩
    · exact absurd hnew List.not_mem_nil

theorem SamePair.symm (h : SamePair envelope envelope') : SamePair envelope' envelope := ⟨h.1.symm, h.2.symm⟩

theorem Distinct.step (h : Distinct c) (haligned : Aligned options c label)
    (hstep : (gateway options).Step c label c') : Distinct c' := by
  have hstepped := stepped_of_step hstep
  have hnew : ∀ th ∈ c.threads, ∀ envelope envelope', th.task = .parsed envelope →
      label = .begin (.parsed envelope') → dedupKey envelope = dedupKey envelope' → SamePair envelope envelope' := by
    rintro th hth envelope envelope' htask rfl hkey
    have hdistinct := haligned.2 th hth
    unfold distinct at hdistinct
    rw [htask] at hdistinct
    exact hdistinct hkey
  intro th hth th' hth' envelope envelope' htask htask' hkey
  rcases task_of_stepped hstepped hth with ⟨th₀, hth₀, htask₀⟩ | hlabel
  · rcases task_of_stepped hstepped hth' with ⟨th₀', hth₀', htask₀'⟩ | hlabel'
    · exact h th₀ hth₀ th₀' hth₀' envelope envelope' (htask₀.trans htask) (htask₀'.trans htask') hkey
    · exact hnew th₀ hth₀ envelope envelope' (htask₀.trans htask) (htask' ▸ hlabel') hkey
  · rcases task_of_stepped hstepped hth' with ⟨th₀', hth₀', htask₀'⟩ | hlabel'
    · exact (hnew th₀' hth₀' envelope' envelope (htask₀'.trans htask') (htask ▸ hlabel) hkey.symm).symm
    · obtain rfl := IngressPayload.parsed.inj (htask.symm.trans ((Label.begin.inj (hlabel.symm.trans hlabel')).trans htask'))
      exact ⟨rfl, rfl⟩

/-- The run of the record that a submission waits for, or is answered from. -/
def met : Sigma IngressOp.Answer → Option String
  | ⟨.claim _, .result (.duplicate runId _ _)⟩ => some runId
  | ⟨.claim _, .wait record _⟩ => some record.claim.runId
  | ⟨.poll _ _, (some record, _)⟩ => some record.claim.runId
  | _ => none

def ClaimedBySamePair (c : IngressConfig) (envelope : IngressTriggerEnvelope) (runId : String) : Prop :=
  ∃ i envelope' claim, Claims c i envelope' claim ∧ SamePair envelope' envelope ∧ claim.runId = runId

/-- What a submission waits for, or is answered from, is the claim of a submission of its own pair. -/
def Apart (c : IngressConfig) : Prop :=
  ∀ th ∈ c.threads, ∀ e ∈ th.log, ∀ runId, met e = some runId → ∃ envelope, th.task = .parsed envelope ∧
    ClaimedBySamePair c envelope runId

theorem Claims.step {i : Nat} (h : Claims c i envelope claim) (hstepped : (gateway options).Stepped c label c') :
    Claims c' i envelope claim := by
  obtain ⟨th, hget, htask, hclaim⟩ := h
  obtain ⟨th', hget', htask', l, hl⟩ := hstepped.log hget
  exact ⟨th', hget', htask'.trans htask, hl ▸ claimOf_append l hclaim⟩

theorem record_of_met {r : o.Answer} (hasks : Asks envelope log o)
    (hanswers : answers options.store o env s = some (r, s')) {runId : String} (hmet : met ⟨o, r⟩ = some runId) :
    ∃ record, s.dedup.get? (dedupKey envelope) = some record ∧ record.claim.runId = runId := by
  cases o with
  | claim envelope' =>
    obtain ⟨-, rfl, -⟩ := hasks
    cases claimEffect (Option.some.inj hanswers) with
    | replay => cases hmet
    | claimed _ _ _ => cases hmet
    | @waits record hrecord _ _ =>
      exact ⟨record, (get?_pruneExpired_eq_some.mp hrecord).1, Option.some.inj hmet⟩
    | @duplicate record hrecord _ =>
      refine ⟨record, (get?_pruneExpired_eq_some.mp hrecord).1, ?_⟩
      unfold toDuplicateResult at hmet
      split at hmet <;> exact Option.some.inj hmet
  | poll key waitUntil =>
    obtain ⟨-, rfl, -⟩ := hasks
    cases hanswers
    cases hget : (s.after (env.elapsed + 1)).dedup.get? (dedupKey envelope) with
    | none =>
      rw [hget] at hmet
      cases hmet
    | some record =>
      rw [hget] at hmet
      exact ⟨record, hget, Option.some.inj hmet⟩
  | _ => cases hmet

theorem Apart.step (h : Apart c) (hledger : Ledger c) (hdistinct : Distinct c)
    (hasks : ∀ th ∈ c.threads, th.program.Obeys (AsksFor th.task) th.log)
    (hstep : (gateway options).Step c label c') : Apart c' := by
  have hstepped := stepped_of_step hstep
  have hkeeps : ∀ {envelope runId}, ClaimedBySamePair c envelope runId → ClaimedBySamePair c' envelope runId := by
    rintro envelope runId ⟨i, envelope', claim, hclaims, hpair, hrun⟩
    exact ⟨i, envelope', claim, hclaims.step hstepped, hpair, hrun⟩
  intro th hth e he runId hmet
  obtain ⟨i, hget⟩ := List.mem_iff_getElem?.mp hth
  obtain hold | ⟨hnew, -⟩ | ⟨env, o, next, r, log, rfl, hold, hanswers, hth'⟩ := hstepped.threads hget
  · obtain ⟨envelope, htask, hclaimed⟩ := h th (List.mem_of_getElem? hold) e he runId hmet
    exact ⟨envelope, htask, hkeeps hclaimed⟩
  · rw [hnew] at he
    exact absurd he List.not_mem_nil
  · have hmem := List.mem_of_getElem? hold
    obtain ⟨envelope, htask, hthis⟩ := asks_of_turn (hasks _ hmem)
    refine ⟨envelope, htask, hkeeps ?_⟩
    rw [hth'] at he
    rcases List.mem_append.mp he with he | he
    · obtain ⟨envelope', htask', hclaimed⟩ := h _ hmem e he runId hmet
      obtain rfl := IngressPayload.parsed.inj (htask.symm.trans htask')
      exact hclaimed
    · obtain rfl := List.mem_singleton.mp he
      obtain ⟨record, hkey, hrun⟩ := record_of_met hthis hanswers hmet
      obtain ⟨j, th', envelope', hj, htask', hdedup, hclaim, -⟩ := hledger.owned _ record hkey
      exact ⟨j, envelope', record.claim, ⟨th', hj, htask', hclaim⟩,
        hdistinct th' (List.mem_of_getElem? hj) _ hmem envelope' envelope htask' htask hdedup, hrun⟩

/-! ## Runs -/

variable {ls : List (Label IngressPayload IngressEnv)} {now : Int}

theorem asks_of_asksFor {t : IngressPayload} {l : IngressLog} (h : AsksFor t l o) :
    ∃ envelope, t = .parsed envelope ∧ Asks envelope l o := by
  cases t with
  | malformed triggerId => exact h.elim
  | parsed envelope => exact ⟨envelope, rfl, h⟩

theorem not_released_of_dispatched (hrun : Run (gateway options).Step (start (IngressState.start now)) ls c)
    (hth : th ∈ c.threads) (hdispatched : dispatched th.log = true) : released th.log = false := by
  have hasked := asked_of_run (fun payload => (tells_submit payload).obeys) hrun th hth
  rw [released, List.any_eq_false]
  intro e he hreleases
  obtain ⟨l₁, l₂, hlog⟩ := List.append_of_mem he
  obtain ⟨o, r⟩ := e
  cases o with
  | releaseClaim reservationId reasonCode =>
    obtain ⟨envelope, -, -, claim, -, -, hnot⟩ := asks_of_asksFor (hasked l₁ _ l₂ hlog)
    -- nothing follows a release
    cases l₂ with
    | nil =>
      rw [hlog, dispatched_snoc, hnot] at hdispatched
      cases hdispatched
    | cons e' l₂ =>
      obtain ⟨envelope', -, hclosed, -⟩ := asks_of_asksFor (hasked (l₁ ++ [⟨.releaseClaim reservationId reasonCode, r⟩])
        e' l₂ (by rw [hlog, List.append_assoc]; rfl))
      rw [isClosed_snoc, Bool.or_eq_false_iff] at hclosed
      exact absurd hclosed.2 (by simp [closes])
  | _ => cases hreleases

theorem claim_of_dispatched (hrun : Run (gateway options).Step (start (IngressState.start now)) ls c)
    (hth : th ∈ c.threads) (hdispatched : dispatched th.log = true) :
    ∃ claim, claimOf th.log = some claim := by
  have hasked := asked_of_run (fun payload => (tells_submit payload).obeys) hrun th hth
  obtain ⟨⟨o, r⟩, he, hdispatches⟩ := List.any_eq_true.mp hdispatched
  obtain ⟨l₁, l₂, hlog⟩ := List.append_of_mem he
  obtain ⟨envelope, -, -, hasks⟩ := asks_of_asksFor (hasked l₁ _ l₂ hlog)
  have hsome : (claimOf l₁).isSome := by
    cases o with
    | startWorkflow | submitTaskToSystem => exact hasks
    | _ => cases hdispatches
  obtain ⟨claim, hclaim⟩ := Option.isSome_iff_exists.mp hsome
  exact ⟨claim, hlog ▸ claimOf_append _ hclaim⟩

theorem accounted_of_run (hrun : Run (Guarded (gateway options).Step (Aligned options)) (start (IngressState.start now))
    ls c) : Ledger c ∧ Accounted options c ∧ Distinct c ∧ Apart c := by
  induction hrun with
  | nil => exact ⟨ledger_start now, accounted_start now, by simp [Distinct, start], by simp [Apart, start]⟩
  | snoc hrun hstep ih =>
    obtain ⟨hledger, haccounted, hdistinct, hapart⟩ := ih
    have hasks := asks_of_run hrun.forget_guard
    exact ⟨hledger.step hasks (fresh_of_aligned hstep.2) hstep.1, haccounted.step hledger hasks hstep.2 hstep.1,
      hdistinct.step hstep.2 hstep.1, hapart.step hledger hdistinct hasks hstep.1⟩

/-- At most one run for each trigger. -/
structure OneRun (options : IngressGatewayOptions) (c : IngressConfig) : Prop where
  /-- Two submissions of one pair that were dispatched have claims further apart than the retention. -/
  once : ∀ (i j : Nat) (th th' : IngressThread) (envelope envelope' : IngressTriggerEnvelope), i ≠ j →
    c.threads[i]? = some th → c.threads[j]? = some th' → th.task = .parsed envelope → th'.task = .parsed envelope' →
    SamePair envelope envelope' → dispatched th.log = true → dispatched th'.log = true →
    ∃ claim claim', claimOf th.log = some claim ∧ claimOf th'.log = some claim' ∧
      options.store.ttlMs < (claim.recordedAt - claim'.recordedAt).natAbs
  apart : Apart c
  /-- No nonce of a source has been accepted twice. -/
  nonces : ∀ i j envelope envelope' claim claim', i ≠ j → Claims c i envelope claim → Claims c j envelope' claim' →
    envelope.sourceId = envelope'.sourceId → envelope.nonce ≠ envelope'.nonce

/-- **One run for each trigger.** In every interleaving in which different pairs have different keys, and nonces that
were accepted come again in time, one submission of a pair is dispatched within its retention at most, no pair blocks
or answers another one, and no nonce is accepted twice. -/
theorem oneRun_of_run (hrun : Run (Guarded (gateway options).Step (Aligned options)) (start (IngressState.start now))
    ls c) : OneRun options c := by
  obtain ⟨-, haccounted, -, hapart⟩ := accounted_of_run hrun
  refine ⟨fun i j th th' envelope envelope' hij hi hj htask htask' hpair hth hth' => ?_, hapart, haccounted.nonces⟩
  have hmem := List.mem_of_getElem? hi
  have hmem' := List.mem_of_getElem? hj
  obtain ⟨claim, hclaim⟩ := claim_of_dispatched hrun.forget_guard hmem hth
  obtain ⟨claim', hclaim'⟩ := claim_of_dispatched hrun.forget_guard hmem' hth'
  have hholds : Holds c i envelope claim :=
    ⟨th, hi, htask, hclaim, not_released_of_dispatched hrun.forget_guard hmem hth⟩
  have hholds' : Holds c j envelope' claim' :=
    ⟨th', hj, htask', hclaim', not_released_of_dispatched hrun.forget_guard hmem' hth'⟩
  exact ⟨claim, claim', hclaim, hclaim',
    haccounted.spaced i j envelope envelope' claim claim' hij hholds hholds' hpair.dedupKey_eq⟩

/-! ## Three pairs -/

def submits (i : Nat) (envelope : IngressTriggerEnvelope) (turns : List IngressEnv) :
    List (Label IngressPayload IngressEnv) := .begin (.parsed envelope) :: turns.map (.turn i)

/-- A dispatched submission, its duplicate, and one of another pair. -/
theorem distinctPairs_oneRun : ∃ c : IngressConfig, OneRun openGateway c ∧
    c.threads.countP (fun th => dispatched th.log) = 2 ∧ c.threads.countP (fun th => (duplicateOf th).isSome) = 1 := by
  obtain ⟨c, hrun, hc⟩ := (gateway openGateway).exists_run_of_checkedStep (Aligned openGateway)
    (submits 0 (triggerOf "a" "b" "nonce-1" (.workflow "workflow:test")) (List.replicate 5 (acceptingEnv 0 "1")) ++
      submits 1 (triggerOf "a" "b" "nonce-2" (.workflow "workflow:test")) [acceptingEnv 0 "2"] ++
      submits 2 (triggerOf "a" "c" "nonce-3" (.workflow "workflow:test")) (List.replicate 5 (acceptingEnv 0 "3")))
    (IngressState.start evening)
    (fun c => c.threads.countP (fun th => dispatched th.log) = 2 ∧
      c.threads.countP (fun th => (duplicateOf th).isSome) = 1) (by decide +kernel)
  exact ⟨c, oneRun_of_run hrun, of_decide_eq_true hc⟩

/-- Nothing that has obtained a claim is of the pair. -/
def unclaimed (c : IngressConfig) (envelope : IngressTriggerEnvelope) : Bool :=
  c.threads.all fun th => match th.task with
    | .parsed envelope' => (claimOf th.log).isNone || !decide (SamePair envelope' envelope)
    | .malformed _ => true

theorem not_claimedBySamePair {runId : String} (h : unclaimed c envelope = true) :
    ¬ClaimedBySamePair c envelope runId := by
  rintro ⟨i, envelope', claim, ⟨th, hget, htask, hclaim⟩, hpair, -⟩
  have hth := List.all_eq_true.mp h th (List.mem_of_getElem? hget)
  rw [htask, hclaim] at hth
  dsimp only at hth
  rw [decide_eq_true hpair] at hth
  cases hth

/-- The pairs `("a:b", "c")` and `("a", "b:c")` have one key: the second is answered with the run of the first. -/
theorem collidingPairs_not_oneRun : ∃ (ls : List (Label IngressPayload IngressEnv)) (c : IngressConfig)
    (th : IngressThread) (runId dispatchRef evidenceRef : String),
    Run (Guarded (gateway openGateway).Step Fresh) (start (IngressState.start evening)) ls c ∧ th ∈ c.threads ∧
    th.task = .parsed (triggerOf "a" "b:c" "nonce-2" (.workflow "workflow:test")) ∧
    (∀ th' ∈ c.threads, th'.task = th.task → dispatched th'.log = false) ∧
    duplicateOf th = some (runId, dispatchRef, evidenceRef) ∧ ¬OneRun openGateway c := by
  obtain ⟨c, hrun, hc⟩ := (gateway openGateway).exists_run_of_check (fun _ => True) (fun _ => NewIds)
    (submits 0 (triggerOf "a:b" "c" "nonce-1" (.workflow "workflow:test")) (List.replicate 5 (acceptingEnv 0 "1")) ++
      submits 1 (triggerOf "a" "b:c" "nonce-2" (.workflow "workflow:test")) [acceptingEnv 0 "2"])
    (IngressState.start evening)
    (fun c => unclaimed c (triggerOf "a" "b:c" "nonce-2" (.workflow "workflow:test")) && c.threads[1]?.any fun th =>
      th.task = .parsed (triggerOf "a" "b:c" "nonce-2" (.workflow "workflow:test")) && (duplicateOf th).isSome &&
        th.log.any fun e => (met e).isSome) (by decide +kernel)
  obtain ⟨hunclaimed, hc⟩ := (Bool.and_eq_true _ _).mp hc
  obtain ⟨th, hget, hc⟩ := (Option.any_eq_true _ _).mp hc
  obtain ⟨hc, hmet⟩ := (Bool.and_eq_true _ _).mp hc
  obtain ⟨htask, hduplicate⟩ := (Bool.and_eq_true _ _).mp hc
  obtain ⟨⟨runId, dispatchRef, evidenceRef⟩, hrefs⟩ := Option.isSome_iff_exists.mp hduplicate
  obtain ⟨e, he, hmet⟩ := List.any_eq_true.mp hmet
  obtain ⟨runId', hrunId'⟩ := Option.isSome_iff_exists.mp hmet
  have hth := List.mem_of_getElem? hget
  have htask := of_decide_eq_true htask
  refine ⟨_, c, th, runId, dispatchRef, evidenceRef, hrun, hth, htask, fun th' hth' htask' => ?_, hrefs, fun h => ?_⟩
  · rw [Bool.eq_false_iff]
    intro hdispatched
    obtain ⟨i, hget'⟩ := List.mem_iff_getElem?.mp hth'
    obtain ⟨claim, hclaim⟩ := claim_of_dispatched hrun.forget_guard hth' hdispatched
    have hclaimed : ClaimedBySamePair c _ claim.runId :=
      ⟨i, _, claim, ⟨th', hget', htask'.trans htask, hclaim⟩, ⟨rfl, rfl⟩, rfl⟩
    exact not_claimedBySamePair hunclaimed hclaimed
  · obtain ⟨envelope, henvelope, hclaimed⟩ := h.apart th hth e he runId' hrunId'
    obtain rfl := IngressPayload.parsed.inj (htask.symm.trans henvelope)
    exact not_claimedBySamePair hunclaimed hclaimed

end NousCore.Ingress
