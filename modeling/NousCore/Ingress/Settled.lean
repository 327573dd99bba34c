import NousCore.Ingress.Ledger

/-!
# Claims that are settled

* `claimSettled_iff` : in every interleaving a submission that has ended has settled its claim unless it was abandoned.
-/

namespace NousCore.Ingress

open Async NousCore.System

variable {options : IngressGatewayOptions} {c : IngressConfig} {ls : List (Label IngressPayload IngressEnv)} {now : Int}
  {th : IngressThread} {claim : Claim}

/-- The claim of a submission was committed or released, and a record that is left of it is one of a run that a
dispatcher has accepted. -/
structure ClaimSettled (c : IngressConfig) (th : IngressThread) (claim : Claim) : Prop where
  closed : (∃ dispatchRef evidenceRef, ⟨.commitDispatch claim.reservationId dispatchRef evidenceRef, ()⟩ ∈ th.log) ∨
    ∃ reasonCode, ⟨.releaseClaim claim.reservationId reasonCode, ()⟩ ∈ th.log
  dispatched : ∀ key record, c.state.dedup.get? key = some record →
    record.claim.reservationId = claim.reservationId →
    (∃ dispatchRef evidenceRef, record.status = .committed dispatchRef evidenceRef) ∧ dispatched th.log = true

theorem isClosed_of_mem {l : IngressLog} {e : Sigma IngressOp.Answer} (h : e ∈ l) (he : closes e = true) :
    isClosed l = true := List.any_eq_true.mpr ⟨e, h, he⟩

theorem claimOf_append {l : IngressLog} (l' : IngressLog) (h : claimOf l = some claim) :
    claimOf (l ++ l') = some claim := by
  rw [claimOf, List.findSome?_append, show l.findSome? claimed = some claim from h, Option.some_or]

/-- What a submission has committed or released is its claim, and it has committed what a dispatcher has accepted. -/
theorem closing_of_mem (hrun : Run (gateway options).Step (start (IngressState.start now)) ls c) (hth : th ∈ c.threads)
    (hclaim : claimOf th.log = some claim) {e : Sigma IngressOp.Answer} (he : e ∈ th.log) (hcloses : closes e = true) :
    (∃ dispatchRef evidenceRef, e = ⟨.commitDispatch claim.reservationId dispatchRef evidenceRef, ()⟩ ∧
      dispatched th.log = true) ∨ ∃ reasonCode, e = ⟨.releaseClaim claim.reservationId reasonCode, ()⟩ := by
  obtain ⟨l₁, l₂, hlog⟩ := List.append_of_mem he
  have hasked := asked_of_run (fun payload => (tells_submit payload).obeys) hrun th hth l₁ e l₂ hlog
  have hthis : ∀ {claim'}, claimOf l₁ = some claim' → claim' = claim := by
    intro claim' hclaim'
    rw [hlog, claimOf_append _ hclaim'] at hclaim
    exact Option.some.inj hclaim
  cases htask : th.task with
  | malformed triggerId =>
    rw [htask] at hasked
    exact hasked.elim
  | parsed envelope =>
    rw [htask] at hasked
    obtain ⟨-, hasked⟩ := hasked
    obtain ⟨o, r⟩ := e
    cases o with
    | commitDispatch reservationId dispatchRef evidenceRef =>
      obtain ⟨claim', hclaim', rfl, -, -, hdispatched⟩ := hasked
      obtain rfl := hthis hclaim'
      refine .inl ⟨dispatchRef, evidenceRef, rfl, ?_⟩
      rw [hlog]
      unfold dispatched at hdispatched ⊢
      rw [List.any_append, hdispatched, Bool.true_or]
    | releaseClaim reservationId reasonCode =>
      obtain ⟨claim', hclaim', rfl, -⟩ := hasked
      obtain rfl := hthis hclaim'
      exact .inr ⟨reasonCode, rfl⟩
    | _ => cases hcloses

/-- **Claims are settled.** In every interleaving, when a submission that has obtained a claim has ended, its claim is
settled if and only if no gate was rejected and no dispatcher was with a value that has no message. -/
theorem claimSettled_iff {y : Except Thrown IngressDispatchOutcome}
    (hrun : Run (Guarded (gateway options).Step Fresh) (start (IngressState.start now)) ls c) (hth : th ∈ c.threads)
    (hended : th.program.outcome = some y) (hclaim : claimOf th.log = some claim) :
    ClaimSettled c th claim ↔ abandoned th.log = false := by
  have hends : Ends th.log y := by
    have htraces := ends_of_run hrun.forget_guard th hth
    obtain ⟨t, program, log⟩ := th
    cases program with
    | call o next => cases hended
    | pure | throw =>
      cases hended
      exact htraces
  have hclosing := fun e => closing_of_mem (e := e) hrun.forget_guard hth hclaim
  rw [← hends.settled claim hclaim]
  constructor
  · intro h
    rcases h.closed with ⟨dispatchRef, evidenceRef, hmem⟩ | ⟨reasonCode, hmem⟩
    · exact isClosed_of_mem hmem rfl
    · exact isClosed_of_mem hmem rfl
  · intro hclosed
    refine ⟨?_, fun key record hkey hid => ?_⟩
    · obtain ⟨e, he, hcloses⟩ := List.any_eq_true.mp hclosed
      rcases hclosing e he hcloses with ⟨dispatchRef, evidenceRef, rfl, -⟩ | ⟨reasonCode, rfl⟩
      · exact .inl ⟨dispatchRef, evidenceRef, he⟩
      · exact .inr ⟨reasonCode, he⟩
    · have hledger := ledger_of_run hrun
      obtain ⟨i, hget⟩ := List.mem_iff_getElem?.mp hth
      obtain ⟨j, th', envelope, hget', -, -, hkept⟩ := hledger.owned key record hkey
      obtain rfl := hledger.unique j i th' th _ _ hget' hget hkept.1 hclaim hid
      cases hget.symm.trans hget'
      obtain ⟨claim', status⟩ := record
      cases status with
      | claimed =>
        have hopen := hkept.2
        rw [show isClosed th.log = false from hopen] at hclosed
        cases hclosed
      | committed dispatchRef evidenceRef =>
        refine ⟨⟨dispatchRef, evidenceRef, rfl⟩, ?_⟩
        rcases hclosing _ hkept.2 rfl with ⟨_, _, -, hdispatched⟩ | ⟨_, heq⟩
        · exact hdispatched
        · cases heq

/-! ## A submission, and a retry -/

/-- The submission with which a script begins has ended with a claim, abandoned or not. -/
def endedWith (abandons : Bool) (c : IngressConfig) : Bool :=
  c.threads[0]?.any fun th => th.program.outcome.isSome && (claimOf th.log).isSome && abandoned th.log == abandons

theorem exists_of_endedWith {abandons : Bool} (h : endedWith abandons c = true) :
    ∃ (th : IngressThread) (y : Except Thrown IngressDispatchOutcome) (claim : Claim), c.threads[0]? = some th ∧
      th.program.outcome = some y ∧ claimOf th.log = some claim ∧ abandoned th.log = abandons := by
  obtain ⟨th, hget, h⟩ := (Option.any_eq_true _ _).mp h
  rw [Bool.and_eq_true, Bool.and_eq_true, beq_iff_eq, Option.isSome_iff_exists, Option.isSome_iff_exists] at h
  obtain ⟨⟨⟨y, hy⟩, ⟨claim, hclaim⟩⟩, habandoned⟩ := h
  exact ⟨th, y, claim, hget, hy, hclaim, habandoned⟩

theorem startedWorkflow_settled : ∃ (c : IngressConfig) (th : IngressThread) (claim : Claim), th ∈ c.threads ∧
    ClaimSettled c th claim := by
  obtain ⟨c, hrun, hc⟩ := (gateway openGateway).exists_run_of_check (fun _ => True) (fun _ => NewIds)
    (.begin (.parsed (triggerOf "scheduler-1" "key-1" "nonce-1" (.workflow "workflow:test"))) ::
      List.replicate 5 (.turn 0 (acceptingEnv 0 "1"))) (IngressState.start evening) (endedWith false) (by decide +kernel)
  obtain ⟨th, y, claim, hget, hended, hclaim, habandoned⟩ := exists_of_endedWith hc
  have hth := List.mem_of_getElem? hget
  exact ⟨c, th, claim, hth, (claimSettled_iff hrun hth hended hclaim).mpr habandoned⟩

/-- The project store is rejected, and a retry is answered with a run that was not dispatched. -/
theorem rejectedProject_not_settled :
    ∃ (ls : List (Label IngressPayload IngressEnv)) (c : IngressConfig) (th th' : IngressThread)
      (y : Except Thrown IngressDispatchOutcome) (claim : Claim),
      Run (Guarded (gateway openGateway).Step Fresh) (start (IngressState.start evening)) ls c ∧
      c.threads[0]? = some th ∧ th.program.outcome = some y ∧ claimOf th.log = some claim ∧
      ¬ClaimSettled c th claim ∧ c.threads[1]? = some th' ∧
      (∃ dispatchRef evidenceRef, th'.program.outcome =
        some (.ok (.acceptedAlreadyDispatched claim.runId dispatchRef evidenceRef))) ∧
      c.threads.all (fun th => !dispatched th.log) = true := by
  let rejecting : IngressEnv := { acceptingEnv 0 "1" with project := .error (.error "project store unavailable") }
  obtain ⟨c, hrun, hc⟩ := (gateway openGateway).exists_run_of_check (fun _ => True) (fun _ => NewIds)
    ([.begin (.parsed (triggerOf "scheduler-1" "key-1" "nonce-1" (.workflow "workflow:test"))), .turn 0 rejecting,
      .turn 0 rejecting, .turn 0 rejecting,
      .begin (.parsed (triggerOf "scheduler-1" "key-1" "nonce-2" (.workflow "workflow:test"))),
      .turn 1 (acceptingEnv 0 "2"), .turn 1 (acceptingEnv 24 "2")]) (IngressState.start evening)
    (fun c => endedWith true c && (c.threads[0]?.any fun th => c.threads[1]?.any fun th' =>
      !isClosed th.log && (claimOf th.log).any fun claim => th'.program.outcome.any fun y => y.toOption.any fun outcome =>
        match outcome with
        | .acceptedAlreadyDispatched runId _ _ => runId = claim.runId
        | _ => false) && c.threads.all fun th => !dispatched th.log) (by decide +kernel)
  rw [Bool.and_eq_true, Bool.and_eq_true] at hc
  obtain ⟨⟨hended, hretry⟩, hdispatched⟩ := hc
  obtain ⟨th, y, claim, hget, hout, hclaim, -⟩ := exists_of_endedWith hended
  obtain ⟨th₀, hget₀, hretry⟩ := (Option.any_eq_true _ _).mp hretry
  cases hget.symm.trans hget₀
  obtain ⟨th', hget', hretry⟩ := (Option.any_eq_true _ _).mp hretry
  obtain ⟨hopen, hretry⟩ := (Bool.and_eq_true _ _).mp hretry
  obtain ⟨claim', hclaim', hretry⟩ := (Option.any_eq_true _ _).mp hretry
  cases hclaim.symm.trans hclaim'
  obtain ⟨y', hout', hretry⟩ := (Option.any_eq_true _ _).mp hretry
  refine ⟨_, c, th, th', y, claim, hrun, hget, hout, hclaim, fun hsettled => ?_, hget', ?_, hdispatched⟩
  · have hclosed : isClosed th.log = true := by
      rcases hsettled.closed with ⟨dispatchRef, evidenceRef, hmem⟩ | ⟨reasonCode, hmem⟩
      · exact isClosed_of_mem hmem rfl
      · exact isClosed_of_mem hmem rfl
    rw [hclosed] at hopen
    cases hopen
  · cases y' with
    | error thrown => cases hretry
    | ok outcome =>
      cases outcome with
      | acceptedAlreadyDispatched runId dispatchRef evidenceRef =>
        obtain rfl : runId = claim.runId := of_decide_eq_true hretry
        exact ⟨dispatchRef, evidenceRef, hout'⟩
      | acceptedDispatched _ _ _ _ _ => cases hretry
      | rejected _ _ _ _ => cases hretry

end NousCore.Ingress
