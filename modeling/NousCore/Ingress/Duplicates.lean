import NousCore.Ingress.Settled

/-!
# Duplicates

* `shown`, `meets_submit` : a duplicate answers with what it was shown as committed;
* `refersToDispatch_of_run` : under `prompt` every duplicate answers with the run of a submission that was dispatched.
-/

namespace NousCore.Ingress

open Async NousCore.System

variable (options : IngressGatewayOptions)

/-- A record that a duplicate is answered with is committed; and the receipt of a task names the run of the claim. -/
def prompt : Allowance IngressOp.Answer IngressEnv IngressState
  | _, .claim envelope, env, s => env.reservationId ∉ s.made ∧
    ∀ record ∈ ((s.after env.elapsed).pruneExpired options.store).dedup.get? (dedupKey envelope),
      record.status = .claimed → 0 < options.store.pendingClaimWaitMs
  | _, .poll key waitUntil, env, s =>
    (s.dedup.get? key).any fun record => record.status = .claimed → (s.after (env.elapsed + 1)).now < waitUntil
  | l, .submitTaskToSystem _, env, _ => ∀ receipt ∈ env.receipt.toOption, ∀ claim ∈ claimOf l, receipt.runId = claim.runId
  | _, _, _, _ => True

instance (l : Log IngressOp.Answer) (o : IngressOp) (env : IngressEnv) (s : IngressState) :
    Decidable (prompt options l o env s) :=
  match o with
  | .claim _ => inferInstanceAs (Decidable (_ ∧ ∀ record ∈ Record.get? _ _, _ → _))
  | .poll _ _ => inferInstanceAs (Decidable (Option.any _ _ = true))
  | .submitTaskToSystem _ =>
    inferInstanceAs (Decidable (∀ receipt ∈ env.receipt.toOption, ∀ claim ∈ claimOf l, receipt.runId = claim.runId))
  | .commitDispatch _ _ _ | .releaseClaim _ _ | .getProjectControlState _ | .getProject _ | .getTask _ _ | .makeExecution
  | .putExecution _ | .startWorkflow _ => instDecidableTrue

def shown : Sigma IngressOp.Answer → Option (String × String × String)
  | ⟨.claim _, .result (.duplicate runId dispatchRef evidenceRef)⟩ => some (runId, dispatchRef, evidenceRef)
  | ⟨.poll _ _, (some ⟨claim, .committed dispatchRef evidenceRef⟩, _)⟩ => some (claim.runId, dispatchRef, evidenceRef)
  | _ => none

def AnswersShown (l : IngressLog) (y : Except Thrown IngressDispatchOutcome) : Prop :=
  ∀ runId dispatchRef evidenceRef, y = .ok (.acceptedAlreadyDispatched runId dispatchRef evidenceRef) →
    ∃ e ∈ l, shown e = some (runId, dispatchRef, evidenceRef)

variable {options} {envelope : IngressTriggerEnvelope} {claim : Claim} {l : IngressLog} {s : IngressState}

/-! ## The answer of a duplicate -/

/-- A submission relies on the clock not going back. -/
abbrev clocked (options : IngressGatewayOptions) : Contract IngressOp.Answer IngressEnv IngressState :=
  ⟨prompt options, fun s s' => s.now ≤ s'.now, fun s s' => s.now ≤ s'.now⟩

theorem now_le_of_answers {storeOptions : IngressIdempotencyStoreOptions} {o : IngressOp} {env : IngressEnv}
    {r : o.Answer} {s s' : IngressState} (h : answers storeOptions o env s = some (r, s')) : s.now ≤ s'.now := by
  have hafter : ∀ elapsed : Nat, s.now ≤ (s.after elapsed).now := fun elapsed => by
    show s.now ≤ s.now + elapsed
    omega
  cases o with
  | claim envelope =>
    cases claimEffect (Option.some.inj h) with
    | waits _ _ _ => exact hafter _
    | duplicate _ _ => exact hafter _
    | replay => exact hafter _
    | claimed _ _ _ => exact hafter _
  | poll key waitUntil =>
    cases h
    exact hafter _
  | commitDispatch reservationId dispatchRef evidenceRef =>
    cases h
    exact (commitDispatch_frame s reservationId dispatchRef evidenceRef).2.2.1.ge
  | releaseClaim reservationId reasonCode =>
    cases h
    exact (releaseClaim_frame s reservationId).2.2.1.ge
  | makeExecution =>
    cases h
    exact hafter _
  | _ =>
    cases h
    exact Int.le_refl _

/-- What a duplicate that waits ends with. -/
def Found (l : IngressLog) (y : Except Thrown IngressIdempotencyClaimResult) : Prop :=
  ∃ e ∈ l, ∃ runId dispatchRef evidenceRef, shown e = some (runId, dispatchRef, evidenceRef) ∧
    y = .ok (.duplicate runId dispatchRef evidenceRef)

/-- The wait ends with a record that is committed: the timers do not run out before the time is over. -/
theorem meets_waitForCommittedDuplicate {key : String} {waitUntil n : Int} {timers : Nat} {record : DedupRecord}
    (hread : n ≤ s.now) (hbefore : n < waitUntil) (htimers : waitUntil ≤ n + timers) :
    (waitForCommittedDuplicate key waitUntil timers record).Meets (answers options.store) (clocked options)
      (fun l y _ => Found l y) l s := by
  induction timers generalizing l s n record with
  | zero => omega
  | succ timers ih =>
    intro env r s' hanswers hallowed
    obtain ⟨rfl, rfl⟩ := Prod.mk.inj (Option.some.inj hanswers)
    refine ⟨now_le_of_answers hanswers, fun s'' hrely => ?_⟩
    obtain ⟨latest, hlatest, hguard⟩ := (Option.any_eq_true _ _).mp hallowed
    have hguard := of_decide_eq_true hguard
    have hafter : (s.after (env.elapsed + 1)).dedup.get? key = some latest := hlatest
    have hlater : (s.after (env.elapsed + 1)).now = s.now + env.elapsed + 1 := by
      show s.now + ((env.elapsed + 1 : Nat) : Int) = _
      omega
    rw [hafter]
    show (ite (latest.status = .claimed ∧ decide ((s.after (env.elapsed + 1)).now < waitUntil) = true) _ _ :
      IngressCall _).Meets _ _ _ _ _
    split_ifs with hwait
    · have hin := of_decide_eq_true hwait.2
      refine ih (n := (s.after (env.elapsed + 1)).now) hrely hin ?_
      rw [hlater]
      omega
    · obtain ⟨claim, status⟩ := latest
      cases status with
      | claimed => exact absurd ⟨rfl, decide_eq_true (hguard rfl)⟩ hwait
      | committed dispatchRef evidenceRef =>
        exact ⟨_, List.mem_append_right _ (List.mem_singleton_self _), claim.runId, dispatchRef, evidenceRef, rfl, rfl⟩

/-- A submission that obtained a claim is not a duplicate. -/
def NotDuplicate (y : Except Thrown IngressDispatchOutcome) : Prop :=
  ∀ runId dispatchRef evidenceRef, y ≠ .ok (.acceptedAlreadyDispatched runId dispatchRef evidenceRef)

theorem traces_rejectAndRelease {reason : IngressRejectReason} {reasonCode : String} {evidenceRefs : List String} :
    (rejectAndRelease envelope claim reason reasonCode evidenceRefs).Traces (fun _ => NotDuplicate) l :=
  fun _ _ _ _ => nofun

theorem traces_catchAndRelease {reasonCode : String} {dispatch : IngressCall IngressDispatchOutcome}
    (h : dispatch.Traces (fun _ => NotDuplicate) l) :
    (catchAndRelease envelope claim reasonCode dispatch).Traces (fun _ => NotDuplicate) l := by
  induction dispatch generalizing l with
  | pure outcome => exact h
  | throw thrown =>
    cases thrown with
    | error message => exact traces_rejectAndRelease
    | null => exact nofun
    | undefined => exact nofun
  | call o next ih => exact fun r => ih r (h r)

variable {admission : IngressDispatchAdmissionOptions}

theorem traces_admitClaimed : (admitClaimed admission envelope claim).Traces (fun _ => NotDuplicate) l := by
  have herror : ∀ thrown, NotDuplicate (.error thrown) := fun _ _ _ _ => nofun
  unfold admitClaimed
  split_ifs with hopctl
  · exact traces_rejectAndRelease
  · intro state
    cases state with
    | error thrown => exact herror thrown
    | ok controlState =>
      show (ite _ _ _ : IngressCall _).Traces _ _
      split_ifs with hblocked
      · exact traces_rejectAndRelease
      · intro project
        cases project with
        | error thrown => exact herror thrown
        | ok projectConfig =>
          cases projectConfig with
          | none => exact traces_rejectAndRelease
          | some projectConfig =>
            split
            · unfold admitTask findTask
              split_ifs with hunavailable htaskStore
              · exact traces_rejectAndRelease
              · intro task
                cases task with
                | error thrown => exact herror thrown
                | ok taskDef =>
                  cases taskDef with
                  | none => exact traces_rejectAndRelease
                  | some taskDef =>
                    refine traces_catchAndRelease fun ids stored => ?_
                    cases stored with
                    | error thrown => exact herror thrown
                    | ok _ =>
                      intro receipt
                      cases receipt with
                      | error thrown => exact herror thrown
                      | ok receipt => exact fun _ _ _ _ => nofun
              · exact traces_rejectAndRelease
            · refine traces_catchAndRelease fun started => ?_
              cases started with
              | error thrown => exact herror thrown
              | ok startResult =>
                cases startResult with
                | admissionBlocked reasonCode evidenceRefs => exact traces_rejectAndRelease
                | started policyRef => exact fun _ _ _ _ => nofun

variable {y : Except Thrown IngressDispatchOutcome}

theorem answersShown_of_notDuplicate (h : NotDuplicate y) :
    AnswersShown l y := fun _ _ _ hy => absurd hy (h _ _ _)

theorem meets_claimAndAdmit : (claimAndAdmit options envelope).Meets (answers options.store) (clocked options)
    (fun l y _ => AnswersShown l y) l s := by
  unfold claimAndAdmit Ingress.claim
  rw [meets_bind, meets_bind]
  intro env r s' hanswers hallowed
  refine ⟨now_le_of_answers hanswers, fun s'' hrely => ?_⟩
  cases claimEffect (Option.some.inj hanswers) with
  | @waits record hrecord hstatus hpositive =>
    refine (meets_waitForCommittedDuplicate (n := (s.after env.elapsed).now) hrely (by omega) (Int.le_refl _)).mono
      fun l y t h => ?_
    obtain ⟨e, he, runId, dispatchRef, evidenceRef, hshown, rfl⟩ := h
    intro runId' dispatchRef' evidenceRef' heq
    obtain ⟨rfl, rfl, rfl⟩ := IngressDispatchOutcome.acceptedAlreadyDispatched.inj (Except.ok.inj heq)
    exact ⟨e, he, hshown⟩
  | @duplicate record hrecord hguard =>
    have hduplicate : ∃ runId dispatchRef evidenceRef,
        toDuplicateResult record = .duplicate runId dispatchRef evidenceRef := by
      unfold toDuplicateResult
      split <;> exact ⟨_, _, _, rfl⟩
    obtain ⟨runId, dispatchRef, evidenceRef, hresult⟩ := hduplicate
    rw [hresult]
    intro runId' dispatchRef' evidenceRef' heq
    obtain ⟨rfl, rfl, rfl⟩ := IngressDispatchOutcome.acceptedAlreadyDispatched.inj (Except.ok.inj heq)
    exact ⟨_, List.mem_append_right _ (List.mem_singleton_self _), rfl⟩
  | replay => exact answersShown_of_notDuplicate fun _ _ _ => nofun
  | claimed _ _ _ =>
    refine (traces_admitClaimed.mono fun l y h => answersShown_of_notDuplicate h).meets ?_
    exact fun _ _ _ _ _ _ _ hanswers => now_le_of_answers hanswers

theorem meets_submit (payload : IngressPayload) : (submit options payload).Meets (answers options.store)
    (clocked options) (fun l y _ => AnswersShown l y) l s := by
  have hrejected : ∀ reason reasonCode evidenceRef evidenceRefs,
      AnswersShown l (.ok (.rejected reason reasonCode evidenceRef evidenceRefs)) := fun _ _ _ _ =>
    answersShown_of_notDuplicate fun _ _ _ => nofun
  unfold submit
  split
  · exact hrejected _ _ _ _
  · split
    · exact hrejected _ _ _ _
    · split
      · exact hrejected _ _ _ _
      · exact meets_claimAndAdmit

/-! ## Runs -/

variable {c c' : IngressConfig} {ls : List (Label IngressPayload IngressEnv)} {now : Int}

/-- The steps in which `prompt` holds. -/
abbrev Prompt (options : IngressGatewayOptions) : IngressConfig → Label IngressPayload IngressEnv → Prop :=
  Allows (fun _ => True) fun _ => prompt options

theorem sound_clocked : (gateway options).Sound (fun _ => True) (fun _ => prompt options) (fun _ s s' => s.now ≤ s'.now)
    (fun _ s s' => s.now ≤ s'.now) (fun _ l y _ => AnswersShown l y) (fun _ => True) (fun _ => True) where
  rely_refl := fun _ _ => Int.le_refl _
  rely_trans := fun _ _ _ _ => Int.le_trans
  rely_inv := fun _ _ _ _ _ => trivial
  rely_idle := fun _ _ _ _ _ _ => trivial
  guar_inv := fun _ _ _ _ _ => trivial
  guar_idle := fun _ _ _ _ _ _ => trivial
  guar_rely := fun _ _ _ _ _ _ h => h
  shared := fun payload _ _ _ _ => meets_submit payload
  alone := fun payload _ _ _ _ _ => meets_submit payload
  post_idle := fun _ _ _ _ _ _ => trivial
  spawned := fun _ _ h => absurd h List.not_mem_nil

variable {th : IngressThread}

theorem answersShown_of_run (hrun : Run (Guarded (gateway options).Step (Prompt options)) (start (IngressState.start now))
    ls c) (hth : th ∈ c.threads)
    (hended : th.program.outcome = some y) : AnswersShown th.log y := by
  obtain ⟨i, hget⟩ := List.mem_iff_getElem?.mp hth
  have hkept := sound_clocked.kept_of_run trivial trivial hrun
  have hmeets := hkept.keeps i th hget (blocked_false_of_shared rfl) (.inl rfl) c.state (Int.le_refl _)
  obtain ⟨y', hy', hpost⟩ := meets_of_outcome hmeets (by rw [hended]; nofun)
  cases hended.symm.trans hy'
  exact hpost

def AnsweredDispatched (c : IngressConfig) (key runId dispatchRef evidenceRef : String) : Prop :=
  ∃ (i : Nat) (th : IngressThread) (envelope : IngressTriggerEnvelope) (workflowRef policyRef : String),
    c.threads[i]? = some th ∧ th.task = .parsed envelope ∧ dedupKey envelope = key ∧
      th.program.outcome = some (.ok (.acceptedDispatched runId dispatchRef workflowRef policyRef evidenceRef))

variable {runId dispatchRef evidenceRef : String} {label : Label IngressPayload IngressEnv}

theorem AnsweredDispatched.step {key : String}
    (h : AnsweredDispatched c key runId dispatchRef evidenceRef) (hstepped : (gateway options).Stepped c label c') :
    AnsweredDispatched c' key runId dispatchRef evidenceRef := by
  obtain ⟨i, th, envelope, workflowRef, policyRef, hget, htask, hkey, hended⟩ := h
  exact ⟨i, th, envelope, workflowRef, policyRef, hstepped.ended hget hended, htask, hkey, hended⟩

/-- What was dispatched runs under the run id of its claim, and what a duplicate was shown was answered as
dispatched. -/
structure Faithful (c : IngressConfig) : Prop where
  receipts : ∀ th ∈ c.threads, ∀ submission receipt, ⟨.submitTaskToSystem submission, .ok receipt⟩ ∈ th.log →
    ∃ claim, claimOf th.log = some claim ∧ receipt.runId = claim.runId
  shown : ∀ th ∈ c.threads, ∀ e ∈ th.log, ∀ runId dispatchRef evidenceRef,
    shown e = some (runId, dispatchRef, evidenceRef) → ∃ envelope, th.task = .parsed envelope ∧
      AnsweredDispatched c (dedupKey envelope) runId dispatchRef evidenceRef

theorem Faithful.answered_of_committed (h : Faithful c) (hledger : Ledger c)
    (hasks : ∀ th ∈ c.threads, th.program.Obeys (AsksFor th.task) th.log)
    (hends : ∀ th ∈ c.threads, th.program.Traces Ends th.log) {key : String}
    (hkey : c.state.dedup.get? key = some ⟨claim, .committed dispatchRef evidenceRef⟩) :
    AnsweredDispatched c key claim.runId dispatchRef evidenceRef := by
  obtain ⟨i, th, envelope, hget, htask, hdedup, hclaim, hmem⟩ := hledger.owned key _ hkey
  have hth := List.mem_of_getElem? hget
  have hclosed : isClosed th.log = true := isClosed_of_mem hmem rfl
  have hout : ∃ y, th.program.outcome = some y ∧ Ends th.log y := by
    have hasks := hasks th hth
    have hends := hends th hth
    obtain ⟨t, program, log⟩ := th
    cases program with
    | pure | throw => exact ⟨_, rfl, hends⟩
    | call o next =>
      obtain ⟨_, -, hopen, -⟩ := asks_of_turn hasks
      rw [hopen] at hclosed
      cases hclosed
  obtain ⟨y, hout, hend⟩ := hout
  obtain ⟨runId, workflowRef, policyRef, rfl, hrun⟩ := hend.accepts _ _ _ hmem
  obtain rfl : runId = claim.runId := by
    rcases hrun claim hclaim with hrun | ⟨submission, receipt, hreceipt, hrun⟩
    · exact hrun
    · obtain ⟨claim', hclaim', hreceipt'⟩ := h.receipts th hth submission receipt hreceipt
      cases hclaim.symm.trans hclaim'
      rw [hrun, hreceipt']
  exact ⟨i, th, envelope, workflowRef, policyRef, hget, htask, hdedup, hout⟩

theorem faithful_start : Faithful (start (IngressState.start now)) where
  receipts := by simp [start]
  shown := by simp [start]

theorem committed_of_shown {o : IngressOp} {env : IngressEnv} {r : o.Answer} {log : IngressLog}
    {s' : IngressState} (hasks : Asks envelope log o) (hprompt : prompt options log o env s)
    (hanswers : answers options.store o env s = some (r, s'))
    (hshown : shown ⟨o, r⟩ = some (runId, dispatchRef, evidenceRef)) :
    ∃ claim, s.dedup.get? (dedupKey envelope) = some ⟨claim, .committed dispatchRef evidenceRef⟩ ∧
      claim.runId = runId := by
  cases o with
  | claim envelope' =>
    obtain ⟨-, rfl, -⟩ := hasks
    cases claimEffect (Option.some.inj hanswers) with
    | waits _ _ _ => cases hshown
    | replay => cases hshown
    | claimed _ _ _ => cases hshown
    | @duplicate record hrecord hguard =>
      obtain ⟨claim, status⟩ := record
      cases status with
      | claimed => exact absurd ⟨rfl, hprompt.2 _ hrecord rfl⟩ hguard
      | committed dispatchRef' evidenceRef' =>
        obtain ⟨rfl, hrefs⟩ := Prod.mk.inj (Option.some.inj hshown)
        cases hrefs
        exact ⟨claim, (get?_pruneExpired_eq_some.mp hrecord).1, rfl⟩
  | poll key waitUntil =>
    obtain ⟨-, rfl, -⟩ := hasks
    cases hanswers
    cases hget : (s.after (env.elapsed + 1)).dedup.get? (dedupKey envelope) with
    | none =>
      rw [hget] at hshown
      cases hshown
    | some record =>
      obtain ⟨claim, status⟩ := record
      rw [hget] at hshown
      cases status with
      | claimed => cases hshown
      | committed dispatchRef' evidenceRef' =>
        obtain ⟨rfl, hrefs⟩ := Prod.mk.inj (Option.some.inj hshown)
        cases hrefs
        exact ⟨claim, hget, rfl⟩
  | _ => cases hshown

theorem Faithful.step (h : Faithful c) (hledger : Ledger c)
    (hasks : ∀ th ∈ c.threads, th.program.Obeys (AsksFor th.task) th.log)
    (hends : ∀ th ∈ c.threads, th.program.Traces Ends th.log)
    (hprompt : Prompt options c label) (hstep : (gateway options).Step c label c') : Faithful c' := by
  have hstepped := stepped_of_step hstep
  refine ⟨fun th hth submission receipt hmem => ?_,
    fun th hth e he runId dispatchRef evidenceRef hshown => ?_⟩
  · obtain ⟨i, hget⟩ := List.mem_iff_getElem?.mp hth
    obtain hold | ⟨hnew, -⟩ | ⟨env, o, next, r, log, rfl, hold, hanswers, hth'⟩ := hstepped.threads hget
    · exact h.receipts th (List.mem_of_getElem? hold) submission receipt hmem
    · rw [hnew] at hmem
      exact absurd hmem List.not_mem_nil
    · rw [hth'] at hmem ⊢
      rcases List.mem_append.mp hmem with hmem | hmem
      · obtain ⟨claim, hclaim, hreceipt⟩ := h.receipts _ (List.mem_of_getElem? hold) submission receipt hmem
        exact ⟨claim, claimOf_snoc_of_some hclaim _, hreceipt⟩
      · obtain ⟨rfl, hr⟩ := Sigma.mk.inj (List.mem_singleton.mp hmem)
        obtain rfl := eq_of_heq hr
        obtain ⟨envelope, -, -, hthis⟩ := asks_of_turn (hasks _ (List.mem_of_getElem? hold))
        obtain ⟨claim, hclaim⟩ := Option.isSome_iff_exists.mp hthis
        have hreceipt : env.receipt = .ok receipt := congrArg Prod.fst (Option.some.inj hanswers)
        refine ⟨claim, claimOf_snoc_of_some hclaim _, (hprompt _ hold) receipt ?_ claim hclaim⟩
        rw [hreceipt]
        rfl
  · obtain ⟨i, hget⟩ := List.mem_iff_getElem?.mp hth
    obtain hold | ⟨hnew, -⟩ | ⟨env, o, next, r, log, rfl, hold, hanswers, hth'⟩ := hstepped.threads hget
    · obtain ⟨envelope, htask, hanswered⟩ :=
        h.shown th (List.mem_of_getElem? hold) e he runId dispatchRef evidenceRef hshown
      exact ⟨envelope, htask, hanswered.step hstepped⟩
    · rw [hnew] at he
      exact absurd he List.not_mem_nil
    · obtain ⟨envelope, htask, hthis⟩ := asks_of_turn (hasks _ (List.mem_of_getElem? hold))
      refine ⟨envelope, htask, AnsweredDispatched.step ?_ hstepped⟩
      rw [hth'] at he
      rcases List.mem_append.mp he with he | he
      · obtain ⟨envelope', htask', hanswered⟩ :=
          h.shown _ (List.mem_of_getElem? hold) e he runId dispatchRef evidenceRef hshown
        obtain rfl := IngressPayload.parsed.inj (htask.symm.trans htask')
        exact hanswered
      · obtain rfl := List.mem_singleton.mp he
        obtain ⟨claim, hkey, rfl⟩ := committed_of_shown hthis (hprompt _ hold) hanswers hshown
        exact h.answered_of_committed hledger hasks hends hkey

theorem fresh_of_prompt (h : Prompt options c label) : Fresh c label := by
  cases label with
  | begin payload => trivial
  | turn i env =>
    intro th hth
    have hth' := h th hth
    obtain ⟨t, program, log⟩ := th
    cases program with
    | pure a => trivial
    | throw e => trivial
    | call o next =>
      cases o with
      | claim envelope => exact hth'.1
      | _ => trivial

section

variable (hrun : Run (Guarded (gateway options).Step (Prompt options)) (start (IngressState.start now)) ls c)

include hrun

theorem faithful_of_run : Faithful c := by
  induction hrun with
  | nil => exact faithful_start
  | snoc hrun hstep ih =>
    refine ih.step (ledger_of_run (hrun.mono fun c l c' h => ⟨h.1, fresh_of_prompt h.2⟩)) (asks_of_run hrun.forget_guard)
      (ends_of_run hrun.forget_guard) hstep.2 hstep.1

/-- **Duplicates refer to a real run.** In every interleaving in which a duplicate waits until the claim is committed,
and every task runs under the run id of its claim, what a duplicate answers is what a submission of the same key was
answered as dispatched. -/
theorem refersToDispatch_of_run {th : IngressThread} {runId dispatchRef evidenceRef : String}
    (hth : th ∈ c.threads)
    (hended : th.program.outcome = some (.ok (.acceptedAlreadyDispatched runId dispatchRef evidenceRef))) :
    ∃ envelope, th.task = .parsed envelope ∧
      AnsweredDispatched c (dedupKey envelope) runId dispatchRef evidenceRef := by
  obtain ⟨e, he, hshown⟩ := answersShown_of_run hrun hth hended runId dispatchRef evidenceRef rfl
  exact (faithful_of_run hrun).shown th hth e he runId dispatchRef evidenceRef hshown

end

/-! ## Two submissions of one key -/

/-- What a submission was answered as a duplicate. -/
def duplicateOf (th : IngressThread) : Option (String × String × String) :=
  match th.program with
  | .pure (.acceptedAlreadyDispatched runId dispatchRef evidenceRef) => some (runId, dispatchRef, evidenceRef)
  | _ => none

theorem outcome_of_duplicateOf (h : duplicateOf th = some (runId, dispatchRef, evidenceRef)) :
    th.program.outcome = some (.ok (.acceptedAlreadyDispatched runId dispatchRef evidenceRef)) := by
  unfold duplicateOf at h
  split at h
  · rename_i heq
    obtain ⟨rfl, hrefs⟩ := Prod.mk.inj (Option.some.inj h)
    cases hrefs
    rw [heq]
    rfl
  · cases h

/-- The submission was answered as dispatched. -/
def isDispatched (th : IngressThread) : Bool :=
  match th.program with
  | .pure (.acceptedDispatched _ _ _ _ _) => true
  | _ => false

theorem isDispatched_of_outcome {workflowRef policyRef : String}
    (h : th.program.outcome = some (.ok (.acceptedDispatched runId dispatchRef workflowRef policyRef evidenceRef))) :
    isDispatched th = true := by
  obtain ⟨t, program, log⟩ := th
  cases program with
  | call | throw => cases h
  | pure outcome =>
    cases h
    rfl

/-- Two submissions of one key have claimed. -/
def bothClaim (ref : IngressRef) : List (Label IngressPayload IngressEnv) :=
  [.begin (.parsed (triggerOf "scheduler-1" "key-1" "nonce-1" ref)),
    .begin (.parsed (triggerOf "scheduler-1" "key-1" "nonce-2" ref)), .turn 0 (acceptingEnv 0 "1"),
    .turn 1 (acceptingEnv 0 "2")]

/-- The first is dispatched while the second waits. -/
theorem waitedFor_refersToDispatch : ∃ (c : IngressConfig) (th : IngressThread) (envelope : IngressTriggerEnvelope)
    (runId dispatchRef evidenceRef : String), th.task = .parsed envelope ∧
      AnsweredDispatched c (dedupKey envelope) runId dispatchRef evidenceRef := by
  obtain ⟨c, hrun, hc⟩ := (gateway openGateway).exists_run_of_check (fun _ => True) (fun _ => prompt openGateway)
    (bothClaim (.workflow "workflow:test") ++ List.replicate 4 (.turn 0 (acceptingEnv 0 "1")) ++
      [.turn 1 (acceptingEnv 0 "2")]) (IngressState.start evening)
    (fun c => c.threads[1]?.any fun th => (duplicateOf th).isSome) (by decide +kernel)
  obtain ⟨th, hget, hduplicate⟩ := (Option.any_eq_true _ _).mp hc
  obtain ⟨⟨runId, dispatchRef, evidenceRef⟩, hrefs⟩ := Option.isSome_iff_exists.mp hduplicate
  obtain ⟨envelope, htask, hanswered⟩ :=
    refersToDispatch_of_run hrun (List.mem_of_getElem? hget) (outcome_of_duplicateOf hrefs)
  exact ⟨c, th, envelope, runId, dispatchRef, evidenceRef, htask, hanswered⟩

/-- The first takes longer than the second waits, and is then rejected. -/
theorem outwaited_not_refersToDispatch : ∃ (ls : List (Label IngressPayload IngressEnv)) (c : IngressConfig)
    (th : IngressThread) (runId dispatchRef evidenceRef : String),
    Run (Guarded (gateway openGateway).Step Fresh) (start (IngressState.start evening)) ls c ∧ th ∈ c.threads ∧
    th.program.outcome = some (.ok (.acceptedAlreadyDispatched runId dispatchRef evidenceRef)) ∧
    (∀ th' ∈ c.threads, th'.program.outcome.isSome) ∧
    ¬∃ key runId' dispatchRef' evidenceRef', AnsweredDispatched c key runId' dispatchRef' evidenceRef' := by
  let stopped : IngressEnv := { acceptingEnv 0 "1" with controlState := .ok .hardStopped }
  obtain ⟨c, hrun, hc⟩ := (gateway openGateway).exists_run_of_check (fun _ => True) (fun _ => NewIds)
    (bothClaim (.workflow "workflow:test") ++ [.turn 1 (acceptingEnv 24 "2"), .turn 0 stopped, .turn 0 stopped])
    (IngressState.start evening)
    (fun c => (c.threads[1]?.any fun th => (duplicateOf th).isSome) &&
      c.threads.all fun th => th.program.outcome.isSome && !isDispatched th) (by decide +kernel)
  obtain ⟨hc, hall⟩ := (Bool.and_eq_true _ _).mp hc
  obtain ⟨th, hget, hduplicate⟩ := (Option.any_eq_true _ _).mp hc
  obtain ⟨⟨runId, dispatchRef, evidenceRef⟩, hrefs⟩ := Option.isSome_iff_exists.mp hduplicate
  rw [List.all_eq_true] at hall
  refine ⟨_, c, th, runId, dispatchRef, evidenceRef, hrun, List.mem_of_getElem? hget, outcome_of_duplicateOf hrefs,
    fun th' hth' => ((Bool.and_eq_true _ _).mp (hall th' hth')).1, ?_⟩
  rintro ⟨key, runId', dispatchRef', evidenceRef', i, th', envelope, workflowRef, policyRef, hget', -, -, hout⟩
  have hnot := ((Bool.and_eq_true _ _).mp (hall th' (List.mem_of_getElem? hget'))).2
  rw [isDispatched_of_outcome hout] at hnot
  cases hnot

end NousCore.Ingress
