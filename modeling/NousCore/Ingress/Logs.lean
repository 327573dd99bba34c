import NousCore.Ingress.Gateway
import NousCore.Lib.Follows

/-!
# What a submission leaves in its log

* `claimOf`, `isClosed`, `dispatched`, `abandoned` : whether a log has obtained a claim, committed or released it, been
  accepted by a dispatcher, and met a rejection after which nothing is released;
* `tells_submit` : every submission asks and ends so.
-/

namespace NousCore.Ingress

open Async

/-- What happened to a submission. -/
abbrev IngressLog := Log IngressOp.Answer

/-! ## Events -/

def claimed : Sigma IngressOp.Answer → Option Claim
  | ⟨.claim _, .result (.claimed claim)⟩ => some claim
  | _ => none

def closes : Sigma IngressOp.Answer → Bool
  | ⟨.commitDispatch _ _ _, _⟩ | ⟨.releaseClaim _ _, _⟩ => true
  | _ => false

def dispatches : Sigma IngressOp.Answer → Bool
  | ⟨.startWorkflow _, .ok (.started _)⟩ | ⟨.submitTaskToSystem _, .ok _⟩ => true
  | _ => false

def Thrown.isNullish : Thrown → Bool
  | .error _ => false
  | .null | .undefined => true

/-- A gate is rejected, or a dispatcher with a value that has no message. -/
def abandons : Sigma IngressOp.Answer → Bool
  | ⟨.getProjectControlState _, .error _⟩ | ⟨.getProject _, .error _⟩ | ⟨.getTask _ _, .error _⟩ => true
  | ⟨.putExecution _, .error thrown⟩ | ⟨.submitTaskToSystem _, .error thrown⟩ | ⟨.startWorkflow _, .error thrown⟩ =>
    thrown.isNullish
  | _ => false

def claimOf (l : IngressLog) : Option Claim := l.findSome? claimed

def isClosed (l : IngressLog) : Bool := l.any closes

def dispatched (l : IngressLog) : Bool := l.any dispatches

def abandoned (l : IngressLog) : Bool := l.any abandons

theorem claimOf_snoc_of_some {l : IngressLog} {claim : Claim} (h : claimOf l = some claim)
    (e : Sigma IngressOp.Answer) : claimOf (l ++ [e]) = some claim := by
  rw [claimOf, List.findSome?_append, show l.findSome? claimed = some claim from h, Option.some_or]

theorem claimOf_snoc_of_none {l : IngressLog} (h : claimOf l = none) (e : Sigma IngressOp.Answer) :
    claimOf (l ++ [e]) = claimed e := by
  rw [claimOf, List.findSome?_append, show l.findSome? claimed = none from h, Option.none_or, List.findSome?_cons]
  cases claimed e <;> rfl

theorem isClosed_snoc (l : IngressLog) (e : Sigma IngressOp.Answer) :
    isClosed (l ++ [e]) = (isClosed l || closes e) := by simp [isClosed]

theorem dispatched_snoc (l : IngressLog) (e : Sigma IngressOp.Answer) :
    dispatched (l ++ [e]) = (dispatched l || dispatches e) := by simp [dispatched]

theorem abandoned_snoc (l : IngressLog) (e : Sigma IngressOp.Answer) :
    abandoned (l ++ [e]) = (abandoned l || abandons e) := by simp [abandoned]

/-- The claim has been obtained, and nothing has come of it. -/
structure Open (claim : Claim) (l : IngressLog) : Prop where
  claim : claimOf l = some claim
  closed : isClosed l = false
  dispatched : dispatched l = false
  abandoned : abandoned l = false

theorem Open.snoc {claim : Claim} {l : IngressLog} (h : Open claim l) {e : Sigma IngressOp.Answer}
    (hcloses : closes e = false) (hdispatches : dispatches e = false) (habandons : abandons e = false) :
    Open claim (l ++ [e]) where
  claim := claimOf_snoc_of_some h.claim e
  closed := by rw [isClosed_snoc, h.closed, hcloses, Bool.or_false]
  dispatched := by rw [dispatched_snoc, h.dispatched, hdispatches, Bool.or_false]
  abandoned := by rw [abandoned_snoc, h.abandoned, habandons, Bool.or_false]

/-! ## Operations and answers -/

variable (envelope : IngressTriggerEnvelope)

/-- What a submission asks for after a log. A claim is committed or released by its last operation only, and committed
when a dispatcher has accepted. -/
def Asks (l : IngressLog) (o : IngressOp) : Prop :=
  isClosed l = false ∧ match o with
  | .claim envelope' => envelope' = envelope ∧ l = []
  | .poll key _ => key = dedupKey envelope ∧ claimOf l = none
  | .commitDispatch reservationId dispatchRef evidenceRef =>
    ∃ claim, claimOf l = some claim ∧ reservationId = claim.reservationId ∧ dispatchRef = dispatchRefOf claim ∧
      evidenceRef = evidenceRefOf envelope claim ∧ dispatched l = true
  | .releaseClaim reservationId _ =>
    ∃ claim, claimOf l = some claim ∧ reservationId = claim.reservationId ∧ dispatched l = false
  | _ => (claimOf l).isSome

/-- The answer that follows a commit. -/
def Accepts (l : IngressLog) (y : Except Thrown IngressDispatchOutcome) : Prop :=
  ∀ reservationId dispatchRef evidenceRef, ⟨.commitDispatch reservationId dispatchRef evidenceRef, ()⟩ ∈ l →
    ∃ runId workflowRef policyRef, y = .ok (.acceptedDispatched runId dispatchRef workflowRef policyRef evidenceRef) ∧
      ∀ claim, claimOf l = some claim → runId = claim.runId ∨
        ∃ submission receipt, ⟨.submitTaskToSystem submission, .ok receipt⟩ ∈ l ∧ runId = receipt.runId

/-- A claim is left open only where the submission was abandoned, and a commit is followed by its answer. -/
structure Ends (l : IngressLog) (y : Except Thrown IngressDispatchOutcome) : Prop where
  settled : ∀ claim, claimOf l = some claim → (isClosed l = true ↔ abandoned l = false)
  accepts : Accepts l y

variable {envelope} {claim : Claim} {l : IngressLog}

theorem not_mem_of_not_closed {e : Sigma IngressOp.Answer} (h : isClosed l = false) (he : closes e = true) : e ∉ l := by
  intro hmem
  rw [isClosed, List.any_eq_false] at h
  exact h e hmem he

variable {y : Except Thrown IngressDispatchOutcome}

theorem accepts_of_open (h : isClosed l = false) : Accepts l y :=
  fun _ _ _ hmem => absurd hmem (not_mem_of_not_closed h rfl)

theorem ends_of_unclaimed (hclaim : claimOf l = none)
    (hclosed : isClosed l = false) : Ends l y where
  settled := fun _ h => absurd (hclaim.symm.trans h) nofun
  accepts := accepts_of_open hclosed

theorem tells_rejectAndRelease {reason : IngressRejectReason} {reasonCode : String} {evidenceRefs : List String}
    (h : Open claim l) :
    (rejectAndRelease envelope claim reason reasonCode evidenceRefs).Tells (Asks envelope) Ends l := by
  refine tells_perform.mpr ⟨⟨h.closed, claim, h.claim, rfl, h.dispatched⟩, fun r => ⟨fun _ _ => ?_, ?_⟩⟩
  · rw [isClosed_snoc, abandoned_snoc, h.abandoned]
    simp [closes, abandons]
  · intro reservationId dispatchRef evidenceRef hmem
    rcases List.mem_append.mp hmem with hmem | hmem
    · exact absurd hmem (not_mem_of_not_closed h.closed rfl)
    · simp at hmem

theorem tells_commit {runId workflowRef policyRef : String} (hclaim : claimOf l = some claim)
    (hclosed : isClosed l = false) (hdispatched : dispatched l = true) (habandoned : abandoned l = false)
    (hrun : runId = claim.runId ∨
      ∃ submission receipt, ⟨.submitTaskToSystem submission, .ok receipt⟩ ∈ l ∧ runId = receipt.runId) :
    (commitDispatch claim.reservationId (dispatchRefOf claim) (evidenceRefOf envelope claim) >>= fun _ =>
      pure (.acceptedDispatched runId (dispatchRefOf claim) workflowRef policyRef
        (evidenceRefOf envelope claim))).Tells (Asks envelope) Ends l := by
  refine tells_perform.mpr ⟨⟨hclosed, claim, hclaim, rfl, rfl, rfl, hdispatched⟩, fun r => ⟨fun _ _ => ?_, ?_⟩⟩
  · rw [isClosed_snoc, abandoned_snoc, habandoned]
    simp [closes, abandons]
  · intro reservationId dispatchRef evidenceRef hmem
    rcases List.mem_append.mp hmem with hmem | hmem
    · exact absurd hmem (not_mem_of_not_closed hclosed rfl)
    · obtain ⟨hop, -⟩ := Sigma.mk.inj (List.mem_singleton.mp hmem)
      obtain ⟨-, rfl, rfl⟩ := IngressOp.commitDispatch.inj hop
      refine ⟨runId, workflowRef, policyRef, rfl, fun claim' hclaim' => ?_⟩
      rw [claimOf_snoc_of_some hclaim] at hclaim'
      cases hclaim'
      refine hrun.imp_right ?_
      rintro ⟨submission, receipt, hmem', hrunId⟩
      exact ⟨submission, receipt, List.mem_append_left _ hmem', hrunId⟩

/-- How the `try` block of a dispatch ends: with an answer, or by what was thrown. -/
def Tried (claim : Claim) (l : IngressLog) : Except Thrown IngressDispatchOutcome → Prop
  | .ok outcome => Ends l (.ok outcome)
  | .error thrown => claimOf l = some claim ∧ isClosed l = false ∧ dispatched l = false ∧ abandoned l = thrown.isNullish

theorem tried_of_ends {p : IngressCall IngressDispatchOutcome}
    (hp : p.Returns) (h : p.Tells (Asks envelope) Ends l) : p.Tells (Asks envelope) (Tried claim) l := by
  induction p generalizing l with
  | pure a => exact h
  | throw e => exact hp.elim
  | call o next ih => exact ⟨h.1, fun r => ih r (hp r) (h.2 r)⟩

theorem Open.tried_error (h : Open claim l) {o : IngressOp} {r : o.Answer} {thrown : Thrown}
    (hcloses : closes ⟨o, r⟩ = false) (hdispatches : dispatches ⟨o, r⟩ = false)
    (habandons : abandons ⟨o, r⟩ = thrown.isNullish) : Tried claim (l ++ [⟨o, r⟩]) (.error thrown) := by
  refine ⟨claimOf_snoc_of_some h.claim _, ?_, ?_, ?_⟩
  · rw [isClosed_snoc, h.closed, hcloses, Bool.or_false]
  · rw [dispatched_snoc, h.dispatched, hdispatches, Bool.or_false]
  · rw [abandoned_snoc, h.abandoned, habandons, Bool.false_or]

theorem tells_dispatchTask {taskRef : String} {taskDef : TaskDefinition} (h : Open claim l) :
    (dispatchTask envelope claim taskRef taskDef).Tells (Asks envelope) (Tried claim) l := by
  refine tells_perform.mpr ⟨⟨h.closed, by rw [h.claim]; rfl⟩, fun ids => ?_⟩
  have h₁ := h.snoc (e := ⟨.makeExecution, ids⟩) rfl rfl rfl
  rw [tells_bind]
  refine tells_perform.mpr ⟨⟨h₁.closed, by rw [h₁.claim]; rfl⟩, fun stored => (tells_unwrap stored).mpr ?_⟩
  cases stored with
  | error thrown => exact h₁.tried_error rfl rfl rfl
  | ok _ =>
    have h₂ : ∀ record, Open claim (l ++ [⟨.makeExecution, ids⟩] ++ [⟨.putExecution record, .ok ()⟩]) :=
      fun record => h₁.snoc rfl rfl rfl
    rw [tells_bind]
    refine tells_perform.mpr ⟨⟨(h₂ _).closed, by rw [(h₂ _).claim]; rfl⟩, fun receipt => (tells_unwrap receipt).mpr ?_⟩
    cases receipt with
    | error thrown => exact (h₂ _).tried_error rfl rfl rfl
    | ok receipt =>
      refine tried_of_ends (fun _ => trivial) (tells_commit (claimOf_snoc_of_some (h₂ _).claim _) ?_ ?_ ?_ (.inr ?_))
      · rw [isClosed_snoc, (h₂ _).closed]
        rfl
      · rw [dispatched_snoc]
        exact Bool.or_true _
      · rw [abandoned_snoc, (h₂ _).abandoned]
        rfl
      · exact ⟨_, receipt, List.mem_append_right _ (List.mem_singleton_self _), rfl⟩

variable {options : IngressDispatchAdmissionOptions}

theorem tells_dispatchWorkflow {workflowRef : String} {projectConfig : Json} {controlState : ProjectControlState}
    (h : Open claim l) : (dispatchWorkflow options envelope claim workflowRef projectConfig controlState).Tells
      (Asks envelope) (Tried claim) l := by
  unfold dispatchWorkflow
  rw [tells_bind]
  refine tells_perform.mpr ⟨⟨h.closed, by rw [h.claim]; rfl⟩, fun started => (tells_unwrap started).mpr ?_⟩
  cases started with
  | error thrown => exact h.tried_error rfl rfl rfl
  | ok startResult =>
    cases startResult with
    | admissionBlocked reasonCode evidenceRefs =>
      exact tried_of_ends (fun _ => trivial) (tells_rejectAndRelease (h.snoc rfl rfl rfl))
    | started policyRef =>
      refine tried_of_ends (fun _ => trivial) (tells_commit (claimOf_snoc_of_some h.claim _) ?_ ?_ ?_ (.inl rfl))
      · rw [isClosed_snoc, h.closed]
        rfl
      · rw [dispatched_snoc]
        exact Bool.or_true _
      · rw [abandoned_snoc, h.abandoned]
        rfl

theorem tells_catchAndRelease {reasonCode : String} {dispatch : IngressCall IngressDispatchOutcome}
    (h : dispatch.Tells (Asks envelope) (Tried claim) l) :
    (catchAndRelease envelope claim reasonCode dispatch).Tells (Asks envelope) Ends l := by
  unfold catchAndRelease
  rw [tells_bind, tells_attempt]
  refine h.mono fun l' y h' => ?_
  cases y with
  | ok outcome => exact h'
  | error thrown =>
    obtain ⟨hclaim, hclosed, hdispatched, habandoned⟩ := h'
    have hleft : thrown.isNullish = true → ∀ y, Ends l' y := by
      intro hnullish y
      refine ⟨fun claim' _ => ?_, accepts_of_open hclosed⟩
      rw [hclosed, habandoned, hnullish]
      simp
    cases thrown with
    | error message => exact tells_rejectAndRelease ⟨hclaim, hclosed, hdispatched, habandoned⟩
    | null => exact hleft rfl _
    | undefined => exact hleft rfl _

theorem Open.ends_error (h : Open claim l) {o : IngressOp} {r : o.Answer}
    (hcloses : closes ⟨o, r⟩ = false) (habandons : abandons ⟨o, r⟩ = true) : Ends (l ++ [⟨o, r⟩]) y := by
  have hclosed : isClosed (l ++ [⟨o, r⟩]) = false := by rw [isClosed_snoc, h.closed, hcloses, Bool.or_false]
  refine ⟨fun claim' _ => ?_, accepts_of_open hclosed⟩
  rw [hclosed, abandoned_snoc, habandons, Bool.or_true]
  simp

theorem tells_admitTask {taskRef : String} (h : Open claim l) :
    (admitTask options envelope claim taskRef).Tells (Asks envelope) Ends l := by
  unfold admitTask findTask
  split_ifs with hunavailable htaskStore
  · exact tells_rejectAndRelease h
  · rw [tells_bind]
    refine tells_perform.mpr ⟨⟨h.closed, by rw [h.claim]; rfl⟩, fun task => (tells_unwrap task).mpr ?_⟩
    cases task with
    | error thrown => exact h.ends_error rfl rfl
    | ok taskDef =>
      cases taskDef with
      | none => exact tells_rejectAndRelease (h.snoc rfl rfl rfl)
      | some taskDef => exact tells_catchAndRelease (tells_dispatchTask (h.snoc rfl rfl rfl))
  · exact tells_rejectAndRelease h

theorem tells_admitClaimed (h : Open claim l) :
    (admitClaimed options envelope claim).Tells (Asks envelope) Ends l := by
  unfold admitClaimed
  split_ifs with hopctl
  · exact tells_rejectAndRelease h
  · rw [tells_bind]
    refine tells_perform.mpr ⟨⟨h.closed, by rw [h.claim]; rfl⟩, fun state => (tells_unwrap state).mpr ?_⟩
    cases state with
    | error thrown => exact h.ends_error rfl rfl
    | ok controlState =>
      have h₁ := h.snoc (e := ⟨.getProjectControlState envelope.projectId, .ok controlState⟩) rfl rfl rfl
      dsimp only
      split_ifs with hblocked
      · exact tells_rejectAndRelease h₁
      · rw [tells_bind]
        refine tells_perform.mpr ⟨⟨h₁.closed, by rw [h₁.claim]; rfl⟩, fun project => (tells_unwrap project).mpr ?_⟩
        cases project with
        | error thrown => exact h₁.ends_error rfl rfl
        | ok projectConfig =>
          cases projectConfig with
          | none => exact tells_rejectAndRelease (h₁.snoc rfl rfl rfl)
          | some projectConfig =>
            have h₂ := h₁.snoc (e := ⟨.getProject envelope.projectId, .ok (some projectConfig)⟩) rfl rfl rfl
            dsimp only
            split
            · exact tells_admitTask h₂
            · exact tells_catchAndRelease (tells_dispatchWorkflow h₂)

/-! ## Submissions -/

def Claimed (l : IngressLog) : Except Thrown IngressIdempotencyClaimResult → Prop
  | .ok (.claimed claim) => Open claim l
  | _ => claimOf l = none ∧ isClosed l = false

theorem tells_waitForCommittedDuplicate {waitUntil : Int} {timers : Nat} {record : DedupRecord}
    (hclaim : claimOf l = none) (hclosed : isClosed l = false) :
    (waitForCommittedDuplicate (dedupKey envelope) waitUntil timers record).Tells (Asks envelope) Claimed l := by
  have hresult : ∀ l' record, claimOf l' = none → isClosed l' = false → Claimed l' (.ok (toDuplicateResult record)) := by
    intro l' record hclaim' hclosed'
    unfold toDuplicateResult
    split <;> exact ⟨hclaim', hclosed'⟩
  induction timers generalizing l record with
  | zero => exact hresult l record hclaim hclosed
  | succ timers ih =>
    refine tells_perform.mpr ⟨⟨hclosed, rfl, hclaim⟩, fun r => ?_⟩
    obtain ⟨latest, inTime⟩ := r
    have hclaim' : claimOf (l ++ [⟨.poll (dedupKey envelope) waitUntil, (latest, inTime)⟩]) = none :=
      claimOf_snoc_of_none hclaim _
    have hclosed' : isClosed (l ++ [⟨.poll (dedupKey envelope) waitUntil, (latest, inTime)⟩]) = false := by
      rw [isClosed_snoc, hclosed]
      rfl
    cases latest with
    | none => exact hresult _ record hclaim' hclosed'
    | some latest =>
      dsimp only
      split_ifs with hwait
      · exact ih hclaim' hclosed'
      · exact hresult _ latest hclaim' hclosed'

variable {storeOptions : IngressIdempotencyStoreOptions}

theorem tells_claim : (Ingress.claim storeOptions envelope).Tells (Asks envelope) Claimed [] := by
  refine tells_perform.mpr ⟨⟨rfl, rfl, rfl⟩, fun answer => ?_⟩
  cases answer with
  | wait record waitUntil => exact tells_waitForCommittedDuplicate rfl rfl
  | result result =>
    cases result with
    | claimed claim => exact ⟨rfl, rfl, rfl, rfl⟩
    | duplicate runId dispatchRef evidenceRef => exact ⟨rfl, rfl⟩
    | replay => exact ⟨rfl, rfl⟩

theorem tells_claimAndAdmit {options : IngressGatewayOptions} :
    (claimAndAdmit options envelope).Tells (Asks envelope) Ends [] := by
  unfold claimAndAdmit
  rw [tells_bind]
  refine tells_claim.mono fun l y h => ?_
  cases y with
  | error thrown => exact ends_of_unclaimed h.1 h.2
  | ok result =>
    cases result with
    | claimed claim => exact tells_admitClaimed h
    | duplicate runId dispatchRef evidenceRef => exact ends_of_unclaimed h.1 h.2
    | replay => exact ends_of_unclaimed h.1 h.2

def AsksFor : IngressPayload → IngressLog → IngressOp → Prop
  | .parsed envelope => Asks envelope
  | .malformed _ => fun _ _ => False

theorem tells_submit {options : IngressGatewayOptions} (payload : IngressPayload) :
    (submit options payload).Tells (AsksFor payload) Ends [] := by
  have hrejected : ∀ y, Ends [] y := fun y => ends_of_unclaimed rfl rfl
  unfold submit
  split
  · exact hrejected _
  · split
    · exact hrejected _
    · split
      · exact hrejected _
      · exact tells_claimAndAdmit

end NousCore.Ingress
