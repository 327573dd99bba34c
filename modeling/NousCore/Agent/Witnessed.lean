import NousCore.Agent.Types
import NousCore.Lib.Fallible

/-!
# Critical actions under witness

* `Appends`, `CriticalAction` : what the witness service does with each event, and the action that it is told of;
* `executeWithWitness` : an authorization, the action, and a completion;
* `Truthful` : what the ledger says of the action is so.
-/

namespace NousCore.Agent

open Fallible

/-! ## The service and the action -/

/-- An event that is appended; an append may be rejected before the event is durable, or after. -/
inductive Append where
  | appended (id : EventId)
  | lost (thrown : Thrown)
  | stored (thrown : Thrown)

def Append.isDurable : Append → Bool
  | .appended _ | .stored _ => true
  | .lost _ => false

def Append.isRejected : Append → Bool
  | .appended _ => false
  | .lost _ | .stored _ => true

@[simp] theorem Append.lost_spec (thrown : Thrown) :
    (Append.lost thrown).isDurable = false ∧ (Append.lost thrown).isRejected = true := ⟨rfl, rfl⟩

@[simp] theorem Append.stored_spec (thrown : Thrown) :
    (Append.stored thrown).isDurable = true ∧ (Append.stored thrown).isRejected = true := ⟨rfl, rfl⟩

/-- What the witness service does with the authorization of an action, and with a completion of either status. -/
structure Appends where
  authorization : Append
  succeeded : Append
  failed : Append

structure CriticalAction where
  actionCategory : Witness.CriticalActionCategory
  actionRef : String
  traceId : String
  projectId : Option String
  actor : Witness.WitnessActor
  detail : List (String × Json)
  deriving DecidableEq

/-- What the service is told. -/
structure WitnessInput extends CriticalAction where
  stage : Witness.WitnessEventStage
  status : Witness.WitnessEventStatus
  authorizationRef : Option EventId
  deriving DecidableEq

/-- The events of the action that have become durable, and whether it was begun. -/
structure WitnessedState where
  ledger : List WitnessInput
  begun : Bool

def WitnessedState.empty : WitnessedState := ⟨[], false⟩

abbrev Witnessed := Fallible Thrown WitnessedState

/-- The event is written, unless it is lost, and its id is returned, unless the append is rejected. -/
def append (answer : Append) (input : WitnessInput) : Witnessed EventId :=
  match answer with
  | .appended id => do
    modify fun s => { s with ledger := s.ledger ++ [input] }
    return id
  | .lost thrown => throw thrown
  | .stored thrown => do
    modify fun s => { s with ledger := s.ledger ++ [input] }
    throw thrown

def runOperation {α : Type} (operation : Except Thrown α) : Witnessed α := do
  modify fun s => { s with begun := true }
  MonadExcept.ofExcept operation

/-! ## The action under witness -/

section

variable {α : Type} (action : CriticalAction) (operation : Except Thrown α)

def authorizationFailed (thrown : Thrown) : Thrown :=
  ⟨s!"Critical action blocked: witness authorization append failed ({thrown.message})",
    some "WITNESS_AUTHORIZATION_FAILED", []⟩

def completionFailed (thrown : Thrown) : Thrown :=
  ⟨s!"Critical action evidence completion failed ({thrown.message})", some "WITNESS_COMPLETION_FAILED", []⟩

def authorizationInput : WitnessInput :=
  { action with stage := .authorization, status := .approved, authorizationRef := none }

def succeededInput (authorizationId : EventId) : WitnessInput :=
  { action with stage := .completion, status := .succeeded, authorizationRef := some authorizationId }

/-- An `error` that the detail has is replaced. -/
def failedInput (authorizationId : EventId) (thrown : Thrown) : WitnessInput :=
  { action with
    stage := .completion
    status := .failed
    authorizationRef := some authorizationId
    detail := action.detail.filter (·.1 ≠ "error") ++ [("error", .string thrown.message)] }

/-- What follows the authorization in the `try`. -/
def completeAction (appends : Appends) (authorizationId : EventId) : Witnessed (α × Option TraceEvidenceReference) := do
  let value ← runOperation operation
  let completionId ← append appends.succeeded (succeededInput action authorizationId)
  return (value, some ⟨action.actionCategory, authorizationId, completionId⟩)

/-- What is caught once there is an authorization. -/
def reportFailure (appends : Appends) (authorizationId : EventId) (thrown : Thrown) :
    Witnessed (α × Option TraceEvidenceReference) :=
  if authorizationId.truthy = false then throw (authorizationFailed thrown)
  else do
    match ← attempt (append appends.failed (failedInput action authorizationId thrown)) with
    | .ok _ => throw thrown
    | .error completionError => throw (completionFailed completionError)

def executeWithWitness (witnessService : Option Appends) : Witnessed (α × Option TraceEvidenceReference) :=
  match witnessService with
  | none => do
    let value ← runOperation operation
    return (value, none)
  | some appends => do
    match ← attempt (append appends.authorization (authorizationInput action)) with
    | .error thrown => throw (authorizationFailed thrown)
    | .ok authorizationId =>
      tryCatch (completeAction action operation appends authorizationId) (reportFailure action appends authorizationId)

/-- What the action leaves. -/
def witnessedState (witnessService : Option Appends) : WitnessedState :=
  (outcome (executeWithWitness action operation witnessService) .empty).2

end

/-! ## What the ledger says -/

def WitnessInput.isCompletion (input : WitnessInput) : Bool := input.stage = .completion

structure Truthful {α : Type} (operation : Except Thrown α) (s : WitnessedState) : Prop where
  once : s.ledger.countP (·.isCompletion) ≤ 1
  failed : ∀ input ∈ s.ledger, input.isCompletion = true → input.status = .failed → ∃ thrown, operation = .error thrown
  authorized : s.begun = true → ∃ input ∈ s.ledger, input.stage = .authorization

/-- The action succeeds, its completion is rejected, and then a completion is written that says that it failed. -/
def Misreports {α : Type} (operation : Except Thrown α) (appends : Appends) : Prop :=
  (∃ id, appends.authorization = .appended id ∧ id.truthy = true) ∧ operation.toOption.isSome = true ∧
    appends.succeeded.isRejected = true ∧ appends.failed.isDurable = true

section

variable {α : Type} {action : CriticalAction} {operation : Except Thrown α} {appends : Appends} {id : EventId}
  {thrown : Thrown} {s : WitnessedState}

theorem state_append (answer : Append) (input : WitnessInput) (s : WitnessedState) :
    (outcome (append answer input) s).2 =
      { s with ledger := s.ledger ++ if answer.isDurable = true then [input] else [] } := by
  cases answer with
  | lost thrown =>
    show s = { s with ledger := s.ledger ++ [] }
    rw [List.append_nil]
  | _ => rfl

theorem state_reportFailure : (outcome (reportFailure (α := α) action appends id thrown) s).2 = { s with
    ledger := s.ledger ++
      if id.truthy = true ∧ appends.failed.isDurable = true then [failedInput action id thrown] else [] } := by
  unfold reportFailure
  by_cases htruthy : id.truthy = true
  · rw [if_neg (by rw [htruthy]; exact nofun), outcome_bind, outcome_attempt]
    simp only [htruthy, true_and]
    rw [← state_append appends.failed (failedInput action id thrown) s]
    rcases outcome (append appends.failed (failedInput action id thrown)) s with ⟨e | a, s'⟩ <;> rfl
  · rw [if_pos ((Bool.not_eq_true _).mp htruthy), if_neg fun h => htruthy h.1, List.append_nil]
    rfl

/-- The completions that the action leaves, once it is authorized. -/
def Completions (action : CriticalAction) (operation : Except Thrown α) (appends : Appends) (id : EventId)
    (completions : List WitnessInput) : Prop :=
  match operation with
  | .error thrown => completions =
      if id.truthy = true ∧ appends.failed.isDurable = true then [failedInput action id thrown] else []
  | .ok _ => ∃ thrown, completions = (if appends.succeeded.isDurable = true then [succeededInput action id] else []) ++
      if appends.succeeded.isRejected = true ∧ id.truthy = true ∧ appends.failed.isDurable = true then
        [failedInput action id thrown] else []

theorem witnessedState_authorized (h : appends.authorization = .appended id) : ∃ completions,
    witnessedState action operation (some appends) = ⟨authorizationInput action :: completions, true⟩ ∧
      Completions action operation appends id completions := by
  have hstate : witnessedState action operation (some appends) =
      (outcome (tryCatch (completeAction action operation appends id) (reportFailure action appends id))
        ⟨[authorizationInput action], false⟩).2 := by
    unfold witnessedState executeWithWitness
    simp only [h]
    rfl
  rw [hstate, outcome_tryCatch]
  cases operation with
  | error thrown =>
    refine ⟨_, ?_, rfl⟩
    exact state_reportFailure
  | ok value =>
    cases hsucceeded : appends.succeeded with
    | appended completionId =>
      refine ⟨[succeededInput action id], ?_, ⟨.error "", ?_⟩⟩
      · simp only [completeAction, hsucceeded]
        rfl
      · rw [hsucceeded]
        rfl
    | lost thrown =>
      refine ⟨_, ?_, ⟨thrown, rfl⟩⟩
      simp only [completeAction, hsucceeded]
      exact state_reportFailure.trans (by simp)
    | stored thrown =>
      refine ⟨_, ?_, ⟨thrown, rfl⟩⟩
      simp only [completeAction, hsucceeded]
      exact state_reportFailure.trans (by simp)

/-- Without such a report there is one completion at most, and one that says that the action failed only if it did. -/
theorem completions_of_not_misreports {completions : List WitnessInput} (hid : appends.authorization = .appended id)
    (h : ¬Misreports operation appends) (hcompletions : Completions action operation appends id completions) :
    completions.length ≤ 1 ∧ ∀ input ∈ completions, input.status = .failed → ∃ thrown, operation = .error thrown := by
  cases operation with
  | error thrown =>
    refine ⟨?_, fun _ _ _ => ⟨thrown, rfl⟩⟩
    have hlist : completions = _ := hcompletions
    rw [hlist]
    split_ifs <;> simp
  | ok value =>
    obtain ⟨thrown, hlist⟩ : ∃ thrown, completions = _ := hcompletions
    have hnot : ¬(appends.succeeded.isRejected = true ∧ id.truthy = true ∧ appends.failed.isDurable = true) :=
      fun hreport => h ⟨⟨id, hid, hreport.2.1⟩, rfl, hreport.1, hreport.2.2⟩
    rw [if_neg hnot, List.append_nil] at hlist
    rw [hlist]
    split_ifs
    · exact ⟨Nat.le_refl 1, by simp [succeededInput]⟩
    · exact ⟨Nat.zero_le 1, by simp⟩

theorem witnessedState_unauthorized (h : appends.authorization.isRejected = true) :
    witnessedState action operation (some appends) =
      ⟨if appends.authorization.isDurable = true then [authorizationInput action] else [], false⟩ := by
  unfold witnessedState executeWithWitness
  cases hauthorization : appends.authorization with
  | appended id =>
    rw [hauthorization] at h
    cases h
  | lost | stored => simp only [hauthorization]; rfl

/-- **What the ledger says of the action is so, unless it succeeds, its completion is rejected, and one that says that it
failed is written.** -/
theorem executeWithWitness_truthful_iff (action : CriticalAction) (operation : Except Thrown α) (appends : Appends) :
    Truthful operation (witnessedState action operation (some appends)) ↔ ¬Misreports operation appends := by
  cases hauthorization : appends.authorization with
  | appended id =>
    obtain ⟨completions, hstate, hcompletions⟩ := @witnessedState_authorized _ action operation _ _ hauthorization
    rw [hstate]
    constructor
    · rintro h ⟨⟨id', hid', htruthy⟩, hok, hrejected, hdurable⟩
      obtain rfl : id = id' := Append.appended.inj (hauthorization.symm.trans hid')
      cases operation with
      | error thrown => cases hok
      | ok value =>
        obtain ⟨thrown, rfl⟩ := hcompletions
        rw [if_pos (show appends.succeeded.isRejected = true ∧ id.truthy = true ∧ appends.failed.isDurable = true from
          ⟨hrejected, htruthy, hdurable⟩)] at h
        obtain ⟨thrown', hfailed⟩ := h.failed (failedInput action id thrown) (by simp) rfl rfl
        cases hfailed
    · intro h
      obtain ⟨hlength, hfailed⟩ := completions_of_not_misreports hauthorization h hcompletions
      refine ⟨?_, fun input hinput hcompletion hstatus => ?_, fun _ => ⟨_, List.mem_cons_self, rfl⟩⟩
      · rw [List.countP_cons_of_neg (by simp [authorizationInput, WitnessInput.isCompletion])]
        exact List.countP_le_length.trans hlength
      · rcases List.mem_cons.mp hinput with rfl | hinput
        · cases hcompletion
        · exact hfailed input hinput hstatus
  | lost thrown =>
    rw [witnessedState_unauthorized (by rw [hauthorization]; rfl), hauthorization]
    refine iff_of_true ⟨by simp, by simp, by simp⟩ ?_
    rintro ⟨⟨id, hid, -⟩, -⟩
    cases hauthorization.symm.trans hid
  | stored thrown =>
    rw [witnessedState_unauthorized (by rw [hauthorization]; rfl), hauthorization]
    refine iff_of_true ⟨by simp [authorizationInput, WitnessInput.isCompletion], ?_, nofun⟩ ?_
    · simp [authorizationInput, WitnessInput.isCompletion]
    · rintro ⟨⟨id, hid, -⟩, -⟩
      cases hauthorization.symm.trans hid

end

/-- The completion of an action that succeeds becomes durable, and its append is rejected all the same. -/
def rejectedAfterwards : Appends := ⟨.appended (.uuid "a"), .stored (.error "head not saved"), .appended (.uuid "b")⟩

def toolExecution : CriticalAction := ⟨.toolExecute, "tool", "trace", none, .orchestrationAgent, []⟩

/-- There are two completions, and one says that the action failed. -/
theorem rejected_completion_misreports :
    (witnessedState toolExecution (.ok ()) (some rejectedAfterwards)).ledger.countP (·.isCompletion) = 2 ∧
      ¬Truthful (.ok ()) (witnessedState toolExecution (.ok ()) (some rejectedAfterwards)) := by
  refine ⟨by decide +kernel, fun h => ?_⟩
  obtain ⟨thrown, hthrown⟩ := h.failed
    (failedInput toolExecution (.uuid "a") (.error "head not saved")) (by decide +kernel) rfl rfl
  cases hthrown

end NousCore.Agent
