import NousCore.Lib.Async
import NousCore.Witness.Types

/-!
# Control commands and their stores

* `ControlCommandEnvelope`, `ConfirmationProof` : what is submitted;
* `getRequiredTier`, `hashScope`, `validateConfirmationProof`, `issueConfirmationProof` : confirmations;
* `acquire`, `release` : the scope lock, which is handed to the waiting command of the highest precedence.
-/

namespace NousCore.Opctl

open Witness (Timestamp WitnessActor)

abbrev ControlCommandId := String

abbrev ProjectId := String

inductive ControlActorType where
  | principal | orchestrationAgent | workerAgent | systemAgent
  deriving DecidableEq

inductive ControlScopeClass where
  | nousScope | projectRunScope | executionScope

inductive ControlScopeKind where
  | singleAgent | agentSet | projectRun

structure ControlScope where
  scopeClass : ControlScopeClass
  kind : ControlScopeKind
  targetIds : List String
  projectId : Option ProjectId

inductive ControlAction where
  | pause | resume | cancel | hardStop | revert | retry | edit | stopResponse | retryStep | revertToPreviousState
  | editSubmittedPrompt
  deriving DecidableEq

def ControlAction.text : ControlAction → String
  | .pause => "pause"
  | .resume => "resume"
  | .cancel => "cancel"
  | .hardStop => "hard_stop"
  | .revert => "revert"
  | .retry => "retry"
  | .edit => "edit"
  | .stopResponse => "stop_response"
  | .retryStep => "retry_step"
  | .revertToPreviousState => "revert_to_previous_state"
  | .editSubmittedPrompt => "edit_submitted_prompt"

inductive ConfirmationTier where
  | T0 | T1 | T2 | T3
  deriving DecidableEq

def ConfirmationTier.rank : ConfirmationTier → Nat
  | .T0 => 0
  | .T1 => 1
  | .T2 => 2
  | .T3 => 3

structure ControlCommandEnvelope where
  controlCommandId : ControlCommandId
  actorType : ControlActorType
  actorSessionId : String
  actorSeq : Nat
  nonce : String
  expiresAt : Timestamp
  scope : ControlScope
  action : ControlAction

structure ConfirmationProof where
  proofId : String
  issuedAt : Timestamp
  expiresAt : Timestamp
  scopeHash : String
  action : ControlAction
  tier : ConfirmationTier
  signature : String

structure ConfirmationProofRequest where
  scope : ControlScope
  action : ControlAction
  tier : ConfirmationTier

inductive OpctlSubmitResultStatus where
  | applied | blocked | rejected
  deriving DecidableEq

structure OpctlSubmitResult where
  status : OpctlSubmitResultStatus
  controlCommandId : ControlCommandId
  reason : Option String
  reasonCode : Option String
  targetIdsHash : Option String
  degradedIntegrity : Option Bool

inductive ProjectControlState where
  | running | pausedReview | hardStopped | resuming
  deriving DecidableEq

/-! ## Arbitration -/

def PRECEDENCE_ORDER : List ControlAction :=
  [.hardStop, .cancel, .pause, .revertToPreviousState, .revert, .resume, .retryStep, .retry, .editSubmittedPrompt,
    .edit, .stopResponse]

/-- The rank of an action; lower ranks win. -/
def getPrecedence (action : ControlAction) : Nat := PRECEDENCE_ORDER.idxOf action

/-! ## Confirmation -/

/-- `sha256` of the scope, and of the sorted targets, in hexadecimal. -/
structure Hashes where
  scopeHash : ControlScope → String
  targetIdsHash : List String → String

def Hashes.CollisionFree (hashes : Hashes) : Prop := Function.Injective hashes.scopeHash

variable (hashes : Hashes)

def hashScope (scope : ControlScope) : String := hashes.scopeHash scope

/-- `expiresAt` is five minutes after `now`; `proofId` is drawn at random. -/
def issueConfirmationProof (proofId : String) (now expiresAt : Timestamp) (params : ConfirmationProofRequest) :
    ConfirmationProof where
  proofId := proofId
  issuedAt := now
  expiresAt := expiresAt
  scopeHash := hashScope hashes params.scope
  action := params.action
  tier := params.tier
  signature := "stub-sig"

def validateConfirmationProof (now : Timestamp) (proof : ConfirmationProof) (envelope : ControlCommandEnvelope) :
    Bool :=
  if proof.expiresAt < now then false
  else if proof.action ≠ envelope.action then false
  else if proof.scopeHash ≠ hashScope hashes envelope.scope then false
  else true

def getRequiredTier : ControlAction → ConfirmationTier
  | .hardStop | .resume => .T3
  | .cancel | .revertToPreviousState | .editSubmittedPrompt => .T2
  | .pause | .stopResponse | .retryStep => .T1
  | .revert | .retry | .edit => .T0

variable {envelope : ControlCommandEnvelope}

theorem validateConfirmationProof_iff {now : Timestamp} {proof : ConfirmationProof}
    : validateConfirmationProof hashes now proof envelope = true ↔
      ¬proof.expiresAt < now ∧ proof.action = envelope.action ∧ proof.scopeHash = hashScope hashes envelope.scope := by
  unfold validateConfirmationProof
  split_ifs <;> simp_all

theorem issued_of_validateConfirmationProof (hfree : hashes.CollisionFree) {proofId : String}
    {issuedAt expiresAt now : Timestamp} {params : ConfirmationProofRequest}
    (h : validateConfirmationProof hashes now (issueConfirmationProof hashes proofId issuedAt expiresAt params)
      envelope = true) : params.action = envelope.action ∧ params.scope = envelope.scope := by
  obtain ⟨-, haction, hscope⟩ := (validateConfirmationProof_iff hashes).mp h
  exact ⟨haction, hfree hscope⟩

/-! ## Scopes -/

structure ScopeSnapshot where
  targetIds : List String
  targetIdsHash : String

/-- The targets of the scope, or its project; the hash is of the sorted targets. -/
def resolveScope (scope : ControlScope) : ScopeSnapshot :=
  let targetIds := if scope.targetIds ≠ [] then scope.targetIds else scope.projectId.toList
  let sorted := targetIds.insertionSort fun a b => a ≤ b
  { targetIds := sorted, targetIdsHash := hashes.targetIdsHash sorted }

def mapActorToWitness : ControlActorType → WitnessActor
  | .principal => .principal
  | .orchestrationAgent => .orchestrationAgent
  | .systemAgent => .subcortex
  | .workerAgent => .workerAgent

end NousCore.Opctl

namespace NousCore.Opctl

/-! ## The in-memory stores of the operator control -/

open Async
open Witness (WitnessAuthorizationInput WitnessCompletionInput)

/-- A command that holds the lock of a scope, or waits for it; `ticket` tells waiting commands apart. -/
structure Holder where
  action : ControlAction
  commandId : ControlCommandId
  ticket : Nat
  deriving DecidableEq

structure OpctlState where
  usedCommandIds : List ControlCommandId
  usedNonces : List String
  actorSeqs : Record String Nat
  holders : Record String (Option Holder)
  waiters : Record String (List Holder)
  granted : List Nat
  tickets : Nat
  lockedProjects : List ProjectId
  stateByProject : Record ProjectId (Option ProjectControlState)

inductive AcquireResult where
  | acquired
  | conflict (holderAction : ControlAction)
  | waiting (ticket : Nat)

inductive OpctlOp where
  | isCommandIdUsed (id : ControlCommandId)
  | isNonceUsed (nonce : String)
  | getLastActorSeq (sessionId : String)
  | acquire (scopeKey : String) (action : ControlAction) (commandId : ControlCommandId)
  | awaitGrant (ticket : Nat)
  | markCommandIdUsed (id : ControlCommandId)
  | markNonceUsed (nonce : String)
  | setActorSeq (sessionId : String) (seq : Nat)
  | appendAuthorization (input : WitnessAuthorizationInput)
  | appendCompletion (input : WitnessCompletionInput)
  | hasStartLock (projectId : ProjectId)
  | setStartLock (projectId : ProjectId) (locked : Bool)
  | getState (projectId : ProjectId)
  | setState (projectId : ProjectId) (state : ProjectControlState)
  | clearState (projectId : ProjectId)
  | release (scopeKey : String)

inductive OpctlError where
  | invalidResult
  | onlyPrincipalReleases

def OpctlError.message : OpctlError → String
  | .invalidResult => "Invalid uuid"
  | .onlyPrincipalReleases => "Only principal may release start lock"

@[reducible] def OpctlOp.Answer : OpctlOp → Type
  | .isCommandIdUsed _ | .isNonceUsed _ | .hasStartLock _ => Bool
  | .getLastActorSeq _ => Option Nat
  | .acquire _ _ _ => AcquireResult
  | .appendAuthorization _ => Option String
  | .appendCompletion _ => Option String
  | .getState _ => Option ProjectControlState
  | .awaitGrant _ | .markCommandIdUsed _ | .markNonceUsed _ | .setActorSeq _ _ | .setStartLock _ _ | .setState _ _
  | .clearState _ | .release _ => Unit

abbrev OpctlCall := Async OpctlOp.Answer OpctlError

namespace OpctlState

def empty : OpctlState := ⟨[], [], .empty, .empty, .empty, [], 0, [], .empty⟩

section

variable (s : OpctlState)

def holder (scopeKey : String) : Option Holder := (s.holders.get? scopeKey).join

def queue (scopeKey : String) : List Holder := (s.waiters.get? scopeKey).getD []

def locked (projectId : ProjectId) : Bool := s.lockedProjects.contains projectId

def stored (projectId : ProjectId) : Option ProjectControlState :=
  (s.stateByProject.get? projectId).join

def acquire (scopeKey : String) (action : ControlAction) (commandId : ControlCommandId) :
    AcquireResult × OpctlState :=
  match s.holder scopeKey with
  | none =>
    (.acquired, { s with
      holders := s.holders.set scopeKey (some ⟨action, commandId, s.tickets⟩)
      tickets := s.tickets + 1 })
  | some holder =>
    if getPrecedence action > getPrecedence holder.action then (.conflict holder.action, s)
    else
      (.waiting s.tickets, { s with
        waiters := s.waiters.set scopeKey (s.queue scopeKey ++ [⟨action, commandId, s.tickets⟩])
        tickets := s.tickets + 1 })

def release (scopeKey : String) : OpctlState :=
  let sorted := (s.queue scopeKey).insertionSort fun a b => getPrecedence a.action ≤ getPrecedence b.action
  match sorted with
  | [] => { s with holders := s.holders.set scopeKey none }
  | next :: _ =>
    { s with
      holders := s.holders.set scopeKey (some next)
      waiters := s.waiters.set scopeKey ((s.queue scopeKey).filter (· ≠ next))
      granted := next.ticket :: s.granted }

end

end OpctlState

/-- What the operations do; the choice of the environment is what the witness service answers, `none` a failure. -/
def answers : Answers OpctlOp.Answer (Option String) OpctlState
  | .isCommandIdUsed id, _, s => some (s.usedCommandIds.contains id, s)
  | .isNonceUsed nonce, _, s => some (s.usedNonces.contains nonce, s)
  | .getLastActorSeq sessionId, _, s => some (s.actorSeqs.get? sessionId, s)
  | .acquire scopeKey action commandId, _, s => some (s.acquire scopeKey action commandId)
  | .awaitGrant ticket, _, s => if s.granted.contains ticket then some ((), s) else none
  | .markCommandIdUsed id, _, s => some ((), { s with usedCommandIds := s.usedCommandIds.insert id })
  | .markNonceUsed nonce, _, s => some ((), { s with usedNonces := s.usedNonces.insert nonce })
  | .setActorSeq sessionId seq, _, s => some ((), { s with actorSeqs := s.actorSeqs.set sessionId seq })
  | .appendAuthorization _, x, s => some (x, s)
  | .appendCompletion _, x, s => some (x, s)
  | .hasStartLock projectId, _, s => some (s.locked projectId, s)
  | .setStartLock projectId true, _, s => some ((), { s with lockedProjects := s.lockedProjects.insert projectId })
  | .setStartLock projectId false, _, s =>
    some ((), { s with lockedProjects := s.lockedProjects.filter (· ≠ projectId) })
  | .getState projectId, _, s => some (s.stored projectId, s)
  | .setState projectId state, _, s =>
    some ((), { s with stateByProject := s.stateByProject.set projectId (some state) })
  | .clearState projectId, _, s => some ((), { s with stateByProject := s.stateByProject.set projectId none })
  | .release scopeKey, _, s => some ((), s.release scopeKey)

/-! ## The operations as calls -/

def isCommandIdUsed (id : ControlCommandId) : OpctlCall Bool := perform (OpctlOp.isCommandIdUsed id)

def isNonceUsed (nonce : String) : OpctlCall Bool := perform (OpctlOp.isNonceUsed nonce)

def getLastActorSeq (sessionId : String) : OpctlCall (Option Nat) := perform (OpctlOp.getLastActorSeq sessionId)

def markCommandIdUsed (id : ControlCommandId) : OpctlCall Unit := perform (OpctlOp.markCommandIdUsed id)

def markNonceUsed (nonce : String) : OpctlCall Unit := perform (OpctlOp.markNonceUsed nonce)

def setActorSeq (sessionId : String) (seq : Nat) : OpctlCall Unit := perform (OpctlOp.setActorSeq sessionId seq)

/-- What `acquire` resolves to: `none` when the lock is held, else the action that holds it. -/
def acquire (scopeKey : String) (action : ControlAction) (commandId : ControlCommandId) :
    OpctlCall (Option ControlAction) := do
  let result : AcquireResult ← perform (OpctlOp.acquire scopeKey action commandId)
  match result with
  | .acquired => return none
  | .conflict holderAction => return some holderAction
  | .waiting ticket =>
    let _ ← perform (OpctlOp.awaitGrant ticket)
    return none

def release (scopeKey : String) : OpctlCall Unit := perform (OpctlOp.release scopeKey)

def appendAuthorization (input : WitnessAuthorizationInput) : OpctlCall (Option String) :=
  perform (OpctlOp.appendAuthorization input)

def appendCompletion (input : WitnessCompletionInput) : OpctlCall (Option String) :=
  perform (OpctlOp.appendCompletion input)

section

variable (projectId : ProjectId)

def storeSetStartLock (locked : Bool) : OpctlCall Unit :=
  perform (OpctlOp.setStartLock projectId locked)

def hasStartLock : OpctlCall Bool := perform (OpctlOp.hasStartLock projectId)

def storeGet : OpctlCall (Option ProjectControlState) := perform (OpctlOp.getState projectId)

def storeSet (state : ProjectControlState) : OpctlCall Unit :=
  perform (OpctlOp.setState projectId state)

def storeClear : OpctlCall Unit := perform (OpctlOp.clearState projectId)

end

end NousCore.Opctl
