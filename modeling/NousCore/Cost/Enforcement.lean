import Mathlib.Data.Rat.Init
import NousCore.Lib.Calendar
import NousCore.Opctl.StartLock

/-!
# Pauses raised by the cost governance

* `EnforcementRecord` : what the enforcement log keeps of a pause;
* `EnforcementTask`, `service` : the pauses and all calls of the operator control, as one system on the stores.
-/

namespace NousCore.Cost.Enforcement

open Async Opctl
open Witness (Timestamp)

structure EnforcementRecord where
  timestamp : Int
  projectId : ProjectId
  spendAtTrigger : ℚ
  ceilingUsd : ℚ
  success : Bool

/-- What one call draws and reads of the clock: the id and the nonce of its command, and when it builds the envelope,
when that is validated, when its confirmation is, and when the call is logged. -/
structure Draws where
  controlCommandId : ControlCommandId
  nonce : String
  now : Int
  validated : Timestamp
  confirmed : Timestamp
  logged : Int

structure EnforcementState where
  opctl : OpctlState
  actorSeq : Nat
  enforcementLog : List EnforcementRecord

inductive EnforcementOp where
  | opctl (op : OpctlOp)
  | nextSeq
  | push (record : EnforcementRecord)

@[reducible] def EnforcementOp.Answer : EnforcementOp → Type
  | .opctl op => op.Answer
  | .nextSeq => Nat
  | .push _ => Unit

abbrev EnforcementCall := Async EnforcementOp.Answer OpctlError

def answers : Answers EnforcementOp.Answer (Option String) EnforcementState
  | .opctl op, x, s => (Opctl.answers op x s.opctl).map fun r => (r.1, { s with opctl := r.2 })
  | .nextSeq, _, s => some (s.actorSeq, { s with actorSeq := s.actorSeq + 1 })
  | .push record, _, s => some ((), { s with enforcementLog := s.enforcementLog ++ [record] })

def opctlCall {α : Type} (p : OpctlCall α) : EnforcementCall α := p.via .opctl fun _ r => r

def nextSeq : EnforcementCall Nat := perform EnforcementOp.nextSeq

def push (record : EnforcementRecord) : EnforcementCall Unit := perform (EnforcementOp.push record)

variable (hashes : Hashes) (deps : OpctlServiceDeps) (actorSessionId : String) (isUuid : String → Bool)

/-! ## One pause -/

/-- The command of a pause: it expires 60 seconds after it was built. -/
def pauseEnvelope (projectId : ProjectId) (actorSeq : Nat) (draws : Draws) : ControlCommandEnvelope where
  controlCommandId := draws.controlCommandId
  actorType := .systemAgent
  actorSessionId := actorSessionId
  actorSeq := actorSeq
  nonce := draws.nonce
  expiresAt := (toISOString (draws.now + 60000)).text
  scope := { scopeClass := .projectRunScope, kind := .projectRun, targetIds := [], projectId := some projectId }
  action := .pause

/-- The schema of the envelope takes a project id that is a UUID. -/
def rawEnvelope (envelope : ControlCommandEnvelope) : RawEnvelope :=
  if envelope.scope.projectId.all isUuid then .parsed envelope else .malformed (some envelope.controlCommandId)

/-- The project needs no pause. -/
def isHalted : Except OpctlError ProjectControlState → Bool
  | .ok .pausedReview => true
  | .ok .hardStopped => true
  | _ => false

/-- What `submitCommand` answered, or `none` where the pause was skipped. -/
def triggerPause (projectId : ProjectId) (spendAtTrigger ceilingUsd : ℚ) (draws : Draws) :
    EnforcementCall (Option (Except OpctlError OpctlSubmitResult)) := do
  let controlState ← attempt (opctlCall (getProjectControlState deps projectId))
  if isHalted controlState then return none
  else do
    let actorSeq ← nextSeq
    let raw := rawEnvelope isUuid (pauseEnvelope actorSessionId projectId actorSeq draws)
    let submitted ← attempt (opctlCall (submitCommand hashes deps raw none draws.validated draws.confirmed))
    push
      { timestamp := draws.logged
        projectId := projectId
        spendAtTrigger := spendAtTrigger
        ceilingUsd := ceilingUsd
        success := submitted.isOk }
    return some submitted

/-! ## The service -/

inductive EnforcementTask where
  | triggerPause (projectId : ProjectId) (spendAtTrigger ceilingUsd : ℚ) (draws : Draws)
  | opctl (task : OpctlTask)

inductive EnforcementResult where
  | triggered (submitted : Option (Except OpctlError OpctlSubmitResult))
  | opctl (result : OpctlResult)

def taskBody : EnforcementTask → EnforcementCall EnforcementResult
  | .triggerPause projectId spendAtTrigger ceilingUsd draws =>
    .triggered <$> triggerPause hashes deps actorSessionId isUuid projectId spendAtTrigger ceilingUsd draws
  | .opctl task => .opctl <$> opctlCall (Opctl.taskBody hashes deps task)

def service : System EnforcementTask EnforcementOp.Answer (Option String) EnforcementState OpctlError EnforcementResult
    where
  body := taskBody hashes deps actorSessionId isUuid
  answers := answers
  spawned := fun _ => []
  exclusive := fun _ => false

abbrev EnforcementThread := Thread EnforcementTask EnforcementOp.Answer OpctlError EnforcementResult

abbrev EnforcementConfig :=
  Config EnforcementTask EnforcementOp.Answer EnforcementState OpctlError EnforcementResult

/-! ## What a pause is for -/

/-- The control state of a project is set: its start lock, or what is stored for it. -/
def sets (projectId : ProjectId) : EnforcementOp → Bool
  | .opctl (.setStartLock id _) => id = projectId
  | .opctl (.setState id _) => id = projectId
  | .opctl (.clearState id) => id = projectId
  | _ => false

/-- Between `c` and `c'` a command sets the control state of the project. -/
def SetLater (projectId : ProjectId) (c c' : EnforcementConfig) : Prop :=
  ∃ i, ∃ e ∈ System.loggedSince c c' i, sets projectId e.1 = true

/-- The reasons of a rejection as a replay, or for its place in the session. -/
def replayReasons : List String :=
  ["Replay detected: command ID already used", "Replay detected: nonce reused", "Out-of-order actor_seq"]

/-- Every call has come to its end. -/
def AllSettled (c : EnforcementConfig) : Prop := ∀ th ∈ c.threads, th.program.outcome.isSome = true

/-- The operator control answered `result` to the pause of the call. -/
def Answered (th : EnforcementThread) (result : OpctlSubmitResult) : Prop :=
  th.program.outcome = some (.ok (.triggered (some (.ok result))))

/-- **Pauses take effect.** In the runs from `s` to `c`. -/
structure PausesTakeEffect (s : EnforcementState) (c : EnforcementConfig) : Prop where
  /-- A project that was not locked when its pause began is paused, or a later command has set its state. -/
  paused : ∀ ls₁ ls₂ c₁ projectId spendAtTrigger ceilingUsd draws,
    Run (service hashes deps actorSessionId isUuid).Step (System.start s) ls₁ c₁ →
    Run (service hashes deps actorSessionId isUuid).Step c₁
      (.begin (.triggerPause projectId spendAtTrigger ceilingUsd draws) :: ls₂) c →
    c₁.state.opctl.locked projectId = false →
    controlState deps c.state.opctl projectId = .pausedReview ∨ SetLater projectId c₁ c
  /-- No pause is taken for a replay. -/
  accepted : ∀ th ∈ c.threads, ∀ result, Answered th result → ∀ reason ∈ result.reason, reason ∉ replayReasons
  /-- A pause that was not applied is not logged as a success. -/
  recorded : ∀ th ∈ c.threads, ∀ result, Answered th result → result.status ≠ .applied →
    ∀ record, (⟨.push record, ()⟩ : Sigma EnforcementOp.Answer) ∈ th.log → record.success = false

/-- The answer that a pause is skipped for: the project is locked, or paused. -/
def spares (projectId : ProjectId) : Sigma EnforcementOp.Answer → Bool
  | ⟨.opctl (.hasStartLock id), locked⟩ => id = projectId && locked
  | ⟨.opctl (.getState id), stored⟩ => id = projectId && stored = some .pausedReview
  | _ => false

/-- Every pause finds its project locked, or paused. -/
def AllSpared (c : EnforcementConfig) : Prop :=
  ∀ th ∈ c.threads, ∀ projectId spendAtTrigger ceilingUsd draws,
    th.task = .triggerPause projectId spendAtTrigger ceilingUsd draws → ∃ e ∈ th.log, spares projectId e = true

end NousCore.Cost.Enforcement
