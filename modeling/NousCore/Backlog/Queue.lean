import NousCore.Lib.Async
import NousCore.Lib.Calendar
import NousCore.Lib.Collection
import NousCore.Lib.Follows
import NousCore.Lib.Json

/-!
# The system backlog queue and its store

* `snapshotAnalytics`, `transition`, `pruneRetained` : operations of `DocumentBacklogStore`;
* `execute` : the execution of one entry, from its start to the next promotion;
* `every_transition`, `every_pruneRetained` : the operations of the store;
* `mayAsk`, `every_execute` : the operations that an execution may ask for.
-/

namespace NousCore.Backlog

/-- A string that `z.string().min(1)` accepts. -/
abbrev Text := { s : String // s ≠ "" }

abbrev Detail := Record String Json

inductive BacklogEntryStatus where
  | queued | active | suspended | completed | failed
  deriving DecidableEq

inductive BacklogPriority where
  | low | normal | high | critical

inductive BacklogResultStatus where
  | completed | escalated | aborted | budgetExhausted | error | suspended

structure BacklogEntry where
  id : Text
  status : BacklogEntryStatus
  priority : BacklogPriority
  priorityRank : Nat
  acceptedAt : IsoTime
  promotedAt : Option IsoTime
  completedAt : Option IsoTime
  queueDepthAtAcceptance : Nat
  resultStatus : Option BacklogResultStatus
  lastErrorCode : Option Text
  lastErrorMessage : Option Text
  suspensionDetail : Option Detail

def BacklogEntry.key (e : BacklogEntry) : String := e.id.val

def BacklogEntry.hasStatus (status : BacklogEntryStatus) (e : BacklogEntry) : Bool := e.status = status

/-! ## Updates -/

/-- What `executeEntry` throws. -/
inductive ThrownValue where
  | error (message : String)
  /-- No `Error`: what `String(value)` is, if it does not throw itself. -/
  | other (text : Option String)

inductive BacklogError where
  | invalidEntry
  | thrown (value : ThrownValue)
  /-- `String(value)` has thrown. -/
  | notPrimitive

/-- `error instanceof Error ? error.message : String(error)`; the message of the schema is not empty. -/
def BacklogError.text : BacklogError → Except BacklogError String
  | .invalidEntry => .ok "String must contain at least 1 character(s)"
  | .thrown (.error message) => .ok message
  | .thrown (.other (some text)) => .ok text
  | .thrown (.other none) => .error .notPrimitive
  | .notPrimitive => .ok "Cannot convert object to primitive value"

/-- `Partial<BacklogEntry>`: a field that is there overwrites, also with `undefined`. -/
structure BacklogPatch where
  promotedAt : Option (Option IsoTime) := none
  completedAt : Option IsoTime := none
  resultStatus : Option (Option BacklogResultStatus) := none
  lastErrorCode : Option (Option String) := none
  lastErrorMessage : Option (Option String) := none
  suspensionDetail : Option (Option Detail) := none

/-- `z.string().min(1).optional()`, of a field that is patched or stays as it is. -/
def parseText (field : Option (Option String)) (existing : Option Text) : Except BacklogError (Option Text) :=
  match field with
  | none => .ok existing
  | some none => .ok none
  | some (some s) => if h : s ≠ "" then .ok (some ⟨s, h⟩) else .error .invalidEntry

def BacklogEntry.patched (existing : BacklogEntry) (patch : BacklogPatch) (nextStatus : BacklogEntryStatus) :
    Except BacklogError BacklogEntry :=
  match parseText patch.lastErrorCode existing.lastErrorCode,
    parseText patch.lastErrorMessage existing.lastErrorMessage with
  | .ok lastErrorCode, .ok lastErrorMessage =>
    .ok { existing with
      status := nextStatus
      promotedAt := patch.promotedAt.getD existing.promotedAt
      completedAt := patch.completedAt.or existing.completedAt
      resultStatus := patch.resultStatus.getD existing.resultStatus
      lastErrorCode := lastErrorCode
      lastErrorMessage := lastErrorMessage
      suspensionDetail := patch.suspensionDetail.getD existing.suspensionDetail }
  | _, _ => .error .invalidEntry

variable {existing updated : BacklogEntry} {patch : BacklogPatch} {nextStatus : BacklogEntryStatus}

theorem patched_spec (h : existing.patched patch nextStatus = .ok updated) :
    updated.key = existing.key ∧ updated.status = nextStatus := by
  unfold BacklogEntry.patched at h
  split at h
  · cases h
    exact ⟨rfl, rfl⟩
  · cases h

/-! ## Analytics -/

structure BacklogAnalytics where
  queuedCount : Nat
  activeCount : Nat
  suspendedCount : Nat

def analyticsOf (allEntries : List BacklogEntry) : BacklogAnalytics where
  queuedCount := allEntries.countP (·.hasStatus .queued)
  activeCount := allEntries.countP (·.hasStatus .active)
  suspendedCount := allEntries.countP (·.hasStatus .suspended)

/-- No entry is queued, active or suspended. -/
def BacklogAnalytics.idle (analytics : BacklogAnalytics) : Bool :=
  analytics.queuedCount = 0 ∧ analytics.activeCount = 0 ∧ analytics.suspendedCount = 0

/-! ## Submissions, releases and results -/

inductive AgentResult where
  | completed | escalated | aborted | budgetExhausted
  | error (reason : Text)
  | suspended (reason : Text) (detail : Option Detail)

def AgentResult.status : AgentResult → BacklogResultStatus
  | .completed => .completed
  | .escalated => .escalated
  | .aborted => .aborted
  | .budgetExhausted => .budgetExhausted
  | .error _ => .error
  | .suspended _ _ => .suspended

/-- `executeEntry` resolves with a result that the schema accepts or refuses, or it throws. -/
inductive ExecuteOutcome where
  | result (result : AgentResult)
  | malformed
  | thrown (value : ThrownValue)

structure BacklogQueueConfig where
  activeCapacity : Nat
  activeCapacity_pos : 0 < activeCapacity
  retentionWindowMs : Nat

end NousCore.Backlog

namespace NousCore.Backlog

/-! ## The backlog store -/

open Async

abbrev BacklogCollection := Collection BacklogEntry.key

structure BacklogState where
  collection : BacklogCollection
  ready : Bool
  promotionInFlight : Bool
  idleWaiters : List Nat
  /-- The number of waiters that were registered. -/
  waiterCount : Nat
  /-- The entries whose `executeEntry` call is in progress. -/
  executing : List String

/-- What the environment chooses: the time, and how an execution ends. -/
structure BacklogEnv where
  now : IsoTime
  outcome : ExecuteOutcome

inductive BacklogOp where
  | get (id : String)
  | put (entry : BacklogEntry)
  | delete (id : String)
  | list
  | listByStatus (status : BacklogEntryStatus)
  | now
  | awaitReady
  /-- `void this.promote()`, and `ready` resolves. -/
  | initialized
  | promote
  /-- Whether no promotion was in flight; now one is. -/
  | enterPromotion
  | nextPromotion
  /-- `promote` returns, and the idle waiters are resolved when `idle`. -/
  | leavePromotion (idle : Bool)
  | execute (entry : BacklogEntry)
  | startEntry (id : String)
  | awaitEntry (id : String)
  /-- The idle waiters are resolved when `idle`, and `void this.promote()`. -/
  | finishExecution (idle : Bool)
  | registerWaiter
  | awaitIdle (waiter : Nat)

@[reducible] def BacklogOp.Answer : BacklogOp → Type
  | .get id => Option { e : BacklogEntry // e.key = id }
  | .list | .listByStatus _ => List BacklogEntry
  | .now => IsoTime
  | .enterPromotion => Bool
  | .awaitEntry _ => ExecuteOutcome
  | .registerWaiter => Nat
  | .put _ | .delete _ | .awaitReady | .initialized | .promote | .nextPromotion | .leavePromotion _ | .execute _
  | .startEntry _ | .finishExecution _ | .awaitIdle _ => Unit

abbrev BacklogCall := Async BacklogOp.Answer BacklogError

def byAcceptance (entries : List BacklogEntry) : List BacklogEntry :=
  entries.insertionSort fun a b => a.acceptedAt.text ≤ b.acceptedAt.text

def BacklogState.resolveIdle (s : BacklogState) (idle : Bool) : BacklogState :=
  if idle then { s with idleWaiters := [] } else s

def answers : Answers BacklogOp.Answer BacklogEnv BacklogState
  | .get id, _, s => some (s.collection.get id, s)
  | .put entry, _, s => some ((), { s with collection := s.collection.put entry })
  | .delete id, _, s => some ((), { s with collection := s.collection.delete id })
  | .list, _, s => some (byAcceptance s.collection.all, s)
  | .listByStatus status, _, s => some (byAcceptance (s.collection.all.filter (·.hasStatus status)), s)
  | .now, env, s => some (env.now, s)
  | .awaitReady, _, s => if s.ready then some ((), s) else none
  | .initialized, _, s => some ((), { s with ready := true })
  | .promote, _, s => some ((), s)
  | .enterPromotion, _, s => some (!s.promotionInFlight, { s with promotionInFlight := true })
  | .nextPromotion, _, s => some ((), s)
  | .leavePromotion idle, _, s => some ((), { s.resolveIdle idle with promotionInFlight := false })
  | .execute _, _, s => some ((), s)
  | .startEntry id, _, s => some ((), { s with executing := id :: s.executing })
  | .awaitEntry id, env, s => some (env.outcome, { s with executing := s.executing.erase id })
  | .finishExecution idle, _, s => some ((), s.resolveIdle idle)
  | .registerWaiter, _, s =>
    some (s.waiterCount, { s with idleWaiters := s.waiterCount :: s.idleWaiters, waiterCount := s.waiterCount + 1 })
  | .awaitIdle waiter, _, s => if waiter ∈ s.idleWaiters then none else some ((), s)

/-! ## The operations as calls -/

def get (id : String) : BacklogCall (Option { e : BacklogEntry // e.key = id }) := perform (BacklogOp.get id)

def put (entry : BacklogEntry) : BacklogCall Unit := perform (BacklogOp.put entry)

def delete (id : String) : BacklogCall Unit := perform (BacklogOp.delete id)

def list : BacklogCall (List BacklogEntry) := perform BacklogOp.list

def listByStatus (status : BacklogEntryStatus) : BacklogCall (List BacklogEntry) :=
  perform (BacklogOp.listByStatus status)

def now : BacklogCall IsoTime := perform BacklogOp.now

def startEntry (id : String) : BacklogCall Unit := perform (BacklogOp.startEntry id)

def awaitEntry (id : String) : BacklogCall ExecuteOutcome := perform (BacklogOp.awaitEntry id)

def finishExecution (idle : Bool) : BacklogCall Unit := perform (BacklogOp.finishExecution idle)

/-! ## `DocumentBacklogStore` -/

def forEach {α : Type} : List α → (α → BacklogCall Unit) → BacklogCall Unit
  | [], _ => return ()
  | a :: rest, f => do
    f a
    forEach rest f

def snapshotAnalytics : BacklogCall BacklogAnalytics := do
  let allEntries ← list
  return analyticsOf allEntries

def transition (id : String) (nextStatus : BacklogEntryStatus) (patch : BacklogPatch) :
    BacklogCall (Option BacklogEntry) := do
  match ← get id with
  | none => return none
  | some existing =>
    let updated ← unwrap (existing.val.patched patch nextStatus)
    put updated
    return some updated

def pruneRetained (before : IsoTime) : BacklogCall Unit := do
  let completed ← listByStatus .completed
  let failed ← listByStatus .failed
  forEach (completed ++ failed) fun entry =>
    if entry.completedAt.any fun completedAt => completedAt.text < before.text then delete entry.key else return ()

end NousCore.Backlog

namespace NousCore.Backlog

/-! ## The system backlog queue -/

open Async

variable (config : BacklogQueueConfig)

/-- The `try` block of `execute`, once `executeEntry` has ended. -/
def settleEntry (entry : BacklogEntry) (outcome : ExecuteOutcome) : BacklogCall Unit :=
  match outcome with
  | .thrown value => .throw (.thrown value)
  | .malformed => .throw .invalidEntry
  | .result (.suspended reason detail) => do
    let _ ← transition entry.key .suspended
      { resultStatus := some (some .suspended), lastErrorCode := some (some "LEASE_HELD"),
        lastErrorMessage := some (some reason.val), suspensionDetail := some detail }
    return ()
  | .result (.error reason) => do
    let completedAt ← now
    let _ ← transition entry.key .failed
      { completedAt := some completedAt, resultStatus := some (some .error),
        lastErrorCode := some (some "SYSTEM_RUNTIME_ERROR"), lastErrorMessage := some (some reason.val) }
    return ()
  | .result result => do
    let completedAt ← now
    let _ ← transition entry.key .completed
      { completedAt := some completedAt, resultStatus := some (some result.status), suspensionDetail := some none,
        lastErrorCode := some none, lastErrorMessage := some none }
    return ()

/-- The `catch` block of `execute`. -/
def failEntry (entry : BacklogEntry) (e : BacklogError) : BacklogCall Unit := do
  let completedAt ← now
  let message ← unwrap e.text
  let _ ← transition entry.key .failed
    { completedAt := some completedAt, resultStatus := some (some .error),
      lastErrorCode := some (some "BACKLOG_EXECUTION_FAILED"), lastErrorMessage := some (some message) }
  return ()

/-- The `finally` block of `execute`. -/
def finishEntry : BacklogCall Unit := do
  let time ← now
  pruneRetained (toISOString (time.instant - config.retentionWindowMs))
  let analytics ← snapshotAnalytics
  finishExecution analytics.idle

/-- The `try` and `catch` blocks. -/
def runEntry (entry : BacklogEntry) : BacklogCall Unit := do
  startEntry entry.key
  let outcome ← awaitEntry entry.key
  match ← (settleEntry entry outcome).attempt with
  | .ok () => return ()
  | .error e => failEntry entry e

def execute (entry : BacklogEntry) : BacklogCall Unit := do
  let tried ← (runEntry entry).attempt
  finishEntry config
  unwrap tried

end NousCore.Backlog

namespace NousCore.Backlog

open Async

variable {config : BacklogQueueConfig}

/-! ## The operations of the store -/

theorem every_forEach {α : Type} {P : BacklogOp → Prop} {f : α → BacklogCall Unit} (h : ∀ a, (f a).Every P) :
    ∀ l, (forEach l f).Every P
  | [] => trivial
  | a :: l => every_bind (h a) fun _ => every_forEach h l

variable {id : String} {nextStatus : BacklogEntryStatus} {patch : BacklogPatch} {P : BacklogOp → Prop}

theorem every_transition (hget : P (.get id)) (hput : ∀ e, e.key = id → e.status = nextStatus → P (.put e)) :
    (transition id nextStatus patch).Every P := by
  refine ⟨hget, fun existing => ?_⟩
  cases existing with
  | none => trivial
  | some existing =>
    show (unwrap (existing.val.patched patch nextStatus) >>= _).Every P
    cases hupdated : existing.val.patched patch nextStatus with
    | error e => trivial
    | ok updated =>
      obtain ⟨hkey, hstatus⟩ := patched_spec hupdated
      exact ⟨hput updated (hkey.trans existing.property) hstatus, fun _ => trivial⟩

theorem every_pruneRetained (before : IsoTime) (hdelete : ∀ id, P (.delete id))
    (hlist : ∀ status, P (.listByStatus status)) : (pruneRetained before).Every P := by
  refine ⟨hlist _, fun completed => ⟨hlist _, fun failed => every_forEach (fun entry => ?_) _⟩⟩
  split_ifs
  · exact every_perform (hdelete _)
  · trivial

/-! ## Who asks for what -/

section

variable (entry : BacklogEntry)

def mayAsk : BacklogOp → Prop
  | .put e => e.key = entry.key ∧ e.status ≠ .queued ∧ e.status ≠ .active
  | .startEntry id | .awaitEntry id => id = entry.key
  | .get _ | .list | .listByStatus _ | .now | .delete _ | .finishExecution _ => True
  | _ => False

theorem every_settleEntry (outcome : ExecuteOutcome) :
    (settleEntry entry outcome).Every (mayAsk entry) := by
  have hput : ∀ {nextStatus : BacklogEntryStatus} {patch : BacklogPatch}, nextStatus ≠ .queued → nextStatus ≠ .active →
      (transition entry.key nextStatus patch >>= fun _ => pure () : BacklogCall Unit).Every (mayAsk entry) := by
    intro nextStatus patch hqueued hactive
    refine every_bind (every_transition trivial fun e hkey hstatus => ?_) fun _ => trivial
    exact ⟨hkey, by rw [hstatus]; exact hqueued, by rw [hstatus]; exact hactive⟩
  cases outcome with
  | thrown | malformed => trivial
  | result result =>
    cases result with
    | suspended reason detail => exact hput nofun nofun
    | error reason => exact ⟨trivial, fun _ => hput nofun nofun⟩
    | _ => exact ⟨trivial, fun _ => hput nofun nofun⟩

theorem every_runEntry : (runEntry entry).Every (mayAsk entry) := by
  refine ⟨rfl, fun _ => ⟨rfl, fun outcome => ?_⟩⟩
  show ((settleEntry entry outcome).attempt >>= _).Every _
  refine every_bind (every_attempt (every_settleEntry entry outcome)) fun tried => ?_
  cases tried with
  | ok _ => trivial
  | error e =>
    refine ⟨trivial, fun completedAt => ?_⟩
    show (unwrap e.text >>= _).Every _
    refine every_bind (every_unwrap _) fun message => ?_
    refine every_bind (every_transition trivial fun e hkey hstatus => ?_) fun _ => trivial
    exact ⟨hkey, by rw [hstatus]; nofun, by rw [hstatus]; nofun⟩

theorem every_finishEntry : (finishEntry config).Every (mayAsk entry) := by
  refine ⟨trivial, fun time => ?_⟩
  show (pruneRetained _ >>= _).Every _
  refine every_bind (every_pruneRetained _ (fun _ => trivial) fun _ => trivial) fun _ => ?_
  exact ⟨trivial, fun _ => every_perform trivial⟩

theorem every_execute : (execute config entry).Every (mayAsk entry) :=
  every_bind (every_attempt (every_runEntry entry)) fun tried =>
    every_bind (every_finishEntry entry) fun _ => every_unwrap tried

end

end NousCore.Backlog
