import NousCore.Lib.Record
import NousCore.Lib.Runs
import NousCore.Lib.Sorting

/-!
# The inference lane

A lane runs at most `capacity` requests at a time; the others wait in its queue.

* `InferenceLane` : the queue, the active entries, and the lease;
* `LaneRun`, `laneStep` : a lane with what it has done, and what may happen to it next.
-/

namespace NousCore.Inference

inductive AgentClass where
  | principal
  | system
  | orchestrator
  | worker
  deriving DecidableEq

inductive InferencePriority where
  | interactive
  | coordination
  | orchestration
  | background
  deriving DecidableEq

def priorityRank : InferencePriority → Nat
  | .background => 0
  | .orchestration => 1
  | .coordination => 2
  | .interactive => 3

def toInferencePriority : Option AgentClass → InferencePriority
  | some .principal => .interactive
  | some .system => .coordination
  | some .orchestrator => .orchestration
  | some .worker | none => .background

inductive LaneMode where
  | enqueue
  | reinsert
  deriving DecidableEq

/-- The ids are fresh; here they number the entries. A `stream` entry is one of `acquireSlot`, whose execution only tells
the caller that the slot is taken. -/
structure LaneEntry where
  id : Nat
  mode : LaneMode
  priority : InferencePriority
  enqueuedAtMs : Nat
  stream : Bool
  deriving DecidableEq

structure ActiveLaneEntry where
  entry : LaneEntry
  startedAtMs : Nat
  preempted : Bool
  deriving DecidableEq

structure InferenceLaneLeaseState where
  held : Bool
  leaseId : Option String
  deriving DecidableEq

inductive LaneCall where
  | enqueue
  | reinsertPreempted
  | stream
  deriving DecidableEq

def LaneCall.mode : LaneCall → LaneMode
  | .reinsertPreempted => .reinsert
  | .enqueue | .stream => .enqueue

inductive LaneError where
  /-- `LEASE_HELD`: `Lane lease held.` -/
  | leaseHeld (leaseId : Option String)
  /-- `ABORTED`: `Provider request aborted.` -/
  | aborted

structure InferenceLane where
  capacity : Nat
  queue : List LaneEntry
  active : Record Nat ActiveLaneEntry
  leaseState : InferenceLaneLeaseState
  waitHistory : List Int
  deriving DecidableEq

def historyWindow : Nat := 500

/-- `sort` of the queue: the left entry need not come after the right one. -/
def queueOrder (left right : LaneEntry) : Bool :=
  if left.mode ≠ right.mode then left.mode = .reinsert
  else if left.priority ≠ right.priority then priorityRank right.priority ≤ priorityRank left.priority
  else left.enqueuedAtMs ≤ right.enqueuedAtMs

namespace InferenceLane

variable (lane : InferenceLane)

/-- Before the first entry of the queue whose priority is not higher. -/
def insertIndex (entry : LaneEntry) : Nat :=
  lane.queue.findIdx fun queued => priorityRank queued.priority ≤ priorityRank entry.priority

def queueEntry (entry : LaneEntry) : InferenceLane :=
  match entry.mode with
  | .reinsert =>
    { lane with
      queue := lane.queue.take (lane.insertIndex entry) ++ entry :: lane.queue.drop (lane.insertIndex entry) }
  | .enqueue => { lane with queue := sortBy queueOrder (lane.queue ++ [entry]) }

/-- The active entry that has to make way: the first of the lowest priority below `interactive`. -/
def preemptable : Option ActiveLaneEntry :=
  (sortBy (fun left right => priorityRank left.entry.priority ≤ priorityRank right.entry.priority)
    (lane.active.values.filter fun active => priorityRank active.entry.priority < priorityRank .interactive)).head?

def preempts (incomingPriority : InferencePriority) : Option ActiveLaneEntry :=
  if incomingPriority ≠ .interactive ∨ lane.active.keys.length < lane.capacity then none else lane.preemptable

/-- An entry becomes active; its wait is kept, as one of the last. -/
def start (nowMs : Nat) (entry : LaneEntry) : InferenceLane :=
  let waitHistory := lane.waitHistory ++ [(nowMs : Int) - entry.enqueuedAtMs]
  { lane with
    active := lane.active.set entry.id ⟨entry, nowMs, false⟩,
    waitHistory := waitHistory.drop (waitHistory.length - historyWindow) }

/-- The check of `enqueue` and `stream`, and the one that all calls share. -/
def refuses (call : LaneCall) (aborted : Bool) : Option LaneError :=
  if call ≠ .reinsertPreempted ∧ lane.leaseState.held then some (.leaseHeld lane.leaseState.leaseId)
  else if aborted then some .aborted
  else none

/-- Another lease than the one that is held is not released. -/
def releases (leaseId : Option String) : Bool :=
  lane.leaseState.held && !(leaseId.any (· ≠ "") && lane.leaseState.leaseId.any (· ≠ "") &&
    leaseId ≠ lane.leaseState.leaseId)

end InferenceLane

/-! ## What happens to a lane -/

/-- A lane, the calls of `schedule` that are still to come, and the clock, which does not go back; the requests that
were accepted, and the ids of those that were started, preempted, put back, and that have ended. -/
structure LaneRun extends InferenceLane where
  scheduling : Nat
  nowMs : Nat
  accepted : List LaneEntry
  started : List Nat
  preempted : List Nat
  requeued : List Nat
  ended : List Nat
  deriving DecidableEq

namespace LaneRun

variable (r : LaneRun)

def create (capacity nowMs : Nat) : LaneRun := ⟨⟨capacity, [], .empty, ⟨false, none⟩, []⟩, 0, nowMs, [], [], [], [], []⟩

def start (entry : LaneEntry) : LaneRun :=
  { r with toInferenceLane := r.toInferenceLane.start r.nowMs entry, started := r.started ++ [entry.id] }

/-- The loop of `schedule`, with the rest of the queue. -/
def scheduleFrom : LaneRun → List LaneEntry → LaneRun
  | r, [] => { r with queue := [] }
  | r, entry :: queue =>
    if r.active.keys.length < r.capacity then scheduleFrom (r.start entry) queue else { r with queue := entry :: queue }

def schedule : LaneRun := scheduleFrom r r.queue

def maybePreempt (incomingPriority : InferencePriority) : LaneRun :=
  match r.preempts incomingPriority with
  | none => r
  | some active =>
    { r with
      active := r.active.modify active.entry.id ({ · with preempted := true })
      preempted := r.preempted ++ [active.entry.id] }

def accept (entry : LaneEntry) : LaneRun :=
  { r with toInferenceLane := r.queueEntry entry, accepted := r.accepted ++ [entry] }

/-- `submit` and `acquireSlot`. -/
def submit (call : LaneCall) (agentClass : Option AgentClass) : LaneRun :=
  let priority := toInferencePriority agentClass
  ((r.accept ⟨r.accepted.length, call.mode, priority, r.nowMs, call = .stream⟩).maybePreempt priority).schedule

/-- `this.active.delete`, after which the call of `schedule` in `finally` is still to come. -/
def leave (id : Nat) : LaneRun := { r with active := r.active.erase id, scheduling := r.scheduling + 1 }

def finish (id : Nat) : LaneRun := { r.leave id with ended := r.ended ++ [id] }

def putBack (entry : LaneEntry) : LaneRun :=
  { r.leave entry.id with
    toInferenceLane :=
      (r.leave entry.id).toInferenceLane.queueEntry { entry with mode := .reinsert, enqueuedAtMs := r.nowMs }
    requeued := r.requeued ++ [entry.id] }

/-- What `execute` has come to. -/
def settle (active : ActiveLaneEntry) (succeeded : Bool) : LaneRun :=
  if !succeeded && active.preempted then r.putBack active.entry else r.finish active.entry.id

end LaneRun

inductive LaneLabel where
  | submit (call : LaneCall) (agentClass : Option AgentClass) (aborted : Bool)
  /-- The promise of an execution is settled. -/
  | settle (id : Nat) (succeeded : Bool)
  /-- The end of a stream, whoever ends it. -/
  | release (id : Nat)
  /-- A call of `schedule` that was to come. -/
  | schedule
  | acquireLease (leaseId : String)
  | releaseLease (leaseId : Option String)
  | tick (ms : Nat)

def laneStep (r : LaneRun) : LaneLabel → Option LaneRun
  | .submit call agentClass aborted => if (r.refuses call aborted).isSome then some r else some (r.submit call agentClass)
  | .settle id succeeded => (r.active.get? id).bind fun active =>
      -- the promise that holds a slot is settled by `release` alone, and has no entry to delete any more
      if active.entry.stream then none else some (r.settle active succeeded)
  | .release id => (r.active.get? id).bind fun active =>
      if active.entry.stream then some (r.finish id).schedule else none
  | .schedule => if r.scheduling = 0 then none else some { r.schedule with scheduling := r.scheduling - 1 }
  | .acquireLease leaseId => some { r with leaseState := ⟨true, some leaseId⟩ }
  -- the listeners are called before `schedule`, and may do anything
  | .releaseLease leaseId =>
    if r.releases leaseId then some { r with leaseState := ⟨false, none⟩, scheduling := r.scheduling + 1 } else some r
  | .tick ms => some { r with nowMs := r.nowMs + ms }

abbrev LaneRun.Step : LaneRun → LaneLabel → LaneRun → Prop := Takes laneStep

end NousCore.Inference
