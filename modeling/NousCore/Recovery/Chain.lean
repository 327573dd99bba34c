import NousCore.Lib.Calendar
import NousCore.Lib.Record
import NousCore.Lib.System

/-!
# Recovery checkpoints, and the chain they form

* `prepare`, `commit`, `getLastCommitted`, `validateChain` : the calls of `CheckpointManager`;
* `manager` : all calls as one system;
* `validateFrom_append` : a chain is continued by what follows its head, and by nothing else.
-/

namespace NousCore.Recovery

open Async NousCore.System

/-! ## Records -/

/-- `/^[a-f0-9]{64}$/`. -/
def isRecoveryHash (s : String) : Bool := s.length = 64 && s.toList.all fun c => c.isDigit || 'a' ≤ c && c ≤ 'f'

abbrev RecoveryHash := { s : String // isRecoveryHash s = true }

/-- A string that `z.string().min(1)` accepts. -/
abbrev Text := { s : String // s ≠ "" }

inductive RecoveryDomain where
  | step | agent | agentSet | projectRun | runtime

structure CheckpointSnapshot where
  domainScope : RecoveryDomain
  stateVectorHash : RecoveryHash
  policyEpoch : Text
  schedulerCursor : Text
  toolSideEffectJournalHwm : Nat
  memoryWriteJournalHwm : Nat
  idempotencyKeySetHash : RecoveryHash

structure RecoveryCheckpoint extends CheckpointSnapshot where
  checkpointId : String
  runId : String
  projectId : String
  checkpointPrevHash : Option RecoveryHash
  createdAt : IsoTime
  committedAt : Option IsoTime
  witnessCheckpointRef : Option Text

/-- What `RecoveryCheckpointSchema` makes of the arguments of `prepare`. -/
inductive RawSnapshot where
  | parsed (snapshot : CheckpointSnapshot)
  | malformed

inductive RecoveryError where
  | invalidCheckpoint

/-! ## The ledger -/

structure StoredCheckpoint where
  checkpoint : RecoveryCheckpoint
  isCommitted : Bool

structure RecoveryLedger where
  checkpoints : Record String (List StoredCheckpoint)

namespace RecoveryLedger

def empty : RecoveryLedger := ⟨.empty⟩

def recorded (s : RecoveryLedger) (runId : String) : List StoredCheckpoint := (s.checkpoints.get? runId).getD []

/-- The checkpoints of a run that are committed, in the order in which they were recorded. -/
def committed (s : RecoveryLedger) (runId : String) : List RecoveryCheckpoint :=
  ((s.recorded runId).filter (·.isCommitted)).map (·.checkpoint)

def append (s : RecoveryLedger) (checkpoint : RecoveryCheckpoint) (isCommitted : Bool) : RecoveryLedger where
  checkpoints := s.checkpoints.set checkpoint.runId (s.recorded checkpoint.runId ++ [⟨checkpoint, isCommitted⟩])

end RecoveryLedger

def RecoveryCheckpoint.commitTime (c : RecoveryCheckpoint) : Int := (c.committedAt.map (·.instant)).getD 0

def byCommitTime (checkpoints : List RecoveryCheckpoint) : List RecoveryCheckpoint :=
  checkpoints.insertionSort fun a b => a.commitTime ≤ b.commitTime

/-- `randomUUID()` and `new Date()`. -/
structure Stamp where
  id : String
  now : IsoTime

inductive RecoveryOp where
  | getCheckpoints (runId : String)
  | getAllCheckpoints (runId : String)
  /-- The checkpoint is made with the id and the time at which it is recorded. -/
  | appendCheckpoint (make : Stamp → RecoveryCheckpoint) (isCommitted : Bool)

@[reducible] def RecoveryOp.Answer : RecoveryOp → Type
  | .getCheckpoints _ => List RecoveryCheckpoint
  | .getAllCheckpoints _ => List StoredCheckpoint
  | .appendCheckpoint _ _ => String

abbrev RecoveryCall := Async RecoveryOp.Answer RecoveryError

def answers : Answers RecoveryOp.Answer Stamp RecoveryLedger
  | .getCheckpoints runId, _, s => some (byCommitTime (s.committed runId), s)
  | .getAllCheckpoints runId, _, s => some (s.recorded runId, s)
  | .appendCheckpoint make isCommitted, stamp, s => some ((make stamp).checkpointId, s.append (make stamp) isCommitted)

def getCheckpoints (runId : String) : RecoveryCall (List RecoveryCheckpoint) :=
  perform (RecoveryOp.getCheckpoints runId)

def getAllCheckpoints (runId : String) : RecoveryCall (List StoredCheckpoint) :=
  perform (RecoveryOp.getAllCheckpoints runId)

def appendCheckpoint (make : Stamp → RecoveryCheckpoint) (isCommitted : Bool) : RecoveryCall String :=
  perform (RecoveryOp.appendCheckpoint make isCommitted)

/-! ## The manager -/

inductive ChainValidationResult where
  | valid
  | invalid (error : String)
  deriving DecidableEq

inductive RecoveryAnswer where
  | prepared (checkpointId : String)
  | committed
  | notCommitted (error : String)
  | lastCommitted (checkpoint : Option RecoveryCheckpoint)
  | validated (result : ChainValidationResult)

def getLastCommitted (runId : String) : RecoveryCall (Option RecoveryCheckpoint) := do
  let checkpoints ← getCheckpoints runId
  return checkpoints.getLast?

def prepare (runId projectId : String) (raw : RawSnapshot) : RecoveryCall RecoveryAnswer := do
  let lastCommitted ← getLastCommitted runId
  match raw with
  | .malformed => .throw .invalidCheckpoint
  | .parsed snapshot =>
    let checkpointId ← appendCheckpoint (fun stamp =>
      { snapshot with
        checkpointId := stamp.id
        runId := runId
        projectId := projectId
        checkpointPrevHash := lastCommitted.map (·.stateVectorHash)
        createdAt := stamp.now
        committedAt := none
        witnessCheckpointRef := none }) false
    return .prepared checkpointId

def commit (runId checkpointId witnessRef : String) : RecoveryCall RecoveryAnswer := do
  let allCheckpoints ← getAllCheckpoints runId
  match allCheckpoints.find? fun r => !r.isCommitted && r.checkpoint.checkpointId = checkpointId with
  | none => return .notCommitted "prepare record not found"
  | some prepareRecord =>
    if h : witnessRef ≠ "" then
      let _ ← appendCheckpoint (fun stamp =>
        { prepareRecord.checkpoint with
          committedAt := some stamp.now
          witnessCheckpointRef := some ⟨witnessRef, h⟩ }) true
      return .committed
    else .throw .invalidCheckpoint

def validateFrom (prev : Option RecoveryCheckpoint) : List RecoveryCheckpoint → ChainValidationResult
  | [] => .valid
  | curr :: rest =>
    if prev.any fun prev => curr.checkpointPrevHash ≠ some prev.stateVectorHash then .invalid "chain link mismatch"
    else if prev = none ∧ curr.checkpointPrevHash ≠ none then .invalid "first checkpoint must have null prev_hash"
    else if !isRecoveryHash curr.stateVectorHash.val then .invalid "invalid hash"
    else validateFrom (some curr) rest

def validateChain (runId : String) : RecoveryCall RecoveryAnswer := do
  let checkpoints ← getCheckpoints runId
  return .validated (validateFrom none checkpoints)

/-! ## The system -/

inductive RecoveryTask where
  | prepare (runId projectId : String) (raw : RawSnapshot)
  | commit (runId checkpointId witnessRef : String)
  | getLastCommitted (runId : String)
  | validateChain (runId : String)

def taskBody : RecoveryTask → RecoveryCall RecoveryAnswer
  | .prepare runId projectId raw => prepare runId projectId raw
  | .commit runId checkpointId witnessRef => commit runId checkpointId witnessRef
  | .getLastCommitted runId => do
    let last ← getLastCommitted runId
    return .lastCommitted last
  | .validateChain runId => validateChain runId

def manager : System RecoveryTask RecoveryOp.Answer Stamp RecoveryLedger RecoveryError RecoveryAnswer where
  body := taskBody
  answers := answers
  spawned := fun _ => []
  exclusive := fun _ => false

abbrev RecoveryConfig := Config RecoveryTask RecoveryOp.Answer RecoveryLedger RecoveryError RecoveryAnswer

/-! ## The chain of checkpoints -/

def ChainValid (s : RecoveryLedger) : Prop :=
  ∀ runId, validateFrom none (byCommitTime (s.committed runId)) = .valid

def CommittedOnce (s : RecoveryLedger) : Prop := ∀ runId, ((s.committed runId).map (·.checkpointId)).Nodup

/-- The checkpoint names the last committed one of its run as its predecessor, is not committed yet, and is not
committed at an earlier time. -/
structure Follows (s : RecoveryLedger) (c : RecoveryCheckpoint) : Prop where
  links : c.checkpointPrevHash = (s.committed c.runId).getLast?.map (·.stateVectorHash)
  fresh : c.checkpointId ∉ (s.committed c.runId).map (·.checkpointId)
  later : ∀ last ∈ (s.committed c.runId).getLast?, last.commitTime ≤ c.commitTime

instance (s : RecoveryLedger) (c : RecoveryCheckpoint) : Decidable (Follows s c) :=
  decidable_of_iff (c.checkpointPrevHash = (s.committed c.runId).getLast?.map (·.stateVectorHash) ∧
    c.checkpointId ∉ (s.committed c.runId).map (·.checkpointId) ∧
    ∀ last ∈ (s.committed c.runId).getLast?, last.commitTime ≤ c.commitTime)
    ⟨fun ⟨links, fresh, later⟩ => ⟨links, fresh, later⟩, fun h => ⟨h.links, h.fresh, h.later⟩⟩

def commitsFollow : RecoveryTask → Allowance RecoveryOp.Answer Stamp RecoveryLedger
  | _, _, .appendCheckpoint make true, stamp, s => Follows s (make stamp)
  | _, _, _, _, _ => True

instance (t : RecoveryTask) (l : Log RecoveryOp.Answer) (o : RecoveryOp) (x : Stamp) (s : RecoveryLedger) :
    Decidable (commitsFollow t l o x s) :=
  match o with
  | .appendCheckpoint make true => inferInstanceAs (Decidable (Follows s (make x)))
  | .appendCheckpoint _ false => .isTrue trivial
  | .getCheckpoints _ => .isTrue trivial
  | .getAllCheckpoints _ => .isTrue trivial

/-! ## Validation -/

variable {prev : Option RecoveryCheckpoint}

theorem validateFrom_cons {curr : RecoveryCheckpoint} {rest : List RecoveryCheckpoint} :
    validateFrom prev (curr :: rest) = .valid ↔
      curr.checkpointPrevHash = prev.map (·.stateVectorHash) ∧ validateFrom (some curr) rest = .valid := by
  have hhash : isRecoveryHash curr.stateVectorHash.val = true := curr.stateVectorHash.property
  rw [validateFrom]
  cases prev with
  | none =>
    rw [if_neg (by simp), Option.map_none]
    split_ifs with hfirst hinvalid
    · exact ⟨nofun, fun h => absurd h.1 hfirst.2⟩
    · rw [hhash] at hinvalid
      cases hinvalid
    · rw [and_iff_right (by simpa using hfirst)]
  | some prev =>
    simp only [Option.any_some, decide_eq_true_iff, Option.map_some]
    split_ifs with hlink hfirst hinvalid
    · exact ⟨nofun, fun h => absurd h.1 hlink⟩
    · cases hfirst.1
    · rw [hhash] at hinvalid
      cases hinvalid
    · rw [and_iff_right (not_not.mp hlink)]

variable {l : List RecoveryCheckpoint}

theorem validateFrom_append {c : RecoveryCheckpoint} : validateFrom prev (l ++ [c]) = .valid ↔
      validateFrom prev l = .valid ∧ c.checkpointPrevHash = (l.getLast?.or prev).map (·.stateVectorHash) := by
  induction l generalizing prev with
  | nil =>
    rw [List.nil_append, validateFrom_cons, List.getLast?_nil, Option.none_or, and_comm]
    exact Iff.rfl
  | cons curr rest ih =>
    rw [List.cons_append, validateFrom_cons, validateFrom_cons, ih, and_assoc, List.getLast?_cons]
    cases rest.getLast? <;> rfl

/-! ## The invariant -/

/-- What holds of the committed checkpoints of a run: they are recorded in the order of their commits. -/
structure Chained (l : List RecoveryCheckpoint) : Prop where
  sorted : l.Pairwise fun a b => a.commitTime ≤ b.commitTime
  valid : validateFrom none l = .valid
  once : (l.map (·.checkpointId)).Nodup

theorem chained_nil : Chained [] := ⟨.nil, rfl, .nil⟩

theorem Chained.validateChain (h : Chained l) : validateFrom none (byCommitTime l) = .valid := by
  unfold byCommitTime
  rw [h.sorted.insertionSort_eq]
  exact h.valid

theorem Chained.le_last (h : Chained l) {last : RecoveryCheckpoint}
    (hlast : l.getLast? = some last) : ∀ a ∈ l, a.commitTime ≤ last.commitTime := by
  obtain ⟨front, rfl⟩ := List.getLast?_eq_some_iff.mp hlast
  intro a ha
  rcases List.mem_append.mp ha with ha | ha
  · exact (List.pairwise_append.mp h.sorted).2.2 a ha last (List.mem_singleton_self _)
  · rw [List.mem_singleton.mp ha]

theorem Chained.append {s : RecoveryLedger} {c : RecoveryCheckpoint} (h : Chained (s.committed c.runId))
    (hc : Follows s c) : Chained (s.committed c.runId ++ [c]) := by
  refine ⟨List.pairwise_append.mpr ⟨h.sorted, List.pairwise_singleton _ _, fun a ha b hb => ?_⟩, ?_, ?_⟩
  · obtain rfl := List.mem_singleton.mp hb
    cases hlast : (s.committed b.runId).getLast? with
    | none =>
      rw [List.getLast?_eq_none_iff.mp hlast] at ha
      cases ha
    | some last => exact (h.le_last hlast a ha).trans (hc.later last hlast)
  · rw [validateFrom_append, Option.or_none]
    exact ⟨h.valid, hc.links⟩
  · rw [List.map_append, List.nodup_append]
    refine ⟨h.once, List.nodup_singleton _, fun a ha b hb hab => ?_⟩
    rw [List.map_singleton, List.mem_singleton] at hb
    exact hc.fresh (hb ▸ hab ▸ ha)

theorem committed_append (s : RecoveryLedger) (c : RecoveryCheckpoint) (isCommitted : Bool) (runId : String) :
    (s.append c isCommitted).committed runId =
      if runId = c.runId ∧ isCommitted = true then s.committed c.runId ++ [c] else s.committed runId := by
  unfold RecoveryLedger.append RecoveryLedger.committed RecoveryLedger.recorded
  rw [Record.get?_set]
  by_cases hrun : runId = c.runId
  · subst hrun
    cases isCommitted <;> simp
  · rw [if_neg hrun, if_neg fun h => hrun h.1]

variable {c c' : RecoveryConfig} {ls : List (Label RecoveryTask Stamp)}

theorem chained_of_answers {t : RecoveryTask} {l : Log RecoveryOp.Answer} {o : RecoveryOp} {x : Stamp}
    {s s' : RecoveryLedger} {r : o.Answer} (hs : ∀ runId, Chained (s.committed runId))
    (hfollows : commitsFollow t l o x s) (h : answers o x s = some (r, s')) :
    ∀ runId, Chained (s'.committed runId) := by
  cases o with
  | getCheckpoints | getAllCheckpoints =>
    cases h
    exact hs
  | appendCheckpoint make isCommitted =>
    cases h
    intro runId
    rw [committed_append]
    split_ifs with hthis
    · obtain ⟨-, rfl⟩ := hthis
      exact (hs _).append hfollows
    · exact hs runId

theorem chained_of_run (hrun : Run (Guarded manager.Step (Allows (fun _ => True) commitsFollow)) (start .empty) ls c) :
    ∀ runId, Chained (c.state.committed runId) := by
  refine hrun.invariant (P := fun c => ∀ runId, Chained (c.state.committed runId)) ?_ fun _ => chained_nil
  rintro c l c' hc ⟨hstep, hallows⟩
  have hstepped := stepped_of_step hstep
  clear hstep
  cases hstepped with
  | begin t => exact hc
  | turn hget _ hanswers => exact chained_of_answers hc (hallows _ hget) hanswers

def runOne : String := "550e8400-e29b-41d4-a716-446655440000"

def snapshotOne : CheckpointSnapshot where
  domainScope := .step
  stateVectorHash := ⟨"aaaaaaaaaaaaaaaaaaaaaaaaaaaaaaaaaaaaaaaaaaaaaaaaaaaaaaaaaaaaaaaa", by decide +kernel⟩
  policyEpoch := ⟨"e1", by decide⟩
  schedulerCursor := ⟨"c1", by decide⟩
  toolSideEffectJournalHwm := 0
  memoryWriteJournalHwm := 0
  idempotencyKeySetHash := ⟨"aaaaaaaaaaaaaaaaaaaaaaaaaaaaaaaaaaaaaaaaaaaaaaaaaaaaaaaaaaaaaaaa", by decide +kernel⟩

def prepareOne : RecoveryTask := .prepare runOne "660e8400-e29b-41d4-a716-446655440001" (.parsed snapshotOne)

def stampAt (n : Nat) : Stamp := ⟨"c" ++ toString n, toISOString (1000 * n)⟩

/-- Each checkpoint is committed before the next is prepared. -/
def oneByOne : List (Label RecoveryTask Stamp) :=
  [.begin prepareOne, .turn 0 (stampAt 1), .turn 0 (stampAt 1),
    .begin (.commit runOne "c1" "w1"), .turn 1 (stampAt 2), .turn 1 (stampAt 2),
    .begin prepareOne, .turn 2 (stampAt 3), .turn 2 (stampAt 3),
    .begin (.commit runOne "c3" "w2"), .turn 3 (stampAt 4), .turn 3 (stampAt 4)]

/-- Both checkpoints are prepared before one is committed. -/
def bothPrepared : List (Label RecoveryTask Stamp) :=
  [.begin prepareOne, .turn 0 (stampAt 1), .turn 0 (stampAt 1),
    .begin prepareOne, .turn 1 (stampAt 2), .turn 1 (stampAt 2),
    .begin (.commit runOne "c1" "w1"), .turn 2 (stampAt 3), .turn 2 (stampAt 3),
    .begin (.commit runOne "c2" "w2"), .turn 3 (stampAt 4), .turn 3 (stampAt 4)]

end NousCore.Recovery
