import Mathlib.Algebra.GroupWithZero.Nat
import NousCore.Lib.Async
import NousCore.Lib.Calendar
import NousCore.Lib.Collection
import NousCore.Lib.Json

/-!
# Long-term memory and its stores

* `parseEntryForWrite` : what the schema of an entry's type makes of it, `parse_of_same` which fields it looks at;
* `candidateToEntry`, `parseSupportedCandidate` : the entry of a candidate;
* `LtmState` : the stored entries, tombstones and audit records, and the vector index.
-/

namespace NousCore.Memory

inductive MemoryType where
  | fact | preference | experienceRecord | distilledPattern | taskState
  deriving DecidableEq

inductive MemoryScope where
  | global | project
  deriving DecidableEq

inductive Sentiment where
  | strongPositive | weakPositive | neutral | weakNegative | strongNegative
  deriving DecidableEq

inductive MemoryMutabilityClass where
  | evidenceImmutable | domainVersioned | operationalMetadata | deletionTombstone
  deriving DecidableEq

inductive MemoryLifecycleStatus where
  | active | superseded | softDeleted | hardDeleted
  deriving DecidableEq

inductive MemoryPlacementState where
  | project | globalProbation | globalStable
  deriving DecidableEq

inductive MemoryMutationAction where
  | create | supersede | softDelete | hardDelete | promoteGlobal | demoteProject | compactStm
  deriving DecidableEq

def MemoryMutationAction.text : MemoryMutationAction → String
  | .create => "create"
  | .supersede => "supersede"
  | .softDelete => "soft-delete"
  | .hardDelete => "hard-delete"
  | .promoteGlobal => "promote-global"
  | .demoteProject => "demote-project"
  | .compactStm => "compact-stm"

inductive MemoryMutationActor where
  | cortex | pfc | principal | system | core | tool | operator
  deriving DecidableEq

inductive MemoryMutationOutcome where
  | approved | denied | applied | failed
  deriving DecidableEq

/-- The numbers of an embedding; nothing computes with them. -/
abbrev Embedding := List Rat

/-- What a distilled pattern has besides the fields of every entry. -/
structure PatternRefs where
  basedOn : List String
  supersedes : List String
  evidenceRefs : List Json
  deriving DecidableEq

structure MemoryWriteCandidate where
  content : String
  type : MemoryType
  scope : MemoryScope
  projectId : Option String
  traceId : String
  sentiment : Option Sentiment
  mutabilityClass : Option MemoryMutabilityClass
  context : Option String
  action : Option String
  outcome : Option String
  reason : Option String
  tags : List String

structure MemoryEntry where
  id : String
  content : String
  type : MemoryType
  scope : MemoryScope
  projectId : Option String
  traceId : String
  sentiment : Option Sentiment
  createdAt : IsoTime
  updatedAt : IsoTime
  mutabilityClass : MemoryMutabilityClass
  lifecycleStatus : MemoryLifecycleStatus
  supersededBy : Option String
  deletedAt : Option IsoTime
  tombstoneId : Option String
  placementState : MemoryPlacementState
  lastMutationId : Option String
  embedding : Option Embedding
  context : Option String
  action : Option String
  outcome : Option String
  reason : Option String
  tags : List String
  patternRefs : Option PatternRefs
  deriving DecidableEq

structure MemoryTombstone where
  id : String
  targetEntryId : String
  targetContentHash : String
  deletedByMutationId : String
  projectId : Option String
  reason : String
  createdAt : IsoTime

/-- What the vector store keeps of an entry. -/
structure VectorRecord where
  vector : Embedding
  memoryType : MemoryType
  scope : MemoryScope
  projectId : Option String
  traceId : String
  tokenEstimate : Nat
  inputHash : String
  generatedAt : IsoTime

/-- A string that `z.string().min(1)` accepts. -/
abbrev Text := { s : String // s ≠ "" }

structure MemoryMutationRequest where
  id : Option String
  action : MemoryMutationAction
  actor : MemoryMutationActor
  projectId : Option String
  targetEntryId : Option String
  replacementCandidate : Option MemoryWriteCandidate
  reason : Text
  traceId : Option String
  evidenceRefs : List Json
  requestedAt : Option IsoTime

structure MemoryMutationAuditRecord where
  id : String
  sequence : Nat
  action : MemoryMutationAction
  actor : MemoryMutationActor
  outcome : MemoryMutationOutcome
  reasonCode : String
  reason : String
  projectId : Option String
  targetEntryId : Option String
  resultingEntryId : Option String
  tombstoneId : Option String
  traceId : Option String
  evidenceRefs : List Json
  occurredAt : IsoTime
  deriving DecidableEq

/-! ## Schemas -/

/-- `ExperienceRecordSchema` wants the fields of an experience, `DistilledPatternSchema` references that are not empty;
the schema of the other types drops those references. -/
def parseEntryForWrite (entry : MemoryEntry) : Except String MemoryEntry :=
  match entry.type with
  | .distilledPattern =>
    if entry.patternRefs.any fun refs => refs.basedOn ≠ [] ∧ refs.supersedes ≠ [] ∧ refs.evidenceRefs ≠ [] then .ok entry
    else .error "Invalid MemoryEntry"
  | .experienceRecord =>
    if entry.sentiment.isSome && entry.context.isSome && entry.action.isSome && entry.outcome.isSome &&
      entry.reason.isSome then .ok { entry with patternRefs := none }
    else .error "Invalid MemoryEntry"
  | .fact | .preference | .taskState => .ok { entry with patternRefs := none }

theorem parseEntryForWrite_spec {entry parsed : MemoryEntry} (h : parseEntryForWrite entry = .ok parsed) :
    ∃ refs, parsed = { entry with patternRefs := refs } := by
  unfold parseEntryForWrite at h
  split at h
  · split_ifs at h
    exact ⟨entry.patternRefs, (Except.ok.inj h).symm⟩
  · split_ifs at h
    exact ⟨none, (Except.ok.inj h).symm⟩
  · exact ⟨none, (Except.ok.inj h).symm⟩
  · exact ⟨none, (Except.ok.inj h).symm⟩
  · exact ⟨none, (Except.ok.inj h).symm⟩

/-- The fields that a schema looks at. -/
structure SameFields (e e' : MemoryEntry) : Prop where
  type : e'.type = e.type
  patternRefs : e'.patternRefs = e.patternRefs
  sentiment : e'.sentiment = e.sentiment
  context : e'.context = e.context
  action : e'.action = e.action
  outcome : e'.outcome = e.outcome
  reason : e'.reason = e.reason

variable {e : MemoryEntry}

theorem patternRefs_of_parsed (h : parseEntryForWrite e = .ok e) (htype : e.type ≠ .distilledPattern) :
    e.patternRefs = none := by
  unfold parseEntryForWrite at h
  split at h
  · contradiction
  · split_ifs at h
    exact (congrArg MemoryEntry.patternRefs (Except.ok.inj h)).symm
  all_goals exact (congrArg MemoryEntry.patternRefs (Except.ok.inj h)).symm

theorem parse_of_same {e' : MemoryEntry} (h : parseEntryForWrite e = .ok e) (hsame : SameFields e e') :
    parseEntryForWrite e' = .ok e' := by
  have hrefs := patternRefs_of_parsed h
  have hkept : e'.type ≠ .distilledPattern → { e' with patternRefs := none } = e' := fun htype => by
    rw [← hrefs (hsame.type ▸ htype), ← hsame.patternRefs]
  unfold parseEntryForWrite at h ⊢
  rw [← hsame.type, ← hsame.patternRefs, ← hsame.sentiment, ← hsame.context, ← hsame.action, ← hsame.outcome,
    ← hsame.reason] at h
  split at h
  · split_ifs at h with hpattern
    rw [if_pos hpattern]
  · rename_i htype
    split_ifs at h with hfields
    rw [if_pos hfields, hkept (by rw [htype]; decide)]
  · rename_i htype
    rw [hkept (by rw [htype]; decide)]
  · rename_i htype
    rw [hkept (by rw [htype]; decide)]
  · rename_i htype
    rw [hkept (by rw [htype]; decide)]

theorem parse_of_no_refs {parsed : MemoryEntry} (hrefs : e.patternRefs = none)
    (h : parseEntryForWrite e = .ok parsed) : parsed = e ∧ e.type ≠ .distilledPattern := by
  have hkept : { e with patternRefs := none } = e := by rw [← hrefs]
  unfold parseEntryForWrite at h
  split at h
  · rw [hrefs] at h
    cases h
  · rename_i htype
    split_ifs at h
    exact ⟨(Except.ok.inj h).symm.trans hkept, by rw [htype]; decide⟩
  · rename_i htype
    exact ⟨(Except.ok.inj h).symm.trans hkept, by rw [htype]; decide⟩
  · rename_i htype
    exact ⟨(Except.ok.inj h).symm.trans hkept, by rw [htype]; decide⟩
  · rename_i htype
    exact ⟨(Except.ok.inj h).symm.trans hkept, by rw [htype]; decide⟩

def isNonEmpty (field : Option String) : Bool := field.any (· ≠ "")

def parseSupportedCandidate (candidate : MemoryWriteCandidate) : Except String MemoryWriteCandidate :=
  if candidate.type = .experienceRecord ∧ ¬(candidate.sentiment.isSome && isNonEmpty candidate.context &&
    isNonEmpty candidate.action && isNonEmpty candidate.outcome && isNonEmpty candidate.reason) then
    .error "Invalid ExperienceRecordWriteCandidate"
  else .ok candidate

def resolveEntryProjectId (candidate : MemoryWriteCandidate) (projectId : Option String) : Option String :=
  match candidate.scope with
  | .global => none
  | .project => projectId.or candidate.projectId

def candidateToEntry (candidate : MemoryWriteCandidate) (projectId : Option String) (now : IsoTime)
    (mutationId id : String) : MemoryEntry where
  id := id
  content := candidate.content
  type := candidate.type
  scope := candidate.scope
  projectId := projectId
  traceId := candidate.traceId
  sentiment := candidate.sentiment
  createdAt := now
  updatedAt := now
  mutabilityClass := candidate.mutabilityClass.getD .domainVersioned
  lifecycleStatus := .active
  supersededBy := none
  deletedAt := none
  tombstoneId := none
  placementState := match candidate.scope with | .global => .globalProbation | .project => .project
  lastMutationId := some mutationId
  embedding := none
  context := if candidate.type = .experienceRecord then candidate.context else none
  action := if candidate.type = .experienceRecord then candidate.action else none
  outcome := if candidate.type = .experienceRecord then candidate.outcome else none
  reason := if candidate.type = .experienceRecord then candidate.reason else none
  tags := candidate.tags
  patternRefs := none

/-- `/^MEM-[A-Z0-9][A-Z0-9-]*$/`. -/
def isReasonCode (input : String) : Bool :=
  match input.toList with
  | 'M' :: 'E' :: 'M' :: '-' :: first :: rest =>
    (first.isUpper || first.isDigit) && rest.all fun c => c.isUpper || c.isDigit || c = '-'
  | _ => false

def normalizeReasonCode (input : Option String) (fallback : String) : String :=
  match input with
  | some input => if isReasonCode input then input else fallback
  | none => fallback

inductive AppliedOrFailed where
  | applied | failed

def defaultReasonCode (action : MemoryMutationAction) (outcome : AppliedOrFailed) : String :=
  "MEM-" ++ action.text.toUpper ++ match outcome with | .applied => "-APPLIED" | .failed => "-FAILED"

/-! ## Embedded text -/

/-- What `String.prototype.trim` removes. -/
def isJsSpace (c : Char) : Bool :=
  9 ≤ c.val && c.val ≤ 13 || 8192 ≤ c.val && c.val ≤ 8202 || c.val ∈ [32, 160, 5760, 8232, 8233, 8239, 8287, 12288, 65279]

/-- Each line break is a line feed. -/
def unifyLines : List Char → List Char
  | '\r' :: '\n' :: rest => '\n' :: unifyLines rest
  | c :: rest => c :: unifyLines rest
  | [] => []

def normalizeText (text : String) : String :=
  String.ofList ((((unifyLines text.toList).dropWhile isJsSpace).reverse.dropWhile isJsSpace).reverse)

/-- The length in UTF-16 code units. -/
def jsLength (text : String) : Nat := (text.toList.map fun c => if c.val < 65536 then 1 else 2).sum

/-- A token is a quarter of a code unit, rounded up. -/
def estimateTokens (text : String) : Nat := (jsLength text + 3) / 4

end NousCore.Memory

namespace NousCore.Memory

/-! ## The stores of the long-term memory -/

open Async

abbrev EntryCollection := Collection MemoryEntry.id

abbrev TombstoneCollection := Collection MemoryTombstone.id

structure LtmState where
  entries : EntryCollection
  tombstones : TombstoneCollection
  audit : List MemoryMutationAuditRecord
  index : Record String VectorRecord

def LtmState.empty : LtmState := ⟨.empty, .empty, [], .empty⟩

/-- What a mutation guard decides. -/
structure MutationDecision where
  approved : Bool
  reason : Option String
  reasonCode : Option String

/-- `Omit<MemoryMutationAuditRecord, 'sequence'>`. -/
structure AppendAuditRecordInput where
  id : String
  action : MemoryMutationAction
  actor : MemoryMutationActor
  outcome : MemoryMutationOutcome
  reasonCode : String
  reason : String
  projectId : Option String
  targetEntryId : Option String
  resultingEntryId : Option String
  tombstoneId : Option String
  traceId : Option String
  evidenceRefs : List Json
  occurredAt : IsoTime

def AppendAuditRecordInput.numbered (input : AppendAuditRecordInput) (sequence : Nat) : MemoryMutationAuditRecord where
  id := input.id
  sequence := sequence
  action := input.action
  actor := input.actor
  outcome := input.outcome
  reasonCode := input.reasonCode
  reason := input.reason
  projectId := input.projectId
  targetEntryId := input.targetEntryId
  resultingEntryId := input.resultingEntryId
  tombstoneId := input.tombstoneId
  traceId := input.traceId
  evidenceRefs := input.evidenceRefs
  occurredAt := input.occurredAt

/-- One more than the highest sequence number. -/
def nextAuditSequence (records : List MemoryMutationAuditRecord) : Nat :=
  match (records.insertionSort fun a b => a.sequence ≤ b.sequence).getLast? with
  | none => 1
  | some last => last.sequence + 1

/-- What the environment chooses: whether a request is rejected, and what is not modelled. -/
structure LtmEnv where
  rejected : Option String
  id : String
  now : IsoTime
  decision : MutationDecision
  vector : Embedding

inductive LtmOp where
  | makeId
  | now
  | guard (request : MemoryMutationRequest)
  | read (id : String)
  | write (entry : MemoryEntry)
  | createTombstone (tombstone : MemoryTombstone)
  | appendAuditRecord (record : AppendAuditRecordInput)
  | embed (normalizedText : String)
  | upsert (id : String) (record : VectorRecord)
  | deleteVector (id : String)

@[reducible] def LtmOp.Answer : LtmOp → Type
  | .makeId => String
  | .now => IsoTime
  | .guard _ => Except String MutationDecision
  | .read id => Except String (Option { e : MemoryEntry // e.id = id })
  | .embed _ => Except String Embedding
  | .write _ | .createTombstone _ | .appendAuditRecord _ | .upsert _ _ | .deleteVector _ => Except String Unit

abbrev LtmCall := Async LtmOp.Answer String

def putAudit (records : List MemoryMutationAuditRecord) (record : MemoryMutationAuditRecord) :
    List MemoryMutationAuditRecord := records.filter (·.id ≠ record.id) ++ [record]

def answers : Answers LtmOp.Answer LtmEnv LtmState
  | .makeId, env, s => some (env.id, s)
  | .now, env, s => some (env.now, s)
  | .guard _, env, s =>
    match env.rejected with
    | some message => some (.error message, s)
    | none => some (.ok env.decision, s)
  | .read id, env, s =>
    match env.rejected with
    | some message => some (.error message, s)
    | none => some (.ok (s.entries.get id), s)
  | .write entry, env, s =>
    match env.rejected, parseEntryForWrite entry with
    | some message, _ => some (.error message, s)
    | none, .error message => some (.error message, s)
    | none, .ok parsed => some (.ok (), { s with entries := s.entries.put parsed })
  | .createTombstone tombstone, env, s =>
    match env.rejected with
    | some message => some (.error message, s)
    | none => some (.ok (), { s with tombstones := s.tombstones.put tombstone })
  | .appendAuditRecord record, env, s =>
    match env.rejected with
    | some message => some (.error message, s)
    | none => some (.ok (), { s with audit := putAudit s.audit (record.numbered (nextAuditSequence s.audit)) })
  | .embed _, env, s =>
    match env.rejected with
    | some message => some (.error message, s)
    | none => some (.ok env.vector, s)
  | .upsert id record, env, s =>
    match env.rejected with
    | some message => some (.error message, s)
    | none => some (.ok (), { s with index := s.index.set id record })
  | .deleteVector id, env, s =>
    match env.rejected with
    | some message => some (.error message, s)
    | none => some (.ok (), { s with index := s.index.erase id })

/-! ## The operations as calls -/

def makeId : LtmCall String := perform LtmOp.makeId

def now : LtmCall IsoTime := perform LtmOp.now

def guard (request : MemoryMutationRequest) : LtmCall MutationDecision := do
  let answer ← perform (LtmOp.guard request)
  unwrap answer

def read (id : String) : LtmCall (Option { e : MemoryEntry // e.id = id }) := do
  let answer ← perform (LtmOp.read id)
  unwrap answer

def write (entry : MemoryEntry) : LtmCall Unit := do
  let answer ← perform (LtmOp.write entry)
  unwrap answer

def createTombstone (tombstone : MemoryTombstone) : LtmCall Unit := do
  let answer ← perform (LtmOp.createTombstone tombstone)
  unwrap answer

def appendAuditRecord (record : AppendAuditRecordInput) : LtmCall Unit := do
  let answer ← perform (LtmOp.appendAuditRecord record)
  unwrap answer

def embed (normalizedText : String) : LtmCall Embedding := do
  let answer ← perform (LtmOp.embed normalizedText)
  unwrap answer

def upsert (id : String) (record : VectorRecord) : LtmCall Unit := do
  let answer ← perform (LtmOp.upsert id record)
  unwrap answer

def deleteVector (id : String) : LtmCall Unit := do
  let answer ← perform (LtmOp.deleteVector id)
  unwrap answer

/-! ## Ids -/

/-- Nothing that is stored has this id, or was changed under it. -/
structure Unused (s : LtmState) (id : String) : Prop where
  entries : s.entries.find? id = none
  tombstones : s.tombstones.find? id = none
  index : s.index.get? id = none
  mutations : ∀ key e, s.entries.find? key = some e → e.lastMutationId ≠ some id

theorem unused_iff (s : LtmState) (id : String) : Unused s id ↔ s.entries.find? id = none ∧
    s.tombstones.find? id = none ∧ s.index.get? id = none ∧ ∀ e ∈ s.entries.all, e.lastMutationId ≠ some id := by
  constructor
  · intro h
    exact ⟨h.entries, h.tombstones, h.index, fun e he => h.mutations e.id e (Collection.mem_all.mp he)⟩
  · rintro ⟨hentries, htombstones, hindex, hmutations⟩
    refine ⟨hentries, htombstones, hindex, fun key e he => hmutations e (Collection.mem_all.mpr ?_)⟩
    rw [s.entries.keyed key e he]
    exact he

instance (s : LtmState) (id : String) : Decidable (Unused s id) := decidable_of_iff _ (unused_iff s id).symm

/-- The ids that `idFactory` makes are unused. -/
def NewIds : Allowance LtmOp.Answer LtmEnv LtmState
  | _, .makeId, env, s => Unused s env.id
  | _, _, _, _ => True

instance (l : Log LtmOp.Answer) (o : LtmOp) (env : LtmEnv) (s : LtmState) : Decidable (NewIds l o env s) := by
  unfold NewIds
  split <;> infer_instance

end NousCore.Memory
