import NousCore.Memory.Types

/-!
# The governed runtime of the long-term memory

* `embedText`, `prepareVectorIndexing`, `rollbackVectorIndex` : the vector index;
* `persistCandidate`, `applyMutation` : what each action does to the entries;
* `mutate` : the guard, the mutation, and the audit of its outcome.
-/

namespace NousCore.Memory

open Async

/-- The dimensions of the embedding profile, when vectors are indexed, and the hash. -/
structure LtmRuntime where
  vectorIndexing : Option Nat
  sha256 : String → String

structure EmbedTextResult where
  vector : Embedding
  tokenEstimate : Nat
  inputHash : String
  generatedAt : IsoTime

structure AppliedMutation where
  resultingEntryId : Option String
  tombstoneId : Option String
  indexed : Bool

structure GovernedTypedLtmMutationResult where
  applied : Bool
  mutationId : String
  reason : String
  reasonCode : String
  resultingEntryId : Option String
  tombstoneId : Option String
  indexed : Bool

variable (runtime : LtmRuntime)

/-! ## The vector index -/

def embedText (dimensions : Nat) (text : String) : LtmCall EmbedTextResult :=
  let normalizedText := normalizeText text
  if normalizedText = "" then .throw "Cannot embed empty text"
  else do
    let vector ← embed normalizedText
    if vector.length ≠ dimensions then .throw "Embedding dimensions mismatch"
    else
      let _ ← makeId
      let generatedAt ← now
      return ⟨vector, estimateTokens normalizedText, runtime.sha256 normalizedText, generatedAt⟩

def prepareVectorIndexing (entry : MemoryEntry) : LtmCall MemoryEntry :=
  match runtime.vectorIndexing with
  | none => return entry
  | some dimensions => do
    let embedded ← embedText runtime dimensions entry.content
    upsert entry.id
      { vector := embedded.vector
        memoryType := entry.type
        scope := entry.scope
        projectId := entry.projectId
        traceId := entry.traceId
        tokenEstimate := embedded.tokenEstimate
        inputHash := embedded.inputHash
        generatedAt := embedded.generatedAt }
    return { entry with embedding := some embedded.vector }

/-- A rejection is swallowed. -/
def rollbackVectorIndex (id : String) : LtmCall Unit :=
  match runtime.vectorIndexing with
  | none => return ()
  | some _ => do
    let _ ← (deleteVector id).attempt
    return ()

/-- The entry is written, or its vector is removed again. -/
def writePrepared (preparedEntry : MemoryEntry) : LtmCall Unit := do
  match ← (write preparedEntry).attempt with
  | .ok () => return ()
  | .error e =>
    rollbackVectorIndex runtime preparedEntry.id
    .throw e

def persistCandidate (candidate : MemoryWriteCandidate) (projectId : Option String) (mutationId : String)
    (now : IsoTime) : LtmCall MemoryEntry := do
  let validated ← unwrap (parseSupportedCandidate candidate)
  let id ← makeId
  let preparedEntry ← prepareVectorIndexing runtime
    (candidateToEntry validated (resolveEntryProjectId validated projectId) now mutationId id)
  writePrepared runtime preparedEntry
  return preparedEntry

/-! ## Mutations -/

def readEntryOrThrow (id : String) : LtmCall { e : MemoryEntry // e.id = id } := do
  match ← read id with
  | some entry => return entry
  | none => .throw "MEM-TARGET-NOT-FOUND"

section

variable (request : MemoryMutationRequest)

def requireTarget : LtmCall String :=
  match request.targetEntryId with
  | some id => return id
  | none => .throw "MEM-TARGET-REQUIRED"

def requireCandidate : LtmCall MemoryWriteCandidate :=
  match request.replacementCandidate with
  | some candidate => return candidate
  | none => .throw "MEM-REPLACEMENT-CANDIDATE-REQUIRED"

def create (mutationId : String) (now : IsoTime) : LtmCall AppliedMutation := do
  let candidate ← requireCandidate request
  let created ← persistCandidate runtime candidate request.projectId mutationId now
  return ⟨some created.id, none, runtime.vectorIndexing.isSome⟩

def superseded (previous : MemoryEntry) (replacementId mutationId : String) (now : IsoTime) : MemoryEntry :=
  { previous with
    lifecycleStatus := .superseded
    supersededBy := some replacementId
    updatedAt := now
    lastMutationId := some mutationId }

def supersede (mutationId : String) (now : IsoTime) : LtmCall AppliedMutation := do
  let targetEntryId ← requireTarget request
  let candidate ← requireCandidate request
  let previous ← readEntryOrThrow targetEntryId
  if previous.val.mutabilityClass ≠ .domainVersioned then .throw "MEM-MUTABILITY-NOT-VERSIONED"
  else if previous.val.lifecycleStatus ≠ .active then .throw "MEM-TARGET-NOT-ACTIVE"
  else
    let replacement ← persistCandidate runtime
      { candidate with mutabilityClass := candidate.mutabilityClass.or (some previous.val.mutabilityClass) }
      (request.projectId.or previous.val.projectId) mutationId now
    write (superseded previous.val replacement.id mutationId now)
    return ⟨some replacement.id, none, runtime.vectorIndexing.isSome⟩

def deleted (existing : MemoryEntry) (tombstoneId : Option String) (mutationId : String) (now : IsoTime) : MemoryEntry :=
  { existing with
    lifecycleStatus := if tombstoneId.isSome then .hardDeleted else .softDeleted
    deletedAt := some now
    tombstoneId := tombstoneId
    content := if tombstoneId.isSome then "[hard-deleted]" else existing.content
    updatedAt := now
    lastMutationId := some mutationId }

def softDelete (mutationId : String) (now : IsoTime) : LtmCall AppliedMutation := do
  let targetEntryId ← requireTarget request
  let existing ← readEntryOrThrow targetEntryId
  write (deleted existing.val none mutationId now)
  return ⟨some existing.val.id, none, false⟩

def hardDelete (mutationId : String) (now : IsoTime) : LtmCall AppliedMutation := do
  let targetEntryId ← requireTarget request
  let existing ← readEntryOrThrow targetEntryId
  if existing.val.mutabilityClass = .evidenceImmutable ∨ existing.val.mutabilityClass = .deletionTombstone then
    .throw "MEM-IMMUTABLE-TARGET"
  else
    let tombstoneId ← makeId
    createTombstone
      { id := tombstoneId
        targetEntryId := existing.val.id
        targetContentHash := runtime.sha256 existing.val.content
        deletedByMutationId := mutationId
        projectId := existing.val.projectId
        reason := request.reason.val
        createdAt := now }
    write (deleted existing.val (some tombstoneId) mutationId now)
    return ⟨some existing.val.id, some tombstoneId, false⟩

end

/-- An entry that is moved to the global scope, or to a project. -/
def moved (existing : MemoryEntry) (request : MemoryMutationRequest) (mutationId : String) (now : IsoTime) :
    MemoryEntry :=
  let promoted : Bool := request.action = .promoteGlobal
  { existing with
    scope := if promoted then .global else .project
    projectId := if promoted then none else request.projectId.or existing.projectId
    placementState := if promoted then .globalProbation else .project
    updatedAt := now
    lastMutationId := some mutationId }

section

variable (request : MemoryMutationRequest)

def move (mutationId : String) (now : IsoTime) : LtmCall AppliedMutation := do
  let targetEntryId ← requireTarget request
  let existing ← readEntryOrThrow targetEntryId
  write (moved existing.val request mutationId now)
  return ⟨some existing.val.id, none, false⟩

def applyMutation (mutationId : String) (now : IsoTime) : LtmCall AppliedMutation :=
  match request.action with
  | .create => create runtime request mutationId now
  | .supersede => supersede runtime request mutationId now
  | .softDelete => softDelete request mutationId now
  | .hardDelete => hardDelete runtime request mutationId now
  | .promoteGlobal | .demoteProject => move request mutationId now
  | .compactStm => .throw "MEM-ACTION-NOT-SUPPORTED"

def auditOf (mutationId : String) (now : IsoTime) (outcome : MemoryMutationOutcome)
    (reasonCode reason : String) (applied : AppliedMutation) : AppendAuditRecordInput where
  id := mutationId
  action := request.action
  actor := request.actor
  outcome := outcome
  reasonCode := reasonCode
  reason := reason
  projectId := request.projectId
  targetEntryId := request.targetEntryId
  resultingEntryId := applied.resultingEntryId
  tombstoneId := applied.tombstoneId
  traceId := request.traceId
  evidenceRefs := request.evidenceRefs
  occurredAt := now

def notApplied (mutationId reason reasonCode : String) : GovernedTypedLtmMutationResult :=
  ⟨false, mutationId, reason, reasonCode, none, none, false⟩

/-- The `try` block of `mutate`. -/
def applyAndRecord (mutationId : String) (now : IsoTime) (decision : MutationDecision) :
    LtmCall GovernedTypedLtmMutationResult := do
  let applied ← applyMutation runtime request mutationId now
  let appliedReasonCode := normalizeReasonCode (decision.reasonCode.or decision.reason)
    (defaultReasonCode request.action .applied)
  let reason := decision.reason.getD "approved"
  appendAuditRecord (auditOf request mutationId now .applied appliedReasonCode reason applied)
  return ⟨true, mutationId, reason, appliedReasonCode, applied.resultingEntryId, applied.tombstoneId, applied.indexed⟩

/-- The request with the project of its target, when it names none. -/
def normalizeRequest : LtmCall MemoryMutationRequest :=
  match request.projectId, request.targetEntryId with
  | none, some targetEntryId => do
    let target ← read targetEntryId
    return { request with projectId := target.bind (·.val.projectId) }
  | _, _ => return request

def decideAndApply (mutationId : String) (now : IsoTime) :
    LtmCall GovernedTypedLtmMutationResult := do
  let request := { request with id := some mutationId, requestedAt := some now }
  let decision ← guard request
  if !decision.approved then
    let reasonCode := normalizeReasonCode (decision.reasonCode.or decision.reason) "MEM-MUTATION-DENIED"
    let reason := decision.reason.getD "denied"
    appendAuditRecord (auditOf request mutationId now .denied reasonCode reason ⟨none, none, false⟩)
    return notApplied mutationId reason reasonCode
  else
    match ← (applyAndRecord runtime request mutationId now decision).attempt with
    | .ok result => return result
    | .error message =>
      let failedCode := defaultReasonCode request.action .failed
      appendAuditRecord (auditOf request mutationId now .failed failedCode message ⟨none, none, false⟩)
      return notApplied mutationId message failedCode

def mutate (projectId : Option String) : LtmCall GovernedTypedLtmMutationResult := do
  let normalized ← normalizeRequest { request with projectId := request.projectId.or projectId }
  let mutationId ← match normalized.id with
    | some id => pure id
    | none => makeId
  let now ← match normalized.requestedAt with
    | some time => pure time
    | none => now
  decideAndApply runtime normalized mutationId now

end

end NousCore.Memory
