import NousCore.Lib.System
import NousCore.Memory.Types

/-!
# External clients, their memory, and their quotas

* `deriveExternalCollectionNames`, `parseNamespaceSubspace` : the collections of a namespace;
* the commands and queries of the service, and their results;
* `QuotaUsageStore.consume`, `RateLimitBucketStore.consume` : a counter is read, advanced, written back, and compared
  with its limit.
-/

namespace NousCore.PublicMcp

open Memory (isJsSpace jsLength Embedding)

/-! ## Clients -/

def isHexDigit (c : Char) : Bool := c.isDigit || ('a' ≤ c && c ≤ 'f')

/-- `/^[a-f0-9]{64}$/` -/
def isSha256Hex (s : String) : Bool := s.toList.length = 64 && s.toList.all isHexDigit

/-- `/[A-Za-z0-9._-]/` -/
def isSubspaceChar (c : Char) : Bool := c.isAlphanum || c = '.' || c = '_' || c = '-'

/-- `/^app:[a-f0-9]{64}(?::[A-Za-z0-9._-]+)?$/` -/
def isNamespace (s : String) : Bool :=
  let hash := (s.toList.drop 4).take 64
  s.toList.take 4 = "app:".toList && hash.length = 64 && hash.all isHexDigit &&
    match s.toList.drop 68 with
    | [] => true
    | ':' :: subspace => !subspace.isEmpty && subspace.all isSubspaceChar
    | _ => false

inductive PublicMcpMemoryTier where
  | stm
  | ltm
  deriving DecidableEq

def PublicMcpMemoryTier.text : PublicMcpMemoryTier → String
  | .stm => "stm"
  | .ltm => "ltm"

/-- An admitted client; the fields that are only passed on are left out. -/
structure PublicMcpSubject where
  clientId : String
  clientIdHash : String
  tokenFingerprint : Option String
  «namespace» : String

/-! ## Namespaces and collections -/

structure PublicMcpTokenClaims where
  clientId : String
  subspace : Option String

/-- The characters that a subspace may not have are dropped; what is left has sixty-four of them at most. -/
def sanitizeSubspace (subspace : Option String) : Option String :=
  match subspace with
  | none => none
  | some subspace =>
    let kept := (subspace.toList.filter isSubspaceChar).take 64
    if kept = [] then none else some (String.ofList kept)

def namespaceOf (clientIdHash : String) (subspace : Option String) : String :=
  match subspace with
  | some subspace => s!"app:{clientIdHash}:{subspace}"
  | none => s!"app:{clientIdHash}"

/-- The subject of the claims; the schema checks what has been put together. -/
def buildSubject (sha256 : String → String) (claims : PublicMcpTokenClaims) (tokenFingerprint : String) :
    Except String PublicMcpSubject :=
  let clientIdHash := sha256 claims.clientId
  let space := namespaceOf clientIdHash (sanitizeSubspace claims.subspace)
  if claims.clientId ≠ "" ∧ isSha256Hex clientIdHash ∧ isSha256Hex tokenFingerprint ∧ isNamespace space then
    .ok { clientId := claims.clientId
          clientIdHash := clientIdHash
          tokenFingerprint := some tokenFingerprint
          «namespace» := space }
  else .error "Invalid PublicMcpSubject"

def parseNamespaceSubspace (space : String) : Option String :=
  let parts := space.toList.splitOn ':'
  if parts.length ≥ 3 then some (String.ofList ([':'].intercalate (parts.drop 2))) else none

structure ExternalCollections where
  stmCollection : String
  ltmCollection : String
  mutationAuditCollection : String
  tombstoneCollection : String
  vectorCollection : String

def deriveExternalCollectionNames (clientIdHash : String) (subspace : Option String) : ExternalCollections :=
  let suffix := subspace.getD "default"
  { stmCollection := s!"external:stm:{clientIdHash}:{suffix}"
    ltmCollection := s!"external:ltm:{clientIdHash}:{suffix}"
    mutationAuditCollection := s!"external:audit:{clientIdHash}:{suffix}"
    tombstoneCollection := s!"external:tombstones:{clientIdHash}:{suffix}"
    vectorCollection := s!"external:vectors:{clientIdHash}:{suffix}" }

def hashOf (space : String) : String := String.ofList ((space.toList.drop 4).take 64)

def collectionsOf (space : String) : ExternalCollections :=
  deriveExternalCollectionNames (hashOf space) (parseNamespaceSubspace space)

/-- What admission makes sure of: the namespace is a valid one and has the hash of the client. -/
structure Admitted (subject : PublicMcpSubject) : Prop where
  valid : isNamespace subject.namespace = true
  hash : subject.clientIdHash = hashOf subject.namespace
  fingerprint : ∀ fingerprint, subject.tokenFingerprint = some fingerprint → isSha256Hex fingerprint = true

abbrev ExternalSubject := {subject : PublicMcpSubject // Admitted subject}

inductive PublicMcpSourceLifecycleState where
  | active | quarantined | purging | purged
  deriving DecidableEq

def PublicMcpSourceLifecycleState.text : PublicMcpSourceLifecycleState → String
  | .active => "active"
  | .quarantined => "quarantined"
  | .purging => "purging"
  | .purged => "purged"

/-- The record of a namespace, whose collections are those of its name. -/
structure PublicMcpNamespaceRecord where
  «namespace» : String
  clientId : String
  clientIdHash : String
  subspace : Option String
  collections : ExternalCollections
  lifecycleState : PublicMcpSourceLifecycleState
  quarantineReason : Option String
  quarantinedAt : Option IsoTime
  purgedAt : Option IsoTime
  createdAt : IsoTime
  lastSeenAt : IsoTime
  lastMutationAt : Option IsoTime
  lastCompactedAt : Option IsoTime
  hash : clientIdHash = hashOf «namespace»
  parsed : subspace = parseNamespaceSubspace «namespace»
  derived : collections = deriveExternalCollectionNames clientIdHash subspace

theorem PublicMcpNamespaceRecord.collections_eq (record : PublicMcpNamespaceRecord) :
    record.collections = collectionsOf record.namespace := by
  rw [record.derived, record.hash, record.parsed]
  rfl

/-! ## Documents -/

inductive ExternalSourceLifecycleStatus where
  | active | superseded | softDeleted
  deriving DecidableEq

inductive ExternalSourceOperation where
  | put | compactSummary | compactExtractFacts
  deriving DecidableEq

structure ExternalSourceMemoryEntry where
  id : String
  «namespace» : String
  tier : PublicMcpMemoryTier
  content : String
  tags : List String
  metadata : List (String × String)
  lifecycleStatus : ExternalSourceLifecycleStatus
  supersededBy : Option String
  deletedAt : Option IsoTime
  createdAt : IsoTime
  updatedAt : IsoTime
  sourceOperation : ExternalSourceOperation
  idempotencyKey : Option String
  deriving DecidableEq

/-- Between one and a hundred and twenty-eight code units. -/
def isEntryId (id : String) : Bool := id ≠ "" && jsLength id ≤ 128

def parseEntry (entry : ExternalSourceMemoryEntry) : Except String ExternalSourceMemoryEntry :=
  if isEntryId entry.id ∧ isNamespace entry.namespace ∧ entry.content ≠ "" ∧ entry.tags.length ≤ 16 ∧
      (∀ tag ∈ entry.tags, tag ≠ "") ∧ (∀ id ∈ entry.supersededBy, isEntryId id) ∧ entry.idempotencyKey ≠ some "" then
    .ok entry
  else .error "Invalid ExternalSourceMemoryEntry"

inductive PublicMcpCompactionStrategy where
  | summarize | extractFacts
  deriving DecidableEq

structure ExternalSourceMutationResult where
  entry : Option ExternalSourceMemoryEntry
  entryId : String
  alreadyApplied : Bool
  deriving DecidableEq

structure ExternalSourceCompactionResult where
  strategy : PublicMcpCompactionStrategy
  sourceEntryCount : Nat
  derivedEntryIds : List String
  deriving DecidableEq

inductive AuditedOperation where
  | put | delete | compact
  deriving DecidableEq

/-- The result that an audit row keeps. -/
inductive OperationResult where
  | mutation (result : ExternalSourceMutationResult)
  | compaction (result : ExternalSourceCompactionResult)
  deriving DecidableEq

structure StoredOperationAuditRecord where
  requestId : String
  operation : AuditedOperation
  «namespace» : String
  tier : PublicMcpMemoryTier
  idempotencyKey : Option String
  entryId : Option String
  result : OperationResult
  createdAt : IsoTime
  deriving DecidableEq

structure SourceTombstone where
  id : String
  entryId : String
  requestId : String
  deletedAt : IsoTime
  reason : String
  deriving DecidableEq

inductive SourceDocument where
  | entry (entry : ExternalSourceMemoryEntry)
  | audit (row : StoredOperationAuditRecord)
  | tombstone (tombstone : SourceTombstone)
  deriving DecidableEq

def SourceDocument.id : SourceDocument → String
  | .entry e => e.id
  | .audit row => row.requestId
  | .tombstone t => t.id

/-- `ExternalSourceMemoryEntrySchema.parse` of a stored document: entries were parsed before they were stored. -/
def SourceDocument.parseEntry : SourceDocument → Except String ExternalSourceMemoryEntry
  | .entry e => .ok e
  | .audit _ | .tombstone _ => .error "Invalid ExternalSourceMemoryEntry"

structure VectorDocument where
  vector : Embedding
  tier : PublicMcpMemoryTier
  updatedAt : IsoTime

/-! ## Commands and queries -/

structure SourceCommand (Arguments : Type) where
  requestId : String
  subject : ExternalSubject
  arguments : Arguments
  requestedAt : IsoTime

inductive PutMode where
  | append | supersede

structure PublicMcpPutArguments where
  «namespace» : String
  tier : PublicMcpMemoryTier
  entryId : Option String
  content : String
  mode : PutMode
  supersedesEntryId : Option String
  tags : List String
  metadata : List (String × String)
  idempotencyKey : String

structure PublicMcpGetArguments where
  «namespace» : String
  tier : PublicMcpMemoryTier
  entryId : String
  includeDeleted : Bool

/-- The tier `both` is none in particular. -/
structure PublicMcpSearchArguments where
  «namespace» : String
  tier : Option PublicMcpMemoryTier
  query : String
  limit : Nat
  includeDeleted : Bool
  tags : List String
  after : Option IsoTime
  before : Option IsoTime

structure PublicMcpDeleteArguments where
  «namespace» : String
  tier : PublicMcpMemoryTier
  entryId : String
  reason : Option String
  idempotencyKey : Option String

structure PublicMcpCompactArguments where
  «namespace» : String
  strategy : PublicMcpCompactionStrategy
  maxEntries : Nat
  idempotencyKey : Option String

structure ExternalSourceSearchResultItem where
  entry : ExternalSourceMemoryEntry
  score : Rat

structure SourcePurgeResult where
  purgedCollections : List String
  retainedAuditRows : Nat

end NousCore.PublicMcp

namespace NousCore.PublicMcp

open Async

/-! ## Counters -/

structure QuotaLimitSnapshot where
  maxReadUnits : Nat
  maxWriteUnits : Nat
  maxBytesReserved : Nat
  deriving DecidableEq

structure PublicMcpQuotaUsageRecord where
  «namespace» : String
  tokenFingerprint : String
  windowStartedAt : IsoTime
  windowEndsAt : IsoTime
  readUnitsUsed : Nat
  writeUnitsUsed : Nat
  bytesReserved : Nat
  limitSnapshot : QuotaLimitSnapshot
  updatedAt : IsoTime
  deriving DecidableEq

structure PublicMcpRateLimitBucketRecord where
  «namespace» : String
  tokenFingerprint : String
  toolName : String
  windowStartedAt : IsoTime
  windowSeconds : Nat
  requestCount : Nat
  blockedUntil : Option IsoTime
  updatedAt : IsoTime
  deriving DecidableEq

/-- What the schema checks of a record whose counters are natural numbers. -/
def parseQuotaUsageRecord (record : PublicMcpQuotaUsageRecord) : Except String PublicMcpQuotaUsageRecord :=
  if isSha256Hex record.tokenFingerprint ∧ 0 < record.limitSnapshot.maxReadUnits ∧
      0 < record.limitSnapshot.maxWriteUnits ∧ 0 < record.limitSnapshot.maxBytesReserved then .ok record
  else .error "Invalid PublicMcpQuotaUsageRecord"

def parseRateLimitBucketRecord (record : PublicMcpRateLimitBucketRecord) :
    Except String PublicMcpRateLimitBucketRecord :=
  if isSha256Hex record.tokenFingerprint ∧ record.toolName.startsWith "ortho.memory.v1." ∧ 0 < record.windowSeconds then
    .ok record
  else .error "Invalid PublicMcpRateLimitBucketRecord"

def QuotaUsageStore.buildId (space tokenFingerprint : String) : String := s!"{space}::{tokenFingerprint}"

def RateLimitBucketStore.buildId (space tokenFingerprint toolName : String) : String :=
  s!"{space}::{tokenFingerprint}::{toolName}"

def quotaKey (record : PublicMcpQuotaUsageRecord) : String :=
  QuotaUsageStore.buildId record.namespace record.tokenFingerprint

def bucketKey (record : PublicMcpRateLimitBucketRecord) : String :=
  RateLimitBucketStore.buildId record.namespace record.tokenFingerprint record.toolName

structure MeterState where
  quotas : Collection quotaKey
  buckets : Collection bucketKey

def MeterState.empty : MeterState := ⟨.empty, .empty⟩

/-! ## Operations -/

inductive MeterOp where
  | getQuota (id : String)
  | putQuota (record : PublicMcpQuotaUsageRecord)
  | getBucket (id : String)
  | putBucket (record : PublicMcpRateLimitBucketRecord)

@[reducible] def MeterOp.Answer : MeterOp → Type
  | .getQuota _ => Option PublicMcpQuotaUsageRecord
  | .getBucket _ => Option PublicMcpRateLimitBucketRecord
  | .putQuota _ | .putBucket _ => Unit

def meterAnswers : Answers MeterOp.Answer Unit MeterState
  | .getQuota id, _, s => some (s.quotas.find? id, s)
  | .putQuota record, _, s => some ((), { s with quotas := s.quotas.put record })
  | .getBucket id, _, s => some (s.buckets.find? id, s)
  | .putBucket record, _, s => some ((), { s with buckets := s.buckets.put record })

abbrev MeterCall := Async MeterOp.Answer String

/-! ## Consumption -/

/-- The deltas are numbers of units, and of bytes. -/
structure ConsumeQuotaInput where
  «namespace» : String
  tokenFingerprint : String
  windowStartedAt : IsoTime
  windowEndsAt : IsoTime
  readUnitsDelta : Option Nat
  writeUnitsDelta : Option Nat
  bytesReservedDelta : Option Nat
  limitSnapshot : QuotaLimitSnapshot
  deriving DecidableEq

structure QuotaConsumptionResult where
  allowed : Bool
  record : PublicMcpQuotaUsageRecord

structure ConsumeRateLimitInput where
  «namespace» : String
  tokenFingerprint : String
  toolName : String
  windowStartedAt : IsoTime
  windowSeconds : Nat
  maxRequests : Nat
  deriving DecidableEq

structure RateLimitConsumptionResult where
  allowed : Bool
  record : PublicMcpRateLimitBucketRecord

/-- What `consume` makes of the record that it has read; another window starts from nothing. -/
def chargeQuota (input : ConsumeQuotaInput) (existing : Option PublicMcpQuotaUsageRecord) :
    Except String QuotaConsumptionResult := do
  let current := existing.filter fun existing =>
    existing.windowStartedAt = input.windowStartedAt ∧ existing.windowEndsAt = input.windowEndsAt
  let writeUnitsUsed := (current.map (·.writeUnitsUsed)).getD 0 + input.writeUnitsDelta.getD 0
  let readUnitsUsed := (current.map (·.readUnitsUsed)).getD 0 + input.readUnitsDelta.getD 0
  let bytesReserved := (current.map (·.bytesReserved)).getD 0 + input.bytesReservedDelta.getD 0
  let record ← parseQuotaUsageRecord
    { «namespace» := input.namespace
      tokenFingerprint := input.tokenFingerprint
      windowStartedAt := input.windowStartedAt
      windowEndsAt := input.windowEndsAt
      readUnitsUsed := readUnitsUsed
      writeUnitsUsed := writeUnitsUsed
      bytesReserved := bytesReserved
      limitSnapshot := input.limitSnapshot
      updatedAt := input.windowStartedAt }
  return { allowed := writeUnitsUsed ≤ input.limitSnapshot.maxWriteUnits ∧
             readUnitsUsed ≤ input.limitSnapshot.maxReadUnits ∧ bytesReserved ≤ input.limitSnapshot.maxBytesReserved
           record := record }

def chargeBucket (input : ConsumeRateLimitInput) (existing : Option PublicMcpRateLimitBucketRecord) :
    Except String RateLimitConsumptionResult := do
  let current := existing.filter fun existing => existing.windowStartedAt = input.windowStartedAt
  let requestCount := (current.map (·.requestCount)).getD 0 + 1
  let blockedUntil :=
    if requestCount > input.maxRequests then
      some (toISOString (input.windowStartedAt.instant + input.windowSeconds * 1000))
    else none
  let record ← parseRateLimitBucketRecord
    { «namespace» := input.namespace
      tokenFingerprint := input.tokenFingerprint
      toolName := input.toolName
      windowStartedAt := input.windowStartedAt
      windowSeconds := input.windowSeconds
      requestCount := requestCount
      blockedUntil := blockedUntil
      updatedAt := input.windowStartedAt }
  return { allowed := requestCount ≤ input.maxRequests, record := record }

def QuotaUsageStore.consume (input : ConsumeQuotaInput) : MeterCall QuotaConsumptionResult := do
  let existing ← perform (MeterOp.getQuota (QuotaUsageStore.buildId input.namespace input.tokenFingerprint))
  let result ← unwrap (chargeQuota input existing)
  perform (MeterOp.putQuota result.record)
  return result

def RateLimitBucketStore.consume (input : ConsumeRateLimitInput) : MeterCall RateLimitConsumptionResult := do
  let existing ← perform
    (MeterOp.getBucket (RateLimitBucketStore.buildId input.namespace input.tokenFingerprint input.toolName))
  let result ← unwrap (chargeBucket input existing)
  perform (MeterOp.putBucket result.record)
  return result

end NousCore.PublicMcp
