import NousCore.PublicMcp.SourceStore

/-!
# The memory service of the external sources

* `NamespaceRegistryStore` : the record of a namespace is read, changed and saved as a whole;
* `ExternalSourceStorageAdapter` : entries, their vectors, the search, and the purge;
* `ExternalSourceMemoryService` : `put`, `get`, `search`, `delete`, `compact`, `quarantineSource`, `purgeSource`.
-/

namespace NousCore.PublicMcp

open Async
open Memory (isJsSpace Embedding)

/-! ## The registry of the namespaces -/

namespace NamespaceRegistryStore

def get (space : String) : SourceCall (Option {record : PublicMcpNamespaceRecord // record.namespace = space}) :=
  getNamespace space

def save (record : PublicMcpNamespaceRecord) : SourceCall PublicMcpNamespaceRecord := do
  putNamespace record
  return record

def newRecord (subject : ExternalSubject) (now : IsoTime) : PublicMcpNamespaceRecord where
  «namespace» := subject.val.namespace
  clientId := subject.val.clientId
  clientIdHash := subject.val.clientIdHash
  subspace := parseNamespaceSubspace subject.val.namespace
  collections := deriveExternalCollectionNames subject.val.clientIdHash (parseNamespaceSubspace subject.val.namespace)
  lifecycleState := .active
  quarantineReason := none
  quarantinedAt := none
  purgedAt := none
  createdAt := now
  lastSeenAt := now
  lastMutationAt := none
  lastCompactedAt := none
  hash := subject.property.hash
  parsed := rfl
  derived := rfl

def ensureNamespace (subject : ExternalSubject) : SourceCall PublicMcpNamespaceRecord := do
  let now ← now
  match ← get subject.val.namespace with
  | some existing => save { existing.val with lastSeenAt := now }
  | none => save (newRecord subject now)

def require (space : String) : SourceCall {record : PublicMcpNamespaceRecord // record.namespace = space} := do
  match ← get space with
  | some existing => return existing
  | none => .throw s!"Unknown public MCP namespace: {space}"

def mark (space : String) (change : PublicMcpNamespaceRecord → PublicMcpNamespaceRecord) :
    SourceCall PublicMcpNamespaceRecord := do
  let existing ← require space
  save (change existing.val)

def markMutation (space : String) (updatedAt : IsoTime) : SourceCall PublicMcpNamespaceRecord :=
  mark space fun existing => { existing with lastSeenAt := updatedAt, lastMutationAt := some updatedAt }

def markCompaction (space : String) (updatedAt : IsoTime) : SourceCall PublicMcpNamespaceRecord :=
  mark space fun existing =>
    { existing with lastSeenAt := updatedAt, lastCompactedAt := some updatedAt, lastMutationAt := some updatedAt }

def quarantine (space reason : String) (updatedAt : IsoTime) : SourceCall PublicMcpNamespaceRecord :=
  mark space fun existing =>
    { existing with
      lifecycleState := .quarantined
      quarantineReason := some reason
      quarantinedAt := some updatedAt
      lastSeenAt := updatedAt }

def restore (space : String) : SourceCall PublicMcpNamespaceRecord := do
  let updatedAt ← now
  mark space fun existing =>
    { existing with
      lifecycleState := .active
      quarantineReason := none
      quarantinedAt := none
      lastSeenAt := updatedAt }

def markPurging (space : String) (updatedAt : IsoTime) : SourceCall PublicMcpNamespaceRecord :=
  mark space fun existing => { existing with lifecycleState := .purging, lastSeenAt := updatedAt }

def markPurged (space : String) (updatedAt : IsoTime) : SourceCall PublicMcpNamespaceRecord :=
  mark space fun existing =>
    { existing with lifecycleState := .purged, purgedAt := some updatedAt, lastSeenAt := updatedAt }

end NamespaceRegistryStore

/-! ## The service and what it is made of -/

def DEFAULT_QUOTA_LIMITS : QuotaLimitSnapshot := ⟨120, 60, 262144⟩

/-- The hash, the collation and the vector search of the host, the stores that are there, and the limits. -/
structure ExternalSourceMemoryService where
  sha256 : String → String
  localeCompare : String → String → Ordering
  vectorStore : Bool
  embedder : Bool
  auditStore : Bool
  witnessService : Bool
  quotaLimits : QuotaLimitSnapshot := DEFAULT_QUOTA_LIMITS
  quotaWindowSeconds : Nat := 3600
  rateLimitWindowSeconds : Nat := 60
  rateLimitMaxRequests : Nat := 30

variable (service : ExternalSourceMemoryService)

/-! ## The storage adapter -/

namespace ExternalSourceStorageAdapter

def collectionForTier (record : PublicMcpNamespaceRecord) : PublicMcpMemoryTier → String
  | .stm => record.collections.stmCollection
  | .ltm => record.collections.ltmCollection

def putEntry (record : PublicMcpNamespaceRecord) (entry : ExternalSourceMemoryEntry) : SourceCall Unit := do
  let parsed ← unwrap (parseEntry entry)
  putDocument (collectionForTier record parsed.tier) (.entry parsed)
  if service.vectorStore && service.embedder then
    let vector ← embed parsed.content
    upsertVector record.collections.vectorCollection parsed.id ⟨vector, parsed.tier, parsed.updatedAt⟩
  else return ()

def getEntry (record : PublicMcpNamespaceRecord) (tier : PublicMcpMemoryTier) (entryId : String) :
    SourceCall (Option ExternalSourceMemoryEntry) := do
  match ← getDocument (collectionForTier record tier) entryId with
  | some raw => do
    let entry ← unwrap raw.parseEntry
    return some entry
  | none => return none

/-- The entries of one collection after the other. -/
def queryCollections : List String → SourceCall (List ExternalSourceMemoryEntry)
  | [] => return []
  | collection :: collections => do
    let rows ← queryDocuments collection
    let entries ← unwrap (rows.mapM SourceDocument.parseEntry)
    let rest ← queryCollections collections
    return entries ++ rest

def queryEntries (record : PublicMcpNamespaceRecord) (tier : Option PublicMcpMemoryTier) :
    SourceCall (List ExternalSourceMemoryEntry) :=
  queryCollections (match tier with
    | some tier => [collectionForTier record tier]
    | none => [record.collections.stmCollection, record.collections.ltmCollection])

def matchesSearchFilters (entry : ExternalSourceMemoryEntry) (input : PublicMcpSearchArguments) : Bool :=
  entry.lifecycleStatus ≠ .superseded &&
    (input.includeDeleted || entry.lifecycleStatus ≠ .softDeleted) &&
    input.tags.all (entry.tags.contains ·) &&
    (input.after.all fun time => ¬entry.updatedAt.text < time.text) &&
    input.before.all fun time => ¬time.text < entry.updatedAt.text

/-- The letters and digits that `toLowerCase` makes of a character, with `none` for what separates tokens. -/
def tokenChars (c : Char) : List (Option Char) :=
  if c.val = 304 then [some 'i', none]
  else if c.val = 8490 then [some 'k']
  else if c.toLower.isLower || c.isDigit then [some c.toLower]
  else [none]

def tokenize (content : String) : List String :=
  ((((content.toList.flatMap tokenChars).splitOn none).map fun token => String.ofList (token.filterMap id)).filter
    (· ≠ "")).eraseDups

def lexicalScore (entry : ExternalSourceMemoryEntry) (query : String) : Rat :=
  let queryTokens := tokenize query
  if queryTokens.length = 0 then 0
  else (queryTokens.countP (tokenize entry.content).contains : Nat) / (queryTokens.length : Nat)

/-- The best score of each entry; a score counts when it is positive. -/
def bestScores (results : List (String × Rat)) : Record String Rat :=
  results.foldl (fun scores result =>
    if result.2 > (scores.get? result.1).getD 0 then scores.set result.1 result.2 else scores) .empty

/-- By score, then by time, the latest first, then by id. -/
def searchResultLe (a b : ExternalSourceSearchResultItem) : Bool :=
  if b.score ≠ a.score then b.score < a.score
  else if b.entry.updatedAt.text ≠ a.entry.updatedAt.text then
    service.localeCompare b.entry.updatedAt.text a.entry.updatedAt.text ≠ .gt
  else service.localeCompare a.entry.id b.entry.id ≠ .gt

def searchTiers (record : PublicMcpNamespaceRecord) (query : Embedding) (limit : Nat) :
    List PublicMcpMemoryTier → SourceCall (List (String × Rat))
  | [] => return []
  | tier :: tiers => do
    let results ← searchVectors record.collections.vectorCollection query limit tier
    let rest ← searchTiers record query limit tiers
    return results ++ rest

def vectorScores (record : PublicMcpNamespaceRecord) (args : PublicMcpSearchArguments) :
    SourceCall (Record String Rat) :=
  if service.vectorStore && service.embedder then do
    let queryVector ← embed args.query
    let results ← searchTiers record queryVector args.limit (match args.tier with
      | some tier => [tier]
      | none => [.stm, .ltm])
    return bestScores results
  else return .empty

def searchEntries (record : PublicMcpNamespaceRecord) (args : PublicMcpSearchArguments) :
    SourceCall (List ExternalSourceSearchResultItem) := do
  let candidates ← queryEntries record args.tier
  let filtered := candidates.filter (matchesSearchFilters · args)
  let scores ← vectorScores service record args
  let scored := filtered.map fun entry =>
    ⟨entry, (scores.get? entry.id).getD (lexicalScore entry args.query)⟩
  return (scored.insertionSort fun a b => searchResultLe service a b).take args.limit

def deleteVector (record : PublicMcpNamespaceRecord) (entryId : String) : SourceCall Unit :=
  if service.vectorStore then deleteVectorRow record.collections.vectorCollection entryId else return ()

/-- Each row with an id is deleted, and then its vector. -/
def purgeRows (record : PublicMcpNamespaceRecord) (collection : String) : List SourceDocument → SourceCall Unit
  | [] => return ()
  | row :: rows =>
    if row.id = "" then purgeRows record collection rows
    else do
      deleteDocument collection row.id
      deleteVector service record row.id
      purgeRows record collection rows

def purgeCollections (record : PublicMcpNamespaceRecord) : List String → SourceCall Unit
  | [] => return ()
  | collection :: collections => do
    let rows ← queryDocuments collection
    purgeRows service record collection rows
    purgeCollections record collections

def purgedCollections (record : PublicMcpNamespaceRecord) : List String :=
  [record.collections.stmCollection, record.collections.ltmCollection, record.collections.mutationAuditCollection,
    record.collections.tombstoneCollection]

def purge (record : PublicMcpNamespaceRecord) : SourceCall (List String) := do
  purgeCollections service record (purgedCollections record)
  return purgedCollections record

end ExternalSourceStorageAdapter

/-! ## The memory service -/

namespace ExternalSourceMemoryService

open ExternalSourceStorageAdapter

def assertNamespaceAuthorized (requestNamespace subjectNamespace : String) : Except String Unit :=
  if requestNamespace ≠ subjectNamespace then
    .error "Requested namespace does not match the authorized external source namespace"
  else .ok ()

section

variable (record : PublicMcpNamespaceRecord)

def assertLifecycleWritable : Except String Unit :=
  if record.lifecycleState = .active then .ok ()
  else .error s!"Source namespace {record.namespace} is {record.lifecycleState.text} and blocks durable mutation"

def assertLifecycleStillWritable (space : String) : SourceCall Unit := do
  match ← NamespaceRegistryStore.get space with
  | none => .throw s!"Unknown namespace {space}"
  | some current => unwrap (assertLifecycleWritable current.val)

def deriveFallbackFingerprint : String :=
  service.sha256 s!"{record.clientId}:{record.clientIdHash}:{record.namespace}"

def getWindowBounds (windowSeconds : Nat) (timestamp : IsoTime) : Except String (IsoTime × IsoTime) :=
  let windowMs : Int := windowSeconds * 1000
  if windowMs = 0 then .error "Invalid time value"
  else
    let windowStartMs := timestamp.instant / windowMs * windowMs
    .ok (toISOString windowStartMs, toISOString (windowStartMs + windowMs))

/-- What a request charges to the quota. -/
structure EnforcementInput where
  readUnitsDelta : Option Nat := none
  writeUnitsDelta : Option Nat := none
  bytesReservedDelta : Option Nat := none
  requestedAt : IsoTime

def consumeQuota (fingerprint : String) (input : EnforcementInput) :
    SourceCall Unit := do
  let window ← unwrap (getWindowBounds service.quotaWindowSeconds input.requestedAt)
  let quota ← metered (QuotaUsageStore.consume
    { «namespace» := record.namespace
      tokenFingerprint := fingerprint
      windowStartedAt := window.1
      windowEndsAt := window.2
      readUnitsDelta := input.readUnitsDelta
      writeUnitsDelta := input.writeUnitsDelta
      bytesReservedDelta := input.bytesReservedDelta
      limitSnapshot := service.quotaLimits })
  if quota.allowed then return () else .throw "Quota exhausted for this source namespace"

def consumeRateLimit (fingerprint toolName : String) (input : EnforcementInput) :
    SourceCall Unit := do
  let window ← unwrap (getWindowBounds service.rateLimitWindowSeconds input.requestedAt)
  let rateLimit ← metered (RateLimitBucketStore.consume
    { «namespace» := record.namespace
      tokenFingerprint := fingerprint
      toolName := toolName
      windowStartedAt := window.1
      windowSeconds := service.rateLimitWindowSeconds
      maxRequests := service.rateLimitMaxRequests })
  if rateLimit.allowed then return () else .throw "Rate limit exceeded for this source namespace"

def consumeEnforcement (tokenFingerprint : Option String) (toolName : String)
    (input : EnforcementInput) : SourceCall Unit := do
  let fingerprint := tokenFingerprint.getD (deriveFallbackFingerprint service record)
  consumeQuota service record fingerprint input
  consumeRateLimit service record fingerprint toolName input

/-- An empty key is none. -/
def findIdempotentResult {α : Type} (operation : AuditedOperation)
    (idempotencyKey : Option String) (parse : OperationResult → Except String α) : SourceCall (Option α) :=
  match idempotencyKey.filter (· ≠ "") with
  | none => return none
  | some idempotencyKey => do
    match ← queryOperations record.collections.mutationAuditCollection operation idempotencyKey with
    | [] => return none
    | found :: _ => do
      let result ← unwrap (parse found.result)
      return some result

def writeOperationAudit (row : StoredOperationAuditRecord) : SourceCall Unit :=
  putDocument record.collections.mutationAuditCollection (.audit row)

end

def parseMutation : OperationResult → Except String ExternalSourceMutationResult
  | .mutation result => .ok result
  | .compaction _ => .error "Invalid ExternalSourceMutationResult"

def parseCompaction : OperationResult → Except String ExternalSourceCompactionResult
  | .compaction result => .ok result
  | .mutation _ => .error "Invalid ExternalSourceCompactionResult"

/-- How a mutation begins: it ends with the result of an earlier one with its key, or goes on to `apply`. -/
def mutateWith {Arguments α : Type} (command : SourceCommand Arguments) (requestNamespace toolName : String)
    (operation : AuditedOperation) (idempotencyKey : Option String) (parse : OperationResult → Except String α)
    (input : EnforcementInput) (apply : PublicMcpNamespaceRecord → SourceCall α) : SourceCall α := do
  unwrap (assertNamespaceAuthorized requestNamespace command.subject.val.namespace)
  let record ← NamespaceRegistryStore.ensureNamespace command.subject
  unwrap (assertLifecycleWritable record)
  match ← findIdempotentResult record operation idempotencyKey parse with
  | some replay => return replay
  | none => do
    consumeEnforcement service record command.subject.val.tokenFingerprint toolName input
    assertLifecycleStillWritable record.namespace
    apply record

/-! ### put -/

def nextEntry (args : PublicMcpPutArguments) (space entryId : String) (now : IsoTime) : ExternalSourceMemoryEntry where
  id := entryId
  «namespace» := space
  tier := args.tier
  content := args.content
  tags := args.tags
  metadata := args.metadata
  lifecycleStatus := .active
  supersededBy := none
  deletedAt := none
  createdAt := now
  updatedAt := now
  sourceOperation := .put
  idempotencyKey := some args.idempotencyKey

def supersedePrior (record : PublicMcpNamespaceRecord) (args : PublicMcpPutArguments) (entryId : String)
    (now : IsoTime) : SourceCall Unit :=
  match args.mode, args.supersedesEntryId.filter (· ≠ "") with
  | .append, _ => return ()
  | .supersede, none => .throw "supersede mode requires supersedesEntryId"
  | .supersede, some supersedesEntryId => do
    match ← getEntry record args.tier supersedesEntryId with
    | none => .throw "superseded entry does not exist in this source namespace"
    | some prior =>
      putEntry service record
        { prior with lifecycleStatus := .superseded, supersededBy := some entryId, updatedAt := now }

def makeEntryId (entryId : Option String) : SourceCall String :=
  match entryId with
  | some entryId => return entryId
  | none => makeId

def applyPut (command : SourceCommand PublicMcpPutArguments) (record : PublicMcpNamespaceRecord) :
    SourceCall ExternalSourceMutationResult := do
  let now ← now
  let entryId ← makeEntryId command.arguments.entryId
  let entry ← unwrap (parseEntry (nextEntry command.arguments record.namespace entryId now))
  supersedePrior service record command.arguments entry.id now
  putEntry service record entry
  let _ ← NamespaceRegistryStore.markMutation record.namespace now
  let result : ExternalSourceMutationResult := ⟨some entry, entry.id, false⟩
  writeOperationAudit record
    { requestId := command.requestId
      operation := .put
      «namespace» := record.namespace
      tier := entry.tier
      idempotencyKey := some command.arguments.idempotencyKey
      entryId := some entry.id
      result := .mutation result
      createdAt := now }
  return result

/-- The bytes of the content in UTF-8 are reserved. -/
def put (command : SourceCommand PublicMcpPutArguments) : SourceCall ExternalSourceMutationResult :=
  mutateWith service command command.arguments.namespace "ortho.memory.v1.put" .put
    (some command.arguments.idempotencyKey) parseMutation
    { writeUnitsDelta := some 1
      bytesReservedDelta := some command.arguments.content.utf8ByteSize
      requestedAt := command.requestedAt }
    (applyPut service command)

/-! ### get and search -/

def get (query : SourceCommand PublicMcpGetArguments) : SourceCall (Option ExternalSourceMemoryEntry) := do
  unwrap (assertNamespaceAuthorized query.arguments.namespace query.subject.val.namespace)
  let record ← NamespaceRegistryStore.ensureNamespace query.subject
  let entry ← getEntry record query.arguments.tier query.arguments.entryId
  return entry.filter fun entry => entry.lifecycleStatus ≠ .superseded &&
    (entry.lifecycleStatus ≠ .softDeleted || query.arguments.includeDeleted)

def search (query : SourceCommand PublicMcpSearchArguments) : SourceCall (List ExternalSourceSearchResultItem) := do
  unwrap (assertNamespaceAuthorized query.arguments.namespace query.subject.val.namespace)
  let record ← NamespaceRegistryStore.ensureNamespace query.subject
  consumeEnforcement service record query.subject.val.tokenFingerprint "ortho.memory.v1.search"
    { readUnitsDelta := some 1, requestedAt := query.requestedAt }
  searchEntries service record query.arguments

/-! ### delete -/

def deletedEntry (existing : ExternalSourceMemoryEntry) (idempotencyKey : Option String) (now : IsoTime) :
    ExternalSourceMemoryEntry :=
  { existing with
    lifecycleStatus := .softDeleted
    deletedAt := some now
    updatedAt := now
    idempotencyKey := idempotencyKey.or existing.idempotencyKey }

section

variable (command : SourceCommand PublicMcpDeleteArguments)

def softDelete (record : PublicMcpNamespaceRecord)
    (existing : ExternalSourceMemoryEntry) : SourceCall ExternalSourceMutationResult := do
  let now ← now
  let entry ← unwrap (parseEntry (deletedEntry existing command.arguments.idempotencyKey now))
  putEntry service record entry
  deleteVector service record entry.id
  putDocument record.collections.tombstoneCollection (.tombstone
    { id := s!"tombstone:{entry.id}:{command.requestId}"
      entryId := entry.id
      requestId := command.requestId
      deletedAt := now
      reason := command.arguments.reason.getD "public soft delete" })
  let _ ← NamespaceRegistryStore.markMutation record.namespace now
  let result : ExternalSourceMutationResult := ⟨some entry, entry.id, false⟩
  writeOperationAudit record
    { requestId := command.requestId
      operation := .delete
      «namespace» := record.namespace
      tier := entry.tier
      idempotencyKey := command.arguments.idempotencyKey
      entryId := some entry.id
      result := .mutation result
      createdAt := now }
  return result

/-- Where there is nothing to delete, the call ends without an audit row. -/
def applyDelete (record : PublicMcpNamespaceRecord) :
    SourceCall ExternalSourceMutationResult := do
  let existing ← getEntry record command.arguments.tier command.arguments.entryId
  match existing.filter (·.lifecycleStatus ≠ .softDeleted) with
  | none => return ⟨none, command.arguments.entryId, true⟩
  | some existing => softDelete service command record existing

def delete : SourceCall ExternalSourceMutationResult :=
  mutateWith service command command.arguments.namespace "ortho.memory.v1.delete" .delete
    command.arguments.idempotencyKey parseMutation
    { writeUnitsDelta := some 1, requestedAt := command.requestedAt } (applyDelete service command)

end

/-! ### compact -/

/-- The latest first, then by id. -/
def entryLe (a b : ExternalSourceMemoryEntry) : Bool :=
  if b.updatedAt.text ≠ a.updatedAt.text then service.localeCompare b.updatedAt.text a.updatedAt.text ≠ .gt
  else service.localeCompare a.id b.id ≠ .gt

def derivedEntry (space id : String) (tier : PublicMcpMemoryTier) (content tag : String)
    (metadata : List (String × String)) (sourceOperation : ExternalSourceOperation) (timestamp : IsoTime)
    (idempotencyKey : Option String) : ExternalSourceMemoryEntry where
  id := id
  «namespace» := space
  tier := tier
  content := content
  tags := [tag]
  metadata := metadata
  lifecycleStatus := .active
  supersededBy := none
  deletedAt := none
  createdAt := timestamp
  updatedAt := timestamp
  sourceOperation := sourceOperation
  idempotencyKey := idempotencyKey

def buildSummaryEntry (space : String) (sourceEntries : List ExternalSourceMemoryEntry) (timestamp : IsoTime)
    (idempotencyKey : Option String) : SourceCall ExternalSourceMemoryEntry := do
  let content := if sourceEntries.length = 0 then "No source entries available for summarization."
    else String.intercalate "\n" (sourceEntries.map (·.content))
  let id ← makeId
  unwrap (parseEntry (derivedEntry space id .stm content "summary"
    [("derivedFromCount", toString sourceEntries.length)] .compactSummary timestamp idempotencyKey))

def trim (text : List Char) : List Char := ((text.dropWhile isJsSpace).reverse.dropWhile isJsSpace).reverse

/-- The sentences of the entries, each once. -/
def facts (sourceEntries : List ExternalSourceMemoryEntry) : List String :=
  ((sourceEntries.flatMap fun entry =>
    ((entry.content.toList.splitOnP fun c => c = '\n' || c = '.' || c = '!' || c = '?').map fun sentence =>
      String.ofList (trim sentence)).filter (· ≠ "")).eraseDups).take (max 1 (min sourceEntries.length 5))

def buildFacts (space : String) (timestamp : IsoTime) (idempotencyKey : Option String) :
    List String → SourceCall (List ExternalSourceMemoryEntry)
  | [] => return []
  | fact :: rest => do
    let id ← makeId
    let entry ← unwrap (parseEntry (derivedEntry space id .ltm fact "fact" [] .compactExtractFacts timestamp
      idempotencyKey))
    let entries ← buildFacts space timestamp idempotencyKey rest
    return entry :: entries

def deriveEntries (args : PublicMcpCompactArguments) (space : String) (sourceEntries : List ExternalSourceMemoryEntry)
    (now : IsoTime) : SourceCall (List ExternalSourceMemoryEntry) :=
  match args.strategy with
  | .summarize => do
    let entry ← buildSummaryEntry space sourceEntries now args.idempotencyKey
    return [entry]
  | .extractFacts => buildFacts space now args.idempotencyKey (facts sourceEntries)

def putEntries (record : PublicMcpNamespaceRecord) : List ExternalSourceMemoryEntry → SourceCall Unit
  | [] => return ()
  | entry :: entries => do
    putEntry service record entry
    putEntries record entries

def applyCompact (command : SourceCommand PublicMcpCompactArguments) (record : PublicMcpNamespaceRecord) :
    SourceCall ExternalSourceCompactionResult := do
  let now ← now
  let entries ← queryEntries record (some .stm)
  let sourceEntries := ((entries.filter (·.lifecycleStatus = .active)).insertionSort fun a b =>
    entryLe service a b).take command.arguments.maxEntries
  let derivedEntries ← deriveEntries command.arguments record.namespace sourceEntries now
  putEntries service record derivedEntries
  let _ ← NamespaceRegistryStore.markCompaction record.namespace now
  let result : ExternalSourceCompactionResult :=
    ⟨command.arguments.strategy, sourceEntries.length, derivedEntries.map (·.id)⟩
  writeOperationAudit record
    { requestId := command.requestId
      operation := .compact
      «namespace» := record.namespace
      tier := if command.arguments.strategy = .summarize then .stm else .ltm
      idempotencyKey := command.arguments.idempotencyKey
      entryId := derivedEntries.head?.map (·.id)
      result := .compaction result
      createdAt := now }
  return result

def compact (command : SourceCommand PublicMcpCompactArguments) : SourceCall ExternalSourceCompactionResult :=
  mutateWith service command command.arguments.namespace "ortho.memory.v1.compact" .compact
    command.arguments.idempotencyKey parseCompaction
    { writeUnitsDelta := some 1, requestedAt := command.requestedAt } (applyCompact service command)

/-! ### Quarantine and purge -/

def appendLifecycleWitness (actionRef : String) : SourceCall Unit :=
  if service.witnessService then do
    let _ ← appendWitness actionRef
    let _ ← appendWitness actionRef
    return ()
  else return ()

/-- The row of a lifecycle action, when there is an audit store. -/
def auditLifecycle (space : String) : SourceCall Unit :=
  if service.auditStore then request (.saveAuditRow space) id else return ()

def quarantineSource (space reason : String) : SourceCall PublicMcpNamespaceRecord := do
  let timestamp ← now
  let record ← NamespaceRegistryStore.quarantine space reason timestamp
  appendLifecycleWitness service s!"public-mcp:quarantine:{space}"
  auditLifecycle service space
  return record

def countAuditRows (space : String) : SourceCall Nat :=
  if service.auditStore then request (.countAuditRows space) id else return 0

def deleteEach (o : String → SourceOp) (answer : ∀ id, (o id).Answer → Except String Unit) :
    List String → SourceCall Unit
  | [] => return ()
  | id :: ids => do
    request (o id) (answer id)
    deleteEach o answer ids

def clearQuotas (space : String) : SourceCall Unit := do
  let rows ← request (.queryQuotas space) id
  deleteEach SourceOp.deleteQuota (fun _ r => r) (rows.map fun row => quotaKey row.val)

def clearBuckets (space : String) : SourceCall Unit := do
  let rows ← request (.queryBuckets space) id
  deleteEach SourceOp.deleteBucket (fun _ r => r) (rows.map fun row => bucketKey row.val)

def purgeSource (space : String) : SourceCall SourcePurgeResult := do
  match ← NamespaceRegistryStore.get space with
  | none => .throw s!"Unknown namespace {space}"
  | some record => do
    let timestamp ← now
    let _ ← NamespaceRegistryStore.markPurging space timestamp
    let retainedAuditRows ← countAuditRows service space
    let collections ← purge service record.val
    clearQuotas space
    clearBuckets space
    let purgedAt ← now
    let _ ← NamespaceRegistryStore.markPurged space purgedAt
    appendLifecycleWitness service s!"public-mcp:purge:{space}"
    auditLifecycle service space
    return ⟨collections, retainedAuditRows⟩

end ExternalSourceMemoryService

end NousCore.PublicMcp
