import NousCore.Lib.Interpret
import NousCore.PublicMcp.Types

/-!
# The stores of the external sources

* `SourceState` : the registry of the namespaces, the collections by their names, the vectors, the counters;
* `SourceOp`, `SourceEnv`, `sourceAnswers` : what the service asks its stores and services for; any request may be
  rejected, and then leaves the state as it was;
* the operations as calls.
-/

namespace NousCore.PublicMcp

open Async
open Memory (Embedding)

structure SourceState where
  registry : Collection PublicMcpNamespaceRecord.namespace
  documents : String → Record String SourceDocument
  vectors : String → Record String VectorDocument
  meter : MeterState
  /-- The namespaces of the rows of the audit projection, which have ids of their own. -/
  projection : List String

def SourceState.empty : SourceState := ⟨.empty, fun _ => .empty, fun _ => .empty, .empty, []⟩

def SourceState.setDocuments (s : SourceState) (collection : String) (rows : Record String SourceDocument) :
    SourceState := { s with documents := Function.update s.documents collection rows }

def SourceState.setVectors (s : SourceState) (collection : String) (rows : Record String VectorDocument) :
    SourceState := { s with vectors := Function.update s.vectors collection rows }

theorem SourceState.documents_setDocuments (s : SourceState) (collection : String)
    (rows : Record String SourceDocument) (name : String) :
    (s.setDocuments collection rows).documents name = if name = collection then rows else s.documents name :=
  Function.update_apply _ _ _ _

theorem SourceState.vectors_setVectors (s : SourceState) (collection : String)
    (rows : Record String VectorDocument) (name : String) :
    (s.setVectors collection rows).vectors name = if name = collection then rows else s.vectors name :=
  Function.update_apply _ _ _ _

/-! ## Operations -/

inductive SourceOp where
  | makeId
  | now
  | getNamespace (space : String)
  | putNamespace (record : PublicMcpNamespaceRecord)
  | getDocument (collection id : String)
  | putDocument (collection : String) (document : SourceDocument)
  | queryDocuments (collection : String)
  | queryOperations (collection : String) (operation : AuditedOperation) (idempotencyKey : String)
  | deleteDocument (collection id : String)
  | embed (content : String)
  | upsertVector (collection id : String) (document : VectorDocument)
  | deleteVector (collection id : String)
  | searchVectors (collection : String) (query : Embedding) (limit : Nat) (tier : PublicMcpMemoryTier)
  | meter (o : MeterOp)
  | queryQuotas (space : String)
  | deleteQuota (id : String)
  | queryBuckets (space : String)
  | deleteBucket (id : String)
  | countAuditRows (space : String)
  | saveAuditRow (space : String)
  | appendWitness (actionRef : String)

@[reducible] def SourceOp.Answer : SourceOp → Type
  | .makeId => String
  | .now => IsoTime
  | .getNamespace space => Except String (Option {record : PublicMcpNamespaceRecord // record.namespace = space})
  | .getDocument _ _ => Except String (Option SourceDocument)
  | .queryDocuments _ => Except String (List SourceDocument)
  | .queryOperations _ _ _ => Except String (List StoredOperationAuditRecord)
  | .embed _ => Except String Embedding
  | .searchVectors _ _ _ _ => Except String (List (String × Rat))
  | .meter o => Except String o.Answer
  | .queryQuotas space => Except String (List {record : PublicMcpQuotaUsageRecord // record.namespace = space})
  | .queryBuckets space => Except String (List {record : PublicMcpRateLimitBucketRecord // record.namespace = space})
  | .countAuditRows _ => Except String Nat
  | .appendWitness _ => Except String String
  | .putNamespace _ | .putDocument _ _ | .deleteDocument _ _ | .upsertVector _ _ _ | .deleteVector _ _
  | .deleteQuota _ | .deleteBucket _ | .saveAuditRow _ => Except String Unit

/-- What the environment chooses: whether a request is rejected, and what is not modelled. -/
structure SourceEnv where
  rejected : Option String
  id : String
  now : IsoTime
  vector : Embedding

/-- The vector store's search: the best rows of a collection. -/
abbrev VectorSearch := Record String VectorDocument → Embedding → Nat → PublicMcpMemoryTier → List (String × Rat)

/-- The rows with a property, with the fact that they have it. -/
def rowsWhere {α : Type} (p : α → Prop) [DecidablePred p] (rows : List α) : List {row : α // p row} :=
  rows.filterMap fun row => if h : p row then some ⟨row, h⟩ else none

/-- A request that is answered unless it is rejected. -/
def respond {α : Type} (env : SourceEnv) (s : SourceState) (answer : α) (s' : SourceState) :
    Option (Except String α × SourceState) :=
  match env.rejected with
  | some message => some (.error message, s)
  | none => some (.ok answer, s')

def SourceDocument.operationRow (operation : AuditedOperation) (idempotencyKey : String) :
    SourceDocument → Option StoredOperationAuditRecord
  | .audit row => if row.operation = operation ∧ row.idempotencyKey = some idempotencyKey then some row else none
  | .entry _ | .tombstone _ => none

def sourceAnswers (search : VectorSearch) : Answers SourceOp.Answer SourceEnv SourceState
  | .makeId, env, s => some (env.id, s)
  | .now, env, s => some (env.now, s)
  | .getNamespace space, env, s => respond env s (s.registry.get space) s
  | .putNamespace record, env, s => respond env s () { s with registry := s.registry.put record }
  | .getDocument collection id, env, s => respond env s ((s.documents collection).get? id) s
  | .putDocument collection document, env, s =>
    respond env s () (s.setDocuments collection ((s.documents collection).set document.id document))
  | .queryDocuments collection, env, s => respond env s (s.documents collection).values s
  | .queryOperations collection operation idempotencyKey, env, s =>
    respond env s ((s.documents collection).values.filterMap (·.operationRow operation idempotencyKey)) s
  | .deleteDocument collection id, env, s =>
    respond env s () (s.setDocuments collection ((s.documents collection).erase id))
  | .embed _, env, s => respond env s env.vector s
  | .upsertVector collection id document, env, s =>
    respond env s () (s.setVectors collection ((s.vectors collection).set id document))
  | .deleteVector collection id, env, s =>
    respond env s () (s.setVectors collection ((s.vectors collection).erase id))
  | .searchVectors collection query limit tier, env, s =>
    respond env s (search (s.vectors collection) query limit tier) s
  | .meter o, env, s =>
    match meterAnswers o () s.meter with
    | some (r, meter) => respond env s r { s with meter := meter }
    | none => none
  | .queryQuotas space, env, s => respond env s (rowsWhere (·.namespace = space) s.meter.quotas.all) s
  | .deleteQuota id, env, s =>
    respond env s () { s with meter := { s.meter with quotas := s.meter.quotas.delete id } }
  | .queryBuckets space, env, s => respond env s (rowsWhere (·.namespace = space) s.meter.buckets.all) s
  | .deleteBucket id, env, s =>
    respond env s () { s with meter := { s.meter with buckets := s.meter.buckets.delete id } }
  | .countAuditRows space, env, s => respond env s (s.projection.count space) s
  | .saveAuditRow space, env, s => respond env s () { s with projection := s.projection ++ [space] }
  | .appendWitness _, env, s => respond env s env.id s

abbrev SourceCall := Async SourceOp.Answer String

/-! ## The operations as calls -/

/-- A request whose answer may be a rejection. -/
def request {α : Type} (o : SourceOp) (answer : o.Answer → Except String α) : SourceCall α := do
  let r ← perform o
  unwrap (answer r)

def makeId : SourceCall String := perform SourceOp.makeId

def now : SourceCall IsoTime := perform SourceOp.now

def getNamespace (space : String) : SourceCall (Option {record : PublicMcpNamespaceRecord // record.namespace = space}) :=
  request (.getNamespace space) id

def putNamespace (record : PublicMcpNamespaceRecord) : SourceCall Unit := request (.putNamespace record) id

def getDocument (collection id : String) : SourceCall (Option SourceDocument) :=
  request (.getDocument collection id) fun r => r

def putDocument (collection : String) (document : SourceDocument) : SourceCall Unit :=
  request (.putDocument collection document) id

def queryDocuments (collection : String) : SourceCall (List SourceDocument) := request (.queryDocuments collection) id

def queryOperations (collection : String) (operation : AuditedOperation) (idempotencyKey : String) :
    SourceCall (List StoredOperationAuditRecord) := request (.queryOperations collection operation idempotencyKey) id

def deleteDocument (collection id : String) : SourceCall Unit :=
  request (.deleteDocument collection id) fun r => r

def embed (content : String) : SourceCall Embedding := request (.embed content) id

def upsertVector (collection id : String) (document : VectorDocument) : SourceCall Unit :=
  request (.upsertVector collection id document) fun r => r

def deleteVectorRow (collection id : String) : SourceCall Unit := request (.deleteVector collection id) fun r => r

def searchVectors (collection : String) (query : Embedding) (limit : Nat) (tier : PublicMcpMemoryTier) :
    SourceCall (List (String × Rat)) := request (.searchVectors collection query limit tier) id

def appendWitness (actionRef : String) : SourceCall String := request (.appendWitness actionRef) id

/-- A call of one of the stores of the counters. -/
def metered {α : Type} (call : MeterCall α) : SourceCall α := call.interpret fun o => request (.meter o) id

end NousCore.PublicMcp
