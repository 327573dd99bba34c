import NousCore.Lib.Isolation
import NousCore.PublicMcp.Namespaces
import NousCore.PublicMcp.SourceService

/-!
# The calls of the external sources

* `SourceTask`, `SourceResult`, `SourceTask.run` : the calls of the service, with their results;
* `SourceTask.within` : a call asks for operations on what belongs to its namespace only.
-/

namespace NousCore.PublicMcp

open Async NamespaceRegistryStore ExternalSourceStorageAdapter ExternalSourceMemoryService

inductive SourceTask where
  | put (command : SourceCommand PublicMcpPutArguments)
  | get (query : SourceCommand PublicMcpGetArguments)
  | search (query : SourceCommand PublicMcpSearchArguments)
  | delete (command : SourceCommand PublicMcpDeleteArguments)
  | compact (command : SourceCommand PublicMcpCompactArguments)
  | quarantine (space reason : String)
  | restore (space : String)
  | purge (space : String)

/-- The namespace of the subject, or of the source that is managed. -/
def SourceTask.space : SourceTask → String
  | .put command => command.subject.val.namespace
  | .get query => query.subject.val.namespace
  | .search query => query.subject.val.namespace
  | .delete command => command.subject.val.namespace
  | .compact command => command.subject.val.namespace
  | .quarantine space _ => space
  | .restore space => space
  | .purge space => space

inductive SourceResult where
  | mutation (result : ExternalSourceMutationResult)
  | entry (entry : Option ExternalSourceMemoryEntry)
  | items (entries : List ExternalSourceSearchResultItem)
  | compaction (result : ExternalSourceCompactionResult)
  | record (record : PublicMcpNamespaceRecord)
  | purged (result : SourcePurgeResult)

def SourceTask.run (service : ExternalSourceMemoryService) : SourceTask → SourceCall SourceResult
  | .put command => .mutation <$> ExternalSourceMemoryService.put service command
  | .get query => .entry <$> ExternalSourceMemoryService.get query
  | .search query => .items <$> ExternalSourceMemoryService.search service query
  | .delete command => .mutation <$> ExternalSourceMemoryService.delete service command
  | .compact command => .compaction <$> ExternalSourceMemoryService.compact service command
  | .quarantine space reason => .record <$> quarantineSource service space reason
  | .restore space => .record <$> NamespaceRegistryStore.restore space
  | .purge space => .purged <$> purgeSource service space

/-! ## What belongs to a namespace -/

/-- The counters of a namespace. -/
def MeterOp.within (space : String) : MeterOp → Prop
  | .getQuota id => ∃ fingerprint, id = QuotaUsageStore.buildId space fingerprint
  | .putQuota record => record.namespace = space
  | .getBucket id => ∃ fingerprint toolName, id = RateLimitBucketStore.buildId space fingerprint toolName
  | .putBucket record => record.namespace = space

/-- The operation reads and writes only what belongs to the namespace. -/
def Within (space : String) : SourceOp → Prop
  | .makeId | .now | .embed _ | .appendWitness _ => True
  | .getNamespace name => name = space
  | .putNamespace record => record.namespace = space
  | .getDocument collection _ | .putDocument collection _ | .queryDocuments collection
  | .queryOperations collection _ _ | .deleteDocument collection _ =>
    collection ∈ (collectionsOf space).documentCollections
  | .upsertVector collection _ _ | .deleteVector collection _ | .searchVectors collection _ _ _ =>
    collection = (collectionsOf space).vectorCollection
  | .meter o => o.within space
  | .queryQuotas name | .queryBuckets name => name = space
  | .deleteQuota id => ∃ fingerprint, id = QuotaUsageStore.buildId space fingerprint
  | .deleteBucket id => ∃ fingerprint toolName, id = RateLimitBucketStore.buildId space fingerprint toolName
  | .countAuditRows name | .saveAuditRow name => name = space

section Footprints

variable {space : String} {service : ExternalSourceMemoryService} {record : PublicMcpNamespaceRecord}
  {α : Type} {Q : α → Prop}

theorem yields_request {o : SourceOp} {answer : o.Answer → Except String α} (h : Within space o)
    (hQ : ∀ r a, answer r = .ok a → Q a) : (request o answer).Yields (Within space) Q :=
  ⟨h, fun r => yields_unwrap (hQ r)⟩

theorem every_request {o : SourceOp} {answer : o.Answer → Except String α} (h : Within space o) :
    (request o answer).Every (Within space) :=
  ⟨h, fun _ => every_unwrap _⟩

/-! ### The registry -/

theorem yields_save (h : record.namespace = space) :
    (save record).Yields (Within space) (·.namespace = space) :=
  yields_bind (Q := fun _ => True) (yields_request h fun _ _ _ => trivial) fun _ _ => h

theorem yields_ensureNamespace (subject : ExternalSubject) :
    (ensureNamespace subject).Yields (Within subject.val.namespace) (·.namespace = subject.val.namespace) := by
  refine yields_bind (yields_perform trivial) fun now _ => ?_
  refine yields_bind (Q := fun _ => True) (yields_request rfl fun _ _ _ => trivial) fun existing _ => ?_
  cases existing with
  | none => exact yields_save rfl
  | some existing => exact yields_save existing.property

theorem yields_mark {change : PublicMcpNamespaceRecord → PublicMcpNamespaceRecord}
    (h : ∀ record, (change record).namespace = record.namespace) :
    (mark space change).Yields (Within space) (·.namespace = space) := by
  refine yields_bind (Q := fun _ => True) ?_ fun existing _ => yields_save ((h _).trans existing.property)
  refine yields_bind (Q := fun _ => True) (yields_request rfl fun _ _ _ => trivial) fun existing _ => ?_
  cases existing with
  | none | some => trivial

theorem every_mark {change : PublicMcpNamespaceRecord → PublicMcpNamespaceRecord}
    (h : ∀ record, (change record).namespace = record.namespace) : (mark space change).Every (Within space) :=
  (yields_mark h).every

/-! ### The storage -/

theorem collectionForTier_mem (h : record.namespace = space) (tier : PublicMcpMemoryTier) :
    collectionForTier record tier ∈ (collectionsOf space).documentCollections := by
  subst h
  cases tier <;> simp [collectionForTier, record.collections_eq, ExternalCollections.documentCollections]

theorem every_putEntry (h : record.namespace = space) (entry : ExternalSourceMemoryEntry) :
    (putEntry service record entry).Every (Within space) := by
  refine every_bind (every_unwrap _) fun parsed => ?_
  refine every_bind (every_request (collectionForTier_mem h _)) fun _ => ?_
  split_ifs
  · refine every_bind (every_request trivial) fun vector => every_request ?_
    subst h
    exact congrArg (·.vectorCollection) record.collections_eq
  · trivial

theorem every_getEntry (h : record.namespace = space) (tier : PublicMcpMemoryTier) (entryId : String) :
    (getEntry record tier entryId).Every (Within space) := by
  refine every_bind (every_request (collectionForTier_mem h _)) fun raw => ?_
  cases raw with
  | none => trivial
  | some raw => exact every_bind (every_unwrap _) fun _ => trivial

theorem every_queryCollections {collections : List String}
    (h : ∀ collection ∈ collections, collection ∈ (collectionsOf space).documentCollections) :
    (queryCollections collections).Every (Within space) := by
  induction collections with
  | nil => trivial
  | cons collection collections ih =>
    obtain ⟨hcollection, hcollections⟩ := List.forall_mem_cons.mp h
    refine every_bind (every_request hcollection) fun rows => ?_
    refine every_bind (every_unwrap _) fun entries => ?_
    exact every_bind (ih hcollections) fun rest => trivial

theorem every_queryEntries (h : record.namespace = space) (tier : Option PublicMcpMemoryTier) :
    (queryEntries record tier).Every (Within space) := by
  refine every_queryCollections ?_
  cases tier with
  | none => exact List.forall_mem_cons.mpr ⟨collectionForTier_mem h .stm,
      List.forall_mem_cons.mpr ⟨collectionForTier_mem h .ltm, by simp⟩⟩
  | some tier => exact List.forall_mem_cons.mpr ⟨collectionForTier_mem h tier, by simp⟩

theorem every_searchEntries (h : record.namespace = space) (args : PublicMcpSearchArguments) :
    (searchEntries service record args).Every (Within space) := by
  have htiers : ∀ query tiers, (searchTiers record query args.limit tiers).Every (Within space) := by
    intro query tiers
    induction tiers with
    | nil => trivial
    | cons tier tiers ih =>
      refine every_bind (every_request ?_) fun results => every_bind ih fun rest => trivial
      subst h
      exact congrArg (·.vectorCollection) record.collections_eq
  refine every_bind (every_queryEntries h _) fun candidates => ?_
  refine every_bind ?_ fun scores => trivial
  unfold vectorScores
  split_ifs
  · exact every_bind (every_request trivial) fun query => every_bind (htiers query _) fun results => trivial
  · trivial

theorem every_deleteVector (h : record.namespace = space) (entryId : String) :
    (deleteVector service record entryId).Every (Within space) := by
  unfold deleteVector
  split_ifs
  · refine every_request ?_
    subst h
    exact congrArg (·.vectorCollection) record.collections_eq
  · trivial

theorem every_purge (h : record.namespace = space) : (purge service record).Every (Within space) := by
  have hrows : ∀ collection ∈ (collectionsOf space).documentCollections, ∀ rows,
      (purgeRows service record collection rows).Every (Within space) := by
    intro collection hcollection rows
    induction rows with
    | nil => trivial
    | cons row rows ih =>
      unfold purgeRows
      split_ifs
      · exact ih
      · refine every_bind (every_request hcollection) fun _ => ?_
        exact every_bind (every_deleteVector h _) fun _ => ih
  have hcollections : ∀ collections : List String,
      (∀ collection ∈ collections, collection ∈ (collectionsOf space).documentCollections) →
      (purgeCollections service record collections).Every (Within space) := by
    intro collections hmem
    induction collections with
    | nil => trivial
    | cons collection collections ih =>
      obtain ⟨hcollection, hcollections⟩ := List.forall_mem_cons.mp hmem
      refine every_bind (every_request hcollection) fun rows => ?_
      exact every_bind (hrows collection hcollection rows) fun _ => ih hcollections
  refine every_bind (hcollections _ fun collection hcollection => ?_) fun _ => trivial
  subst h
  rw [← record.collections_eq]
  exact hcollection

/-! ### The counters -/

theorem every_metered {call : MeterCall α} (h : call.Every (MeterOp.within space)) :
    (metered call).Every (Within space) :=
  (h.yields.interpret (S := Within space) fun _ ho => every_request ho).every

theorem chargeQuota_namespace {input : ConsumeQuotaInput} {existing : Option PublicMcpQuotaUsageRecord}
    {result : QuotaConsumptionResult} (h : chargeQuota input existing = .ok result) :
    result.record.namespace = input.namespace := by
  unfold chargeQuota parseQuotaUsageRecord at h
  dsimp only at h
  split_ifs at h
  · cases h
    rfl
  · cases h

theorem chargeBucket_namespace {input : ConsumeRateLimitInput} {existing : Option PublicMcpRateLimitBucketRecord}
    {result : RateLimitConsumptionResult} (h : chargeBucket input existing = .ok result) :
    result.record.namespace = input.namespace := by
  unfold chargeBucket parseRateLimitBucketRecord at h
  dsimp only at h
  split_ifs at h <;> first | cases h; rfl | cases h

theorem every_consumeEnforcement (h : record.namespace = space) (tokenFingerprint : Option String) (toolName : String)
    (input : EnforcementInput) :
    (consumeEnforcement service record tokenFingerprint toolName input).Every (Within space) := by
  subst h
  refine every_bind ?_ fun _ => ?_
  · refine every_bind (every_unwrap _) fun window => ?_
    refine every_bind (every_metered ?_) fun quota => by split_ifs <;> trivial
    refine Yields.every (Q := fun _ => True) ?_
    refine yields_bind (yields_perform ⟨_, rfl⟩) fun existing _ => ?_
    refine yields_bind (yields_unwrap fun result hresult => chargeQuota_namespace hresult) fun result hresult => ?_
    exact yields_bind (yields_perform hresult) fun _ _ => trivial
  · refine every_bind (every_unwrap _) fun window => ?_
    refine every_bind (every_metered ?_) fun quota => by split_ifs <;> trivial
    refine Yields.every (Q := fun _ => True) ?_
    refine yields_bind (yields_perform ⟨_, _, rfl⟩) fun existing _ => ?_
    refine yields_bind (yields_unwrap fun result hresult => chargeBucket_namespace hresult) fun result hresult => ?_
    exact yields_bind (yields_perform hresult) fun _ _ => trivial

/-! ### Mutations -/

theorem every_findIdempotentResult (h : record.namespace = space) (operation : AuditedOperation)
    (idempotencyKey : Option String) (parse : OperationResult → Except String α) :
    (findIdempotentResult record operation idempotencyKey parse).Every (Within space) := by
  subst h
  unfold findIdempotentResult
  cases idempotencyKey.filter (· ≠ "") with
  | none => trivial
  | some idempotencyKey =>
    refine every_bind (every_request ?_) fun rows => ?_
    · simp [Within, record.collections_eq, ExternalCollections.documentCollections]
    · cases rows with
      | nil => trivial
      | cons found rows => exact every_bind (every_unwrap _) fun _ => trivial

theorem every_writeOperationAudit (h : record.namespace = space) (row : StoredOperationAuditRecord) :
    (writeOperationAudit record row).Every (Within space) := by
  subst h
  refine every_request ?_
  simp [Within, record.collections_eq, ExternalCollections.documentCollections]

theorem every_assertLifecycleStillWritable : (assertLifecycleStillWritable space).Every (Within space) := by
  refine every_bind (every_request rfl) fun current => ?_
  cases current with
  | none => trivial
  | some current => exact every_unwrap _

theorem every_mutateWith {Arguments : Type} {command : SourceCommand Arguments}
    (requestNamespace toolName : String) (operation : AuditedOperation) (idempotencyKey : Option String)
    (parse : OperationResult → Except String α) (input : EnforcementInput)
    {apply : PublicMcpNamespaceRecord → SourceCall α}
    (happly : ∀ record, record.namespace = command.subject.val.namespace →
      (apply record).Every (Within command.subject.val.namespace)) :
    (mutateWith service command requestNamespace toolName operation idempotencyKey parse input apply).Every
      (Within command.subject.val.namespace) := by
  refine Yields.every (Q := fun _ => True) ?_
  refine yields_bind (every_unwrap _).yields fun _ _ => ?_
  refine yields_bind (yields_ensureNamespace command.subject) fun record hrecord => ?_
  refine yields_bind (every_unwrap _).yields fun _ _ => ?_
  refine yields_bind (every_findIdempotentResult hrecord _ _ _).yields fun replay _ => ?_
  cases replay with
  | some replay => trivial
  | none =>
    refine yields_bind (every_consumeEnforcement hrecord _ _ _).yields fun _ _ => ?_
    refine yields_bind (Every.yields ?_) fun _ _ => (happly record hrecord).yields
    rw [hrecord]
    exact every_assertLifecycleStillWritable

theorem every_applyPut (command : SourceCommand PublicMcpPutArguments) (h : record.namespace = space) :
    (applyPut service command record).Every (Within space) := by
  refine every_bind (every_perform trivial) fun now => ?_
  refine every_bind ?_ fun entryId => ?_
  · unfold makeEntryId
    split
    · trivial
    · exact every_perform trivial
  refine every_bind (every_unwrap _) fun entry => ?_
  refine every_bind ?_ fun _ => ?_
  · unfold supersedePrior
    split
    · trivial
    · trivial
    · refine every_bind (every_getEntry h _ _) fun prior => ?_
      cases prior with
      | none => trivial
      | some prior => exact every_putEntry h _
  refine every_bind (every_putEntry h _) fun _ => ?_
  refine every_bind ?_ fun _ => every_bind (every_writeOperationAudit h _) fun _ => trivial
  rw [h]
  exact every_mark fun _ => rfl

theorem every_applyDelete (command : SourceCommand PublicMcpDeleteArguments) (h : record.namespace = space) :
    (applyDelete service command record).Every (Within space) := by
  refine every_bind (every_getEntry h _ _) fun existing => ?_
  cases existing.filter (·.lifecycleStatus ≠ .softDeleted) with
  | none => trivial
  | some existing =>
    refine every_bind (every_perform trivial) fun now => ?_
    refine every_bind (every_unwrap _) fun entry => ?_
    refine every_bind (every_putEntry h _) fun _ => ?_
    refine every_bind (every_deleteVector h _) fun _ => ?_
    refine every_bind (every_request ?_) fun _ => ?_
    · subst h
      simp [Within, record.collections_eq, ExternalCollections.documentCollections]
    refine every_bind ?_ fun _ => every_bind (every_writeOperationAudit h _) fun _ => trivial
    rw [h]
    exact every_mark fun _ => rfl

theorem every_deriveEntries (args : PublicMcpCompactArguments) (name : String)
    (sourceEntries : List ExternalSourceMemoryEntry) (now : IsoTime) :
    (deriveEntries args name sourceEntries now).Every (Within space) := by
  have hfacts : ∀ facts, (buildFacts name now args.idempotencyKey facts).Every (Within space) := by
    intro facts
    induction facts with
    | nil => trivial
    | cons fact facts ih =>
      refine every_bind (every_perform trivial) fun id => every_bind (every_unwrap _) fun entry => ?_
      exact every_bind ih fun entries => trivial
  unfold deriveEntries
  split
  · refine every_bind ?_ fun entry => trivial
    exact every_bind (every_perform trivial) fun id => every_unwrap _
  · exact hfacts _

theorem every_applyCompact (command : SourceCommand PublicMcpCompactArguments) (h : record.namespace = space) :
    (applyCompact service command record).Every (Within space) := by
  have hputs : ∀ entries, (putEntries service record entries).Every (Within space) := by
    intro entries
    induction entries with
    | nil => trivial
    | cons entry entries ih => exact every_bind (every_putEntry h _) fun _ => ih
  refine every_bind (every_perform trivial) fun now => ?_
  refine every_bind (every_queryEntries h _) fun entries => ?_
  refine every_bind (every_deriveEntries _ _ _ _) fun derived => ?_
  refine every_bind (hputs _) fun _ => ?_
  refine every_bind ?_ fun _ => every_bind (every_writeOperationAudit h _) fun _ => trivial
  rw [h]
  exact every_mark fun _ => rfl

/-! ### Quarantine and purge -/

theorem every_appendLifecycleWitness (actionRef : String) :
    (appendLifecycleWitness service actionRef).Every (Within space) := by
  unfold appendLifecycleWitness
  split_ifs
  · exact every_bind (every_request trivial) fun _ => every_bind (every_request trivial) fun _ => trivial
  · trivial

theorem every_auditLifecycle : (auditLifecycle service space).Every (Within space) := by
  unfold auditLifecycle
  split_ifs
  · exact every_request rfl
  · trivial

theorem every_deleteEach {o : String → SourceOp} {answer : ∀ id, (o id).Answer → Except String Unit}
    {ids : List String} (h : ∀ id ∈ ids, Within space (o id)) : (deleteEach o answer ids).Every (Within space) := by
  induction ids with
  | nil => trivial
  | cons id ids ih =>
    obtain ⟨hid, hids⟩ := List.forall_mem_cons.mp h
    exact every_bind (every_request hid) fun _ => ih hids

theorem every_clearQuotas : (clearQuotas space).Every (Within space) := by
  refine every_bind (every_request rfl) fun rows => every_deleteEach fun id hid => ?_
  obtain ⟨row, -, rfl⟩ := List.mem_map.mp hid
  exact ⟨row.val.tokenFingerprint, congrArg (QuotaUsageStore.buildId · _) row.property⟩

theorem every_clearBuckets : (clearBuckets space).Every (Within space) := by
  refine every_bind (every_request rfl) fun rows => every_deleteEach fun id hid => ?_
  obtain ⟨row, -, rfl⟩ := List.mem_map.mp hid
  exact ⟨row.val.tokenFingerprint, row.val.toolName, congrArg (RateLimitBucketStore.buildId · _ _) row.property⟩

theorem every_purgeSource : (purgeSource service space).Every (Within space) := by
  refine every_bind (every_request rfl) fun record => ?_
  cases record with
  | none => trivial
  | some record =>
    refine every_bind (every_perform trivial) fun timestamp => ?_
    refine every_bind (every_mark fun _ => rfl) fun _ => ?_
    refine every_bind ?_ fun retained => ?_
    · unfold countAuditRows
      split_ifs
      · exact every_request rfl
      · trivial
    refine every_bind (every_purge record.property) fun collections => ?_
    refine every_bind every_clearQuotas fun _ => ?_
    refine every_bind every_clearBuckets fun _ => ?_
    refine every_bind (every_perform trivial) fun purgedAt => ?_
    refine every_bind (every_mark fun _ => rfl) fun _ => ?_
    refine every_bind (every_appendLifecycleWitness _) fun _ => ?_
    exact every_bind every_auditLifecycle fun _ => trivial

end Footprints

theorem SourceTask.within (service : ExternalSourceMemoryService) (task : SourceTask) :
    (task.run service).Every (Within task.space) := by
  cases task with
  | put command => exact every_bind (every_mutateWith _ _ _ _ _ _ fun _ h => every_applyPut command h) fun _ => trivial
  | get query =>
    refine every_bind (Yields.every (Q := fun _ => True) ?_) fun _ => trivial
    refine yields_bind (every_unwrap _).yields fun _ _ => ?_
    refine yields_bind (yields_ensureNamespace query.subject) fun record hrecord => ?_
    exact yields_bind (every_getEntry hrecord _ _).yields fun _ _ => trivial
  | search query =>
    refine every_bind (Yields.every (Q := fun _ => True) ?_) fun _ => trivial
    refine yields_bind (every_unwrap _).yields fun _ _ => ?_
    refine yields_bind (yields_ensureNamespace query.subject) fun record hrecord => ?_
    refine yields_bind (every_consumeEnforcement hrecord _ _ _).yields fun _ _ => ?_
    exact (every_searchEntries hrecord _).yields
  | delete command =>
    exact every_bind (every_mutateWith _ _ _ _ _ _ fun _ h => every_applyDelete command h) fun _ => trivial
  | compact command =>
    exact every_bind (every_mutateWith _ _ _ _ _ _ fun _ h => every_applyCompact command h) fun _ => trivial
  | quarantine space reason =>
    refine every_bind ?_ fun _ => trivial
    refine every_bind (every_perform trivial) fun timestamp => ?_
    refine every_bind (every_mark fun _ => rfl) fun record => ?_
    exact every_bind (every_appendLifecycleWitness _) fun _ => every_bind every_auditLifecycle fun _ => trivial
  | restore space =>
    refine every_bind ?_ fun _ => trivial
    exact every_bind (every_perform trivial) fun updatedAt => every_mark fun _ => rfl
  | purge space => exact every_bind every_purgeSource fun _ => trivial

end NousCore.PublicMcp
