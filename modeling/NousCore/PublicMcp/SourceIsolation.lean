import NousCore.PublicMcp.SourceTasks

/-!
# The sources of different clients

* `Agree` : two states agree in what belongs to a namespace;
* `isolates` : the operations of other namespaces leave what belongs to a namespace as it is, and its own operations
  depend on it only.
-/

namespace NousCore.PublicMcp

open Async

/-! ## What one namespace sees -/

structure Agree (space : String) (s t : SourceState) : Prop where
  registry : s.registry.find? space = t.registry.find? space
  documents : ∀ collection ∈ (collectionsOf space).documentCollections, s.documents collection = t.documents collection
  vectors : s.vectors (collectionsOf space).vectorCollection = t.vectors (collectionsOf space).vectorCollection
  quotas : s.meter.quotas.rows.restrict (ownKey space) = t.meter.quotas.rows.restrict (ownKey space)
  buckets : s.meter.buckets.rows.restrict (ownKey space) = t.meter.buckets.rows.restrict (ownKey space)
  projection : s.projection.count space = t.projection.count space

namespace Agree

variable {space : String} {s s₁ t t₁ u s' : SourceState}

theorem refl (s : SourceState) : Agree space s s := ⟨rfl, fun _ _ => rfl, rfl, rfl, rfl, rfl⟩

section

variable (h : Agree space s t)

include h

theorem trans (h' : Agree space t u) : Agree space s u where
  registry := h.registry.trans h'.registry
  documents := fun collection hcollection => (h.documents collection hcollection).trans (h'.documents _ hcollection)
  vectors := h.vectors.trans h'.vectors
  quotas := h.quotas.trans h'.quotas
  buckets := h.buckets.trans h'.buckets
  projection := h.projection.trans h'.projection

theorem get : s.registry.get space = t.registry.get space := by
  refine Option.map_injective Subtype.val_injective ?_
  rw [Collection.map_val_get, Collection.map_val_get]
  exact h.registry

theorem quota {key : String} (hkey : ownKey space key = true) :
    s.meter.quotas.find? key = t.meter.quotas.find? key := by
  unfold Collection.find?
  rw [← Record.get?_restrict hkey, h.quotas, Record.get?_restrict hkey]

theorem bucket {key : String} (hkey : ownKey space key = true) :
    s.meter.buckets.find? key = t.meter.buckets.find? key := by
  unfold Collection.find?
  rw [← Record.get?_restrict hkey, h.buckets, Record.get?_restrict hkey]

theorem setDocuments (collection : String) (rows : Record String SourceDocument) :
    Agree space (s.setDocuments collection rows) (t.setDocuments collection rows) where
  registry := h.registry
  documents := fun name hname => by
    rw [SourceState.documents_setDocuments, SourceState.documents_setDocuments, h.documents name hname]
  vectors := h.vectors
  quotas := h.quotas
  buckets := h.buckets
  projection := h.projection

theorem setVectors (collection : String) (rows : Record String VectorDocument) :
    Agree space (s.setVectors collection rows) (t.setVectors collection rows) where
  registry := h.registry
  documents := h.documents
  vectors := by
    rw [SourceState.vectors_setVectors, SourceState.vectors_setVectors, h.vectors]
  quotas := h.quotas
  buckets := h.buckets
  projection := h.projection

theorem respond {α : Type} {env : SourceEnv} {a : α} {r : Except String α}
    (h₁ : Agree space s₁ t₁) (hrespond : PublicMcp.respond env s a s₁ = some (r, s')) :
    ∃ t', PublicMcp.respond env t a t₁ = some (r, t') ∧ Agree space s' t' := by
  unfold PublicMcp.respond at hrespond ⊢
  split at hrespond <;> cases hrespond
  · exact ⟨t, rfl, h⟩
  · exact ⟨t₁, rfl, h₁⟩

end

theorem of_respond {α : Type} {env : SourceEnv} {a : α} {r : Except String α} (h₁ : Agree space s₁ s)
    (hrespond : PublicMcp.respond env s a s₁ = some (r, s')) : Agree space s' s := by
  unfold PublicMcp.respond at hrespond
  split at hrespond <;> cases hrespond
  · exact refl s
  · exact h₁

end Agree

/-! ## Operations -/

section Operations

variable {space other : String} {search : VectorSearch} {o : SourceOp} {env : SourceEnv} {s s' t : SourceState}
  {r : o.Answer}

theorem rowsWhere_all {α : Type} {key name : α → String} {rows rows' : Collection key}
    (hown : ∀ row, name row = space → ownKey space (key row) = true)
    (h : rows.rows.restrict (ownKey space) = rows'.rows.restrict (ownKey space)) :
    rowsWhere (name · = space) rows.all = rowsWhere (name · = space) rows'.all := by
  have hrows : ∀ rows : Collection key,
      rowsWhere (name · = space) rows.all = rowsWhere (name · = space) (rows.rows.restrict (ownKey space)).values := by
    intro rows
    unfold rowsWhere Collection.all Record.values Record.restrict
    rw [List.filterMap_map, List.filterMap_map, List.filterMap_filter]
    refine List.filterMap_congr fun e he => ?_
    split_ifs with hkey
    · rfl
    · rw [Function.comp_apply, dif_neg]
      intro hname
      have hkeyed := rows.keyed e.1 e.2 (Record.get?_eq_some.mpr he)
      exact hkey (hkeyed ▸ hown e.2 hname)
  rw [hrows, h, ← hrows]

theorem ownKey_quotaKey (record : PublicMcpQuotaUsageRecord) (h : record.namespace = space) :
    ownKey space (quotaKey record) = true := h ▸ ownKey_buildId _ _

theorem ownKey_quotaId (space fingerprint : String) :
    ownKey space (QuotaUsageStore.buildId space fingerprint) = true := ownKey_buildId _ _

theorem exists_bucketId_eq (space fingerprint toolName : String) :
    ∃ client : String, RateLimitBucketStore.buildId space fingerprint toolName = s!"{space}::{client}" := by
  refine ⟨s!"{fingerprint}::{toolName}", ?_⟩
  simp [RateLimitBucketStore.buildId, toString_self, ← String.toList_inj]

theorem ownKey_bucketId (space fingerprint toolName : String) :
    ownKey space (RateLimitBucketStore.buildId space fingerprint toolName) = true := by
  obtain ⟨client, hclient⟩ := exists_bucketId_eq space fingerprint toolName
  rw [hclient]
  exact ownKey_buildId _ _

theorem ownKey_bucketKey (record : PublicMcpRateLimitBucketRecord) (h : record.namespace = space) :
    ownKey space (bucketKey record) = true := h ▸ ownKey_bucketId _ _ _

theorem agree_respects (ho : Within space o) (h : Agree space s t) (hanswers : sourceAnswers search o env s = some (r, s')) :
    ∃ t', sourceAnswers search o env t = some (r, t') ∧ Agree space s' t' := by
  cases o with
  | makeId | now =>
    cases hanswers
    exact ⟨t, rfl, h⟩
  | embed | appendWitness => exact h.respond h hanswers
  | getNamespace name =>
    obtain rfl : name = space := ho
    rw [sourceAnswers, h.get] at hanswers
    exact h.respond h hanswers
  | putNamespace record =>
    obtain rfl : record.namespace = space := ho
    have h₁ : Agree record.namespace { s with registry := s.registry.put record }
        { t with registry := t.registry.put record } :=
      { h with registry := by rw [Collection.find?_put_self, Collection.find?_put_self] }
    exact h.respond h₁ hanswers
  | getDocument collection id =>
    rw [sourceAnswers, h.documents collection ho] at hanswers
    exact h.respond h hanswers
  | putDocument collection document =>
    rw [sourceAnswers, h.documents collection ho] at hanswers
    exact h.respond (h.setDocuments _ _) hanswers
  | queryDocuments collection =>
    rw [sourceAnswers, h.documents collection ho] at hanswers
    exact h.respond h hanswers
  | queryOperations collection operation idempotencyKey =>
    rw [sourceAnswers, h.documents collection ho] at hanswers
    exact h.respond h hanswers
  | deleteDocument collection id =>
    rw [sourceAnswers, h.documents collection ho] at hanswers
    exact h.respond (h.setDocuments _ _) hanswers
  | upsertVector collection id document =>
    obtain rfl : collection = _ := ho
    rw [sourceAnswers, h.vectors] at hanswers
    exact h.respond (h.setVectors _ _) hanswers
  | deleteVector collection id =>
    obtain rfl : collection = _ := ho
    rw [sourceAnswers, h.vectors] at hanswers
    exact h.respond (h.setVectors _ _) hanswers
  | searchVectors collection query limit tier =>
    obtain rfl : collection = _ := ho
    rw [sourceAnswers, h.vectors] at hanswers
    exact h.respond h hanswers
  | meter o =>
    cases o with
    | getQuota id =>
      obtain ⟨fingerprint, rfl⟩ := ho
      change respond env s (s.meter.quotas.find? _) s = _ at hanswers
      rw [h.quota (ownKey_quotaId _ _)] at hanswers
      exact h.respond h hanswers
    | putQuota record =>
      have hset : ∀ quotas : Collection quotaKey, (quotas.put record).rows.restrict (ownKey space) =
          (quotas.rows.restrict (ownKey space)).set (quotaKey record) record := fun quotas =>
        Record.restrict_set_of_pos _ (ownKey_quotaKey record ho)
      have h₁ : Agree space { s with meter := { s.meter with quotas := s.meter.quotas.put record } }
          { t with meter := { t.meter with quotas := t.meter.quotas.put record } } :=
        { h with quotas := by rw [hset, hset, h.quotas] }
      exact h.respond h₁ hanswers
    | getBucket id =>
      obtain ⟨fingerprint, toolName, rfl⟩ := ho
      change respond env s (s.meter.buckets.find? _) s = _ at hanswers
      rw [h.bucket (ownKey_bucketId _ _ _)] at hanswers
      exact h.respond h hanswers
    | putBucket record =>
      have hset : ∀ buckets : Collection bucketKey, (buckets.put record).rows.restrict (ownKey space) =
          (buckets.rows.restrict (ownKey space)).set (bucketKey record) record := fun buckets =>
        Record.restrict_set_of_pos _ (ownKey_bucketKey record ho)
      have h₁ : Agree space { s with meter := { s.meter with buckets := s.meter.buckets.put record } }
          { t with meter := { t.meter with buckets := t.meter.buckets.put record } } :=
        { h with buckets := by rw [hset, hset, h.buckets] }
      exact h.respond h₁ hanswers
  | queryQuotas name =>
    obtain rfl : name = space := ho
    rw [sourceAnswers, rowsWhere_all (fun row => ownKey_quotaKey row) h.quotas] at hanswers
    exact h.respond h hanswers
  | deleteQuota id =>
    have herase : ∀ quotas : Collection quotaKey, (quotas.delete id).rows.restrict (ownKey space) =
        (quotas.rows.restrict (ownKey space)).erase id := fun quotas => Record.restrict_erase
    have h₁ : Agree space { s with meter := { s.meter with quotas := s.meter.quotas.delete id } }
        { t with meter := { t.meter with quotas := t.meter.quotas.delete id } } :=
      { h with quotas := by rw [herase, herase, h.quotas] }
    exact h.respond h₁ hanswers
  | queryBuckets name =>
    obtain rfl : name = space := ho
    rw [sourceAnswers, rowsWhere_all (fun row => ownKey_bucketKey row) h.buckets] at hanswers
    exact h.respond h hanswers
  | deleteBucket id =>
    have herase : ∀ buckets : Collection bucketKey, (buckets.delete id).rows.restrict (ownKey space) =
        (buckets.rows.restrict (ownKey space)).erase id := fun buckets => Record.restrict_erase
    have h₁ : Agree space { s with meter := { s.meter with buckets := s.meter.buckets.delete id } }
        { t with meter := { t.meter with buckets := t.meter.buckets.delete id } } :=
      { h with buckets := by rw [herase, herase, h.buckets] }
    exact h.respond h₁ hanswers
  | countAuditRows name =>
    obtain rfl : name = space := ho
    rw [sourceAnswers, h.projection] at hanswers
    exact h.respond h hanswers
  | saveAuditRow name =>
    have h₁ : Agree space { s with projection := s.projection ++ [name] }
        { t with projection := t.projection ++ [name] } :=
      { h with projection := by rw [List.count_append, List.count_append, h.projection] }
    exact h.respond h₁ hanswers

/-- An operation on what belongs to a namespace that shares no collection leaves what the namespace sees as it is. -/
theorem agree_frame (hspace : isNamespace space = true) (hother : isNamespace other = true) (hne : other ≠ space)
    (hdisjoint : List.Disjoint (collectionsOf space).names (collectionsOf other).names) (ho : Within other o)
    (hanswers : sourceAnswers search o env s = some (r, s')) : Agree space s' s := by
  have hdocuments : ∀ {collection}, collection ∈ (collectionsOf other).documentCollections →
      ∀ rows, Agree space (s.setDocuments collection rows) s := by
    intro collection hcollection rows
    refine { Agree.refl s with documents := fun name hname => ?_ }
    rw [SourceState.documents_setDocuments, if_neg]
    rintro rfl
    exact hdisjoint (List.mem_append_left _ hname) (List.mem_append_left _ hcollection)
  have hvectors : ∀ {collection}, collection = (collectionsOf other).vectorCollection →
      ∀ rows, Agree space (s.setVectors collection rows) s := by
    rintro collection rfl rows
    refine { Agree.refl s with vectors := ?_ }
    rw [SourceState.vectors_setVectors, if_neg]
    intro heq
    exact hdisjoint (List.mem_append_right _ (List.mem_singleton.mpr rfl))
      (List.mem_append_right _ (List.mem_singleton.mpr heq))
  have hkey : ∀ rest, ownKey space s!"{other}::{rest}" = false := not_ownKey hspace hother hne
  cases o with
  | makeId | now =>
    cases hanswers
    exact Agree.refl s
  | embed _ | appendWitness _ | getNamespace _ | getDocument _ _ | queryDocuments _ | queryOperations _ _ _
  | searchVectors _ _ _ _ | queryQuotas _ | queryBuckets _ | countAuditRows _ => exact (Agree.refl s).of_respond hanswers
  | putNamespace record =>
    obtain rfl : record.namespace = other := ho
    have h₁ : Agree space { s with registry := s.registry.put record } s :=
      { Agree.refl s with registry := by rw [Collection.find?_put, if_neg hne.symm] }
    exact h₁.of_respond hanswers
  | putDocument | deleteDocument => exact (hdocuments ho _).of_respond hanswers
  | upsertVector | deleteVector => exact (hvectors ho _).of_respond hanswers
  | meter o =>
    cases o with
    | getQuota _ | getBucket _ => exact (Agree.refl s).of_respond hanswers
    | putQuota record =>
      obtain rfl : record.namespace = other := ho
      have h₁ : Agree space { s with meter := { s.meter with quotas := s.meter.quotas.put record } } s :=
        { Agree.refl s with quotas := Record.restrict_set_of_neg _ (hkey _) }
      exact h₁.of_respond hanswers
    | putBucket record =>
      obtain rfl : record.namespace = other := ho
      have hbucket : ownKey space (bucketKey record) = false := by
        obtain ⟨client, hclient⟩ := exists_bucketId_eq record.namespace record.tokenFingerprint record.toolName
        rw [bucketKey, hclient]
        exact hkey client
      have h₁ : Agree space { s with meter := { s.meter with buckets := s.meter.buckets.put record } } s :=
        { Agree.refl s with buckets := Record.restrict_set_of_neg _ hbucket }
      exact h₁.of_respond hanswers
  | deleteQuota id =>
    obtain ⟨fingerprint, rfl⟩ := ho
    have h₁ : Agree space { s with meter := { s.meter with quotas := s.meter.quotas.delete _ } } s :=
      { Agree.refl s with quotas := Record.restrict_erase_of_neg (hkey fingerprint) }
    exact h₁.of_respond hanswers
  | deleteBucket id =>
    obtain ⟨fingerprint, toolName, rfl⟩ := ho
    have hbucket : ownKey space (RateLimitBucketStore.buildId other fingerprint toolName) = false := by
      obtain ⟨client, hclient⟩ := exists_bucketId_eq other fingerprint toolName
      rw [hclient]
      exact hkey client
    have h₁ : Agree space { s with meter := { s.meter with buckets := s.meter.buckets.delete _ } } s :=
      { Agree.refl s with buckets := Record.restrict_erase_of_neg hbucket }
    exact h₁.of_respond hanswers
  | saveAuditRow name =>
    obtain rfl : name = other := ho
    have hcount : (s.projection ++ [name]).count space = s.projection.count space := by
      rw [List.count_append, List.count_singleton, if_neg (by simpa using hne), Nat.add_zero]
    have h₁ : Agree space { s with projection := s.projection ++ [name] } s :=
      { Agree.refl s with projection := hcount }
    exact h₁.of_respond hanswers

end Operations

/-! ## Isolation -/

section Isolation

variable {service : ExternalSourceMemoryService} {search : VectorSearch} {clients : Set PublicMcpTokenClaims}
  {a : PublicMcpTokenClaims} {space : String}

/-- Calls of the service one after the other, each with the choices of the environment. -/
def callsInTurn (service : ExternalSourceMemoryService) (search : VectorSearch)
    (calls : List (SourceTask × List SourceEnv)) (s : SourceState) :
    Option (List (SourceTask × Except String SourceResult) × SourceState) :=
  inTurn (sourceAnswers search) (SourceTask.run service) calls s

/-- A namespace is isolated from the clients: the collections of their other namespaces are others, and without the
calls for their other namespaces the calls for this one have the same outcomes, and leave the same to be seen. -/
structure Isolated (service : ExternalSourceMemoryService) (search : VectorSearch)
    (clients : Set PublicMcpTokenClaims) (space : String) : Prop where
  disjoint : ∀ b ∈ clients, ∀ other, Admits service.sha256 b other → other ≠ space →
    List.Disjoint (collectionsOf space).names (collectionsOf other).names
  independent : ∀ calls s ys s',
    (∀ call ∈ calls, call.1.space = space ∨ ∃ b ∈ clients, Admits service.sha256 b call.1.space) →
    callsInTurn service search calls s = some (ys, s') →
    ∃ t', callsInTurn service search (calls.filter (·.1.space = space)) s =
      some (ys.filter (·.1.space = space), t') ∧ Agree space s' t'

/-- The operations for other namespaces that share no collection. -/
def Elsewhere (space : String) (o : SourceOp) : Prop :=
  ∃ other, isNamespace other = true ∧ other ≠ space ∧
    List.Disjoint (collectionsOf space).names (collectionsOf other).names ∧ Within other o

theorem isolates (search : VectorSearch) (hspace : isNamespace space = true) :
    Isolates (sourceAnswers search) (Agree space) (Within space) (Elsewhere space) where
  refl := Agree.refl
  trans := fun _ _ _ => Agree.trans
  respects := fun _ _ _ _ _ _ ho hagree hanswers => agree_respects ho hagree hanswers
  frame := by
    rintro o x s r s' ⟨other, hother, hne, hdisjoint, ho⟩ hanswers
    exact agree_frame hspace hother hne hdisjoint ho hanswers

theorem namespace_ne_of_collides {b : PublicMcpTokenClaims} {other : String} (ha : Admits service.sha256 a space)
    (hb : Admits service.sha256 b other) (hcollides : Collides a b) : other ≠ space := by
  rintro rfl
  have hparse : ∀ {c : PublicMcpTokenClaims}, Admits service.sha256 c other →
      parseNamespaceSubspace other = sanitizeSubspace c.subspace := by
    intro c hc
    obtain ⟨hother, hhash, -⟩ := admits_eq hc
    rw [hother, parse_namespaceOf hhash fun kept => not_colon_mem_of_sanitize]
  have hsame := (hparse ha).symm.trans (hparse hb)
  rcases hcollides.2 with ⟨h, h'⟩ | ⟨h, h'⟩ <;> rw [h, h'] at hsame <;> cases hsame

/-- **Isolation.** The namespace of a client is isolated from a set of clients exactly when no namespace of theirs
stands for the same collections. -/
theorem isolated_iff (ha : Admits service.sha256 a space)
    (hsha : ∀ b ∈ clients, service.sha256 a.clientId = service.sha256 b.clientId → a.clientId = b.clientId) :
    Isolated service search clients space ↔
      ∀ b ∈ clients, (∃ other, Admits service.sha256 b other) → ¬Collides a b := by
  constructor
  · rintro hisolated b hb ⟨other, hother⟩ hcollides
    have hne := namespace_ne_of_collides ha hother hcollides
    exact (disjoint_iff (hsha b hb) ha hother hne).mp (hisolated.disjoint b hb other hother hne) hcollides
  · intro hcollides
    have hdisjoint : ∀ b ∈ clients, ∀ other, Admits service.sha256 b other → other ≠ space →
        List.Disjoint (collectionsOf space).names (collectionsOf other).names := fun b hb other hother hne =>
      (disjoint_iff (hsha b hb) ha hother hne).mpr (hcollides b hb ⟨other, hother⟩)
    refine ⟨hdisjoint, fun calls s ys s' hcalls hrun => ?_⟩
    refine (isolates search (admits_eq ha).2.2).inTurn_filter (SourceTask.run service) (·.space = space)
      (Agree.refl s) (fun call _ hown => ?_) (fun call hcall hown => ?_) hrun
    · have h := call.1.within service
      rwa [show call.1.space = space from of_decide_eq_true hown] at h
    · have hne : call.1.space ≠ space := of_decide_eq_false hown
      obtain ⟨b, hb, hadmits⟩ := (hcalls call hcall).resolve_left hne
      exact (call.1.within service).mono fun o ho =>
        ⟨_, (admits_eq hadmits).2.2, hne, hdisjoint b hb _ hadmits hne, ho⟩

theorem not_isolated_of_stored {collection : String} (calls : List (SourceTask × List SourceEnv)) (s : SourceState)
    (hcollection : collection ∈ (collectionsOf space).documentCollections)
    (hcalls : ∀ call ∈ calls, call.1.space ≠ space ∧ ∃ b ∈ clients, Admits service.sha256 b call.1.space)
    (hstored : (callsInTurn service search calls s).any (fun run => run.2.documents collection ≠ s.documents collection)) :
    ¬Isolated service search clients space := by
  intro hisolated
  obtain ⟨⟨ys, s'⟩, hrun, hdiffer⟩ := (Option.any_eq_true _ _).mp hstored
  obtain ⟨t', hrun', hagree⟩ := hisolated.independent calls s ys s' (fun call hcall => .inr (hcalls call hcall).2) hrun
  rw [List.filter_eq_nil_iff.mpr fun call hcall => by simpa using (hcalls call hcall).1] at hrun'
  obtain ⟨-, rfl⟩ := Prod.mk.inj (Option.some.inj hrun')
  exact of_decide_eq_true hdiffer (hagree.documents collection hcollection)

end Isolation

/-! ## One client with two namespaces -/

def hashOne : String := "0123456789abcdef0123456789abcdef0123456789abcdef0123456789abcdef"

/-- A service without vectors, audit rows and witnesses, that knows the hash of one client. -/
def serviceOne : ExternalSourceMemoryService where
  sha256 := fun text => if text = "client-1" then hashOne else "hash of " ++ text
  localeCompare := fun _ _ => .eq
  vectorStore := false
  embedder := false
  auditStore := false
  witnessService := false

def noSearch : VectorSearch := fun _ _ _ _ => []

/-- The client without a subspace. -/
def clientOne : PublicMcpTokenClaims := ⟨"client-1", none⟩

/-- The client with the subspace that stands for none. -/
def clientDefault : PublicMcpTokenClaims := ⟨"client-1", some "default"⟩

/-- The client with another subspace. -/
def clientNotes : PublicMcpTokenClaims := ⟨"client-1", some "notes"⟩

def subjectOf (subspace : Option String) (h : isNamespace (namespaceOf hashOne subspace) = true)
    (h' : hashOne = hashOf (namespaceOf hashOne subspace)) : ExternalSubject where
  val :=
    { clientId := "client-1"
      clientIdHash := hashOne
      tokenFingerprint := some hashOne
      «namespace» := namespaceOf hashOne subspace }
  property := ⟨h, h', by
    rintro fingerprint hfingerprint
    rw [← Option.some.inj hfingerprint]
    decide +kernel⟩

def subjectOne : ExternalSubject := subjectOf none (by decide +kernel) (by decide +kernel)

def subjectDefault : ExternalSubject := subjectOf (some "default") (by decide +kernel) (by decide +kernel)

theorem admits_one : Admits serviceOne.sha256 clientOne subjectOne.val.namespace :=
  ⟨hashOne, subjectOne.val, rfl, rfl⟩

theorem admits_default : Admits serviceOne.sha256 clientDefault subjectDefault.val.namespace :=
  ⟨hashOne, subjectDefault.val, rfl, rfl⟩

theorem isolated_notes : Isolated serviceOne noSearch {clientNotes} subjectOne.val.namespace := by
  refine (isolated_iff admits_one ?_).mpr ?_
  · rintro b rfl -
    rfl
  · rintro b rfl -
    decide +kernel

def sourceEnv : SourceEnv := ⟨none, "entry-1", toISOString 1773446400000, []⟩

def putDefault : SourceTask :=
  .put ⟨"550e8400-e29b-41d4-a716-446655440000", subjectDefault,
    { «namespace» := subjectDefault.val.namespace
      tier := .stm
      entryId := some "entry-1"
      content := "a note of the subspace"
      mode := .append
      supersedesEntryId := none
      tags := []
      metadata := []
      idempotencyKey := "key-1" }, toISOString 1773446400000⟩

/-- What the client puts with the subspace `default` is stored among its entries without a subspace. -/
theorem default_not_isolated : ¬Isolated serviceOne noSearch {clientDefault} subjectOne.val.namespace := by
  refine not_isolated_of_stored [(putDefault, List.replicate 14 sourceEnv)] .empty List.mem_cons_self
    (fun call hcall => ?_) (by decide +kernel)
  obtain rfl := List.mem_singleton.mp hcall
  exact ⟨by decide +kernel, clientDefault, rfl, admits_default⟩

end NousCore.PublicMcp
