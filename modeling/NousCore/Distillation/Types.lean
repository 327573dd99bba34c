import NousCore.Memory.Types

/-!
# Distillation

* `ExperienceRecord` : an entry that the schema of experience records accepts;
* `ExperienceCluster` : a group of records, and the project it is of;
* `draftPattern` : the pattern that is distilled from a cluster.
-/

namespace NousCore.Distillation

open Memory

/-! ## Records -/

def isHexDigit (c : Char) : Bool := c.isDigit || 'a' ≤ c && c ≤ 'f' || 'A' ≤ c && c ≤ 'F'

/-- `z.string().uuid()`. -/
def isUuid (s : String) : Bool :=
  s.toList.length = 36 && s.toList.zipIdx.all fun p => if p.2 ∈ [8, 13, 18, 23] then p.1 = '-' else isHexDigit p.1

structure IsExperienceRecord (entry : MemoryEntry) : Prop where
  type : entry.type = .experienceRecord
  sentiment : entry.sentiment.isSome
  context : entry.context.isSome
  action : entry.action.isSome
  outcome : entry.outcome.isSome
  reason : entry.reason.isSome
  projectId : entry.projectId.all isUuid

theorem isExperienceRecord_iff (entry : MemoryEntry) : IsExperienceRecord entry ↔ entry.type = .experienceRecord ∧
    entry.sentiment.isSome ∧ entry.context.isSome ∧ entry.action.isSome ∧ entry.outcome.isSome ∧
    entry.reason.isSome ∧ entry.projectId.all isUuid := by
  constructor
  · intro h
    exact ⟨h.type, h.sentiment, h.context, h.action, h.outcome, h.reason, h.projectId⟩
  · rintro ⟨htype, hsentiment, hcontext, haction, houtcome, hreason, hproject⟩
    exact ⟨htype, hsentiment, hcontext, haction, houtcome, hreason, hproject⟩

instance (entry : MemoryEntry) : Decidable (IsExperienceRecord entry) :=
  decidable_of_iff _ (isExperienceRecord_iff entry).symm

abbrev ExperienceRecord := { entry : MemoryEntry // IsExperienceRecord entry }

namespace ExperienceRecord

section

variable (record : ExperienceRecord)

def id : String := record.val.id

def projectId : Option String := record.val.projectId

def tags : List String := record.val.tags

def lifecycleStatus : MemoryLifecycleStatus := record.val.lifecycleStatus

theorem projectId_ne_global : record.projectId ≠ some "global" := by
  intro h
  have hproject := record.property.projectId
  rw [show record.val.projectId = some "global" from h] at hproject
  revert hproject
  decide

end

end ExperienceRecord

/-! ## Clusters -/

inductive ClusteringStrategy where
  | tag | project | semantic
  deriving DecidableEq

structure DistillationClusterConfig where
  minClusterSize : Nat
  maxClusterSize : Nat
  clusteringStrategy : ClusteringStrategy
  tagOverlapMin : Option Nat
  two_le_min : 2 ≤ minClusterSize
  min_le : minClusterSize ≤ 50
  three_le_max : 3 ≤ maxClusterSize
  max_le : maxClusterSize ≤ 100
  overlap_pos : ∀ n, tagOverlapMin = some n → 1 ≤ n

structure ExperienceCluster where
  records : List ExperienceRecord
  clusterKey : String
  projectId : Option String
  deriving DecidableEq

/-! ## Patterns -/

/-- What the pattern of a cluster has from elsewhere: new ids, the time, and the summary of its signals. -/
structure DraftInput where
  id : String
  traceId : String
  createdAt : IsoTime
  updatedAt : IsoTime
  content : String
  evidenceRefs : List Json
  evidenced : evidenceRefs ≠ []

/-- The ids of the records, in order. -/
def basedOn (cluster : ExperienceCluster) : List String :=
  (cluster.records.insertionSort fun a b => a.id ≤ b.id).map (·.id)

def draftPattern (cluster : ExperienceCluster) (draft : DraftInput) : MemoryEntry where
  id := draft.id
  content := draft.content
  type := .distilledPattern
  scope := .project
  projectId := cluster.projectId
  traceId := draft.traceId
  sentiment := none
  createdAt := draft.createdAt
  updatedAt := draft.updatedAt
  mutabilityClass := .domainVersioned
  lifecycleStatus := .active
  supersededBy := none
  deletedAt := none
  tombstoneId := none
  placementState := .project
  lastMutationId := none
  embedding := none
  context := none
  action := none
  outcome := none
  reason := none
  tags := (cluster.records.flatMap (·.tags)).eraseDups.insertionSort (· ≤ ·)
  patternRefs := some ⟨basedOn cluster, basedOn cluster, draft.evidenceRefs⟩

variable {cluster : ExperienceCluster}

theorem mem_basedOn {id : String} : id ∈ basedOn cluster ↔ ∃ record ∈ cluster.records, record.id = id := by
  simp only [basedOn, List.mem_map, List.mem_insertionSort]

theorem basedOn_ne_nil (h : cluster.records ≠ []) : basedOn cluster ≠ [] := by
  intro hnil
  obtain ⟨record, hrecord⟩ := List.exists_mem_of_ne_nil _ h
  exact List.not_mem_nil (hnil ▸ mem_basedOn.mpr ⟨record, hrecord, rfl⟩)

theorem parseEntryForWrite_draftPattern (h : cluster.records ≠ []) (draft : DraftInput) :
    parseEntryForWrite (draftPattern cluster draft) = .ok (draftPattern cluster draft) := by
  have hbased := basedOn_ne_nil h
  simp [parseEntryForWrite, draftPattern, hbased, draft.evidenced]

end NousCore.Distillation
