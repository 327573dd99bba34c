import Mathlib.Algebra.Order.Ring.Unbundled.Rat
import NousCore.Access.PolicyEngine
import NousCore.Lib.Collection
import NousCore.Lib.Json
import NousCore.Lib.Sorting

/-!
# The knowledge index

* `ProjectMetaVector`, `ProjectTaxonomyAssignment`, `RelationshipEdge`, `ProjectKnowledgeRefreshRecord` : what is stored;
* `getEdges`, `getIncomingEdges`, `getAssignmentsForProject`, `listByProject` : what is read from them.
-/

namespace NousCore.Knowledge

export Access (ProjectId ProjectControlState MemoryAccessPolicy)

/-! ## Documents -/

abbrev TraceEvidenceReference := Json

structure ProjectMetaVector where
  projectId : ProjectId
  vector : List Rat
  basedOn : List String
  evidenceRefs : List TraceEvidenceReference
  inputDigest : Option String
  refreshRecordId : Option String
  updatedAt : IsoTime
  createdAt : IsoTime

structure ProjectTaxonomyAssignment where
  id : String
  projectId : ProjectId
  tag : String
  refreshRecordId : String
  evidenceRefs : List TraceEvidenceReference
  createdAt : IsoTime
  updatedAt : IsoTime

inductive RelationshipEdgeType where
  | thematic | causal | structural
  deriving DecidableEq

def RelationshipEdgeType.text : RelationshipEdgeType → String
  | .thematic => "thematic"
  | .causal => "causal"
  | .structural => "structural"

structure RelationshipEdge where
  id : String
  sourceProjectId : ProjectId
  targetProjectId : ProjectId
  strength : Rat
  type : RelationshipEdgeType
  evidenceRefs : List TraceEvidenceReference
  sourcePatternIds : List String
  createdAt : IsoTime
  updatedAt : IsoTime

inductive KnowledgeRefreshTrigger where
  | manual | workflow | schedule

inductive ProjectKnowledgeRefreshOutcome where
  | updated | cleared | skippedNoChange | failed

inductive MetaVectorState where
  | updated | deleted | unchanged

structure RelationshipMappingOutput where
  edgesCreated : Nat
  edgesUpdated : Nat
  edgesInvalidated : Nat
  evidenceRefs : List TraceEvidenceReference

structure ProjectKnowledgeRefreshRecord where
  id : String
  projectId : ProjectId
  trigger : KnowledgeRefreshTrigger
  reasonCode : String
  inputDigest : String
  outcome : ProjectKnowledgeRefreshOutcome
  metaVectorState : MetaVectorState
  taxonomyTagCount : Nat
  relationship : RelationshipMappingOutput
  evidenceRefs : List TraceEvidenceReference
  workflowRunId : Option String
  dispatchLineageId : Option String
  scheduleId : Option String
  sourcePatternIds : List String
  failureReason : Option String
  startedAt : IsoTime
  completedAt : IsoTime

/-! ## Stores -/

def metaVectorKey (metaVector : ProjectMetaVector) : ProjectId := metaVector.projectId

def assignmentKey (assignment : ProjectTaxonomyAssignment) : String := assignment.id

def edgeKey (edge : RelationshipEdge) : String := edge.id

def refreshRecordKey (record : ProjectKnowledgeRefreshRecord) : String := record.id

/-- The documents that their schemas accept; the others are passed over by every read. -/
structure KnowledgeState where
  metaVectors : Collection metaVectorKey
  assignments : Collection assignmentKey
  edges : Collection edgeKey
  refreshRecords : Collection refreshRecordKey

def KnowledgeState.empty : KnowledgeState := ⟨.empty, .empty, .empty, .empty⟩

/-! ## Reads -/

variable (collation : Collation)

/-- The comparison of `sortEdges`. -/
def edgeLe (left right : RelationshipEdge) : Bool :=
  if left.targetProjectId ≠ right.targetProjectId then
    collation.le left.targetProjectId.val right.targetProjectId.val
  else if left.type ≠ right.type then collation.le left.type.text right.type.text
  else collation.le left.id right.id

def sortEdges (edges : List RelationshipEdge) : List RelationshipEdge := sortBy (edgeLe collation) edges

/-- A record that is completed later comes first; two that are completed at once are in the order of their ids. -/
def refreshRecordLe (left right : ProjectKnowledgeRefreshRecord) : Bool :=
  if left.completedAt = right.completedAt then collation.le left.id right.id
  else collation.le right.completedAt.text left.completedAt.text

namespace KnowledgeState

variable (s : KnowledgeState)

def getEdges (projectId : ProjectId) : List RelationshipEdge :=
  sortEdges collation (s.edges.all.filter fun edge => edge.sourceProjectId = projectId)

def getIncomingEdges (projectId : ProjectId) : List RelationshipEdge :=
  sortEdges collation (s.edges.all.filter fun edge => edge.targetProjectId = projectId)

def getAssignmentsForProject (projectId : ProjectId) : List ProjectTaxonomyAssignment :=
  sortBy (fun left right => collation.le left.tag right.tag)
    (s.assignments.all.filter fun assignment => assignment.projectId = projectId)

/-- `Array.prototype.sort` sorts by code units. -/
def getTagsForProject (units : Collation) (projectId : ProjectId) : List String :=
  sortBy units.le ((s.getAssignmentsForProject collation projectId).map (·.tag))

def getProjectsForTag (units : Collation) (tag : String) : List ProjectId :=
  sortBy (fun left right => units.le left.val right.val)
    ((s.assignments.all.filter fun assignment => assignment.tag = tag).map (·.projectId))

def listByProject (projectId : ProjectId) : List ProjectKnowledgeRefreshRecord :=
  sortBy (refreshRecordLe collation) (s.refreshRecords.all.filter fun record => record.projectId = projectId)

def getLatestForProject (projectId : ProjectId) : Option ProjectKnowledgeRefreshRecord :=
  (s.listByProject collation projectId).head?

theorem mem_getEdges {projectId : ProjectId} {edge : RelationshipEdge} :
    edge ∈ s.getEdges collation projectId ↔ edge ∈ s.edges.all ∧ edge.sourceProjectId = projectId := by
  unfold getEdges sortEdges
  rw [mem_sortBy, List.mem_filter, decide_eq_true_eq]

theorem mem_getIncomingEdges {projectId : ProjectId} {edge : RelationshipEdge} :
    edge ∈ s.getIncomingEdges collation projectId ↔ edge ∈ s.edges.all ∧ edge.targetProjectId = projectId := by
  unfold getIncomingEdges sortEdges
  rw [mem_sortBy, List.mem_filter, decide_eq_true_eq]

end KnowledgeState

end NousCore.Knowledge
