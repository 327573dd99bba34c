import NousCore.Knowledge.Types

/-!
# Discovering other projects

* `collectScores`, `rankResults` : the candidates with their scores, and in their order;
* `discoverRelevantProjects` : the first `topK` of them;
* `discoverProjects` : those that the access policy lets the requester retrieve from;
* `getProjectSnapshot` : what is stored of the requester.
-/

namespace NousCore.Knowledge

/-! ## Results -/

structure DiscoveryResult where
  projectId : ProjectId
  rank : Nat
  combinedScore : Rat
  metaVectorScore : Option Rat
  taxonomyBoost : Option Rat
  relationshipBoost : Option Rat

structure DiscoveryAudit where
  traceId : Option String
  projectIdsDiscovered : List ProjectId
  metaVectorCount : Nat
  taxonomyCount : Nat
  relationshipCount : Nat
  mergeStrategy : String

inductive InfluencingSource where
  | metaVector | taxonomy | relationship | combined

structure CrossProjectRecommendationExplainability where
  resultIndex : Nat
  projectId : ProjectId
  influencingSource : InfluencingSource
  metaVectorScore : Option Rat
  taxonomyTags : Option (List String)
  evidenceRefs : List TraceEvidenceReference

structure DiscoveryOrchestratorOutput where
  projectIds : List ProjectId
  results : List DiscoveryResult
  audit : DiscoveryAudit
  explainability : List CrossProjectRecommendationExplainability

structure ProjectDiscoveryRequest where
  requestingProjectId : ProjectId
  topK : Nat
  includeMetaVector : Bool
  includeTaxonomy : Bool
  includeRelationships : Bool
  traceId : Option String
  topK_pos : 1 ≤ topK
  topK_le : topK ≤ 25

structure Phase8DiscoveryExport where
  version : String
  exportedAt : IsoTime
  requestingProjectId : ProjectId
  projectIds : List ProjectId
  results : List DiscoveryResult
  audit : DiscoveryAudit
  explainability : List CrossProjectRecommendationExplainability

structure ProjectDiscoveryPolicySummary where
  deniedProjectCount : Nat
  reasonCodes : List Access.PolicyReasonCode
  controlState : Option ProjectControlState

structure ProjectKnowledgeSnapshot where
  projectId : ProjectId
  metaVector : Option ProjectMetaVector
  taxonomy : List ProjectTaxonomyAssignment
  outgoing : List RelationshipEdge
  incoming : List RelationshipEdge
  latestRefresh : Option ProjectKnowledgeRefreshRecord
  runtimePosture : String
  refreshInFlight : Bool
  lastInputDigest : Option String
  confidenceReasonCodes : List String

structure ProjectDiscoveryResult where
  discovery : Phase8DiscoveryExport
  policy : ProjectDiscoveryPolicySummary
  snapshot : Option ProjectKnowledgeSnapshot

/-! ## What a discovery reads besides the stores -/

structure ProjectConfig where
  id : ProjectId
  memoryAccessPolicy : MemoryAccessPolicy

def projectKey (project : ProjectConfig) : ProjectId := project.id

/-- A hit of the vector store: `metadata.projectId ?? id`, and the score. -/
structure VectorHit where
  projectId : ProjectId
  score : Rat

structure RefreshInFlightState where
  startedAt : IsoTime
  inputDigest : Option String

structure DiscoveryEnv where
  /-- The hits of the vector store for the embedded query, at most so many. -/
  vectorSearch : Nat → List VectorHit
  /-- The double that is nearest to a number. -/
  round : Rat → Rat
  locale : Collation
  units : Collation
  projects : Collection projectKey
  controlState : Option ProjectControlState
  refreshInFlight : Record ProjectId RefreshInFlightState
  now : IsoTime
  stamp : Access.RecordStamp

variable (env : DiscoveryEnv) (s : KnowledgeState) (request : ProjectDiscoveryRequest)

/-! ## Candidates and their scores -/

structure MetaVectorSearchResult where
  projectId : ProjectId
  similarity : Rat
  rank : Nat

def searchMetaVectors (topK : Nat) : List MetaVectorSearchResult :=
  let withRank := (env.vectorSearch (topK * 2)).mapIdx fun i hit => ⟨hit.projectId, hit.score, i + 1⟩
  let sorted := sortBy (fun a b : MetaVectorSearchResult =>
    if b.similarity ≠ a.similarity then b.similarity < a.similarity else env.locale.le a.projectId.val b.projectId.val)
    withRank
  (sorted.take topK).mapIdx fun i result => { result with rank := i + 1 }

structure Scores where
  metaVector : Rat
  taxonomy : Rat
  rel : Rat

def Scores.zero : Scores := ⟨0, 0, 0⟩

abbrev ScoreMap := Record ProjectId Scores

def addMetaVector (scoreMap : ScoreMap) (result : MetaVectorSearchResult) : ScoreMap :=
  match scoreMap.get? result.projectId with
  | some existing =>
    scoreMap.set result.projectId { existing with metaVector := max existing.metaVector result.similarity }
  | none => scoreMap.set result.projectId { Scores.zero with metaVector := result.similarity }

def addCandidate (scoreMap : ScoreMap) (projectId : ProjectId) : ScoreMap :=
  if (scoreMap.get? projectId).isSome then scoreMap else scoreMap.set projectId .zero

def requestingTags : List String :=
  if request.includeTaxonomy then s.getTagsForProject env.locale env.units request.requestingProjectId else []

/-- The neighbours of the requester, when no meta-vector was found. -/
def fallbackCandidates : List ProjectId :=
  (if request.includeTaxonomy then
    (requestingTags env s request).flatMap (s.getProjectsForTag env.units)
  else []) ++
    if request.includeRelationships then
      (s.getEdges env.locale request.requestingProjectId).map (·.targetProjectId)
    else []

def candidates : ScoreMap :=
  let found := if request.includeMetaVector then
      (searchMetaVectors env (request.topK * 3)).foldl addMetaVector .empty
    else .empty
  if found.entries = [] ∧ (request.includeTaxonomy ∨ request.includeRelationships) then
    (fallbackCandidates env s request).foldl addCandidate found
  else found

/-- `0.1 * Math.min(overlap, 5)`. -/
def taxonomyBoost (projectId : ProjectId) : Rat :=
  let tags := s.getTagsForProject env.locale env.units projectId
  let overlap := (tags.filter (· ∈ requestingTags env s request)).length
  if 0 < overlap then env.round (env.round (1 / 10) * min overlap 5) else 0

def boostTaxonomy (scoreMap : ScoreMap) : ScoreMap :=
  if request.includeTaxonomy ∧ requestingTags env s request ≠ [] then
    scoreMap.keys.foldl (fun scoreMap projectId => scoreMap.modify projectId fun scores =>
      { scores with taxonomy := taxonomyBoost env s request projectId }) scoreMap
  else scoreMap

def boostRelationships (scoreMap : ScoreMap) : ScoreMap :=
  if request.includeRelationships then
    (s.getEdges env.locale request.requestingProjectId).foldl (fun scoreMap edge =>
      scoreMap.modify edge.targetProjectId fun scores =>
        { scores with rel := max scores.rel (env.round (edge.strength * env.round (1 / 5))) }) scoreMap
  else scoreMap

def collectScores : ScoreMap := boostRelationships env s request (boostTaxonomy env s request (candidates env s request))

/-! ## The first candidates -/

def toResult (projectId : ProjectId) (scores : Scores) : DiscoveryResult where
  projectId := projectId
  rank := 0
  combinedScore := env.round (env.round (scores.metaVector + scores.taxonomy) + scores.rel)
  metaVectorScore := if 0 < scores.metaVector then some scores.metaVector else none
  taxonomyBoost := if 0 < scores.taxonomy then some scores.taxonomy else none
  relationshipBoost := if 0 < scores.rel then some scores.rel else none

def resultLe (a b : DiscoveryResult) : Bool :=
  if b.combinedScore ≠ a.combinedScore then b.combinedScore < a.combinedScore
  else env.locale.le a.projectId.val b.projectId.val

/-- All candidates, the best first. -/
def rankResults : List DiscoveryResult :=
  sortBy (resultLe env) ((collectScores env s request).entries.map fun e => toResult env e.1 e.2)

def influencingSource (scores : Scores) : InfluencingSource :=
  if 0 < scores.metaVector ∧ (0 < scores.taxonomy ∨ 0 < scores.rel) then .combined
  else if 0 < scores.metaVector then .metaVector
  else if 0 < scores.taxonomy ∧ 0 < scores.rel then .combined
  else if 0 < scores.taxonomy then .taxonomy
  else .relationship

def mergeStrategy : String := "meta-vector-primary-taxonomy-relationship-boost"

def projectionEvidence : TraceEvidenceReference := .object [("actionCategory", .string "mao-projection")]

def explain (resultIndex : Nat) (result : DiscoveryResult) : CrossProjectRecommendationExplainability :=
  let scores := ((collectScores env s request).get? result.projectId).getD .zero
  let tags := if request.includeTaxonomy ∧ requestingTags env s request ≠ [] then
      s.getTagsForProject env.locale env.units result.projectId
    else []
  { resultIndex
    projectId := result.projectId
    influencingSource := influencingSource scores
    metaVectorScore := result.metaVectorScore
    taxonomyTags := if tags = [] then none else some tags
    evidenceRefs := [projectionEvidence] }

def discoverRelevantProjects : DiscoveryOrchestratorOutput :=
  let top := ((rankResults env s request).take request.topK).mapIdx fun i result => { result with rank := i + 1 }
  { projectIds := top.map (·.projectId)
    results := top
    audit :=
      { traceId := none
        projectIdsDiscovered := top.map (·.projectId)
        metaVectorCount := if request.includeMetaVector then (collectScores env s request).entries.length else 0
        taxonomyCount := (requestingTags env s request).length
        relationshipCount :=
          if request.includeRelationships then (s.getEdges env.locale request.requestingProjectId).length else 0
        mergeStrategy := mergeStrategy }
    explainability := top.mapIdx (explain env s request) }

/-! ## The access policy -/

def accessContext (requester target : ProjectConfig) : Access.PolicyAccessContext where
  action := .retrieve
  fromProjectId := request.requestingProjectId
  targetProjectId := some target.id
  targetProjectIds := none
  includeGlobal := false
  projectPolicy := requester.memoryAccessPolicy
  targetProjectPolicy := some target.memoryAccessPolicy
  targetProjectPolicies := none
  nodeOverride := none
  projectControlState := env.controlState
  traceId := request.traceId
  nodeId := none

/-- What the loop over the candidates has collected. -/
structure Filtered where
  deniedReasonCodes : List Access.PolicyReasonCode
  allowedResults : List DiscoveryResult

def filterResult (requester : ProjectConfig) (filtered : Filtered) (result : DiscoveryResult) :
    Except String Filtered :=
  match env.projects.find? result.projectId with
  | none => .ok { filtered with deniedReasonCodes := filtered.deniedReasonCodes ++ [.denied] }
  | some target => do
    let policy ← Access.evaluate env.stamp (accessContext env request requester target)
    if !policy.allowed then
      return { filtered with deniedReasonCodes := filtered.deniedReasonCodes ++ [policy.reasonCode] }
    let rank := filtered.allowedResults.length + 1
    return { filtered with allowedResults := filtered.allowedResults ++ [{ result with rank }] }

def filterResults (results : List DiscoveryResult) : Except String Filtered :=
  match env.projects.find? request.requestingProjectId with
  | none => .ok ⟨[], []⟩
  | some requester => results.foldlM (filterResult env request requester) ⟨[], []⟩

/-! ## The snapshot of the requester -/

def controlStateReasonCodes : ProjectControlState → List String
  | .hardStopped => ["CGR-DENY-HARD-STOPPED"]
  | .pausedReview => ["CGR-DEFER-PAUSED-REVIEW"]
  | .resuming => ["CGR-DEFER-RESUMING"]
  | .running => []

def getProjectSnapshot (projectId : ProjectId) : Option ProjectKnowledgeSnapshot :=
  let metaVector := s.metaVectors.find? projectId
  let taxonomy := s.getAssignmentsForProject env.locale projectId
  let outgoing := s.getEdges env.locale projectId
  let incoming := s.getIncomingEdges env.locale projectId
  let latestRefresh := s.getLatestForProject env.locale projectId
  let inFlight := env.refreshInFlight.get? projectId
  if metaVector = none ∧ taxonomy = [] ∧ outgoing = [] ∧ incoming = [] ∧ latestRefresh = none ∧ inFlight.isNone then none
  else some
    { projectId
      metaVector
      taxonomy
      outgoing
      incoming
      latestRefresh
      runtimePosture := "single_process_local"
      refreshInFlight := inFlight.isSome
      lastInputDigest := (inFlight.bind (·.inputDigest)).or (latestRefresh.map (·.inputDigest))
      confidenceReasonCodes := env.controlState.elim [] controlStateReasonCodes }

/-! ## The discovery -/

def allowedExplainability (raw : DiscoveryOrchestratorOutput) (allowedProjectIds : List ProjectId) :
    List CrossProjectRecommendationExplainability :=
  let explainabilityByProject := Record.ofEntries (raw.explainability.map fun item => (item.projectId, item))
  (allowedProjectIds.mapIdx fun index projectId =>
    (explainabilityByProject.get? projectId).map fun item => { item with resultIndex := index }).filterMap id

def discoverProjects : Except String ProjectDiscoveryResult := do
  let raw := discoverRelevantProjects env s request
  let filtered ← filterResults env request raw.results
  let allowedProjectIds := filtered.allowedResults.map (·.projectId)
  return {
    discovery := {
      version := "1.0"
      exportedAt := env.now
      requestingProjectId := request.requestingProjectId
      projectIds := allowedProjectIds
      results := filtered.allowedResults
      audit := { raw.audit with
        traceId := request.traceId.or raw.audit.traceId
        projectIdsDiscovered := allowedProjectIds }
      explainability := allowedExplainability raw allowedProjectIds }
    policy := {
      deniedProjectCount := raw.projectIds.length - allowedProjectIds.length
      reasonCodes := filtered.deniedReasonCodes.eraseDups
      controlState := env.controlState }
    snapshot := getProjectSnapshot env s request.requestingProjectId }

end NousCore.Knowledge
