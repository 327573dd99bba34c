import NousCore.Knowledge.Discovery
import NousCore.Lib.Runs

/-!
# What a discovery tells of other projects

* `exists_filterResults` : what the loop over the candidates keeps;
* `mentionedProjects` : every project id of a result.
-/

namespace NousCore.Knowledge

variable (env : DiscoveryEnv) (s : KnowledgeState) (request : ProjectDiscoveryRequest)

/-! ## The filter -/

/-- The access policy lets the requester retrieve from the project. -/
def allows (projectId : ProjectId) : Bool :=
  match env.projects.find? request.requestingProjectId, env.projects.find? projectId with
  | some requester, some target =>
    (Access.evaluate env.stamp (accessContext env request requester target)).toOption.any (·.allowed)
  | _, _ => false

theorem exists_evaluate (requester target : ProjectConfig) :
    ∃ answer, Access.evaluate env.stamp (accessContext env request requester target) = .ok answer := by
  have hvalid : Access.validateActionContext (accessContext env request requester target) = .ok () := rfl
  unfold Access.evaluate
  rw [hvalid]
  simp only [bind, Except.bind]
  split_ifs with hstopped hoverride
  · exact ⟨_, rfl⟩
  · exact ⟨_, rfl⟩
  · unfold Access.evaluateAction
    simp only [accessContext]
    split
    · exact ⟨_, rfl⟩
    · exact ⟨_, rfl⟩

/-- What the loop has kept of the results it has seen. -/
structure Keeps (results : List DiscoveryResult) (filtered : Filtered) : Prop where
  projectIds : filtered.allowedResults.map (·.projectId) =
    (results.map (·.projectId)).filter (allows env request)
  ranks : filtered.allowedResults.map (·.rank) = List.range' 1 filtered.allowedResults.length

variable {env s request}

theorem exists_filterResult {requester : ProjectConfig}
    (hrequester : env.projects.find? request.requestingProjectId = some requester) {seen : List DiscoveryResult}
    {filtered : Filtered} (hkeeps : Keeps env request seen filtered) (result : DiscoveryResult) :
    ∃ filtered', filterResult env request requester filtered result = .ok filtered' ∧
      Keeps env request (seen ++ [result]) filtered' := by
  unfold filterResult
  cases htarget : env.projects.find? result.projectId with
  | none =>
    have hdenied : allows env request result.projectId = false := by
      unfold allows
      rw [hrequester, htarget]
    refine ⟨_, rfl, ?_, hkeeps.ranks⟩
    rw [List.map_append, List.filter_append, List.map_singleton, List.filter_singleton, hdenied]
    exact hkeeps.projectIds.trans (List.append_nil _).symm
  | some target =>
    obtain ⟨policy, hpolicy⟩ := exists_evaluate env request requester target
    have hallows : allows env request result.projectId = policy.allowed := by
      unfold allows
      rw [hrequester, htarget]
      show (Access.evaluate env.stamp (accessContext env request requester target)).toOption.any (·.allowed) = _
      rw [hpolicy]
      rfl
    simp only [hpolicy, bind, Except.bind]
    cases hallowed : policy.allowed with
    | false =>
      refine ⟨_, rfl, ?_, hkeeps.ranks⟩
      rw [List.map_append, List.filter_append, List.map_singleton, List.filter_singleton, hallows, hallowed]
      exact hkeeps.projectIds.trans (List.append_nil _).symm
    | true =>
      refine ⟨_, rfl, ?_, ?_⟩
      · rw [List.map_append, List.map_append, List.filter_append, hkeeps.projectIds, List.map_singleton,
          List.map_singleton, List.filter_singleton, hallows, hallowed]
        rfl
      · rw [List.map_append, hkeeps.ranks, List.length_append, List.length_singleton, List.range'_append_1.symm]
        rw [Nat.add_comm 1]
        rfl

theorem exists_foldlM_filterResult {requester : ProjectConfig}
    (hrequester : env.projects.find? request.requestingProjectId = some requester) :
    ∀ (results seen : List DiscoveryResult) (filtered : Filtered), Keeps env request seen filtered →
      ∃ filtered', results.foldlM (filterResult env request requester) filtered = .ok filtered' ∧
        Keeps env request (seen ++ results) filtered'
  | [], seen, filtered, hkeeps => ⟨filtered, rfl, (List.append_nil seen).symm ▸ hkeeps⟩
  | result :: results, seen, filtered, hkeeps => by
    obtain ⟨filtered₁, hfirst, hkeeps₁⟩ := exists_filterResult hrequester hkeeps result
    obtain ⟨filtered₂, hrest, hkeeps₂⟩ := exists_foldlM_filterResult hrequester results _ filtered₁ hkeeps₁
    refine ⟨filtered₂, ?_, ?_⟩
    · rw [List.foldlM_cons, hfirst]
      exact hrest
    · rwa [List.append_assoc] at hkeeps₂

variable (env request) in
theorem exists_filterResults (results : List DiscoveryResult) :
    ∃ filtered, filterResults env request results = .ok filtered ∧ Keeps env request results filtered := by
  unfold filterResults
  cases hrequester : env.projects.find? request.requestingProjectId with
  | none =>
    refine ⟨_, rfl, ?_, rfl⟩
    refine (List.filter_eq_nil_iff.mpr fun projectId _ => ?_).symm
    unfold allows
    rw [hrequester]
    exact Bool.false_ne_true
  | some requester => exact exists_foldlM_filterResult hrequester results [] ⟨[], []⟩ ⟨rfl, rfl⟩

/-! ## What a result mentions -/

def ProjectKnowledgeSnapshot.projectIds (snapshot : ProjectKnowledgeSnapshot) : List ProjectId :=
  [snapshot.projectId] ++ (snapshot.metaVector.map (·.projectId)).toList ++ snapshot.taxonomy.map (·.projectId) ++
    (snapshot.latestRefresh.map (·.projectId)).toList ++
    (snapshot.outgoing ++ snapshot.incoming).flatMap fun edge => [edge.sourceProjectId, edge.targetProjectId]

def Phase8DiscoveryExport.allProjectIds (discovery : Phase8DiscoveryExport) : List ProjectId :=
  [discovery.requestingProjectId] ++ discovery.projectIds ++ discovery.results.map (·.projectId) ++
    discovery.audit.projectIdsDiscovered ++ discovery.explainability.map (·.projectId)

def mentionedProjects (result : ProjectDiscoveryResult) : List ProjectId :=
  result.discovery.allProjectIds ++ result.snapshot.elim [] (·.projectIds)

variable (env s request)

def scoresAsHigh (candidate other : DiscoveryResult) : Bool :=
  other.projectId ≠ candidate.projectId && candidate.combinedScore ≤ other.combinedScore

/-- Only allowed projects are mentioned, the ranks are those of the list, and an allowed candidate is missing only
where at least `topK` other allowed ones score at least as high. -/
structure KeepsPolicy (result : ProjectDiscoveryResult) : Prop where
  mentioned : ∀ projectId ∈ mentionedProjects result, projectId = request.requestingProjectId ∨
    allows env request projectId = true
  ranks : result.discovery.results.map (·.rank) = List.range' 1 result.discovery.results.length
  missing : ∀ candidate ∈ rankResults env s request, allows env request candidate.projectId = true →
    candidate.projectId ∉ result.discovery.projectIds →
      request.topK ≤ (rankResults env s request).countP fun other =>
        allows env request other.projectId && scoresAsHigh candidate other

/-- Every project that an edge connects with the requester is an allowed one. -/
def NeighboursAllowed : Prop :=
  ∀ edge ∈ s.edges.all,
    edge.sourceProjectId = request.requestingProjectId ∨ edge.targetProjectId = request.requestingProjectId →
      ∀ projectId ∈ [edge.sourceProjectId, edge.targetProjectId], projectId = request.requestingProjectId ∨
        allows env request projectId = true

/-- For every allowed candidate behind the first `topK`: behind them, there are as many other allowed candidates that
score at least as high as there are denied ones among them. -/
def NoneDisplaced : Prop :=
  ∀ candidate ∈ (rankResults env s request).drop request.topK, allows env request candidate.projectId = true →
    ((rankResults env s request).take request.topK).countP (fun other => !allows env request other.projectId) ≤
      ((rankResults env s request).drop request.topK).countP fun other =>
        allows env request other.projectId && scoresAsHigh candidate other

/-! ## The ranking -/

theorem resultLe_trans (a b c : DiscoveryResult) (hab : resultLe env a b = true) (hbc : resultLe env b c = true) :
    resultLe env a c = true := by
  unfold resultLe at hab hbc ⊢
  by_cases h₁ : b.combinedScore = a.combinedScore
  · rw [if_neg (not_not_intro h₁)] at hab
    by_cases h₂ : c.combinedScore = b.combinedScore
    · rw [if_neg (not_not_intro h₂)] at hbc
      rw [if_neg (not_not_intro (h₂.trans h₁))]
      exact env.locale.trans _ _ _ hab hbc
    · rw [if_pos h₂] at hbc
      rw [if_pos (h₁ ▸ h₂), ← h₁]
      exact hbc
  · rw [if_pos h₁] at hab
    have hlt : b.combinedScore < a.combinedScore := of_decide_eq_true hab
    by_cases h₂ : c.combinedScore = b.combinedScore
    · rw [if_pos (h₂ ▸ h₁), h₂]
      exact hab
    · rw [if_pos h₂] at hbc
      have hlt' : c.combinedScore < a.combinedScore := (of_decide_eq_true hbc).trans hlt
      rw [if_pos hlt'.ne]
      exact decide_eq_true hlt'

theorem resultLe_total (a b : DiscoveryResult) : (resultLe env a b || resultLe env b a) = true := by
  unfold resultLe
  by_cases h : b.combinedScore = a.combinedScore
  · rw [if_neg (not_not_intro h), if_neg (not_not_intro h.symm)]
    exact env.locale.total _ _
  · rw [if_pos h, if_pos (Ne.symm h), Bool.or_eq_true, decide_eq_true_eq, decide_eq_true_eq]
    exact lt_or_gt_of_ne h

theorem score_le_of_resultLe {a b : DiscoveryResult} (h : resultLe env a b = true) :
    b.combinedScore ≤ a.combinedScore := by
  unfold resultLe at h
  split_ifs at h with hne
  · exact (of_decide_eq_true h).le
  · exact (not_not.mp hne).le

theorem nodup_rankResults : ((rankResults env s request).map (·.projectId)).Nodup := by
  have hperm := (perm_sortBy (resultLe env)
    ((collectScores env s request).entries.map fun e => toResult env e.1 e.2)).map (·.projectId)
  refine hperm.nodup_iff.mpr ?_
  rw [List.map_map]
  exact (collectScores env s request).nodup

theorem before_cut {candidate other : DiscoveryResult}
    (hcandidate : candidate ∈ (rankResults env s request).drop request.topK)
    (hother : other ∈ (rankResults env s request).take request.topK) :
    other.projectId ≠ candidate.projectId ∧ candidate.combinedScore ≤ other.combinedScore := by
  have hsorted : (rankResults env s request).Pairwise fun a b => resultLe env a b = true :=
    pairwise_sortBy (resultLe_trans env) (resultLe_total env) _
  have hnodup := nodup_rankResults env s request
  rw [← List.take_append_drop request.topK (rankResults env s request)] at hsorted hnodup
  refine ⟨fun heq => ?_, ?_⟩
  · rw [List.map_append] at hnodup
    exact List.disjoint_of_nodup_append hnodup (List.mem_map_of_mem hother) (heq ▸ List.mem_map_of_mem hcandidate)
  · exact score_le_of_resultLe env ((List.pairwise_append.mp hsorted).2.2 other hother candidate hcandidate)

/-! ## What the parts of a result mention -/

variable {env s request}

theorem mem_allowedExplainability {raw : DiscoveryOrchestratorOutput} {allowedProjectIds : List ProjectId}
    {item : CrossProjectRecommendationExplainability} (h : item ∈ allowedExplainability raw allowedProjectIds) :
    item.projectId ∈ allowedProjectIds := by
  obtain ⟨found, hfound, heq⟩ := List.mem_filterMap.mp h
  obtain rfl : found = some item := heq
  obtain ⟨index, hindex, heq⟩ := List.mem_mapIdx.mp hfound
  obtain ⟨item', hget, rfl⟩ := Option.map_eq_some_iff.mp heq
  obtain ⟨entry, -, hentry⟩ := List.mem_map.mp (Record.mem_of_get?_ofEntries hget)
  obtain ⟨hid, rfl⟩ := Prod.mk.inj hentry
  rw [hid]
  exact List.getElem_mem hindex

variable {projectId : ProjectId}

theorem mem_snapshot_projectIds {snapshot : ProjectKnowledgeSnapshot} {other : ProjectId}
    (h : getProjectSnapshot env s projectId = some snapshot) :
    other ∈ snapshot.projectIds ↔ other = projectId ∨ ∃ edge ∈ s.edges.all,
      (edge.sourceProjectId = projectId ∨ edge.targetProjectId = projectId) ∧
        other ∈ [edge.sourceProjectId, edge.targetProjectId] := by
  obtain ⟨-, h⟩ := Option.ite_none_left_eq_some.mp h
  cases h
  unfold ProjectKnowledgeSnapshot.projectIds
  simp only [List.mem_append, List.mem_flatMap, List.mem_singleton, List.mem_map, Option.mem_toList,
    Option.map_eq_some_iff, KnowledgeState.mem_getEdges, KnowledgeState.mem_getIncomingEdges]
  constructor
  · rintro ((((rfl | ⟨metaVector, hget, rfl⟩) | ⟨assignment, hmem, rfl⟩) | ⟨record, hlatest, rfl⟩) |
      ⟨edge, ⟨hmem, hsource⟩ | ⟨hmem, htarget⟩, hother⟩)
    · exact .inl rfl
    · exact .inl (s.metaVectors.keyed _ _ hget)
    · refine .inl ?_
      exact of_decide_eq_true (List.mem_filter.mp ((mem_sortBy _).mp hmem)).2
    · refine .inl ?_
      exact of_decide_eq_true (List.mem_filter.mp ((mem_sortBy _).mp (List.mem_of_mem_head? hlatest))).2
    · exact .inr ⟨edge, hmem, .inl hsource, hother⟩
    · exact .inr ⟨edge, hmem, .inr htarget, hother⟩
  · rintro (rfl | ⟨edge, hmem, hsource | htarget, hother⟩)
    · exact .inl (.inl (.inl (.inl rfl)))
    · exact .inr ⟨edge, .inl ⟨hmem, hsource⟩, hother⟩
    · exact .inr ⟨edge, .inr ⟨hmem, htarget⟩, hother⟩

theorem exists_snapshot {edge : RelationshipEdge} (hmem : edge ∈ s.edges.all)
    (hedge : edge.sourceProjectId = projectId ∨ edge.targetProjectId = projectId) :
    ∃ snapshot, getProjectSnapshot env s projectId = some snapshot := by
  refine ⟨_, if_neg ?_⟩
  rintro ⟨-, -, houtgoing, hincoming, -⟩
  rcases hedge with hsource | htarget
  · exact List.not_mem_nil (houtgoing ▸ (s.mem_getEdges env.locale).mpr ⟨hmem, hsource⟩)
  · exact List.not_mem_nil (hincoming ▸ (s.mem_getIncomingEdges env.locale).mpr ⟨hmem, htarget⟩)

/-! ## A discovery -/

/-- The result of a discovery, part by part. -/
structure Discovered (env : DiscoveryEnv) (s : KnowledgeState) (request : ProjectDiscoveryRequest)
    (result : ProjectDiscoveryResult) : Prop where
  requester : result.discovery.requestingProjectId = request.requestingProjectId
  projectIds : result.discovery.projectIds =
    (((rankResults env s request).take request.topK).map (·.projectId)).filter (allows env request)
  results : result.discovery.results.map (·.projectId) = result.discovery.projectIds
  ranks : result.discovery.results.map (·.rank) = List.range' 1 result.discovery.results.length
  audit : result.discovery.audit.projectIdsDiscovered = result.discovery.projectIds
  explainability : ∀ item ∈ result.discovery.explainability, item.projectId ∈ result.discovery.projectIds
  snapshot : result.snapshot = getProjectSnapshot env s request.requestingProjectId

variable (env s request) in
theorem exists_discoverProjects :
    ∃ result, discoverProjects env s request = .ok result ∧ Discovered env s request result := by
  obtain ⟨filtered, hfiltered, hkeeps⟩ := exists_filterResults env request (discoverRelevantProjects env s request).results
  have htop : (discoverRelevantProjects env s request).results.map (·.projectId) =
      ((rankResults env s request).take request.topK).map (·.projectId) := by
    refine List.ext_getElem? fun i => ?_
    unfold discoverRelevantProjects
    simp only [List.getElem?_map, List.getElem?_mapIdx, Option.map_map]
    rfl
  unfold discoverProjects
  simp only [hfiltered, bind, Except.bind]
  exact ⟨_, rfl, rfl, htop ▸ hkeeps.projectIds, rfl, hkeeps.ranks, rfl, fun item => mem_allowedExplainability, rfl⟩

variable {result : ProjectDiscoveryResult}

section

variable (h : Discovered env s request result)

include h

theorem Discovered.allowed
    (hmem : projectId ∈ result.discovery.allProjectIds) :
    projectId = request.requestingProjectId ∨ allows env request projectId = true := by
  have hlisted : projectId ∈ result.discovery.projectIds → allows env request projectId = true := by
    rw [h.projectIds]
    exact fun hmem => (List.mem_filter.mp hmem).2
  unfold Phase8DiscoveryExport.allProjectIds at hmem
  rw [h.results, h.audit, h.requester] at hmem
  simp only [List.mem_append, List.mem_singleton, List.mem_map] at hmem
  obtain (((hself | hids) | hids) | hids) | ⟨item, hitem, rfl⟩ := hmem
  · exact .inl hself
  · exact .inr (hlisted hids)
  · exact .inr (hlisted hids)
  · exact .inr (hlisted hids)
  · exact .inr (hlisted (h.explainability item hitem))

theorem Discovered.mentioned_iff :
    (∀ projectId ∈ mentionedProjects result, projectId = request.requestingProjectId ∨
      allows env request projectId = true) ↔ NeighboursAllowed env s request := by
  unfold mentionedProjects
  rw [h.snapshot]
  constructor
  · intro hall edge hedge hends projectId hprojectId
    obtain ⟨snapshot, hsnapshot⟩ :
        ∃ snapshot, getProjectSnapshot env s request.requestingProjectId = some snapshot :=
      exists_snapshot hedge hends
    refine hall projectId (List.mem_append_right _ ?_)
    rw [hsnapshot]
    exact (mem_snapshot_projectIds hsnapshot).mpr (.inr ⟨edge, hedge, hends, hprojectId⟩)
  · intro hneighbours projectId hmem
    rcases List.mem_append.mp hmem with hmem | hmem
    · exact h.allowed hmem
    · cases hsnapshot : getProjectSnapshot env s request.requestingProjectId with
      | none =>
        rw [hsnapshot] at hmem
        exact absurd hmem List.not_mem_nil
      | some snapshot =>
        rw [hsnapshot] at hmem
        rcases (mem_snapshot_projectIds hsnapshot).mp hmem with hself | ⟨edge, hedge, hends, hother⟩
        · exact .inl hself
        · exact hneighbours edge hedge hends projectId hother

theorem Discovered.missing_iff
    {candidate : DiscoveryResult} (hcandidate : candidate ∈ rankResults env s request)
    (hallows : allows env request candidate.projectId = true) :
    candidate.projectId ∉ result.discovery.projectIds ↔
      candidate ∈ (rankResults env s request).drop request.topK := by
  rw [h.projectIds, List.mem_filter, hallows]
  constructor
  · intro hmissing
    rw [← List.take_append_drop request.topK (rankResults env s request)] at hcandidate
    refine (List.mem_append.mp hcandidate).resolve_left fun htop => ?_
    exact hmissing ⟨List.mem_map_of_mem htop, rfl⟩
  · rintro hbehind ⟨hlisted, -⟩
    obtain ⟨other, hother, heq⟩ := List.mem_map.mp hlisted
    exact (before_cut env s request hbehind hother).1 heq

theorem Discovered.keepsPolicy :
    KeepsPolicy env s request result ↔ NeighboursAllowed env s request ∧ NoneDisplaced env s request := by
  -- behind the cut there is someone only after `topK` others
  have hcount : ∀ candidate ∈ (rankResults env s request).drop request.topK,
      (request.topK ≤ (rankResults env s request).countP (fun other =>
          allows env request other.projectId && scoresAsHigh candidate other) ↔
        ((rankResults env s request).take request.topK).countP (fun other => !allows env request other.projectId) ≤
          ((rankResults env s request).drop request.topK).countP fun other =>
            allows env request other.projectId && scoresAsHigh candidate other) := by
    intro candidate hcandidate
    refine le_countP_iff (fun other => allows env request other.projectId) (scoresAsHigh candidate) ?_ fun other hother => ?_
    · have hpos := List.length_pos_of_mem hcandidate
      rw [List.length_drop] at hpos
      rw [List.length_take]
      omega
    · obtain ⟨hne, hle⟩ := before_cut env s request hcandidate hother
      simp [scoresAsHigh, hne, hle]
  constructor
  · intro hkeeps
    refine ⟨h.mentioned_iff.mp hkeeps.mentioned, fun candidate hcandidate hallows => ?_⟩
    have hmem := List.mem_of_mem_drop hcandidate
    exact (hcount candidate hcandidate).mp (hkeeps.missing candidate hmem hallows
      ((h.missing_iff hmem hallows).mpr hcandidate))
  · rintro ⟨hneighbours, hdisplaced⟩
    refine ⟨h.mentioned_iff.mpr hneighbours, h.ranks, fun candidate hmem hallows hmissing => ?_⟩
    have hcandidate := (h.missing_iff hmem hallows).mp hmissing
    exact (hcount candidate hcandidate).mpr (hdisplaced candidate hcandidate hallows)

end

def requesterId : ProjectId := ⟨"550e8400-e29b-41d4-a716-446655440000", by decide⟩

def deniedId : ProjectId := ⟨"550e8400-e29b-41d4-a716-446655440001", by decide⟩

def allowedId : ProjectId := ⟨"550e8400-e29b-41d4-a716-446655440002", by decide⟩

def discoveryTime : IsoTime := ⟨"2026-03-09T16:10:00.000Z", 1773072600000⟩

def openProject (id : ProjectId) : ProjectConfig := ⟨id, .all, .all, true⟩

/-- It lets nobody read. -/
def deniedProject : ProjectConfig := ⟨deniedId, .all, .none, true⟩

/-- The project that nobody may read is the best hit, and the requester has an edge to it. -/
def leakyEnv : DiscoveryEnv where
  vectorSearch := fun _ => [⟨deniedId, 3 / 4⟩, ⟨allowedId, 1 / 2⟩]
  round := fun number => number
  locale := codePoints
  units := codePoints
  projects := ((Collection.empty.put (openProject requesterId)).put deniedProject).put (openProject allowedId)
  controlState := none
  refreshInFlight := .empty
  now := discoveryTime
  stamp := ⟨"7c9e6679-7425-40de-944b-e07fc1f90ae7", discoveryTime⟩

def leakyEdge : RelationshipEdge where
  id := "9f1b1f0e-2d0a-5c3d-8b1a-0c1d2e3f4a5b"
  sourceProjectId := requesterId
  targetProjectId := deniedId
  strength := 1 / 2
  type := .thematic
  evidenceRefs := []
  sourcePatternIds := []
  createdAt := discoveryTime
  updatedAt := discoveryTime

def leakyState : KnowledgeState := { KnowledgeState.empty with edges := Collection.empty.put leakyEdge }

def leakyRequest : ProjectDiscoveryRequest where
  requestingProjectId := requesterId
  topK := 1
  includeMetaVector := true
  includeTaxonomy := true
  includeRelationships := true
  traceId := none
  topK_pos := by decide
  topK_le := by decide

end NousCore.Knowledge
