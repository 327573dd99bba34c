import NousCore.Packages.Resolution

/-!
# What the nodes of a resolution promise

* `buildResolutionResult_spec` : the nodes are the packages that can be reached;
* `sound_iff_demandsKept` : the resolution is sound exactly when the demands of types are kept.
-/

namespace NousCore.Packages

open Relation DepthFirst

/-- The edges of the nodes. -/
def PackageResolutionResult.DependsOn (result : PackageResolutionResult) (id dependencyId : PackageId) : Prop :=
  ∃ node ∈ result.nodes, node.packageId = id ∧ dependencyId ∈ node.dependencyIds

/-- **A sound resolution**, with the releases that are selected. -/
structure Sound (resolver : DependencyResolver) (request : PackageInstallRequest)
    (selected : Record PackageId RegistryRelease) (result : PackageResolutionResult) : Prop where
  /-- Each node stands for a release of the registry, and lists its required dependencies. -/
  selects : ∀ node ∈ result.nodes, ∃ releases release, resolver.registry.get? node.packageId = some releases ∧
    release ∈ releases ∧ selected.get? node.packageId = some release ∧ node.packageType = release.packageType ∧
    node.selectedVersion = release.packageVersion.val ∧ node.sourceReleaseId = some release.releaseId.val ∧
    ∀ id, id ∈ node.dependencyIds ↔ ∃ d ∈ release.requiredDependencies, d.packageId = id
  /-- Each required dependency is a node, in the range and of the type that are demanded. -/
  required : ∀ node ∈ result.nodes, ∀ release, selected.get? node.packageId = some release →
    ∀ d ∈ release.requiredDependencies, ∃ other ∈ result.nodes, other.packageId = d.packageId ∧
      resolver.satisfiesRange other.selectedVersion d.versionRange = true ∧ other.packageType = d.packageType
  root : ∃ node ∈ result.nodes, node.packageId = request.packageId ∧
    (∀ range, request.requestedVersionRange = some range → resolver.satisfiesRange node.selectedVersion range = true) ∧
    ∀ releaseId, request.releaseId = some releaseId → node.sourceReleaseId = some releaseId.val
  acyclic : ∀ id, ¬TransGen result.DependsOn id id
  nodup : (result.nodes.map (·.packageId)).Nodup
  installOrder : result.installOrder.Perm (result.nodes.map (·.packageId))
  depsFirst : ∀ front id back, result.installOrder = front ++ id :: back →
    ∀ dependencyId, result.DependsOn id dependencyId → dependencyId ∈ front

variable {id : PackageId} {node : ResolvedPackageNode}

namespace ResolverState

/-- What the search for the root leaves. -/
structure Final (resolver : DependencyResolver) (rootPackageId : PackageId) (state : ResolverState) : Prop where
  acyclic : Acyclic state.next
  settled : SettledOff resolver [] state
  resolved : state.edges.get? rootPackageId ≠ none

/-- In the state from which the result is built, the constraint of each required dependency has the type demanded. -/
def DemandsKept (state : ResolverState) (rootPackageId : PackageId) : Prop :=
  ∀ id release, ReflTransGen (Edge state.next) rootPackageId id → state.selected.get? id = some release →
    ∀ d ∈ release.requiredDependencies, ∃ constraint, state.constraints.get? d.packageId = some constraint ∧
      constraint.packageType = some d.packageType

variable {resolver : DependencyResolver} {rootPackageId : PackageId} {state : ResolverState}

theorem Final.exists_settled (h : state.Final resolver rootPackageId)
    (hid : ReflTransGen (Edge state.next) rootPackageId id) : ∃ release, Settled resolver state id release := by
  have hresolved : state.edges.get? id ≠ none := by
    induction hid with
    | refl => exact h.resolved
    | @tail id dependencyId _ hedge ih =>
      obtain ⟨release, hrelease⟩ := h.settled id List.not_mem_nil ih
      unfold Edge next at hedge
      rw [hrelease.edges, Option.getD_some] at hedge
      obtain ⟨d, hd, rfl⟩ := RegistryRelease.mem_dependencyIds.mp hedge
      exact (hrelease.demands d hd).2
  exact h.settled id List.not_mem_nil hresolved

theorem packageId_of_node (h : state.node id = some node) : node.packageId = id := by
  obtain ⟨release, -, rfl⟩ := Option.map_eq_some_iff.mp h
  rfl

theorem exists_nodes : ∀ {ids : List PackageId}, (∀ id ∈ ids, state.selected.get? id ≠ none) →
    ∃ nodes, ids.mapM state.node = some nodes ∧ nodes.map (·.packageId) = ids ∧
      ∀ node ∈ nodes, state.node node.packageId = some node
  | [], _ => ⟨[], rfl, rfl, fun node h => absurd h List.not_mem_nil⟩
  | id :: ids, h => by
    obtain ⟨release, hrelease⟩ := Option.ne_none_iff_exists'.mp (h id List.mem_cons_self)
    obtain ⟨nodes, hnodes, hids, hall⟩ := exists_nodes fun other ho => h other (List.mem_cons_of_mem _ ho)
    obtain ⟨node, hnode⟩ : ∃ node, state.node id = some node := by
      unfold node
      rw [hrelease]
      exact ⟨_, rfl⟩
    have hid := packageId_of_node hnode
    refine ⟨node :: nodes, ?_, ?_, fun other ho => ?_⟩
    · rw [List.mapM_cons, hnode, hnodes]
      rfl
    · rw [List.map_cons, hid, hids]
    · rcases List.mem_cons.mp ho with rfl | ho
      · rw [hid]
        exact hnode
      · exact hall other ho

theorem Final.walk (h : state.Final resolver rootPackageId) : ∃ visit, state.walk rootPackageId = some visit ∧
    visit.visited.Perm visit.ordered ∧ visit.ordered.Nodup ∧ DepsFirst state.next visit.ordered ∧
      ∀ id, id ∈ visit.ordered ↔ ReflTransGen (Edge state.next) rootPackageId id := by
  have hkeys : ∀ id, id ∉ state.edges.keys → state.next id = [] := by
    intro id hid
    unfold next
    rw [Record.get?_eq_none.mpr hid]
    rfl
  have hfuel : remaining state.edges.keys (start : Visit PackageId).visited < state.edges.keys.length + 1 :=
    Nat.lt_succ_of_le (remaining_nil_le _)
  obtain ⟨visit, hvisit, -⟩ := exists_visit hkeys (state.edges.keys.length + 1) start rootPackageId hfuel
  exact ⟨visit, hvisit, visit_spec h.acyclic hvisit⟩

end ResolverState

/-! ## The result that is built -/

/-- The nodes of a result are the packages that the root reaches, in an order that puts dependencies first. -/
structure Built (rootPackageId : PackageId) (state : ResolverState) (result : PackageResolutionResult) : Prop where
  blocked : result.blocked = false
  nodes : ∀ node ∈ result.nodes, state.node node.packageId = some node
  mem_nodes : ∀ id, id ∈ result.nodes.map (·.packageId) ↔ ReflTransGen (Edge state.next) rootPackageId id
  nodup : (result.nodes.map (·.packageId)).Nodup
  installOrder : result.installOrder.Perm (result.nodes.map (·.packageId))
  depsFirst : DepsFirst state.next result.installOrder

theorem DependencyResolver.buildResolutionResult_spec {resolver : DependencyResolver} {rootPackageId : PackageId}
    {state : ResolverState} (h : state.Final resolver rootPackageId) :
    ∃ result, resolver.buildResolutionResult rootPackageId state = some (.returned result) ∧
      Built rootPackageId state result := by
  obtain ⟨visit, hvisit, hperm, hnodup, hfirst, hmem⟩ := h.walk
  have hselected : ∀ id ∈ visit.visited, state.selected.get? id ≠ none := by
    intro id hid
    obtain ⟨release, hrelease⟩ := h.exists_settled ((hmem id).mp (hperm.mem_iff.mp hid))
    rw [hrelease.selected]
    exact Option.some_ne_none _
  obtain ⟨nodes, hnodes, hids, hall⟩ := ResolverState.exists_nodes hselected
  have hsorted : ((sortBy resolver.nodeLe nodes).map (·.packageId)).Perm visit.ordered := by
    refine ((perm_sortBy resolver.nodeLe nodes).map _).trans ?_
    rw [hids]
    exact hperm
  let nodes' := sortBy resolver.nodeLe nodes
  refine ⟨⟨rootPackageId, nodes', visit.ordered, (nodes'.filter (·.dedupeParentIds.length > 1)).map (·.packageId), false,
    none⟩, ?_, rfl, fun node hnode => hall node ((mem_sortBy _).mp hnode), fun id => ?_, ?_, hsorted.symm, hfirst⟩
  · unfold buildResolutionResult ResolverState.collectReachable ResolverState.topologicalOrder
    rw [hvisit]
    dsimp only [bind, Option.bind, Option.map]
    rw [hnodes]
  · rw [hsorted.mem_iff]
    exact hmem id
  · exact hsorted.nodup_iff.mpr hnodup

section Built

variable {resolver : DependencyResolver} {request : PackageInstallRequest} {state : ResolverState}
  {result : PackageResolutionResult}

theorem Built.reached (hbuilt : Built request.packageId state result)
    (hnode : node ∈ result.nodes) : ReflTransGen (Edge state.next) request.packageId node.packageId :=
  (hbuilt.mem_nodes _).mp (List.mem_map_of_mem hnode)

theorem Built.node_unique (hbuilt : Built request.packageId state result) {other : ResolvedPackageNode}
    (hnode : node ∈ result.nodes) (hother : other ∈ result.nodes) (hid : other.packageId = node.packageId) :
    other = node := by
  have h := hbuilt.nodes other hother
  rw [hid] at h
  exact Option.some.inj (h.symm.trans (hbuilt.nodes node hnode))

structure Describes (node : ResolvedPackageNode) (release : RegistryRelease) : Prop where
  packageType : node.packageType = release.packageType
  selectedVersion : node.selectedVersion = release.packageVersion.val
  sourceReleaseId : node.sourceReleaseId = some release.releaseId.val
  dependencyIds : node.dependencyIds = release.dependencyIds

theorem Built.exists_describes (hfinal : state.Final resolver request.packageId)
    (hbuilt : Built request.packageId state result) (hnode : node ∈ result.nodes) :
    ∃ release, Settled resolver state node.packageId release ∧ Describes node release := by
  obtain ⟨release, hrelease⟩ := hfinal.exists_settled (hbuilt.reached hnode)
  have hmade := hbuilt.nodes node hnode
  unfold ResolverState.node at hmade
  rw [hrelease.selected, Option.map_some, Option.some.injEq] at hmade
  refine ⟨release, hrelease, ?_⟩
  rw [← hmade]
  refine ⟨rfl, rfl, rfl, ?_⟩
  show (state.edges.get? node.packageId).getD [] = _
  rw [hrelease.edges]
  rfl

/-- A required dependency is a node, and the constraint its release meets has the range that is demanded, and a type. -/
theorem Built.exists_dependency (hfinal : state.Final resolver request.packageId)
    (hbuilt : Built request.packageId state result) (hnode : node ∈ result.nodes)
    {release : RegistryRelease} (hselected : state.selected.get? node.packageId = some release)
    {d : PackageDependencySpec} (hd : d ∈ release.requiredDependencies) :
    ∃ other ∈ result.nodes, other.packageId = d.packageId ∧
      resolver.satisfiesRange other.selectedVersion d.versionRange = true ∧
      ∃ constraint, state.constraints.get? d.packageId = some constraint ∧
        constraint.packageType = some other.packageType := by
  obtain ⟨release', hrelease, -⟩ := hbuilt.exists_describes hfinal hnode
  obtain rfl : release = release' := Option.some.inj (hselected.symm.trans hrelease.selected)
  have hedge : Edge state.next node.packageId d.packageId := by
    unfold Edge ResolverState.next
    rw [hrelease.edges, Option.getD_some]
    exact RegistryRelease.mem_dependencyIds.mpr ⟨d, hd, rfl⟩
  obtain ⟨other, hother, hid⟩ := List.mem_map.mp ((hbuilt.mem_nodes _).mpr ((hbuilt.reached hnode).tail hedge))
  obtain ⟨chosen, hchosen, hdescribes⟩ := hbuilt.exists_describes hfinal hother
  obtain ⟨⟨constraint, hconstraint, hrange, htype⟩, -⟩ := hrelease.demands d hd
  obtain ⟨constraint', hconstraint', hadmits⟩ := hchosen.admitted
  rw [hid] at hconstraint'
  obtain rfl : constraint = constraint' := Option.some.inj (hconstraint.symm.trans hconstraint')
  obtain ⟨t, ht⟩ := Option.ne_none_iff_exists'.mp htype
  unfold DependencyResolver.admits at hadmits
  rw [ht] at hadmits
  simp only [Option.all_some, Bool.and_eq_true, decide_eq_true_eq, List.all_eq_true] at hadmits
  refine ⟨other, hother, hid, ?_, constraint, hconstraint, ?_⟩
  · rw [hdescribes.selectedVersion]
    exact hadmits.2 _ hrange
  · rw [ht, hdescribes.packageType, hadmits.1.1]

theorem Built.dependsOn_iff (hbuilt : Built request.packageId state result) {dependencyId : PackageId} :
    result.DependsOn id dependencyId ↔
      ReflTransGen (Edge state.next) request.packageId id ∧ Edge state.next id dependencyId := by
  have hedges : ∀ node ∈ result.nodes, node.dependencyIds = state.next node.packageId := by
    intro node hnode
    obtain ⟨release, -, hmade⟩ := Option.map_eq_some_iff.mp (hbuilt.nodes node hnode)
    rw [← hmade]
  constructor
  · rintro ⟨node, hnode, rfl, hmem⟩
    rw [hedges node hnode] at hmem
    exact ⟨hbuilt.reached hnode, hmem⟩
  · rintro ⟨hid, hedge⟩
    obtain ⟨node, hnode, rfl⟩ := List.mem_map.mp ((hbuilt.mem_nodes id).mpr hid)
    refine ⟨node, hnode, rfl, ?_⟩
    rw [hedges node hnode]
    exact hedge

/-- **The resolution is sound exactly when the demands of types are kept.** -/
theorem sound_iff_demandsKept (hfinal : state.Final resolver request.packageId)
    (hbuilt : Built request.packageId state result)
    (hroot : ∃ constraint, state.constraints.get? request.packageId = some constraint ∧
      (∀ range, request.requestedVersionRange = some range → range ∈ constraint.requestedRanges) ∧
      constraint.pinnedReleaseId = request.releaseId) :
    Sound resolver request state.selected result ↔ state.DemandsKept request.packageId := by
  constructor
  · intro hsound id release hid hselected d hd
    obtain ⟨node, hnode, rfl⟩ := List.mem_map.mp ((hbuilt.mem_nodes id).mpr hid)
    obtain ⟨other, hother, hotherId, -, htype⟩ := hsound.required node hnode release hselected d hd
    obtain ⟨other', hother', hid', -, constraint, hconstraint, htype'⟩ :=
      hbuilt.exists_dependency hfinal hnode hselected hd
    obtain rfl := hbuilt.node_unique hother hother' (hid'.trans hotherId.symm)
    exact ⟨constraint, hconstraint, htype'.trans (congrArg some htype)⟩
  · intro hkept
    refine ⟨fun node hnode => ?_, fun node hnode release hselected d hd => ?_, ?_, fun id hcycle => ?_, hbuilt.nodup,
      hbuilt.installOrder, fun front id back heq dependencyId hdepends => ?_⟩
    · obtain ⟨release, hrelease, hdescribes⟩ := hbuilt.exists_describes hfinal hnode
      obtain ⟨releases, hreleases, hlisted⟩ := hrelease.listed
      refine ⟨releases, release, hreleases, hlisted, hrelease.selected, hdescribes.packageType,
        hdescribes.selectedVersion, hdescribes.sourceReleaseId, fun id => ?_⟩
      rw [hdescribes.dependencyIds]
      exact RegistryRelease.mem_dependencyIds
    · obtain ⟨other, hother, hid, hrange, constraint, hconstraint, htype⟩ :=
        hbuilt.exists_dependency hfinal hnode hselected hd
      obtain ⟨constraint', hconstraint', hdemanded⟩ := hkept _ release (hbuilt.reached hnode) hselected d hd
      obtain rfl : constraint = constraint' := Option.some.inj (hconstraint.symm.trans hconstraint')
      exact ⟨other, hother, hid, hrange, Option.some.inj (htype.symm.trans hdemanded)⟩
    · obtain ⟨constraint, hconstraint, hranges, hpinned⟩ := hroot
      obtain ⟨node, hnode, hid⟩ := List.mem_map.mp ((hbuilt.mem_nodes request.packageId).mpr .refl)
      obtain ⟨release, hrelease, hdescribes⟩ := hbuilt.exists_describes hfinal hnode
      obtain ⟨constraint', hconstraint', hadmits⟩ := hrelease.admitted
      rw [hid] at hconstraint'
      obtain rfl : constraint = constraint' := Option.some.inj (hconstraint.symm.trans hconstraint')
      unfold DependencyResolver.admits at hadmits
      simp only [Bool.and_eq_true, List.all_eq_true] at hadmits
      refine ⟨node, hnode, hid, fun range hrange => ?_, fun releaseId hreleaseId => ?_⟩
      · rw [hdescribes.selectedVersion]
        exact hadmits.2 range (hranges range hrange)
      · rw [hdescribes.sourceReleaseId]
        have hpin := hadmits.1.2
        rw [hpinned, hreleaseId, Option.all_some, decide_eq_true_eq] at hpin
        rw [hpin]
    · exact hfinal.acyclic id (hcycle.lift (fun x => x) fun a b h => (hbuilt.dependsOn_iff.mp h).2)
    · exact hbuilt.depsFirst front id back heq dependencyId (hbuilt.dependsOn_iff.mp hdepends).2

end Built

/-! ## The resolution of a request -/

namespace DependencyResolver

variable {resolver : DependencyResolver}

/-- Some package has two releases or more, and one of them a version that is no version. -/
def BadVersion (resolver : DependencyResolver) : Prop :=
  ∃ id releases, resolver.registry.get? id = some releases ∧ 1 < releases.length ∧
    ∃ release ∈ releases, resolver.semver.valid release.packageVersion.val = false

theorem badVersion_of_selectCandidates {releases : List RegistryRelease}
    {constraint : PackageConstraint} (hreleases : resolver.registry.get? id = some releases)
    (h : resolver.selectCandidates releases constraint = none) : resolver.BadVersion := by
  unfold selectCandidates sortReleases at h
  split_ifs at h with hsort
  · cases h
  · rw [Bool.or_eq_true, not_or, decide_eq_true_eq, List.all_eq_true, not_forall] at hsort
    obtain ⟨hlength, release, hrelease⟩ := hsort
    rw [Classical.not_imp, Bool.not_eq_true] at hrelease
    exact ⟨id, releases, hreleases, by omega, release, hrelease.1, hrelease.2⟩

theorem badVersion_of_threw : ∀ (fuel : Nat) (packageId : PackageId) (state : ResolverState) (path : List PackageId),
    resolver.resolvePackageRecursively fuel packageId state path = some .threw → resolver.BadVersion := by
  intro fuel
  induction fuel with
  | zero => intro _ _ _ h; cases h
  | succ fuel ih =>
    intro packageId state path h
    have hdependencies : ∀ (ds : List PackageDependencySpec) (state : ResolverState), resolveDependencies
        (fun id state => resolver.resolvePackageRecursively fuel id state (path ++ [packageId])) packageId path ds
          state = some .threw → resolver.BadVersion := by
      intro ds
      induction ds with
      | nil => intro state h; cases h
      | cons d ds ihds =>
        intro state h
        unfold resolveDependencies at h
        by_cases hpath : d.packageId ∈ path
        · rw [if_pos hpath] at h
          cases h
        rw [if_neg hpath] at h
        cases hr : resolver.resolvePackageRecursively fuel d.packageId (mergeDependencyConstraint state d packageId)
            (path ++ [packageId]) with
        | none => simp only [hr] at h; cases h
        | some result =>
          simp only [hr] at h
          cases result with
          | ok mid => exact ihds mid h
          | failed failure => cases h
          | threw => exact ih _ _ _ hr
    have hcandidates : ∀ (candidates : List RegistryRelease) (lastFailure : Option PackageResolutionFailure),
        tryCandidates (fun id state => resolver.resolvePackageRecursively fuel id state (path ++ [packageId])) packageId
          path state candidates lastFailure = some .threw → resolver.BadVersion := by
      intro candidates
      induction candidates with
      | nil => intro lastFailure h; cases h
      | cons candidate rest ihrest =>
        intro lastFailure h
        unfold tryCandidates at h
        cases hr : resolveDependencies
            (fun id state => resolver.resolvePackageRecursively fuel id state (path ++ [packageId])) packageId path
            candidate.requiredDependencies { state with selected := state.selected.set packageId candidate } with
        | none => rw [hr] at h; cases h
        | some result =>
          rw [hr] at h
          cases result with
          | ok mid => cases h
          | failed failure => exact ihrest _ h
          | threw => exact hdependencies _ _ hr
    unfold resolvePackageRecursively at h
    by_cases hpath : packageId ∈ path
    · rw [if_pos hpath] at h
      cases h
    rw [if_neg hpath] at h
    cases hconstraint : state.constraints.get? packageId with
    | none => rw [hconstraint] at h; cases h
    | some constraint =>
      rw [hconstraint] at h
      cases hreleases : resolver.registry.get? packageId with
      | none => rw [hreleases] at h; cases h
      | some releases =>
        rw [hreleases] at h
        cases hselect : resolver.selectCandidates releases constraint with
        | none => exact badVersion_of_selectCandidates hreleases hselect
        | some candidates =>
          simp only [hselect] at h
          cases candidates with
          | nil => cases h
          | cons first rest => exact hcandidates _ _ h

theorem final_of_ok {request : PackageInstallRequest} {fuel : Nat} {state : ResolverState}
    (h : resolver.resolvePackageRecursively fuel request.packageId (initialState request) [] = some (.ok state)) :
    state.Final resolver request.packageId ∧ Extends resolver [] (initialState request) state := by
  have hempty : ∀ x, (initialState request).edges.get? x = none := fun x => rfl
  have hacyclic : Acyclic (initialState request).next := by
    intro x hx
    obtain ⟨y, hxy, -⟩ := TransGen.head'_iff.mp hx
    exact absurd hxy List.not_mem_nil
  have hresolves := resolvePackageRecursively_spec fuel hacyclic (fun x _ _ hx => absurd (hempty x) hx) h
  exact ⟨⟨hresolves.acyclic, hresolves.settled, hresolves.resolved⟩, hresolves.extend⟩

theorem initialState_root (request : PackageInstallRequest) :
    (initialState request).constraints.get? request.packageId = some
      { requestedRanges := [request.requestedVersionRange.getD anyRange]
        pinnedReleaseId := request.releaseId } := by
  unfold initialState
  rw [Record.get?_set, if_pos rfl]

theorem root_of_ok {request : PackageInstallRequest} {state : ResolverState}
    (h : Extends resolver [] (initialState request) state) :
    ∃ constraint, state.constraints.get? request.packageId = some constraint ∧
      (∀ range, request.requestedVersionRange = some range → range ∈ constraint.requestedRanges) ∧
      constraint.pinnedReleaseId = request.releaseId := by
  obtain ⟨constraint, hget, hgrown⟩ := h.grown _ _ (initialState_root request)
  refine ⟨constraint, hget, fun range hrange => hgrown.ranges ?_, hgrown.pinned⟩
  rw [hrange]
  exact List.mem_cons_self

/-- The required dependencies of the registry on one package demand one type. -/
def TypesAgree (resolver : DependencyResolver) : Prop :=
  ∀ d e, resolver.Demanded d → resolver.Demanded e → d.packageId = e.packageId → d.packageType = e.packageType

theorem demandsKept_of_typesAgree (hagree : resolver.TypesAgree) {request : PackageInstallRequest}
    {state : ResolverState} (hfinal : state.Final resolver request.packageId)
    (hextend : Extends resolver [] (initialState request) state) : state.DemandsKept request.packageId := by
  intro id release hid hselected d hd
  obtain ⟨release', hrelease⟩ := hfinal.exists_settled hid
  obtain rfl : release = release' := Option.some.inj (hselected.symm.trans hrelease.selected)
  obtain ⟨releases, hreleases, hlisted⟩ := hrelease.listed
  obtain ⟨⟨constraint, hconstraint, -, htype⟩, -⟩ := hrelease.demands d hd
  obtain ⟨t, ht⟩ := Option.ne_none_iff_exists'.mp htype
  refine ⟨constraint, hconstraint, ?_⟩
  rcases hextend.typed _ _ t hconstraint ht with ⟨initial, hinitial, htypeInitial⟩ | ⟨e, he, heid, hetype⟩
  · unfold initialState at hinitial
    rw [Record.get?_set] at hinitial
    split_ifs at hinitial with hroot
    · rw [← Option.some.inj hinitial] at htypeInitial
      cases htypeInitial
    · cases hinitial
  · rw [ht, ← hetype, hagree e d he ⟨id, releases, release, hreleases, hlisted, hd⟩ heid]

def exactVersions : Semver where
  valid := fun _ => true
  rcompare := fun _ _ => 0
  validRange := some
  satisfies := fun version range => range = "*" || range = version

def onlyRelease (version : NonEmptyString) (packageType : PackageResolutionCanonicalType)
    (dependencies : List PackageDependencySpec) : List RegistryRelease :=
  [{ releaseId := ⟨"r1", by decide⟩
     packageType
     packageVersion := version
     publishedAt := "2026-01-01T00:00:00Z"
     dependencies }]

def anyVersion (packageId : PackageId) (packageType : PackageResolutionCanonicalType) : PackageDependencySpec where
  packageId := packageId
  packageType := packageType
  versionRange := anyRange

def rootId : PackageId := ⟨['r'], by decide⟩
def leftId : PackageId := ⟨['a', 'x'], by decide⟩
def rightId : PackageId := ⟨['b'], by decide⟩
def sharedId : PackageId := ⟨['c'], by decide⟩

/-- The left package demands the shared one as a skill, the right one as an app. -/
def diamond (rightDemands : PackageResolutionCanonicalType) : DependencyResolver where
  semver := exactVersions
  collation := codePoints
  registry := .ofEntries [
    (rootId, onlyRelease ⟨"1.0.0", by decide⟩ .workflow [anyVersion leftId .skill, anyVersion rightId .skill]),
    (leftId, onlyRelease ⟨"1.0.0", by decide⟩ .skill [anyVersion sharedId .skill]),
    (rightId, onlyRelease ⟨"1.0.0", by decide⟩ .skill [anyVersion sharedId rightDemands]),
    (sharedId, onlyRelease ⟨"1.0.0", by decide⟩ .skill [])]

def installRoot : PackageInstallRequest where
  packageId := rootId
  requestedVersionRange := none
  releaseId := none

def diamondNodes : List ResolvedPackageNode :=
  [⟨leftId, .skill, "1.0.0", ["*"], [sharedId], .skills, some "r1", [rootId]⟩,
    ⟨rightId, .skill, "1.0.0", ["*"], [sharedId], .skills, some "r1", [rootId]⟩,
    ⟨sharedId, .skill, "1.0.0", ["*"], [], .skills, some "r1", [leftId, rightId]⟩,
    ⟨rootId, .workflow, "1.0.0", ["*"], [leftId, rightId], .workflows, some "r1", []⟩]

end DependencyResolver

end NousCore.Packages
