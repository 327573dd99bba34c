import NousCore.Lib.DepthFirst
import NousCore.Lib.Sorting
import NousCore.Packages.Types

/-!
# How the releases of an installation are chosen

`package-install/resolver.ts`.

* `PackageConstraint`, `ResolverState` : what is demanded of each package, and what is chosen for it;
* `selectCandidates`, `mergeDependencyConstraint` : the releases that meet a constraint, one more demand;
* `buildResolutionResult`, `resolveDependencyGraph` : the nodes and the order of installation.
-/

namespace NousCore.Packages

/-! ## The registry -/

abbrev NonEmptyString := { s : String // s ≠ "" }

structure PackageDependencySpec where
  packageId : PackageId
  packageType : PackageResolutionCanonicalType
  versionRange : NonEmptyString
  required : Bool := true
  deriving DecidableEq

structure RegistryRelease where
  releaseId : NonEmptyString
  packageType : PackageResolutionCanonicalType
  packageVersion : NonEmptyString
  publishedAt : String
  dependencies : List PackageDependencySpec
  deriving DecidableEq

/-- `candidate.dependencies.packages.filter((item) => item.required !== false)`. -/
def RegistryRelease.requiredDependencies (release : RegistryRelease) : List PackageDependencySpec :=
  release.dependencies.filter (·.required)

def RegistryRelease.dependencyIds (release : RegistryRelease) : List PackageId :=
  (release.requiredDependencies.map (·.packageId)).eraseDups

/-- The semver package: `rcompare` throws on a text that is no version. -/
structure Semver where
  valid : String → Bool
  rcompare : String → String → Int
  validRange : String → Option String
  satisfies : String → String → Bool

/-- `getPackage` finds the keys of the registry, `listReleases` their values. -/
structure DependencyResolver where
  semver : Semver
  collation : Collation
  registry : Record PackageId (List RegistryRelease)

structure PackageInstallRequest where
  packageId : PackageId
  requestedVersionRange : Option NonEmptyString
  releaseId : Option NonEmptyString

/-! ## The state of the search -/

structure PackageConstraint where
  packageType : Option PackageResolutionCanonicalType := none
  requestedRanges : List NonEmptyString := []
  parentIds : List PackageId := []
  pinnedReleaseId : Option NonEmptyString := none

structure ResolverState where
  constraints : Record PackageId PackageConstraint
  selected : Record PackageId RegistryRelease
  edges : Record PackageId (List PackageId)

inductive ResolveResult where
  | ok (state : ResolverState)
  | failed (failure : PackageResolutionFailure)
  | threw

def addToSet {α : Type*} [DecidableEq α] (set : List α) (a : α) : List α := if a ∈ set then set else set ++ [a]

theorem mem_addToSet {α : Type*} [DecidableEq α] {set : List α} {a b : α} : b ∈ addToSet set a ↔ b ∈ set ∨ b = a := by
  unfold addToSet
  split_ifs with h
  · exact ⟨.inl, fun hb => hb.elim id fun hb => hb ▸ h⟩
  · rw [List.mem_append, List.mem_singleton]

def PackageConstraint.merge (existing : PackageConstraint) (dependency : PackageDependencySpec) (parentId : PackageId) :
    PackageConstraint :=
  { existing with
    packageType := existing.packageType <|> some dependency.packageType
    requestedRanges := addToSet existing.requestedRanges dependency.versionRange
    parentIds := addToSet existing.parentIds parentId }

def mergeDependencyConstraint (state : ResolverState) (dependency : PackageDependencySpec) (parentId : PackageId) :
    ResolverState :=
  { state with
    constraints := state.constraints.set dependency.packageId
      (((state.constraints.get? dependency.packageId).getD {}).merge dependency parentId) }

/-! ## The candidates -/

namespace DependencyResolver

variable (resolver : DependencyResolver)

/-- `validRange != null && satisfies(version, validRange)`. -/
def satisfiesRange (version : String) (range : NonEmptyString) : Bool :=
  match resolver.semver.validRange range.val with
  | some validRange => resolver.semver.satisfies version validRange
  | none => false

def releaseLe (left right : RegistryRelease) : Bool :=
  let versionOrder := resolver.semver.rcompare left.packageVersion.val right.packageVersion.val
  if versionOrder ≠ 0 then versionOrder < 0
  else if !resolver.collation.le right.publishedAt left.publishedAt then false
  else if !resolver.collation.le left.publishedAt right.publishedAt then true
  else resolver.collation.le left.releaseId.val right.releaseId.val

/-- A sort of two or more releases compares every version. -/
def sortReleases (releases : List RegistryRelease) : Option (List RegistryRelease) :=
  if releases.length ≤ 1 || releases.all (resolver.semver.valid ·.packageVersion.val) then
    some (sortBy resolver.releaseLe releases)
  else none

def admits (constraint : PackageConstraint) (release : RegistryRelease) : Bool :=
  constraint.packageType.all (release.packageType = ·) && constraint.pinnedReleaseId.all (release.releaseId = ·) &&
    constraint.requestedRanges.all (resolver.satisfiesRange release.packageVersion.val)

def selectCandidates (releases : List RegistryRelease) (constraint : PackageConstraint) :
    Option (List RegistryRelease) :=
  (resolver.sortReleases releases).map (·.filter (resolver.admits constraint))

def buildCandidateFailure (constraint : PackageConstraint) (packageId : PackageId) (releases : List RegistryRelease) :
    PackageResolutionFailure :=
  match constraint.requestedRanges.find? (fun range => (resolver.semver.validRange range.val).isNone) with
  | some invalidRange =>
    { reasonCode := "PKG-009-DEPENDENCY_UNRESOLVED"
      packageId := some packageId
      versionRange := some invalidRange.val
      detail := some ("Invalid semver range: " ++ invalidRange.val) }
  | none =>
    if releases.length > 0 && constraint.requestedRanges.length > 0 then
      { reasonCode := "PKG-009-DEPENDENCY_RANGE_CONFLICT"
        packageId := some packageId
        versionRange := some (String.intercalate ", " (constraint.requestedRanges.map (·.val)))
        conflictPackageId := some packageId
        detail := some "No registry release satisfies all requested ranges." }
    else
      { reasonCode := "PKG-009-DEPENDENCY_UNRESOLVED"
        packageId := some packageId
        detail := some "No registry release is available for this package." }

/-! ## The search -/

def cycleFailure (packageId : PackageId) (path : List PackageId) : PackageResolutionFailure where
  reasonCode := "PKG-009-DEPENDENCY_CYCLE"
  packageId := some packageId
  detail := some (String.intercalate " -> " (path.map fun id => String.ofList id.val))

def unresolved (packageId : PackageId) (detail : Option String) : PackageResolutionFailure where
  reasonCode := "PKG-009-DEPENDENCY_UNRESOLVED"
  packageId := some packageId
  detail := detail

/-- The dependencies of one candidate, where `recur` resolves a package below the candidate's. -/
def resolveDependencies (recur : PackageId → ResolverState → Option ResolveResult) (packageId : PackageId)
    (path : List PackageId) : List PackageDependencySpec → ResolverState → Option ResolveResult
  | [], candidateState => some (.ok candidateState)
  | dependency :: rest, candidateState =>
    if dependency.packageId ∈ path then
      some (.failed (cycleFailure dependency.packageId (path ++ [packageId, dependency.packageId])))
    else
      match recur dependency.packageId (mergeDependencyConstraint candidateState dependency packageId) with
      | some (.ok candidateState) => resolveDependencies recur packageId path rest candidateState
      | other => other

/-- The candidates in their order, each from the same state. -/
def tryCandidates (recur : PackageId → ResolverState → Option ResolveResult) (packageId : PackageId)
    (path : List PackageId) (state : ResolverState) :
    List RegistryRelease → Option PackageResolutionFailure → Option ResolveResult
  | [], lastFailure => some (.failed (lastFailure.getD (unresolved packageId none)))
  | candidate :: rest, _ =>
    match resolveDependencies recur packageId path candidate.requiredDependencies
      { state with selected := state.selected.set packageId candidate } with
    | some (.ok candidateState) =>
      some (.ok { candidateState with edges := candidateState.edges.set packageId candidate.dependencyIds })
    | some (.failed failure) => tryCandidates recur packageId path state rest (some failure)
    | other => other

/-- `none` when the bound on the depth is too small. -/
def resolvePackageRecursively : Nat → PackageId → ResolverState → List PackageId → Option ResolveResult
  | 0, _, _, _ => none
  | fuel + 1, packageId, state, path =>
    if packageId ∈ path then some (.failed (cycleFailure packageId (path ++ [packageId])))
    else
      match state.constraints.get? packageId with
      | none => some (.failed (unresolved packageId (some "Missing dependency constraint.")))
      | some constraint =>
        match resolver.registry.get? packageId with
        | none => some (.failed (unresolved packageId (some "Registry package was not found.")))
        | some releases =>
          match resolver.selectCandidates releases constraint with
          | none => some .threw
          | some [] => some (.failed (resolver.buildCandidateFailure constraint packageId releases))
          | some (candidate :: rest) =>
            tryCandidates (fun id state => resolvePackageRecursively fuel id state (path ++ [packageId])) packageId path
              state (candidate :: rest) none

end DependencyResolver

/-! ## The result -/

namespace ResolverState

section

variable (state : ResolverState)

/-- `edges.get(packageId) ?? []`. -/
def next (packageId : PackageId) : List PackageId := (state.edges.get? packageId).getD []

/-- Each level of a walk below the first meets another package with edges. -/
def walk (rootPackageId : PackageId) : Option (DepthFirst.Visit PackageId) :=
  DepthFirst.visit state.next (state.edges.keys.length + 1) DepthFirst.start rootPackageId

def collectReachable (rootPackageId : PackageId) : Option (List PackageId) :=
  (state.walk rootPackageId).map (·.visited)

def topologicalOrder (rootPackageId : PackageId) : Option (List PackageId) :=
  (state.walk rootPackageId).map (·.ordered)

def requestedRangesForNode (constraint : Option PackageConstraint) (fallbackVersion : NonEmptyString) : List String :=
  let requestedRanges := (constraint.map (·.requestedRanges)).getD []
  if requestedRanges.length > 0 then requestedRanges.map (·.val) else [fallbackVersion.val]

/-- `none` when no release is selected. -/
def node (packageId : PackageId) : Option ResolvedPackageNode :=
  (state.selected.get? packageId).map fun release =>
    { packageId
      packageType := release.packageType
      selectedVersion := release.packageVersion.val
      requestedRanges := requestedRangesForNode (state.constraints.get? packageId) release.packageVersion
      dependencyIds := state.next packageId
      installRoot := release.packageType.root
      sourceReleaseId := some release.releaseId.val
      dedupeParentIds := ((state.constraints.get? packageId).map (·.parentIds)).getD [] }

end

end ResolverState

inductive Resolution where
  | returned (result : PackageResolutionResult)
  | rejected
  deriving DecidableEq

namespace DependencyResolver

variable (resolver : DependencyResolver)

def nodeLe (left right : ResolvedPackageNode) : Bool :=
  resolver.collation.le (String.ofList left.packageId.val) (String.ofList right.packageId.val)

def buildResolutionResult (rootPackageId : PackageId) (state : ResolverState) : Option Resolution := do
  let reachable ← state.collectReachable rootPackageId
  let installOrder ← state.topologicalOrder rootPackageId
  match reachable.mapM state.node with
  | none => some .rejected
  | some found =>
    let nodes := sortBy resolver.nodeLe found
    some (.returned
      { rootPackageId
        nodes
        installOrder
        dedupedPackageIds := (nodes.filter (·.dedupeParentIds.length > 1)).map (·.packageId)
        blocked := false
        failure := none })

def anyRange : NonEmptyString := ⟨"*", by decide⟩

def initialState (request : PackageInstallRequest) : ResolverState where
  constraints := Record.empty.set request.packageId
    { requestedRanges := [request.requestedVersionRange.getD anyRange]
      pinnedReleaseId := request.releaseId }
  selected := .empty
  edges := .empty

def resolveDependencyGraph (fuel : Nat) (request : PackageInstallRequest) : Option Resolution :=
  match resolver.resolvePackageRecursively fuel request.packageId (initialState request) [] with
  | none => none
  | some .threw => some .rejected
  | some (.failed failure) => some (.returned
      { rootPackageId := request.packageId
        nodes := []
        installOrder := []
        dedupedPackageIds := []
        blocked := true
        failure := some failure })
  | some (.ok state) => resolver.buildResolutionResult request.packageId state

end DependencyResolver

end NousCore.Packages
