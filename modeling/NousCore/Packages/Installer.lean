import NousCore.Lib.Fallible
import NousCore.Packages.Lifecycle
import NousCore.Packages.Planner
import NousCore.Packages.Resolver

/-!
# Installing the packages of a resolution

`package-install/service.ts`, with `materializer.ts`.

* `materializePackage`, `rollbackMaterializedPackage` : a package put in its directory, and taken out again;
* `installResolvedNode` : one package, as a fresh install or as an update;
* `installPackage` : the packages in their order, and what is undone when one of them fails.
-/

namespace NousCore.Packages

/-! ## What surrounds the service -/

structure InstallRelease where
  releaseId : String
  packageId : PackageId
  packageVersion : Text
  originClass : OriginClass
  installSourcePath : Option Path

structure InstallEligibility where
  snapshot : RegistryInstallEligibilitySnapshot
  signerValid : Bool

structure CredentialInstallSetup where
  secrets : List String
  oauth : List String

structure InstallServiceRequest extends PackageInstallRequest where
  projectId : Text
  instanceRoot : List Char
  credentialSetup : Option CredentialInstallSetup

/-- The service for credentials: a field that cannot be stored, and the reason of a flow that does not succeed. -/
structure AppCredentialInstallService where
  storeSecretField : PackageId → String → Option String
  openOAuthFlow : PackageId → String → Except String (Option (Option String))

/-- The answers to the calls of one installation. A call to the registry or for a state is numbered by the turn of its
package, a call to the runtime or the orchestrator by those before it. -/
structure InstallEnvironment where
  cwd : Path
  resolveDependencyGraph : PackageInstallRequest → Except String PackageResolutionResult
  getRelease : Nat → String → Except String (Option InstallRelease)
  getStateFails : Nat → Option String
  evaluateInstallEligibility : Nat → Except String InstallEligibility
  /-- Why an operation fails, and how far it came. -/
  runtimeFails : Nat → Option (String × FileSystem.Extent)
  lifecycle : Nat → LifecycleEnvironment
  credentials : Option AppCredentialInstallService
  /-- The text of `.nous-package.json`. -/
  describe : InstallRelease → String

structure InstallWorld where
  files : FileSystem
  records : LifecycleRecords
  snapshots : UpdateSnapshots
  runtimeCalls : Nat
  lifecycleCalls : Nat

/-- `MaterializationError`, and any other error. -/
inductive InstallError where
  | materialization (message : String) (rollbackNeeded : Bool) (backupPath : Option Path)
  | other (message : String)

def InstallError.message : InstallError → String
  | materialization message _ _ => message
  | other message => message

abbrev Installing := Fallible InstallError InstallWorld

namespace Installing

variable (env : InstallEnvironment)

def ofRegistry {α : Type} (answer : Except String α) : Installing α :=
  match answer with
  | .ok a => pure a
  | .error message => throw (.other message)

def operate (operation : FileSystem.Extent → FileSystem → FileSystem) : Installing PUnit := do
  let world ← get
  match env.runtimeFails world.runtimeCalls with
  | none =>
    set { world with
      files := operation FileSystem.whole world.files
      runtimeCalls := world.runtimeCalls + 1 }
  | some (message, extent) =>
    set { world with
      files := operation extent world.files
      runtimeCalls := world.runtimeCalls + 1 }
    throw (.other message)

def pathExists (path : Path) : Installing Bool := do
  let world ← get
  return (world.files path).isSome

/-- One request to the orchestrator, whose method is the transition of the request. -/
def transition (request : PackageLifecycleTransitionRequest) : Installing PackageLifecycleTransitionResult := do
  let world ← get
  let effect := handle (env.lifecycle world.lifecycleCalls) request.targetTransition (.parsed request)
    ⟨world.records, world.snapshots, world.records⟩
  set { world with
    records := effect.records
    snapshots := effect.snapshots
    lifecycleCalls := world.lifecycleCalls + 1 }
  ofRegistry effect.answer

end Installing

/-! ## The materializer -/

inductive PackageInstallJournalAction where
  | prepare | write | rollback
  deriving DecidableEq

inductive PackageInstallJournalStatus where
  | pending | applied | rolledBack
  deriving DecidableEq

structure PackageInstallJournalEntry where
  packageId : PackageId
  selectedVersion : Text
  targetPath : Path
  action : PackageInstallJournalAction
  status : PackageInstallJournalStatus

def buildJournalEntry (target : CanonicalInstallTarget) (selectedVersion : Text) (action : PackageInstallJournalAction)
    (status : PackageInstallJournalStatus) : PackageInstallJournalEntry :=
  ⟨target.packageId, selectedVersion, target.packagePath, action, status⟩

def manifestName : List Char := ".nous-package.json".toList

namespace Installing

variable (env : InstallEnvironment)

/-- The files of a package; what fails here asks for a rollback. -/
def copyPackage (release : InstallRelease) (target : CanonicalInstallTarget) : Installing PUnit :=
  match release.installSourcePath with
  | some source => operate env (FileSystem.copy source target.packagePath)
  | none => do
    operate env (FileSystem.makeDirs target.packagePath)
    operate env (FileSystem.write (target.packagePath.resolve manifestName) (env.describe release))

def backUp (target : CanonicalInstallTarget) : Option Path → Installing PUnit
  | none => pure ⟨⟩
  | some backupPath => do
    if ← pathExists target.packagePath then
      operate env (FileSystem.remove backupPath)
      operate env (FileSystem.copy target.packagePath backupPath)

/-- The writes of a package that is put in its directory. -/
def materializedWrites (release : InstallRelease) (target : CanonicalInstallTarget) :
    List PackageInstallJournalEntry :=
  [buildJournalEntry target release.packageVersion .prepare .pending,
    buildJournalEntry target release.packageVersion .prepare .applied,
    buildJournalEntry target release.packageVersion .write .pending,
    buildJournalEntry target release.packageVersion .write .applied]

def checkSource (release : InstallRelease) (backupPath : Option Path) : Installing PUnit :=
  match release.installSourcePath with
  | none => pure ⟨⟩
  | some source => do
    if !(← pathExists source) then
      throw (.materialization s!"Install source path does not exist: {String.ofList source.text}" false backupPath)

def materializePackage (release : InstallRelease) (target : CanonicalInstallTarget) (createBackup : Bool) :
    Installing (List PackageInstallJournalEntry × Option Path) := do
  let backupPath := if createBackup then some (resolveRollbackPath target) else none
  checkSource release backupPath
  operate env (FileSystem.makeDirs target.absoluteRootPath)
  backUp env target backupPath
  operate env (FileSystem.remove target.packagePath)
  match ← Fallible.attempt (copyPackage env release target) with
  | .error e => throw (.materialization e.message true backupPath)
  | .ok _ => return (materializedWrites release target, backupPath)

def rollbackWrites (target : CanonicalInstallTarget) (selectedVersion : Text) : List PackageInstallJournalEntry :=
  [buildJournalEntry target selectedVersion .rollback .pending,
    buildJournalEntry target selectedVersion .rollback .rolledBack]

def rollbackMaterializedPackage (target : CanonicalInstallTarget) (selectedVersion : Text) (backupPath : Option Path) :
    Installing (List PackageInstallJournalEntry) := do
  operate env (FileSystem.remove target.packagePath)
  match backupPath with
  | none => pure ⟨⟩
  | some backupPath =>
    if ← pathExists backupPath then
      operate env (FileSystem.copy backupPath target.packagePath)
      operate env (FileSystem.remove backupPath)
  return rollbackWrites target selectedVersion

end Installing

/-! ## One package -/

inductive PackageInstallStatus where
  | installed | blocked | rolledBack
  deriving DecidableEq

structure ResolvedNodeInput where
  projectId : Text
  release : InstallRelease
  target : CanonicalInstallTarget
  currentState : Option PackageLifecycleStateRecord
  registryEligibility : InstallEligibility

structure NodeResult where
  writes : List PackageInstallJournalEntry
  lifecycleResults : List PackageLifecycleTransitionResult
  failure : Option (PackageInstallStatus × PackageResolutionFailure)

namespace ResolvedNodeInput

variable (input : ResolvedNodeInput)

def baseRequest (packageVersion : Text) (transition : PackageLifecycleTransition) :
    PackageLifecycleTransitionRequest where
  projectId := input.projectId
  packageId := input.release.packageId
  packageVersion := packageVersion
  originClass := input.release.originClass
  targetTransition := transition

def ingestRequest : PackageLifecycleTransitionRequest := input.baseRequest input.release.packageVersion .ingest

def installRequest : PackageLifecycleTransitionRequest :=
  { input.baseRequest input.release.packageVersion .install with
    admission := some
      { signatureValid := input.registryEligibility.snapshot.metadataValid
        signerKnown := input.registryEligibility.signerValid
        policyCompatible := true
        isDraftUnsigned := false
        isImported := false
        reverificationComplete := true
        reapprovalComplete := true }
    compatibility := some
      ⟨input.registryEligibility.snapshot.compatibilityState ≠ .blockedIncompatible⟩
    registryEligibility := some input.registryEligibility.snapshot }

/-- `input.currentState?.package_version ?? input.release.package_version`. -/
def currentVersion : Text := (input.currentState.map (·.packageVersion)).getD input.release.packageVersion

def stageRequest : PackageLifecycleTransitionRequest :=
  { input.baseRequest input.currentVersion .stageUpdate with
    targetVersion := some input.release.packageVersion
    checkpointRef := some ⟨"checkpoint:".toList ++ input.release.packageId.val ++ ':' :: input.release.packageVersion.val,
      by simp⟩ }

def commitRequest : PackageLifecycleTransitionRequest :=
  { input.baseRequest input.currentVersion .commitUpdate with updateChecks := some ⟨true, true, true⟩ }

def rollbackRequest : PackageLifecycleTransitionRequest :=
  { input.baseRequest input.currentVersion .rollbackUpdate with rollback := some ⟨true⟩ }

def isUpdate : Bool :=
  input.currentState.any fun current =>
    current.packageVersion ≠ input.release.packageVersion && current.currentState ≠ .removed

/-- A failure that names the package, with the code of the orchestrator if it gave one. -/
def refusal (reasonCode : Option PackageLifecycleReasonCode) (otherwise detail : String) : PackageResolutionFailure where
  reasonCode := (reasonCode.map fun code => String.ofList code.text).getD otherwise
  packageId := some input.release.packageId
  detail := some detail

end ResolvedNodeInput

namespace Installing

variable (env : InstallEnvironment)

/-- `PackageResolutionFailureSchema.parse` of a failure with the text of an error: an empty text does not parse. -/
def failureOf (reasonCode : String) (packageId : PackageId) (detail : String) : Installing PackageResolutionFailure :=
  if detail = "" then throw (.other "failure.detail")
  else return { reasonCode, packageId := some packageId, detail := some detail }

section

variable (input : ResolvedNodeInput)

def installIngested (lifecycleResults : List PackageLifecycleTransitionResult) :
    Installing NodeResult :=
  match evaluateTransitionGuards input.installRequest with
  | some guardFailure =>
    return ⟨[], lifecycleResults,
      some (.blocked, input.refusal (some guardFailure) "" "Lifecycle install guards blocked materialization.")⟩
  | none => do
    match ← Fallible.attempt (materializePackage env input.release input.target false) with
    | .error e =>
      let undone ← rollbackMaterializedPackage env input.target input.release.packageVersion none
      let failure ← failureOf "PKG-009-INSTALL_WRITE_FAILED" input.release.packageId e.message
      return ⟨undone, lifecycleResults, some (.rolledBack, failure)⟩
    | .ok materialized =>
      let install ← transition env input.installRequest
      if install.decision ≠ .allowed then
        let undone ← rollbackMaterializedPackage env input.target input.release.packageVersion none
        return ⟨materialized.1 ++ undone, lifecycleResults ++ [install],
          some (.blocked, input.refusal install.reasonCode "PKG-005-INVALID_TRANSITION"
            "Lifecycle install was blocked after materialization.")⟩
      else return ⟨materialized.1, lifecycleResults ++ [install], none⟩

def installFresh : Installing NodeResult :=
  match input.currentState with
  | some _ => installIngested env input []
  | none => do
    let ingest ← transition env input.ingestRequest
    if ingest.decision ≠ .allowed then
      return ⟨[], [ingest], some (.blocked, input.refusal ingest.reasonCode "PKG-005-INVALID_TRANSITION"
        "Lifecycle ingest was blocked.")⟩
    else installIngested env input [ingest]

def installStaged (stageUpdate : PackageLifecycleTransitionResult) :
    Installing NodeResult := do
  match ← Fallible.attempt (materializePackage env input.release input.target true) with
  | .error e =>
    let rollbackUpdate ← transition env input.rollbackRequest
    let undone ← match e with
      | .materialization _ false _ => pure []
      | .materialization _ true backupPath =>
        rollbackMaterializedPackage env input.target input.release.packageVersion backupPath
      | .other _ =>
        rollbackMaterializedPackage env input.target input.release.packageVersion
          (some (resolveRollbackPath input.target))
    let failure ← failureOf "PKG-009-INSTALL_WRITE_FAILED" input.release.packageId e.message
    return ⟨undone, [stageUpdate, rollbackUpdate], some (.rolledBack, failure)⟩
  | .ok (writes, backupPath) =>
    let commitUpdate ← transition env input.commitRequest
    if commitUpdate.decision ≠ .allowed then
      let undone ← rollbackMaterializedPackage env input.target input.release.packageVersion backupPath
      return ⟨writes ++ undone, [stageUpdate, commitUpdate],
        some (.rolledBack, input.refusal commitUpdate.reasonCode "PKG-009-INSTALL_WRITE_FAILED"
          "Lifecycle commit_update did not complete successfully.")⟩
    else
      match backupPath with
      | none => pure ⟨⟩
      | some backupPath =>
        if ← pathExists backupPath then operate env (FileSystem.remove backupPath)
      return ⟨writes, [stageUpdate, commitUpdate], none⟩

def installUpdate : Installing NodeResult := do
  let stageUpdate ← transition env input.stageRequest
  if stageUpdate.decision ≠ .allowed then
    return ⟨[], [stageUpdate], some (.blocked, input.refusal stageUpdate.reasonCode "PKG-005-INVALID_TRANSITION"
      "Lifecycle stage_update was blocked.")⟩
  else installStaged env input stageUpdate

def installResolvedNode : Installing NodeResult :=
  if input.isUpdate then installUpdate env input else installFresh env input

end

end Installing

/-! ## The packages of a resolution -/

def stillApplied (writes : List PackageInstallJournalEntry) : List PackageId :=
  writes.foldl (fun applied entry =>
    if entry.action = .write ∧ entry.status = .applied then addToSet applied entry.packageId
    else if entry.action = .rollback ∧ entry.status = .rolledBack then applied.filter (· ≠ entry.packageId)
    else applied) []

/-- The last applied write of each package that is still applied, from the last one back. -/
def collectAppliedWrites (writes : List PackageInstallJournalEntry) : List PackageInstallJournalEntry :=
  ((writes.filter fun entry => entry.action = .write ∧ entry.status = .applied).reverse.foldl (fun ordered entry =>
    if entry.packageId ∉ stillApplied writes ∨ entry.packageId ∈ ordered.map (·.packageId) then ordered
    else ordered ++ [entry]) [])

structure PackageInstallResult where
  resolution : PackageResolutionResult
  writes : List PackageInstallJournalEntry
  lifecycleResults : List PackageLifecycleTransitionResult
  status : PackageInstallStatus
  failure : Option PackageResolutionFailure

/-- The writes and the lifecycle results so far. -/
structure InstallProgress where
  writes : List PackageInstallJournalEntry
  lifecycleResults : List PackageLifecycleTransitionResult

def InstallProgress.blocked (progress : InstallProgress) (resolution : PackageResolutionResult)
    (reasonCode : String) (packageId : PackageId) (detail : String) : PackageInstallResult :=
  ⟨resolution, progress.writes, progress.lifecycleResults, .blocked,
    some { reasonCode, packageId := some packageId, detail := some detail }⟩

abbrev InstallTargets := Record PackageId CanonicalInstallTarget

def releaseIdsByPackage (resolution : PackageResolutionResult) : Record PackageId String :=
  .ofEntries (resolution.nodes.filterMap fun node => node.sourceReleaseId.map fun id => (node.packageId, id))

namespace Installing

variable (env : InstallEnvironment)

def rollbackPreviouslyAppliedNodes (targets : InstallTargets) :
    List PackageInstallJournalEntry → Installing (List PackageInstallJournalEntry)
  | [] => pure []
  | entry :: entries =>
    match targets.get? entry.packageId with
    | none => rollbackPreviouslyAppliedNodes targets entries
    | some target => do
      let undone ← rollbackMaterializedPackage env target entry.selectedVersion none
      let rest ← rollbackPreviouslyAppliedNodes targets entries
      return undone ++ rest

/-- What a package is installed with, unless it is missing something. -/
def nodeInput (request : InstallServiceRequest) (turn : Nat) (release : InstallRelease)
    (target : CanonicalInstallTarget) (packageId : PackageId) : Installing ResolvedNodeInput := do
  if let some message := env.getStateFails turn then throw (.other message)
  let world ← get
  let registryEligibility ← ofRegistry (env.evaluateInstallEligibility turn)
  return ⟨request.projectId, release, target, world.records.get? (buildKey request.projectId packageId),
    registryEligibility⟩

/-- The packages from one turn on: the result of the one that fails, or what is done. -/
def installNodes (request : InstallServiceRequest) (resolution : PackageResolutionResult) (targets : InstallTargets) :
    Nat → List PackageId → InstallProgress → Installing (PackageInstallResult ⊕ InstallProgress)
  | _, [], progress => return .inr progress
  | turn, packageId :: rest, progress =>
    match (releaseIdsByPackage resolution).get? packageId with
    | none => return .inl (progress.blocked resolution "PKG-009-DEPENDENCY_UNRESOLVED" packageId
        "Resolved package is missing a source release id.")
    | some releaseId => do
      match ← ofRegistry (env.getRelease turn releaseId) with
      | none => return .inl (progress.blocked resolution "PKG-009-DEPENDENCY_UNRESOLVED" packageId
          s!"Registry release not found: {releaseId}")
      | some release =>
        match targets.get? packageId with
        | none => return .inl (progress.blocked resolution "PKG-009-STORE_TARGET_INVALID" packageId
            "Missing install target.")
        | some target =>
          let input ← nodeInput env request turn release target packageId
          let node ← installResolvedNode env input
          let next : InstallProgress :=
            ⟨progress.writes ++ node.writes, progress.lifecycleResults ++ node.lifecycleResults⟩
          match node.failure with
          | none => installNodes request resolution targets (turn + 1) rest next
          | some (status, failure) =>
            let undone ← rollbackPreviouslyAppliedNodes env targets (collectAppliedWrites next.writes)
            return .inl ⟨resolution, next.writes ++ undone, next.lifecycleResults,
              if status = .rolledBack ∨ undone.length > 0 then .rolledBack else status, some failure⟩

def applyCredentialSetup (service : AppCredentialInstallService) (appId : PackageId) (setup : CredentialInstallSetup) :
    Option String :=
  (setup.secrets.findSome? (service.storeSecretField appId)).or <|
    setup.oauth.findSome? fun flow =>
      match service.openOAuthFlow appId flow with
      | .error message => some message
      | .ok none => none
      | .ok (some reason) => some (reason.getD "PKG-010-OAUTH_FLOW_FAILED")

def credentialSetupError (request : InstallServiceRequest) (resolution : PackageResolutionResult) : Option String :=
  match request.credentialSetup, env.credentials with
  | some setup, some service =>
    match resolution.nodes.find? (·.packageId = resolution.rootPackageId) with
    | some rootNode =>
      if rootNode.packageType ≠ .app then none else applyCredentialSetup service resolution.rootPackageId setup
    | none => none
  | _, _ => none

def installTargets (request : InstallServiceRequest) (resolution : PackageResolutionResult) :
    Except PackageResolutionFailure InstallTargets :=
  buildInstallTargets env.cwd (some request.instanceRoot) resolution

def installPackage (request : InstallServiceRequest) : Installing PackageInstallResult := do
  let resolution ← ofRegistry (env.resolveDependencyGraph request.toPackageInstallRequest)
  if resolution.blocked then return ⟨resolution, [], [], .blocked, resolution.failure⟩
  else
    match installTargets env request resolution with
    | .error failure => return ⟨resolution, [], [], .blocked, some failure⟩
    | .ok targets =>
      match ← installNodes env request resolution targets 0 resolution.installOrder ⟨[], []⟩ with
      | .inl result => return result
      | .inr progress =>
        match credentialSetupError env request resolution with
        | none => return ⟨resolution, progress.writes, progress.lifecycleResults, .installed, none⟩
        | some message =>
          let undone ← rollbackPreviouslyAppliedNodes env targets (collectAppliedWrites progress.writes)
          let failure ← failureOf "PKG-010-OAUTH_FLOW_FAILED" resolution.rootPackageId message
          return ⟨resolution, progress.writes ++ undone, progress.lifecycleResults, .rolledBack, some failure⟩

end Installing

end NousCore.Packages
