import NousCore.Registry.Types

/-!
# The registry service

* `validateRegistryMetadataChain` : the checks of a release's metadata;
* `evaluateRegistryEligibility` : the codes that block an installation;
* `submitRelease`, `evaluateInstallEligibility`, `applyGovernanceAction`, `submitAppeal`, `resolveAppeal`;
* `applyGovernanceMutation` : what an action does to the records that it names;
* `RegistryCall.run` : the call of a request.
-/

namespace NousCore.Registry

structure MinimumVersions where
  rootVersion : Nat
  timestampVersion : Nat
  snapshotVersion : Nat
  targetsVersion : Nat

structure RegistryMetadataValidationInput where
  metadataChain : SignedMetadataChain
  expectedArtifactDigest : String
  minimumVersions : MinimumVersions
  trustedRootKeyIds : List String
  revokedKeyIds : List String
  checkedAt : IsoTime

def metadataReasonCodes (input : RegistryMetadataValidationInput) : List RegistryReasonCode :=
  let chain := input.metadataChain
  let minimum := input.minimumVersions
  (if chain.metadataExpiresAt.instant ≤ input.checkedAt.instant then [.metadataExpired] else []) ++
  (if chain.rootVersion < minimum.rootVersion then [.metadataDowngraded] else []) ++
  (if chain.timestampVersion < minimum.timestampVersion ∨ chain.snapshotVersion < minimum.snapshotVersion ∨
      chain.targetsVersion < minimum.targetsVersion then [.metadataReplayed] else []) ++
  (if chain.artifactDigest ≠ input.expectedArtifactDigest then [.metadataDigestMismatch] else []) ++
  (if chain.trustedRootKeyIds.any (· ∈ input.trustedRootKeyIds) then [] else [.signerUnknown]) ++
  (if chain.trustedRootKeyIds.any (· ∈ input.revokedKeyIds) then [.signerRevoked] else [])

def validateRegistryMetadataChain (input : RegistryMetadataValidationInput) : RegistryMetadataValidationResult :=
  let reasonCodes := metadataReasonCodes input
  { valid := reasonCodes.isEmpty
    signerValid := .signerUnknown ∉ reasonCodes ∧ .signerRevoked ∉ reasonCodes
    fresh := .metadataExpired ∉ reasonCodes ∧ .metadataReplayed ∉ reasonCodes ∧ .metadataDowngraded ∉ reasonCodes
    reasonCodes := reasonCodes.eraseDups
    checkedAt := input.checkedAt }

/-- The chain is checked against its own versions and its own root keys. -/
def ownValidationInput (chain : SignedMetadataChain) (sourceHash : String) (checkedAt : IsoTime) :
    RegistryMetadataValidationInput where
  metadataChain := chain
  expectedArtifactDigest := sourceHash
  minimumVersions := ⟨chain.rootVersion, chain.timestampVersion, chain.snapshotVersion, chain.targetsVersion⟩
  trustedRootKeyIds := chain.trustedRootKeyIds
  revokedKeyIds := []
  checkedAt := checkedAt

def resolveDistributionStatus (package : RegistryPackage) (release : RegistryRelease) : RegistryDistributionStatus :=
  let statuses := [package.distributionStatus, release.distributionStatus]
  if .blocked ∈ statuses then .blocked
  else if .delisted ∈ statuses then .delisted
  else if .hold ∈ statuses then .hold
  else .active

def resolveCompatibilityState (package : RegistryPackage) (release : RegistryRelease) : RegistryCompatibilityState :=
  let states := [package.compatibilityState, release.compatibilityState]
  if .blockedIncompatible ∈ states then .blockedIncompatible
  else if .requiresMigration ∈ states then .requiresMigration
  else .compatible

/-- The moderation states in which a package may not be distributed. -/
def RegistryModerationState.blocks : RegistryModerationState → Bool
  | .flaggedForReview => false
  | .distributionHold | .delisted | .globalBlock => true

def blockReasonCodes (request : RegistryEligibilityRequest) (package : RegistryPackage) (release : RegistryRelease)
    (metadataValidation : RegistryMetadataValidationResult) : List RegistryReasonCode :=
  (if package.trustTier = .unregisteredExternal then [.unregisteredExternal] else []) ++
  (if resolveDistributionStatus package release ≠ .active ∨ package.moderationState.any (·.blocks) = true then
    [.distributionBlocked] else []) ++
  (if resolveCompatibilityState package release = .blockedIncompatible then [.compatibilityBlocked] else []) ++
  (if request.principalOverrideRequested = true ∧ request.principalOverrideApproved = false then
    [.principalOverrideRequired] else []) ++
  metadataValidation.reasonCodes

def evaluateRegistryEligibility (request : RegistryEligibilityRequest) (package : RegistryPackage)
    (release : RegistryRelease) (metadataValidation : RegistryMetadataValidationResult) (checkedAt : IsoTime) :
    RegistryInstallEligibilitySnapshot where
  projectId := request.projectId
  packageId := package.packageId
  releaseId := release.releaseId
  packageVersion := release.packageVersion
  trustTier := package.trustTier
  distributionStatus := resolveDistributionStatus package release
  compatibilityState := resolveCompatibilityState package release
  metadataValid := metadataValidation.valid
  signerValid := metadataValidation.signerValid
  requiresPrincipalOverride := request.principalOverrideRequested && !request.principalOverrideApproved
  blockReasonCodes := (blockReasonCodes request package release metadataValidation).eraseDups
  evidenceRefs := package.evidenceRefs ++ release.evidenceRefs
  evaluatedAt := checkedAt

/-! ## When a code is reported -/

variable {request : RegistryEligibilityRequest} {package : RegistryPackage} {release : RegistryRelease}
  {metadataValidation : RegistryMetadataValidationResult} {checkedAt : IsoTime}

theorem resolveDistributionStatus_eq_active :
    resolveDistributionStatus package release = .active ↔
      package.distributionStatus = .active ∧ release.distributionStatus = .active := by
  unfold resolveDistributionStatus
  cases package.distributionStatus <;> cases release.distributionStatus <;> decide

theorem resolveCompatibilityState_eq_blocked :
    resolveCompatibilityState package release = .blockedIncompatible ↔
      package.compatibilityState = .blockedIncompatible ∨ release.compatibilityState = .blockedIncompatible := by
  unfold resolveCompatibilityState
  cases package.compatibilityState <;> cases release.compatibilityState <;> decide

theorem eraseDups_eq_nil {codes : List RegistryReasonCode} : codes.eraseDups = [] ↔ codes = [] := by
  rw [List.eq_nil_iff_forall_not_mem, List.eq_nil_iff_forall_not_mem]
  simp only [List.mem_eraseDups]

theorem distributionBlocked_mem (h : package.distributionStatus ≠ .active ∨ package.moderationState.any (·.blocks) = true) :
    .distributionBlocked ∈
      (evaluateRegistryEligibility request package release metadataValidation checkedAt).blockReasonCodes := by
  have hblocked : resolveDistributionStatus package release ≠ .active ∨ package.moderationState.any (·.blocks) = true :=
    h.imp_left fun hstatus hactive => hstatus (resolveDistributionStatus_eq_active.mp hactive).1
  unfold evaluateRegistryEligibility blockReasonCodes
  rw [List.mem_eraseDups, if_pos hblocked]
  simp

theorem blockReasonCodes_eq_nil :
    (evaluateRegistryEligibility request package release metadataValidation checkedAt).blockReasonCodes = [] ↔
      package.trustTier ≠ .unregisteredExternal ∧
      (package.distributionStatus = .active ∧ release.distributionStatus = .active) ∧
      package.moderationState.any (·.blocks) = false ∧
      ¬(package.compatibilityState = .blockedIncompatible ∨ release.compatibilityState = .blockedIncompatible) ∧
      ¬(request.principalOverrideRequested = true ∧ request.principalOverrideApproved = false) ∧
      metadataValidation.reasonCodes = [] := by
  have hite : ∀ (c : Prop) [Decidable c] (a : RegistryReasonCode), (if c then [a] else []) = [] ↔ ¬c := by
    intro c _ a
    split_ifs with h <;> simp [h]
  unfold evaluateRegistryEligibility
  rw [eraseDups_eq_nil]
  unfold blockReasonCodes
  simp only [List.append_eq_nil_iff, hite, ← resolveDistributionStatus_eq_active,
    ← resolveCompatibilityState_eq_blocked, not_or, not_not, Bool.not_eq_true, and_assoc]

/-- A chain with a root key of its own is blocked when it has expired, or is not that of the artifact. -/
theorem ownValidation_eq_nil {chain : SignedMetadataChain} {sourceHash : String} {checkedAt : IsoTime} :
    (validateRegistryMetadataChain (ownValidationInput chain sourceHash checkedAt)).reasonCodes = [] ↔
      checkedAt.instant < chain.metadataExpiresAt.instant ∧ chain.artifactDigest = sourceHash ∧
        chain.trustedRootKeyIds ≠ [] := by
  have hroot : chain.trustedRootKeyIds.any (· ∈ chain.trustedRootKeyIds) = true ↔ chain.trustedRootKeyIds ≠ [] := by
    cases chain.trustedRootKeyIds <;> simp
  unfold validateRegistryMetadataChain
  rw [eraseDups_eq_nil]
  unfold metadataReasonCodes ownValidationInput
  by_cases hkeys : chain.trustedRootKeyIds ≠ []
  · simp [hroot.mpr hkeys, hkeys]
  · have hany : chain.trustedRootKeyIds.any (· ∈ chain.trustedRootKeyIds) = false := by
      rw [Bool.eq_false_iff, Ne, hroot]
      exact hkeys
    simp [hany, hkeys]

end NousCore.Registry

namespace NousCore.Registry

/-! ## The registry service -/

open Async

abbrev RegistryM (α : Type) := Async RegistryOp.Answer RegistryError α

def now : RegistryM IsoTime := perform RegistryOp.now

def nextId : RegistryM String := do
  let id ← perform RegistryOp.nextId
  pure id.val

def orFail {α : Type} (outcome : Except String α) : RegistryM α := unwrap (outcome.mapError .failed)

def recordWitness (actionRef : String) (succeeded : Bool) : RegistryM String := do
  let outcome ← perform (RegistryOp.recordWitness actionRef succeeded)
  Subtype.val <$> orFail outcome

/-! ## Releases -/

def newMaintainer (maintainerId : String) (signerKeyIds : List String) (timestamp : IsoTime) : MaintainerIdentity where
  maintainerId := maintainerId
  verificationState := .unverified
  signerKeyIds := signerKeyIds
  evidenceRefs := []
  verifiedAt := none
  updatedAt := timestamp

def ensureMaintainer (signingKeyId : String) (timestamp : IsoTime) (maintainerId : String) :
    RegistryM MaintainerIdentity := do
  match ← perform (RegistryOp.getMaintainer maintainerId) with
  | some existing => pure existing
  | none =>
    let created := newMaintainer maintainerId [signingKeyId] timestamp
    perform (RegistryOp.saveMaintainer created)
    pure created

def ensureMaintainers (signingKeyId : String) (timestamp : IsoTime) :
    List String → RegistryM (List MaintainerIdentity)
  | [] => pure []
  | maintainerId :: maintainerIds => do
    let maintainer ← ensureMaintainer signingKeyId timestamp maintainerId
    let maintainers ← ensureMaintainers signingKeyId timestamp maintainerIds
    pure (maintainer :: maintainers)

section

variable (input : RegistryReleaseSubmissionInput)

def resolveTrustTier (maintainers : List MaintainerIdentity) :
    RegistryTrustTier :=
  if input.originClass = .nousFirstParty then .nousFirstParty
  else if input.registered = false then .unregisteredExternal
  else if maintainers.any (·.verificationState ≠ .unverified) then .verifiedMaintainer
  else .communityUnverified

def submittedCompatibilityState : RegistryCompatibilityState :=
  if input.dataSchemaVersions.length > 1 then .requiresMigration else .compatible

def normalizeDistributionStatus (accepted : Bool) : RegistryDistributionStatus := if accepted then .active else .blocked

/-- The records that a submission makes, before they are evaluated. -/
structure Submission where
  package : RegistryPackage
  release : RegistryRelease
  metadataValidation : RegistryMetadataValidationResult
  eligibility : RegistryInstallEligibilitySnapshot

def initiallyAccepted (trustTier : RegistryTrustTier) (compatibilityState : RegistryCompatibilityState)
    (metadataValidation : RegistryMetadataValidationResult) : Bool :=
  metadataValidation.valid && trustTier ≠ .unregisteredExternal && compatibilityState ≠ .blockedIncompatible

def makeSubmission (timestamp : IsoTime) (releaseId : String)
    (trustTier : RegistryTrustTier) (witnessRef : String) : Submission :=
  let compatibilityState := submittedCompatibilityState input
  let metadataValidation := validateRegistryMetadataChain (ownValidationInput input.metadataChain input.sourceHash timestamp)
  let distributionStatus := normalizeDistributionStatus (initiallyAccepted trustTier compatibilityState metadataValidation)
  let package : RegistryPackage :=
    { packageId := input.packageId
      latestReleaseId := some releaseId
      trustTier := trustTier
      distributionStatus := distributionStatus
      compatibilityState := compatibilityState
      maintainerIds := input.maintainerIds
      moderationState := none
      evidenceRefs := [s!"witness:{witnessRef}"]
      createdAt := timestamp
      updatedAt := timestamp }
  let release : RegistryRelease :=
    { releaseId := releaseId
      packageId := input.packageId
      packageVersion := input.packageVersion
      originClass := input.originClass
      signingKeyId := input.signingKeyId
      sourceHash := input.sourceHash
      dataSchemaVersions := input.dataSchemaVersions
      metadataChain := input.metadataChain
      distributionStatus := distributionStatus
      compatibilityState := compatibilityState
      evidenceRefs := [s!"witness:{witnessRef}"]
      publishedAt := timestamp }
  let request : RegistryEligibilityRequest :=
    { projectId := input.projectId
      packageId := input.packageId
      releaseId := releaseId
      principalOverrideRequested := false
      principalOverrideApproved := false
      evaluatedAt := some timestamp }
  { package := package
    release := release
    metadataValidation := metadataValidation
    eligibility := evaluateRegistryEligibility request package release metadataValidation timestamp }

def Submission.accepted (submission : Submission) : Bool := submission.eligibility.blockReasonCodes.isEmpty

def Submission.finalPackage (submission : Submission) (timestamp : IsoTime) : RegistryPackage :=
  if submission.accepted then submission.package
  else { submission.package with distributionStatus := .blocked, updatedAt := timestamp }

def Submission.finalRelease (submission : Submission) : RegistryRelease :=
  if submission.accepted then submission.release else { submission.release with distributionStatus := .blocked }

def shouldEscalate (reasonCodes : List RegistryReasonCode) : Bool :=
  reasonCodes.any fun code => code.text = "MKT-002-UNREGISTERED_EXTERNAL" || "MKT-008-".toList.isPrefixOf code.text.toList

def escalate (reasonCodes : List RegistryReasonCode) :
    RegistryM (Option String) :=
  if input.projectId.isSome && shouldEscalate reasonCodes then do
    let outcome ← perform (RegistryOp.notify
      s!"Registry release {input.packageId}@{input.packageVersion} was blocked"
      (",".intercalate (reasonCodes.map (·.text))))
    orFail outcome
  else pure none

def timestampOf (given : Option IsoTime) : RegistryM IsoTime :=
  match given with
  | some timestamp => pure timestamp
  | none => now

def escalationRefs (escalationId : Option String) : List String := escalationId.toList.map fun id => s!"escalation:{id}"

def submitRelease : RegistryM RegistryReleaseSubmissionResult := do
  let parsed ← unwrap input.parse
  let timestamp ← timestampOf parsed.publishedAt
  let releaseId ← nextId
  let maintainers ← ensureMaintainers parsed.signingKeyId timestamp parsed.maintainerIds
  let trustTier := resolveTrustTier parsed maintainers
  let succeeded := initiallyAccepted trustTier (submittedCompatibilityState parsed)
    (validateRegistryMetadataChain (ownValidationInput parsed.metadataChain parsed.sourceHash timestamp))
  let witnessRef ← recordWitness s!"registry-release:{parsed.packageId}:{parsed.packageVersion}" succeeded
  let submission := makeSubmission parsed timestamp releaseId trustTier witnessRef
  perform (RegistryOp.savePackage (submission.finalPackage timestamp))
  perform (RegistryOp.saveRelease submission.finalRelease)
  let escalationId ← escalate parsed submission.eligibility.blockReasonCodes
  pure
    { accepted := submission.accepted
      package := submission.finalPackage timestamp
      release := submission.finalRelease
      metadataValidation := submission.metadataValidation
      eligibility := { submission.eligibility with
        distributionStatus := if submission.accepted then submission.eligibility.distributionStatus else .blocked
        evidenceRefs := submission.eligibility.evidenceRefs ++ escalationRefs escalationId }
      witnessRef := witnessRef
      evidenceRefs := s!"witness:{witnessRef}" :: escalationRefs escalationId
      escalationId := escalationId }

end

/-! ## Eligibility -/

/-- The answer where the package or the release is not in the registry. -/
def unknownEligibility (request : RegistryEligibilityRequest) (evaluatedAt : IsoTime) :
    RegistryInstallEligibilitySnapshot where
  projectId := request.projectId
  packageId := request.packageId
  releaseId := request.releaseId
  packageVersion := "unknown"
  trustTier := .communityUnverified
  distributionStatus := .blocked
  compatibilityState := .blockedIncompatible
  metadataValid := false
  signerValid := false
  requiresPrincipalOverride := request.principalOverrideRequested && !request.principalOverrideApproved
  blockReasonCodes := [.distributionBlocked]
  evidenceRefs := []
  evaluatedAt := evaluatedAt

def evaluateRecords (parsed : RegistryEligibilityRequest) :
    Option RegistryPackage → Option RegistryRelease → RegistryM RegistryInstallEligibilitySnapshot
  | some package, some release => do
    let checkedAt ← timestampOf parsed.evaluatedAt
    let metadataValidation :=
      validateRegistryMetadataChain (ownValidationInput release.metadataChain release.sourceHash checkedAt)
    let evaluatedAt ← timestampOf parsed.evaluatedAt
    pure (evaluateRegistryEligibility parsed package release metadataValidation evaluatedAt)
  | _, _ => do
    let evaluatedAt ← timestampOf parsed.evaluatedAt
    pure (unknownEligibility parsed evaluatedAt)

def evaluateInstallEligibility (request : RegistryEligibilityRequest) :
    RegistryM RegistryInstallEligibilitySnapshot := do
  let parsed ← unwrap request.parse
  let package ← perform (RegistryOp.getPackage parsed.packageId)
  let release ← perform (RegistryOp.getRelease parsed.releaseId)
  evaluateRecords parsed package release

/-! ## Governance -/

def assertGovernanceAuthority (input : RegistryGovernanceActionInput) : Except RegistryError Unit :=
  if input.actionType = .approveBreakGlassOverride ∨ input.actionType = .changeTrustRoot then
    if input.actorId ≠ "principal" then .error (.failed s!"{input.actionType.text} requires principal actor")
    else if input.approvalEvidenceRef.isNone then .error (.failed s!"{input.actionType.text} requires approval evidence")
    else .ok ()
  else .ok ()

def nextDistribution (action : RegistryGovernanceActionInput) (status : RegistryDistributionStatus) :
    RegistryDistributionStatus :=
  action.targetDistributionStatus.getD (if action.actionType = .changeDistributionStatus then .blocked else status)

def nextModeration (action : RegistryGovernanceActionInput) (state : Option RegistryModerationState) :
    Option RegistryModerationState :=
  action.targetModerationState.or
    (if action.actionType = .applyModerationAction then some .distributionHold else state)

section

variable (action : RegistryGovernanceAction)

section

variable (timestamp : IsoTime)

def governedPackage (existing : RegistryPackage) :
    RegistryPackage :=
  { existing with
    distributionStatus := nextDistribution action.toRegistryGovernanceActionInput existing.distributionStatus
    moderationState := nextModeration action.toRegistryGovernanceActionInput existing.moderationState
    evidenceRefs := existing.evidenceRefs ++ [action.witnessRef]
    updatedAt := timestamp }

def governedMaintainer (base : MaintainerIdentity) :
    MaintainerIdentity :=
  let verificationState := action.targetVerificationState.getD
    (if action.actionType = .verifyMaintainer then .verifiedIndividual else base.verificationState)
  { base with
    verificationState := verificationState
    signerKeyIds :=
      match action.targetSigningKeyId with
      | some keyId => (base.signerKeyIds ++ [keyId]).eraseDups
      | none => base.signerKeyIds
    verifiedAt := if verificationState = .unverified then base.verifiedAt else some timestamp
    evidenceRefs := base.evidenceRefs ++ [action.witnessRef]
    updatedAt := timestamp }

def mutatePackage : RegistryM Unit :=
  match action.packageId with
  | none => pure ()
  | some packageId => do
    match ← perform (RegistryOp.getPackage packageId) with
    | none => pure ()
    | some existing => perform (RegistryOp.savePackage (governedPackage action timestamp existing))

def mutateRelease : RegistryM Unit :=
  match action.releaseId with
  | none => pure ()
  | some releaseId => do
    match ← perform (RegistryOp.getRelease releaseId), action.targetDistributionStatus with
    | some existing, some status =>
      perform (RegistryOp.saveRelease { existing with
        distributionStatus := status
        evidenceRefs := existing.evidenceRefs ++ [action.witnessRef] })
    | _, _ => pure ()

def mutateMaintainer : RegistryM Unit :=
  match action.maintainerId with
  | none => pure ()
  | some maintainerId => do
    let existing ← perform (RegistryOp.getMaintainer maintainerId)
    perform (RegistryOp.saveMaintainer
      (governedMaintainer action timestamp (existing.getD (newMaintainer maintainerId [] timestamp))))

def applyGovernanceMutation : RegistryM Unit := do
  mutatePackage action timestamp
  mutateRelease action
  mutateMaintainer action timestamp

end

end

def applyGovernanceAction (input : RegistryGovernanceActionInput) : RegistryM RegistryGovernanceAction := do
  let parsed ← unwrap input.parse
  unwrap (assertGovernanceAuthority parsed)
  let timestamp ← now
  let actionId ← nextId
  let witnessRef ← recordWitness s!"registry-governance:{parsed.actionType.text}:{actionId}" true
  let action : RegistryGovernanceAction :=
    { parsed with
      actionId := actionId
      witnessRef := witnessRef
      evidenceRefs := (parsed.evidenceRefs ++ [s!"witness:{witnessRef}"]).eraseDups
      createdAt := timestamp }
  perform (RegistryOp.saveGovernanceAction action)
  applyGovernanceMutation action timestamp
  pure action

/-! ## Appeals -/

def submitAppeal (input : RegistryAppealSubmissionInput) : RegistryM RegistryAppealRecord := do
  let parsed ← unwrap input.parse
  let timestamp ← now
  let witnessRef ← recordWitness s!"registry-appeal:{parsed.packageId}:{parsed.maintainerId}" true
  let appealId ← nextId
  let appeal : RegistryAppealRecord :=
    { appealId := appealId
      packageId := parsed.packageId
      releaseId := parsed.releaseId
      maintainerId := parsed.maintainerId
      submittedReason := parsed.submittedReason
      submittedEvidenceRefs := parsed.submittedEvidenceRefs ++ [s!"witness:{witnessRef}"]
      status := .submitted
      resolutionActionId := none
      createdAt := timestamp
      updatedAt := timestamp }
  perform (RegistryOp.saveAppeal appeal)
  pure appeal

def resolutionAction (existing : RegistryAppealRecord) (input : RegistryAppealResolutionInput) :
    RegistryGovernanceActionInput where
  actionType := .resolveAppeal
  packageId := some existing.packageId
  releaseId := existing.releaseId
  maintainerId := some existing.maintainerId
  actorId := input.actorId
  reasonCode := input.reasonCode
  targetDistributionStatus := none
  targetModerationState := none
  targetVerificationState := none
  targetSigningKeyId := none
  approvalEvidenceRef := input.approvalEvidenceRef
  evidenceRefs := input.resolutionEvidenceRefs

def resolveAppeal (input : RegistryAppealResolutionInput) : RegistryM RegistryAppealRecord := do
  let parsed ← unwrap input.parse
  match ← perform (RegistryOp.getAppeal parsed.appealId) with
  | none => .throw (.failed s!"Appeal not found: {parsed.appealId}")
  | some existing =>
    let action ← applyGovernanceAction (resolutionAction existing parsed)
    let updatedAt ← now
    let updated : RegistryAppealRecord :=
      { existing with
        status := match parsed.resolution with
          | .reinstate => .resolvedReinstated
          | .uphold => .resolvedUpheld
        resolutionActionId := some action.actionId
        updatedAt := updatedAt }
    perform (RegistryOp.saveAppeal updated)
    pure updated

/-! ## Calls -/

inductive RegistryCall where
  | submitRelease (input : RegistryReleaseSubmissionInput)
  | evaluateInstallEligibility (request : RegistryEligibilityRequest)
  | applyGovernanceAction (input : RegistryGovernanceActionInput)
  | submitAppeal (input : RegistryAppealSubmissionInput)
  | resolveAppeal (input : RegistryAppealResolutionInput)

inductive RegistryResult where
  | submitted (result : RegistryReleaseSubmissionResult)
  | evaluated (snapshot : RegistryInstallEligibilitySnapshot)
  | governed (action : RegistryGovernanceAction)
  | appealed (appeal : RegistryAppealRecord)

def RegistryCall.run : RegistryCall → RegistryM RegistryResult
  | .submitRelease input => .submitted <$> Registry.submitRelease input
  | .evaluateInstallEligibility request => .evaluated <$> Registry.evaluateInstallEligibility request
  | .applyGovernanceAction input => .governed <$> Registry.applyGovernanceAction input
  | .submitAppeal input => .appealed <$> Registry.submitAppeal input
  | .resolveAppeal input => .appealed <$> Registry.resolveAppeal input

end NousCore.Registry
