import NousCore.Lib.Async
import NousCore.Lib.Collection
import NousCore.Lib.Calendar
import NousCore.Lib.Json

/-!
# Packages, releases and governance

* `RegistryPackage`, `RegistryRelease`, `MaintainerIdentity`, `RegistryGovernanceAction`, `RegistryAppealRecord` : what
  the registry keeps;
* `RegistryReleaseSubmissionInput`, `RegistryGovernanceActionInput`, … : what its calls take, and `parse` what the
  schemas check of it;
* `RegistryOp`, `RegistryState`, `registryAnswers` : the clock, the ids, the services and the collections.
-/

namespace NousCore.Registry

inductive RegistryTrustTier where
  | nousFirstParty
  | verifiedMaintainer
  | communityUnverified
  | unregisteredExternal
  deriving DecidableEq

inductive RegistryDistributionStatus where
  | active
  | hold
  | delisted
  | blocked
  deriving DecidableEq

inductive RegistryCompatibilityState where
  | compatible
  | requiresMigration
  | blockedIncompatible
  deriving DecidableEq

inductive RegistryModerationState where
  | flaggedForReview
  | distributionHold
  | delisted
  | globalBlock

inductive MaintainerVerificationState where
  | unverified
  | verifiedIndividual
  | verifiedOrg
  deriving DecidableEq

inductive OriginClass where
  | nousFirstParty
  | thirdPartyExternal
  | selfCreatedLocal
  deriving DecidableEq

inductive RegistryReasonCode where
  | unregisteredExternal
  | principalOverrideRequired
  | distributionBlocked
  | compatibilityBlocked
  | metadataExpired
  | metadataDowngraded
  | metadataReplayed
  | metadataDigestMismatch
  | signerUnknown
  | signerRevoked
  deriving DecidableEq

def RegistryReasonCode.text : RegistryReasonCode → String
  | .unregisteredExternal => "MKT-002-UNREGISTERED_EXTERNAL"
  | .principalOverrideRequired => "MKT-004-PRINCIPAL_OVERRIDE_REQUIRED"
  | .distributionBlocked => "MKT-006-DISTRIBUTION_BLOCKED"
  | .compatibilityBlocked => "MKT-007-COMPATIBILITY_BLOCKED"
  | .metadataExpired => "MKT-008-METADATA_EXPIRED"
  | .metadataDowngraded => "MKT-008-METADATA_DOWNGRADED"
  | .metadataReplayed => "MKT-008-METADATA_REPLAYED"
  | .metadataDigestMismatch => "MKT-008-METADATA_DIGEST_MISMATCH"
  | .signerUnknown => "MKT-008-SIGNER_UNKNOWN"
  | .signerRevoked => "MKT-008-SIGNER_REVOKED"

structure SignedMetadataChain where
  rootVersion : Nat
  timestampVersion : Nat
  snapshotVersion : Nat
  targetsVersion : Nat
  trustedRootKeyIds : List String
  metadataExpiresAt : IsoTime
  artifactDigest : String
  deriving DecidableEq

structure RegistryPackage where
  packageId : String
  latestReleaseId : Option String
  trustTier : RegistryTrustTier
  distributionStatus : RegistryDistributionStatus
  compatibilityState : RegistryCompatibilityState
  maintainerIds : List String
  moderationState : Option RegistryModerationState
  evidenceRefs : List String
  createdAt : IsoTime
  updatedAt : IsoTime

structure RegistryRelease where
  releaseId : String
  packageId : String
  packageVersion : String
  originClass : OriginClass
  signingKeyId : String
  sourceHash : String
  dataSchemaVersions : List String
  metadataChain : SignedMetadataChain
  distributionStatus : RegistryDistributionStatus
  compatibilityState : RegistryCompatibilityState
  evidenceRefs : List String
  publishedAt : IsoTime

structure MaintainerIdentity where
  maintainerId : String
  verificationState : MaintainerVerificationState
  signerKeyIds : List String
  evidenceRefs : List String
  verifiedAt : Option IsoTime
  updatedAt : IsoTime

inductive RegistryGovernanceActionType where
  | applyModerationAction
  | changeDistributionStatus
  | requestBreakGlassOverride
  | approveBreakGlassOverride
  | denyBreakGlassOverride
  | changeTrustRoot
  | verifyMaintainer
  | rotateSigningKey
  | transferOwnership
  | resolveAppeal
  deriving DecidableEq

def RegistryGovernanceActionType.text : RegistryGovernanceActionType → String
  | .applyModerationAction => "apply_moderation_action"
  | .changeDistributionStatus => "change_distribution_status"
  | .requestBreakGlassOverride => "request_break_glass_override"
  | .approveBreakGlassOverride => "approve_break_glass_override"
  | .denyBreakGlassOverride => "deny_break_glass_override"
  | .changeTrustRoot => "change_trust_root"
  | .verifyMaintainer => "verify_maintainer"
  | .rotateSigningKey => "rotate_signing_key"
  | .transferOwnership => "transfer_ownership"
  | .resolveAppeal => "resolve_appeal"

structure RegistryGovernanceActionInput where
  actionType : RegistryGovernanceActionType
  packageId : Option String
  releaseId : Option String
  maintainerId : Option String
  actorId : String
  reasonCode : String
  targetDistributionStatus : Option RegistryDistributionStatus
  targetModerationState : Option RegistryModerationState
  targetVerificationState : Option MaintainerVerificationState
  targetSigningKeyId : Option String
  approvalEvidenceRef : Option String
  evidenceRefs : List String

structure RegistryGovernanceAction extends RegistryGovernanceActionInput where
  actionId : String
  witnessRef : String
  createdAt : IsoTime

inductive RegistryAppealStatus where
  | submitted
  | underReview
  | resolvedUpheld
  | resolvedReinstated

structure RegistryAppealRecord where
  appealId : String
  packageId : String
  releaseId : Option String
  maintainerId : String
  submittedReason : String
  submittedEvidenceRefs : List String
  status : RegistryAppealStatus
  resolutionActionId : Option String
  createdAt : IsoTime
  updatedAt : IsoTime

structure RegistryMetadataValidationResult where
  valid : Bool
  signerValid : Bool
  fresh : Bool
  reasonCodes : List RegistryReasonCode
  checkedAt : IsoTime

structure RegistryEligibilityRequest where
  projectId : Option String
  packageId : String
  releaseId : String
  principalOverrideRequested : Bool
  principalOverrideApproved : Bool
  evaluatedAt : Option IsoTime

structure RegistryInstallEligibilitySnapshot where
  projectId : Option String
  packageId : String
  releaseId : String
  packageVersion : String
  trustTier : RegistryTrustTier
  distributionStatus : RegistryDistributionStatus
  compatibilityState : RegistryCompatibilityState
  metadataValid : Bool
  signerValid : Bool
  requiresPrincipalOverride : Bool
  blockReasonCodes : List RegistryReasonCode
  evidenceRefs : List String
  evaluatedAt : IsoTime

structure RegistryReleaseSubmissionInput where
  projectId : Option String
  packageId : String
  packageVersion : String
  originClass : OriginClass
  registered : Bool
  signingKeyId : String
  sourceHash : String
  dataSchemaVersions : List String
  metadataChain : SignedMetadataChain
  maintainerIds : List String
  publishedAt : Option IsoTime
  deriving DecidableEq

structure RegistryReleaseSubmissionResult where
  accepted : Bool
  package : RegistryPackage
  release : RegistryRelease
  metadataValidation : RegistryMetadataValidationResult
  eligibility : RegistryInstallEligibilitySnapshot
  witnessRef : String
  evidenceRefs : List String
  escalationId : Option String

structure RegistryAppealSubmissionInput where
  packageId : String
  releaseId : Option String
  maintainerId : String
  submittedReason : String
  submittedEvidenceRefs : List String

inductive AppealResolution where
  | uphold
  | reinstate

structure RegistryAppealResolutionInput where
  appealId : String
  actorId : String
  resolution : AppealResolution
  reasonCode : String
  approvalEvidenceRef : Option String
  resolutionEvidenceRefs : List String

/-! ## Schemas -/

inductive RegistryError where
  | invalid (paths : List String)
  | failed (message : String)
  deriving DecidableEq

/-- A record whose texts must not be empty. -/
def parseTexts {α : Type} (fields : List (String × String)) (record : α) : Except RegistryError α :=
  if emptyFields fields = [] then .ok record else .error (.invalid (emptyFields fields))

theorem parseTexts_eq {α : Type} {fields : List (String × String)} {record parsed : α}
    (h : parseTexts fields record = .ok parsed) : parsed = record := by
  unfold parseTexts at h
  split_ifs at h
  exact (Except.ok.inj h).symm

def SignedMetadataChain.texts (chain : SignedMetadataChain) : List (String × String) :=
  nonempty "metadata_chain.trusted_root_key_ids" chain.trustedRootKeyIds ++
    required "metadata_chain.artifact_digest" chain.artifactDigest

def RegistryReleaseSubmissionInput.parse (input : RegistryReleaseSubmissionInput) :
    Except RegistryError RegistryReleaseSubmissionInput :=
  parseTexts (required "package_id" input.packageId ++ required "package_version" input.packageVersion ++
    required "signing_key_id" input.signingKeyId ++ required "source_hash" input.sourceHash ++
    nonempty "compatibility.data_schema_versions" input.dataSchemaVersions ++ input.metadataChain.texts ++
    nonempty "maintainer_ids" input.maintainerIds) input

def RegistryEligibilityRequest.parse (request : RegistryEligibilityRequest) :
    Except RegistryError RegistryEligibilityRequest :=
  parseTexts (required "package_id" request.packageId ++ required "release_id" request.releaseId) request

def RegistryGovernanceActionInput.parse (input : RegistryGovernanceActionInput) :
    Except RegistryError RegistryGovernanceActionInput :=
  parseTexts (optional "package_id" input.packageId ++ optional "release_id" input.releaseId ++
    optional "maintainer_id" input.maintainerId ++ required "actor_id" input.actorId ++
    required "reason_code" input.reasonCode ++ optional "target_signing_key_id" input.targetSigningKeyId ++
    optional "approval_evidence_ref" input.approvalEvidenceRef ++ each "evidence_refs" input.evidenceRefs) input

def RegistryAppealSubmissionInput.parse (input : RegistryAppealSubmissionInput) :
    Except RegistryError RegistryAppealSubmissionInput :=
  parseTexts (required "package_id" input.packageId ++ optional "release_id" input.releaseId ++
    required "maintainer_id" input.maintainerId ++ required "submitted_reason" input.submittedReason ++
    nonempty "submitted_evidence_refs" input.submittedEvidenceRefs) input

def RegistryAppealResolutionInput.parse (input : RegistryAppealResolutionInput) :
    Except RegistryError RegistryAppealResolutionInput :=
  parseTexts (required "appeal_id" input.appealId ++ required "actor_id" input.actorId ++
    required "reason_code" input.reasonCode ++ optional "approval_evidence_ref" input.approvalEvidenceRef ++
    nonempty "resolution_evidence_refs" input.resolutionEvidenceRefs) input

/-! ## Stores -/

structure RegistryState where
  packages : Collection RegistryPackage.packageId
  releases : Collection RegistryRelease.releaseId
  maintainers : Collection MaintainerIdentity.maintainerId
  actions : Collection RegistryGovernanceAction.actionId
  appeals : Collection RegistryAppealRecord.appealId

def RegistryState.empty : RegistryState := ⟨.empty, .empty, .empty, .empty, .empty⟩

inductive RegistryOp where
  | now
  | nextId
  | recordWitness (actionRef : String) (succeeded : Bool)
  | notify (context triggerReason : String)
  | getPackage (packageId : String)
  | savePackage (record : RegistryPackage)
  | getRelease (releaseId : String)
  | saveRelease (record : RegistryRelease)
  | getMaintainer (maintainerId : String)
  | saveMaintainer (record : MaintainerIdentity)
  | saveGovernanceAction (record : RegistryGovernanceAction)
  | getAppeal (appealId : String)
  | saveAppeal (record : RegistryAppealRecord)

@[reducible] def RegistryOp.Answer : RegistryOp → Type
  | .now => IsoTime
  | .nextId => NonemptyText
  | .recordWitness _ _ => Except String NonemptyText
  | .notify _ _ => Except String (Option String)
  | .getPackage _ => Option RegistryPackage
  | .getRelease _ => Option RegistryRelease
  | .getMaintainer _ => Option MaintainerIdentity
  | .getAppeal _ => Option RegistryAppealRecord
  | .savePackage _ | .saveRelease _ | .saveMaintainer _ | .saveGovernanceAction _ | .saveAppeal _ => Unit

/-- What the clock, the ids, and the witness and escalation services answer. -/
structure RegistryEnv where
  now : IsoTime
  id : NonemptyText
  witness : Except String NonemptyText
  escalation : Except String (Option String)

def registryAnswers : Answers RegistryOp.Answer RegistryEnv RegistryState
  | .now, env, s => some (env.now, s)
  | .nextId, env, s => some (env.id, s)
  | .recordWitness _ _, env, s => some (env.witness, s)
  | .notify _ _, env, s => some (env.escalation, s)
  | .getPackage packageId, _, s => some (s.packages.find? packageId, s)
  | .savePackage record, _, s => some ((), { s with packages := s.packages.put record })
  | .getRelease releaseId, _, s => some (s.releases.find? releaseId, s)
  | .saveRelease record, _, s => some ((), { s with releases := s.releases.put record })
  | .getMaintainer maintainerId, _, s => some (s.maintainers.find? maintainerId, s)
  | .saveMaintainer record, _, s => some ((), { s with maintainers := s.maintainers.put record })
  | .saveGovernanceAction record, _, s => some ((), { s with actions := s.actions.put record })
  | .getAppeal appealId, _, s => some (s.appeals.find? appealId, s)
  | .saveAppeal record, _, s => some ((), { s with appeals := s.appeals.put record })

end NousCore.Registry
