import NousCore.Packages.Types

/-!
# The package lifecycle

* `isTransitionAllowed`, `evaluateTransitionGuards` : the transition matrix and the guards;
* `executeTransition`, `emitResult` : one request to the orchestrator, with the stores as it finds them when it reads,
  decides and writes;
* `resolver` : what each method decides, `handle` : a request to a method.
-/

namespace NousCore.Packages

/-! ## The vocabulary -/

/-- `z.string().min(1)`, for versions, references and project ids. -/
abbrev Text := PackageId

inductive OriginClass where
  | nousFirstParty | thirdPartyExternal | selfCreatedLocal
  deriving DecidableEq

def OriginClass.text : OriginClass → List Char
  | nousFirstParty => "nous_first_party".toList
  | thirdPartyExternal => "third_party_external".toList
  | selfCreatedLocal => "self_created_local".toList

inductive PackageLifecycleState where
  | ingested | installed | enabled | running | updateStaged | updateCommitted | rolledBack | quarantined
  | importVerified | removed | disabled
  deriving DecidableEq

abbrev PackageLifecycleSourceState := Option PackageLifecycleState

/-- The transitions, which are also the methods of the orchestrator. -/
inductive PackageLifecycleTransition where
  | ingest | install | enable | run | stageUpdate | commitUpdate | rollbackUpdate | exportPackage | importPackage
  | removePackage | disable
  deriving DecidableEq

/-- `/^MKT-00[1-9]-[A-Z0-9][A-Z0-9_-]*$/`. -/
def isRegistryReasonCode : List Char → Bool
  | 'M' :: 'K' :: 'T' :: '-' :: '0' :: '0' :: digit :: '-' :: first :: rest =>
    let upper := fun c : Char => ('A' ≤ c ∧ c ≤ 'Z') ∨ ('0' ≤ c ∧ c ≤ '9')
    decide ('1' ≤ digit ∧ digit ≤ '9') && decide (upper first) &&
      rest.all fun c => decide (upper c) || c == '_' || c == '-'
  | _ => false

abbrev RegistryReasonCode := { text : List Char // isRegistryReasonCode text = true }

/-- The reason codes that the orchestrator gives, and those that it takes from an eligibility snapshot. -/
inductive PackageLifecycleReasonCode where
  | unsigned | revokedSigner | capExpansionPending | apiRangeMismatch | policyIncompatible | migrationFailed
  | updateStageCheckFailed | rollbackTrustCheckFailed | missingWitnessRef | removeRetentionDecisionRequired
  | invalidTransition | execAttemptInDraft | importVerificationPending | credentialPurgeFailed
  | principalOverrideRequired | compatibilityBlocked | metadataDigestMismatch
  | registry (code : RegistryReasonCode)
  deriving DecidableEq

def PackageLifecycleReasonCode.text : PackageLifecycleReasonCode → List Char
  | unsigned => "PKG-001-UNSIGNED".toList
  | revokedSigner => "PKG-001-REVOKED_SIGNER".toList
  | capExpansionPending => "PKG-002-CAP_EXPANSION_PENDING".toList
  | apiRangeMismatch => "PKG-003-API_RANGE_MISMATCH".toList
  | policyIncompatible => "PKG-003-POLICY_INCOMPATIBLE".toList
  | migrationFailed => "PKG-004-MIGRATION_FAILED".toList
  | updateStageCheckFailed => "PKG-004-UPDATE_STAGE_CHECK_FAILED".toList
  | rollbackTrustCheckFailed => "PKG-004-ROLLBACK_TRUST_CHECK_FAILED".toList
  | missingWitnessRef => "PKG-005-MISSING_WITNESS_REF".toList
  | removeRetentionDecisionRequired => "PKG-005-REMOVE_RETENTION_DECISION_REQUIRED".toList
  | invalidTransition => "PKG-005-INVALID_TRANSITION".toList
  | execAttemptInDraft => "PKG-006-EXEC_ATTEMPT_IN_DRAFT".toList
  | importVerificationPending => "PKG-008-IMPORT_VERIFICATION_PENDING".toList
  | credentialPurgeFailed => "PKG-010-CREDENTIAL_PURGE_FAILED".toList
  | principalOverrideRequired => "MKT-004-PRINCIPAL_OVERRIDE_REQUIRED".toList
  | compatibilityBlocked => "MKT-007-COMPATIBILITY_BLOCKED".toList
  | metadataDigestMismatch => "MKT-008-METADATA_DIGEST_MISMATCH".toList
  | registry code => code.val

/-! ## Requests -/

structure PackageLifecycleAdmissionInput where
  signatureValid : Bool
  signerKnown : Bool
  policyCompatible : Bool := true
  isDraftUnsigned : Bool := false
  isImported : Bool := false
  reverificationComplete : Bool := true
  reapprovalComplete : Bool := true

structure PackageLifecycleCompatibilityInput where
  apiCompatible : Bool := true

structure PackageLifecycleCapabilityInput where
  expansionRequested : Bool := false
  reapprovalGranted : Bool := false

inductive RegistryCompatibilityState where
  | compatible | requiresMigration | blockedIncompatible
  deriving DecidableEq

structure RegistryInstallEligibilitySnapshot where
  compatibilityState : RegistryCompatibilityState
  metadataValid : Bool
  requiresPrincipalOverride : Bool := false
  blockReasonCodes : List RegistryReasonCode := []

structure PackageLifecycleUpdateChecks where
  migrationPassed : Bool := true
  healthPassed : Bool := true
  invariantsPassed : Bool := true

structure PackageLifecycleRollbackInput where
  trustChecksPassed : Bool := true

inductive PackageLifecycleRetentionDecision where
  | exportThenRemove | deleteConfirmed

structure PackageLifecycleTransitionRequest where
  projectId : Text
  packageId : PackageId
  packageVersion : Text
  originClass : OriginClass
  targetTransition : PackageLifecycleTransition
  targetVersion : Option Text := none
  retentionDecision : Option PackageLifecycleRetentionDecision := none
  admission : Option PackageLifecycleAdmissionInput := none
  compatibility : Option PackageLifecycleCompatibilityInput := none
  capability : Option PackageLifecycleCapabilityInput := none
  registryEligibility : Option RegistryInstallEligibilitySnapshot := none
  updateChecks : Option PackageLifecycleUpdateChecks := none
  rollback : Option PackageLifecycleRollbackInput := none
  checkpointRef : Option Text := none

/-- The argument of a method: what the schema makes of it, or, where it does not parse, what can still be read. -/
inductive LifecycleInput where
  | invalid (packageId packageVersion originClass : Option Text)
  | parsed (request : PackageLifecycleTransitionRequest)

/-! ## Records and snapshots -/

inductive TrustScope where
  | localInstance | crossInstanceApproved | quarantined
  deriving DecidableEq

structure PackageLifecycleStateRecord where
  projectId : Text
  packageId : PackageId
  packageVersion : Text
  originClass : OriginClass
  currentState : PackageLifecycleState
  previousSafeVersion : Option Text
  trustScope : TrustScope
  lastReasonCode : Option PackageLifecycleReasonCode
  lastWitnessRef : List Char
  version : Nat
  version_pos : 1 ≤ version
  updatedAt : String
  deriving DecidableEq

structure PackageUpdateStageSnapshot where
  projectId : Text
  packageId : PackageId
  previousSafeVersion : Text
  candidateVersion : Text
  checkpointRef : Text
  stagedAt : String

def buildKey (projectId : Text) (packageId : PackageId) : List Char := projectId.val ++ "::".toList ++ packageId.val

abbrev LifecycleRecords := Record (List Char) PackageLifecycleStateRecord

abbrev UpdateSnapshots := Record (List Char) PackageUpdateStageSnapshot

def PackageLifecycleTransitionRequest.key (request : PackageLifecycleTransitionRequest) : List Char :=
  buildKey request.projectId request.packageId

def PackageLifecycleStateRecord.key (record : PackageLifecycleStateRecord) : List Char :=
  buildKey record.projectId record.packageId

/-! ## The transition matrix -/

def NO_STATE_ALLOWED_TRANSITIONS : List PackageLifecycleTransition := [.ingest, .importPackage]

def ALLOWED_TRANSITIONS_BY_STATE : PackageLifecycleState → List PackageLifecycleTransition
  | .ingested => [.install, .disable]
  | .installed => [.enable, .stageUpdate, .removePackage, .disable]
  | .enabled => [.run, .stageUpdate, .exportPackage, .removePackage, .disable]
  | .running => [.stageUpdate, .exportPackage, .removePackage, .disable]
  | .updateStaged => [.commitUpdate, .rollbackUpdate, .disable]
  | .updateCommitted => [.run, .stageUpdate, .exportPackage, .removePackage, .disable]
  | .rolledBack => [.enable, .run, .stageUpdate, .exportPackage, .removePackage, .disable]
  | .quarantined => [.disable]
  | .importVerified => [.install, .enable, .disable]
  | .removed => []
  | .disabled => [.enable, .removePackage]

def isTransitionAllowed (fromState : PackageLifecycleSourceState) (transition : PackageLifecycleTransition) : Bool :=
  match fromState with
  | none => NO_STATE_ALLOWED_TRANSITIONS.contains transition
  | some state => (ALLOWED_TRANSITIONS_BY_STATE state).contains transition

def resolveTransitionTargetState (transition : PackageLifecycleTransition)
    (fromState : PackageLifecycleSourceState) : PackageLifecycleState :=
  match transition with
  | .ingest => .ingested
  | .install => .installed
  | .enable => .enabled
  | .run => .running
  | .stageUpdate => .updateStaged
  | .commitUpdate => .updateCommitted
  | .rollbackUpdate => .rolledBack
  | .importPackage => .importVerified
  | .removePackage => .removed
  | .disable => .disabled
  | .exportPackage => fromState.getD .ingested

/-! ## Guards -/

def PackageLifecycleAdmissionInput.failure (origin : OriginClass) (admission : PackageLifecycleAdmissionInput) :
    Option PackageLifecycleReasonCode :=
  if !admission.signatureValid then some .unsigned
  else if !admission.signerKnown then some .revokedSigner
  else if !admission.policyCompatible then some .policyIncompatible
  else if origin = .selfCreatedLocal ∧ admission.isDraftUnsigned = true then some .execAttemptInDraft
  else if admission.isImported && (!admission.reverificationComplete || !admission.reapprovalComplete) then
    some .importVerificationPending
  else none

def RegistryInstallEligibilitySnapshot.failure (eligibility : RegistryInstallEligibilitySnapshot) :
    Option PackageLifecycleReasonCode :=
  if eligibility.requiresPrincipalOverride then some .principalOverrideRequired
  else match eligibility.blockReasonCodes with
    | code :: _ => some (.registry code)
    | [] =>
      if !eligibility.metadataValid then some .metadataDigestMismatch
      else if eligibility.compatibilityState = .blockedIncompatible then some .compatibilityBlocked
      else none

section

variable (request : PackageLifecycleTransitionRequest)

def evaluateTransitionGuards : Option PackageLifecycleReasonCode :=
  (request.admission.bind (·.failure request.originClass)).or <|
    (request.compatibility.bind fun c => if !c.apiCompatible then some .apiRangeMismatch else none).or <|
    (request.capability.bind fun c =>
      if c.expansionRequested && !c.reapprovalGranted then some .capExpansionPending else none).or <|
    request.registryEligibility.bind (·.failure)

def evaluateRemoveGuards : Option PackageLifecycleReasonCode :=
  if request.targetTransition ≠ .removePackage then none
  else if request.retentionDecision.isNone then some .removeRetentionDecisionRequired
  else none

def PackageLifecycleReasonCode.startsWith (reasonCode : PackageLifecycleReasonCode) (start : String) : Bool :=
  start.toList.isPrefixOf reasonCode.text

def resolveBlockedState (fromState : PackageLifecycleSourceState) (reasonCode : PackageLifecycleReasonCode) :
    PackageLifecycleState :=
  if reasonCode.startsWith "PKG-001" then .quarantined
  else if reasonCode.text = PackageLifecycleReasonCode.rollbackTrustCheckFailed.text then .disabled
  else fromState.getD .quarantined

def resolveTrustScope (toState : PackageLifecycleState) : TrustScope :=
  if toState = .quarantined then .quarantined
  else if request.originClass = .selfCreatedLocal ∧
      request.admission.any (fun a => a.isImported && a.reverificationComplete && a.reapprovalComplete) = true then
    .crossInstanceApproved
  else .localInstance

end

/-! ## The state store -/

/-- The write; a conflict is `none`. -/
def upsert (records : LifecycleRecords) (record : PackageLifecycleStateRecord) (expectedVersion : Option Nat) :
    Option LifecycleRecords :=
  match expectedVersion with
  | some expected =>
    if (records.get? record.key).any (·.version == expected) then some (records.set record.key record) else none
  | none => some (records.set record.key record)

/-! ## Outcomes and the update controller -/

inductive PackageLifecycleTransitionDecision where
  | allowed | blocked | rolledBack | disabled
  deriving DecidableEq

structure TransitionOutcome where
  decision : PackageLifecycleTransitionDecision
  toState : PackageLifecycleState
  reasonCode : Option PackageLifecycleReasonCode := none
  packageVersion : Text
  previousSafeVersion : Option Text := none
  updateSnapshotRef : Option PackageUpdateStageSnapshot := none

structure TransitionContext where
  request : PackageLifecycleTransitionRequest
  current : Option PackageLifecycleStateRecord

namespace TransitionContext

def fromState (context : TransitionContext) : PackageLifecycleSourceState := context.current.map (·.currentState)

/-- `context.current?.package_version ?? context.request.package_version`. -/
def currentVersion (context : TransitionContext) : Text :=
  (context.current.map (·.packageVersion)).getD context.request.packageVersion

def previousSafeVersion (context : TransitionContext) : Option Text := context.current.bind (·.previousSafeVersion)

end TransitionContext

/-- A stage, where the request names the version and the checkpoint. -/
def stage (stagedAt : String) (current : PackageLifecycleStateRecord) (request : PackageLifecycleTransitionRequest) :
    Option PackageUpdateStageSnapshot :=
  match request.targetVersion, request.checkpointRef with
  | some targetVersion, some checkpointRef =>
    some ⟨request.projectId, request.packageId, current.packageVersion, targetVersion, checkpointRef, stagedAt⟩
  | _, _ => none

def handleSimpleAllowedTransition (toState : PackageLifecycleState) (packageVersion : Text) : TransitionOutcome where
  decision := .allowed
  toState
  packageVersion

def blockedOutcome (toState : PackageLifecycleState) (reasonCode : PackageLifecycleReasonCode)
    (packageVersion : Text) : TransitionOutcome where
  decision := .blocked
  toState
  reasonCode := some reasonCode
  packageVersion

/-- `mapCommitOutcome` of a rollback or of a disabling. -/
def undoneOutcome (trustChecksFailed : Bool) (reasonCode : PackageLifecycleReasonCode) (packageVersion : Text) :
    TransitionOutcome :=
  if trustChecksFailed then ⟨.disabled, .disabled, some .rollbackTrustCheckFailed, packageVersion, none, none⟩
  else ⟨.rolledBack, .rolledBack, some reasonCode, packageVersion, none, none⟩

section

variable (request : PackageLifecycleTransitionRequest)

def PackageLifecycleTransitionRequest.trustChecksFailed : Bool :=
  request.rollback.any (!·.trustChecksPassed)

def PackageLifecycleTransitionRequest.failedChecks : Bool :=
  request.updateChecks.any fun c => !c.migrationPassed || !c.healthPassed || !c.invariantsPassed

/-- `commit`, mapped to an outcome; the snapshot is cleared unless there is none. -/
def commit (snapshots : UpdateSnapshots) :
    TransitionOutcome × UpdateSnapshots :=
  match snapshots.get? request.key with
  | none => (blockedOutcome .updateStaged .invalidTransition request.packageVersion, snapshots)
  | some snapshot =>
    (if request.failedChecks then
      undoneOutcome request.trustChecksFailed .updateStageCheckFailed snapshot.previousSafeVersion
    else handleSimpleAllowedTransition .updateCommitted snapshot.candidateVersion, snapshots.erase request.key)

/-- `rollback`, mapped to an outcome. -/
def rollback (currentVersion : Text) (snapshots : UpdateSnapshots) :
    TransitionOutcome × UpdateSnapshots :=
  match snapshots.get? request.key with
  | none => (blockedOutcome .updateStaged .invalidTransition currentVersion, snapshots)
  | some snapshot =>
    (undoneOutcome request.trustChecksFailed .migrationFailed snapshot.previousSafeVersion,
      snapshots.erase request.key)

end

/-! ## The resolvers of the methods -/

inductive PackageLifecycleEventType where
  | ingestReceived | compatibilityEvaluated | capabilityBlocked | enabled | running | disabled | enableBlocked
  | updateStaged | updateCommitted | updateRolledBack | exported | importVerified | importRejected | removed
  | runtimeActionDecided

def PackageLifecycleEventType.text : PackageLifecycleEventType → List Char
  | ingestReceived => "pkg_ingest_received".toList
  | compatibilityEvaluated => "pkg_compatibility_evaluated".toList
  | capabilityBlocked => "pkg_capability_blocked".toList
  | enabled => "pkg_enabled".toList
  | running => "pkg_running".toList
  | disabled => "pkg_disabled".toList
  | enableBlocked => "pkg_enable_blocked".toList
  | updateStaged => "pkg_update_staged".toList
  | updateCommitted => "pkg_update_committed".toList
  | updateRolledBack => "pkg_update_rolled_back".toList
  | exported => "pkg_exported".toList
  | importVerified => "pkg_import_verified".toList
  | importRejected => "pkg_import_rejected".toList
  | removed => "pkg_removed".toList
  | runtimeActionDecided => "pkg_runtime_action_decided".toList

/-- What surrounds one request: the emitter's answers in turn, the vault (if there is one) and the clocks. -/
structure LifecycleEnvironment where
  emitted : Nat → Except String (PackageLifecycleEventType × List Char)
  purgeNamespace : Option (PackageId → Bool) := none
  now : String
  stagedAt : String

abbrev Resolver := LifecycleEnvironment → TransitionContext → UpdateSnapshots → TransitionOutcome × UpdateSnapshots

/-- The answer of a method whose guard fails. -/
def guardFailed (context : TransitionContext) (guardFailure : PackageLifecycleReasonCode) (packageVersion : Text) :
    TransitionOutcome :=
  blockedOutcome (resolveBlockedState context.fromState guardFailure) guardFailure packageVersion

/-- The methods that check the guards before they go on. -/
def whenGuardsPass (context : TransitionContext) (snapshots : UpdateSnapshots)
    (next : TransitionOutcome × UpdateSnapshots) : TransitionOutcome × UpdateSnapshots :=
  match evaluateTransitionGuards context.request with
  | some guardFailure => (guardFailed context guardFailure context.request.packageVersion, snapshots)
  | none => next

/-- The methods that keep the version and the safe version of the record. -/
def keepVersions (context : TransitionContext) (toState : PackageLifecycleState) : TransitionOutcome :=
  { handleSimpleAllowedTransition toState context.currentVersion with
    previousSafeVersion := context.previousSafeVersion }

def ingest : Resolver := fun _ context snapshots =>
  (handleSimpleAllowedTransition .ingested context.request.packageVersion, snapshots)

def install : Resolver := fun _ context snapshots =>
  whenGuardsPass context snapshots
    (handleSimpleAllowedTransition .installed context.request.packageVersion, snapshots)

def enable : Resolver := fun _ context snapshots =>
  whenGuardsPass context snapshots (handleSimpleAllowedTransition .enabled context.request.packageVersion, snapshots)

def run : Resolver := fun _ context snapshots => (keepVersions context .running, snapshots)

def stageUpdate : Resolver := fun env context snapshots =>
  whenGuardsPass context snapshots <|
    match context.current with
    | none => (blockedOutcome .quarantined .invalidTransition context.request.packageVersion, snapshots)
    | some current =>
      match stage env.stagedAt current context.request with
      | none => (guardFailed context .invalidTransition context.request.packageVersion, snapshots)
      | some snapshot =>
        ({ handleSimpleAllowedTransition .updateStaged current.packageVersion with
            previousSafeVersion := some current.packageVersion
            updateSnapshotRef := some snapshot },
          snapshots.set context.request.key snapshot)

def commitUpdate : Resolver := fun _ context snapshots =>
  whenGuardsPass context snapshots (commit context.request snapshots)

def rollbackUpdate : Resolver := fun _ context snapshots =>
  rollback context.request context.currentVersion snapshots

def exportPackage : Resolver := fun _ context snapshots =>
  (keepVersions context (resolveTransitionTargetState .exportPackage context.fromState), snapshots)

def importPackage : Resolver := fun _ context snapshots =>
  whenGuardsPass context snapshots
    (handleSimpleAllowedTransition .importVerified context.request.packageVersion, snapshots)

def removePackage : Resolver := fun env context snapshots =>
  match evaluateRemoveGuards context.request with
  | some removeFailure => (guardFailed context removeFailure context.currentVersion, snapshots)
  | none =>
    if env.purgeNamespace.any fun purge => !purge context.request.packageId then
      (guardFailed context .credentialPurgeFailed context.currentVersion, snapshots)
    else (keepVersions context .removed, snapshots)

def disable : Resolver := fun _ context snapshots => (keepVersions context .disabled, snapshots)

/-- The resolver that the method hands to `executeTransition`. -/
def resolver : PackageLifecycleTransition → Resolver
  | .ingest => ingest
  | .install => install
  | .enable => enable
  | .run => run
  | .stageUpdate => stageUpdate
  | .commitUpdate => commitUpdate
  | .rollbackUpdate => rollbackUpdate
  | .exportPackage => exportPackage
  | .importPackage => importPackage
  | .removePackage => removePackage
  | .disable => disable

/-! ## The orchestrator -/

structure PackageLifecycleDecisionEvent where
  eventType : PackageLifecycleEventType
  packageId : PackageId
  packageVersion : Text
  originClass : List Char
  reasonCode : Option PackageLifecycleReasonCode

structure PackageLifecycleTransitionResult where
  decision : PackageLifecycleTransitionDecision
  transition : PackageLifecycleTransition
  fromState : PackageLifecycleSourceState
  toState : PackageLifecycleState
  reasonCode : Option PackageLifecycleReasonCode
  witnessRef : List Char
  evidenceRefs : List (List Char)
  stateRecord : Option PackageLifecycleStateRecord
  updateSnapshot : Option PackageUpdateStageSnapshot

def buildEvidenceRefs (event : PackageLifecycleEventType × List Char) : List (List Char) :=
  ["event:".toList ++ event.1.text, "witness:".toList ++ event.2]

def resolveAllowedEventType (transition : PackageLifecycleTransition)
    (decision : PackageLifecycleTransitionDecision) : PackageLifecycleEventType :=
  if decision = .rolledBack ∨ decision = .disabled then .updateRolledBack
  else match transition with
    | .ingest => .ingestReceived
    | .install => .compatibilityEvaluated
    | .enable => .enabled
    | .run => .running
    | .disable => .disabled
    | .stageUpdate => .updateStaged
    | .commitUpdate => .updateCommitted
    | .rollbackUpdate => .updateRolledBack
    | .exportPackage => .exported
    | .importPackage => .importVerified
    | .removePackage => .removed

def resolveBlockedEventType : PackageLifecycleTransition → PackageLifecycleEventType
  | .enable => .enableBlocked
  | .importPackage => .importRejected
  | .stageUpdate | .commitUpdate | .rollbackUpdate => .updateRolledBack
  | .install => .capabilityBlocked
  | .ingest | .run | .exportPackage | .removePackage | .disable => .runtimeActionDecided

/-- An answer, or the error of the emitter, with the events handed to it and the stores afterwards. -/
structure LifecycleEffect where
  answer : Except String PackageLifecycleTransitionResult
  events : List PackageLifecycleDecisionEvent
  records : LifecycleRecords
  snapshots : UpdateSnapshots

/-- The stores as a request finds them: when it reads the record, when it decides and when it writes. -/
structure LifecycleView where
  read : LifecycleRecords
  snapshots : UpdateSnapshots
  records : LifecycleRecords

section

variable (env : LifecycleEnvironment)

/-- The record that a decision is written as. -/
def nextStateRecord (context : TransitionContext) (outcome : TransitionOutcome)
    (witnessRef : List Char) : PackageLifecycleStateRecord where
  projectId := context.request.projectId
  packageId := context.request.packageId
  packageVersion := outcome.packageVersion
  originClass := context.request.originClass
  currentState := outcome.toState
  previousSafeVersion := outcome.previousSafeVersion.or context.previousSafeVersion
  trustScope := resolveTrustScope context.request outcome.toState
  lastReasonCode := outcome.reasonCode
  lastWitnessRef := witnessRef
  version := (context.current.map (·.version)).getD 0 + 1
  version_pos := Nat.succ_pos _
  updatedAt := env.now

def TransitionOutcome.shouldPersistState (outcome : TransitionOutcome) : Bool :=
  decide (outcome.decision ≠ .blocked ∨ outcome.toState = .quarantined ∨ outcome.toState = .disabled)

/-- The answer given when the decision itself cannot be recorded. -/
def fallbackResult (context : TransitionContext) (transition : PackageLifecycleTransition)
    (reasonCode : PackageLifecycleReasonCode) (event : PackageLifecycleEventType × List Char) :
    PackageLifecycleTransitionResult :=
  ⟨.blocked, transition, context.fromState, resolveBlockedState context.fromState reasonCode, some reasonCode, event.2,
    buildEvidenceRefs event, context.current, none⟩

def emitResult (transition : PackageLifecycleTransition) (context : TransitionContext)
    (outcome : TransitionOutcome) (snapshots : UpdateSnapshots) (records : LifecycleRecords) : LifecycleEffect :=
  let event : PackageLifecycleDecisionEvent :=
    ⟨if outcome.decision = .blocked then resolveBlockedEventType transition
      else resolveAllowedEventType transition outcome.decision,
      context.request.packageId, outcome.packageVersion, context.request.originClass.text, outcome.reasonCode⟩
  match env.emitted 0 with
  | .error e => ⟨.error e, [event], records, snapshots⟩
  | .ok emitted =>
    if emitted.2 = [] then
      ⟨(env.emitted 1).map (fallbackResult context transition .missingWitnessRef),
        [event, { event with
          eventType := resolveBlockedEventType transition
          reasonCode := some .missingWitnessRef }], records, snapshots⟩
    else
      let result : Option PackageLifecycleStateRecord → PackageLifecycleTransitionResult := fun stateRecord =>
        ⟨outcome.decision, transition, context.fromState, outcome.toState, outcome.reasonCode, emitted.2,
          buildEvidenceRefs emitted, stateRecord, outcome.updateSnapshotRef⟩
      if outcome.shouldPersistState then
        let record := nextStateRecord env context outcome emitted.2
        match upsert records record (context.current.map (·.version)) with
        | some written => ⟨.ok (result (some record)), [event], written, snapshots⟩
        | none =>
          ⟨(env.emitted 1).map (fallbackResult context transition .invalidTransition),
            [event, { event with
              eventType := resolveBlockedEventType transition
              packageVersion := context.request.packageVersion
              reasonCode := some .invalidTransition }], records, snapshots⟩
      else ⟨.ok (result none), [event], records, snapshots⟩

def buildInvalidInputResult (transition : PackageLifecycleTransition)
    (packageId packageVersion originClass : Option Text) (view : LifecycleView) : LifecycleEffect :=
  ⟨(env.emitted 0).map fun event =>
      ⟨.blocked, transition, none, .quarantined, some .invalidTransition, event.2, buildEvidenceRefs event, none, none⟩,
    [⟨resolveBlockedEventType transition, packageId.getD ⟨"invalid-package".toList, by decide⟩,
      packageVersion.getD ⟨"0.0.0".toList, by decide⟩,
      (originClass.map (·.val)).getD OriginClass.thirdPartyExternal.text, some .invalidTransition⟩],
    view.records, view.snapshots⟩

def executeTransition (expectedTransition : PackageLifecycleTransition)
    (resolver : Resolver) (input : LifecycleInput) (view : LifecycleView) : LifecycleEffect :=
  match input with
  | .invalid packageId packageVersion originClass =>
    buildInvalidInputResult env expectedTransition packageId packageVersion originClass view
  | .parsed request =>
    if request.targetTransition ≠ expectedTransition then
      emitResult env expectedTransition ⟨request, none⟩
        (blockedOutcome .quarantined .invalidTransition request.packageVersion) view.snapshots view.records
    else
      let context : TransitionContext := ⟨request, view.read.get? request.key⟩
      if !isTransitionAllowed context.fromState expectedTransition then
        emitResult env expectedTransition context (guardFailed context .invalidTransition context.currentVersion)
          view.snapshots view.records
      else
        emitResult env expectedTransition context (resolver env context view.snapshots).1
          (resolver env context view.snapshots).2 view.records

def handle (method : PackageLifecycleTransition) (input : LifecycleInput)
    (view : LifecycleView) : LifecycleEffect :=
  executeTransition env method (resolver method) input view

end

end NousCore.Packages
