import NousCore.Registry.Governance

/-!
# Moderation and publishing

* `AnswerCodes` : the codes of the answers to a request;
* `moderation_kept` : every block that stands is reported, and when only answers about the package's own releases are
  without codes.
-/

namespace NousCore.Registry

open Async

/-! ## What a submission undoes -/

def Acceptable (input : RegistryReleaseSubmissionInput) (timestamp : IsoTime) : Prop :=
  (input.originClass = .nousFirstParty ∨ input.registered = true) ∧
    timestamp.instant < input.metadataChain.metadataExpiresAt.instant ∧
    input.metadataChain.artifactDigest = input.sourceHash ∧ input.metadataChain.trustedRootKeyIds ≠ []

instance (input : RegistryReleaseSubmissionInput) (timestamp : IsoTime) : Decidable (Acceptable input timestamp) :=
  inferInstanceAs (Decidable ((_ ∨ _) ∧ _ ∧ _ ∧ ¬_))

variable {input : RegistryReleaseSubmissionInput} {package : RegistryPackage}

theorem acceptable_of_active {timestamp : IsoTime}
    (h : SubmittedPackage input timestamp package) (hactive : package.distributionStatus = .active) :
    Acceptable input timestamp := by
  obtain ⟨releaseId, maintainers, witnessRef, rfl⟩ := h
  unfold Submission.finalPackage at hactive
  split_ifs at hactive with haccepted
  unfold Submission.accepted at haccepted
  rw [List.isEmpty_iff] at haccepted
  obtain ⟨htier, -, -, -, -, hmetadata⟩ := blockReasonCodes_eq_nil.mp haccepted
  refine ⟨?_, ownValidation_eq_nil.mp hmetadata⟩
  by_contra hnone
  obtain ⟨horigin, hregistered⟩ := not_or.mp hnone
  refine htier ?_
  unfold resolveTrustTier
  rw [if_neg horigin, if_pos (Bool.not_eq_true _ ▸ hregistered)]

/-- A release is submitted for a package that no block stands against, or else it is not accepted and only a status
stands against the package. -/
def SubmissionKept (h : History) : RegistryCall × List RegistryEnv → Prop
  | (.submitRelease input, script) => input.parse = .ok input → (h.standing input.packageId).blocks = false ∨
      (h.standing input.packageId).moderation.any (·.blocks) = false ∧
        ∀ timestamp ∈ submittedAt input script, ¬Acceptable input timestamp
  | _ => True

/-- What blocks a package stands in its record. -/
structure Kept (h : History) : Prop where
  distribution : ∀ packageId, (h.standing packageId).distribution ≠ .active →
    ∃ package, h.state.packages.find? packageId = some package ∧ package.distributionStatus ≠ .active
  moderation : ∀ packageId, (h.standing packageId).moderation.any (·.blocks) = true →
    ∃ package, h.state.packages.find? packageId = some package ∧ package.moderationState.any (·.blocks) = true

section Steps

variable {h h' : History}

theorem Kept.of_same (hkept : Kept h) (hpackages : h'.state.packages = h.state.packages)
    (hstanding : h'.standing = h.standing) : Kept h' := by
  refine ⟨?_, ?_⟩
  · rw [hpackages, hstanding]
    exact hkept.distribution
  · rw [hpackages, hstanding]
    exact hkept.moderation

theorem Kept.of_put (hkept : Kept h) (hpackages : h'.state.packages = h.state.packages.put package)
    (hstanding : ∀ packageId, packageId ≠ package.packageId → h'.standing packageId = h.standing packageId)
    (hdistribution : (h'.standing package.packageId).distribution ≠ .active → package.distributionStatus ≠ .active)
    (hmoderation : (h'.standing package.packageId).moderation.any (·.blocks) = true →
      package.moderationState.any (·.blocks) = true) : Kept h' := by
  refine ⟨fun packageId hblocks => ?_, fun packageId hblocks => ?_⟩ <;> rw [hpackages, Collection.find?_put] <;>
    by_cases hid : packageId = package.packageId
  · subst hid
    exact ⟨package, if_pos rfl, hdistribution hblocks⟩
  · rw [if_neg hid]
    exact hkept.distribution packageId (hstanding packageId hid ▸ hblocks)
  · subst hid
    exact ⟨package, if_pos rfl, hmoderation hblocks⟩
  · rw [if_neg hid]
    exact hkept.moderation packageId (hstanding packageId hid ▸ hblocks)

theorem Kept.of_submission (hkept : Kept h) {timestamp : IsoTime}
    (hpackages : h'.state.packages = h.state.packages.put package)
    (hsubmitted : SubmittedPackage input timestamp package) (hstanding : h'.standing = h.standing)
    (hguard : (h.standing input.packageId).blocks = false ∨
      (h.standing input.packageId).moderation.any (·.blocks) = false ∧ ¬Acceptable input timestamp) : Kept h' := by
  have hid : package.packageId = input.packageId := by
    obtain ⟨releaseId, maintainers, witnessRef, rfl⟩ := hsubmitted
    unfold Submission.finalPackage
    split_ifs <;> rfl
  refine hkept.of_put hpackages (fun packageId _ => by rw [hstanding]) (fun hblocks => ?_) fun hblocks => ?_
  · rw [hstanding, hid] at hblocks
    rcases hguard with hfree | ⟨-, hrejected⟩
    · simp [Standing.blocks, hblocks] at hfree
    · exact fun hactive => hrejected (acceptable_of_active hsubmitted hactive)
  · rw [hstanding, hid] at hblocks
    rcases hguard with hfree | ⟨hmoderation, -⟩
    · simp [Standing.blocks, hblocks] at hfree
    · rw [hmoderation] at hblocks
      cases hblocks

theorem Kept.of_governed (hkept : Kept h) {input : RegistryGovernanceActionInput} {applied : Bool}
    (hgoverned : Governed input h.state h'.state applied)
    (hsame : (applied = false ∨ ∀ packageId ∈ input.packageId, h.state.packages.find? packageId = none) →
      h'.standing = h.standing)
    (hset : ∀ packageId existing, applied = true → input.packageId = some packageId →
      h.state.packages.find? packageId = some existing →
      h'.standing = Function.update h.standing packageId ((h.standing packageId).after input)) : Kept h' := by
  cases applied with
  | false => exact hkept.of_same (hgoverned.failed rfl) (hsame (.inl rfl))
  | true =>
    by_cases hmissing : ∀ packageId ∈ input.packageId, h.state.packages.find? packageId = none
    · exact hkept.of_same (hgoverned.missing hmissing) (hsame (.inr hmissing))
    · push Not at hmissing
      obtain ⟨packageId, hid, hfound⟩ := hmissing
      obtain ⟨existing, hfind⟩ := Option.ne_none_iff_exists'.mp hfound
      obtain ⟨package, rfl, hdistribution, hmoderation, hput⟩ := hgoverned.set packageId existing rfl hid hfind
      have hafter := hset package.packageId existing rfl hid hfind
      refine hkept.of_put hput (fun other hne => ?_) (fun hblocks => ?_) fun hblocks => ?_
      · rw [hafter, Function.update_of_ne hne]
      · rw [hafter, Function.update_self] at hblocks
        rw [hdistribution]
        cases hstatus : input.distributionSet with
        | some status => simpa [Standing.after, hstatus] using hblocks
        | none =>
          obtain ⟨stored, hstored, hactive⟩ := hkept.distribution package.packageId
            (by simpa [Standing.after, hstatus] using hblocks)
          cases hfind.symm.trans hstored
          exact hactive
      · rw [hafter, Function.update_self] at hblocks
        rw [hmoderation]
        cases hstatus : input.moderationSet with
        | some status => simpa [Standing.after, hstatus] using hblocks
        | none =>
          obtain ⟨stored, hstored, hactive⟩ := hkept.moderation package.packageId
            (by simpa [Standing.after, hstatus] using hblocks)
          cases hfind.symm.trans hstored
          exact hactive

theorem Kept.of_resolution (hkept : Kept h) {existing : RegistryAppealRecord} {input : RegistryAppealResolutionInput}
    {applied : Bool} (hgoverned : Governed (resolutionAction existing input) h.state h'.state applied)
    (hstanding : h'.standing = h.standing) : Kept h' := by
  refine hkept.of_governed hgoverned (fun _ => hstanding) fun packageId _ _ _ _ => ?_
  have hafter : (h.standing packageId).after (resolutionAction existing input) = h.standing packageId := rfl
  rw [hafter, Function.update_eq_self, hstanding]

theorem kept_of_acts (hkept : Kept h) {c : RegistryCall × List RegistryEnv} (hguard : SubmissionKept h c)
    (hacts : Acts h c h') : Kept h' := by
  obtain ⟨call, script⟩ := c
  obtain ⟨y, hfreely, hstanding⟩ := acts_cases hacts
  obtain ⟨l, hends⟩ := ends_of_freely hfreely
  cases call with
  | submitRelease input =>
    rcases (meets_map_result RegistryResult.submitted (meets_submitRelease input script)).of_within hends with hsame | ⟨hparse, timestamp, htime, package, hpackage, hput⟩
    · exact hkept.of_same hsame hstanding
    · exact hkept.of_submission hput hpackage hstanding ((hguard hparse).imp_right fun ⟨hnone, hrejected⟩ =>
        ⟨hnone, hrejected timestamp htime⟩)
  | evaluateInstallEligibility request =>
    have hsame := (meets_keeps (every_map RegistryResult.evaluated (every_evaluateInstallEligibility request))).of_alone
      hends
    exact hkept.of_same hsame.symm hstanding
  | applyGovernanceAction input =>
    have hgoverned : Governed input h.state h'.state y.isOk := by
      refine Meets.of_alone (P := fun _ y t => Governed input h.state t y.isOk) (meets_map.mpr ?_) hends
      refine (meets_applyGovernanceAction input).mono fun l y t ht => ?_
      cases y <;> exact ht
    refine hkept.of_governed hgoverned (fun hnone => ?_) fun packageId existing happlied hid hfind => ?_
    · rw [hstanding]
      cases y with
      | error e => rfl
      | ok result =>
        rcases hnone with hfailed | hmissing
        · cases hfailed
        · unfold History.standingAfter
          cases hid : input.packageId with
          | none => simp [hid]
          | some packageId => simp [hid, hmissing packageId hid]
    · cases y with
      | error e => cases happlied
      | ok result => simp [hstanding, History.standingAfter, hid, hfind]
  | submitAppeal input =>
    have hsame := (meets_keeps (every_map RegistryResult.appealed (every_submitAppeal input))).of_alone hends
    exact hkept.of_same hsame.symm hstanding
  | resolveAppeal input =>
    rcases (meets_map_result RegistryResult.appealed (meets_resolveAppeal input)).of_alone hends with hsame | ⟨existing, applied, hgoverned⟩
    · exact hkept.of_same hsame hstanding
    · exact hkept.of_resolution hgoverned hstanding

end Steps

theorem kept_of_run {hs : List (RegistryCall × List RegistryEnv)} {h : History}
    (hrun : Run (Guarded Acts SubmissionKept) .start hs h) : Kept h := by
  have hstart : Kept .start := by
    refine ⟨fun packageId hblocks => absurd rfl hblocks, fun packageId hblocks => ?_⟩
    simp [History.start, Standing.none] at hblocks
  exact hrun.invariant (P := Kept) (fun _ _ _ hkept hstep => kept_of_acts hkept hstep.2 hstep.1) hstart

/-! ## What is answered -/

/-- The requested release is one of the requested package. -/
def Belongs (s : RegistryState) (request : RegistryEligibilityRequest) : Prop :=
  ∃ release, s.releases.find? request.releaseId = some release ∧ release.packageId = request.packageId

/-- Nothing in the two records, or in the request, stands against an installation at this time. -/
def Unobjectionable (s : RegistryState) (request : RegistryEligibilityRequest) (timestamp : IsoTime) : Prop :=
  ∃ package release, s.packages.find? request.packageId = some package ∧
    s.releases.find? request.releaseId = some release ∧
    package.trustTier ≠ .unregisteredExternal ∧
    (package.distributionStatus = .active ∧ release.distributionStatus = .active) ∧
    package.moderationState.any (·.blocks) = false ∧
    ¬(package.compatibilityState = .blockedIncompatible ∨ release.compatibilityState = .blockedIncompatible) ∧
    ¬(request.principalOverrideRequested = true ∧ request.principalOverrideApproved = false) ∧
    timestamp.instant < release.metadataChain.metadataExpiresAt.instant ∧
    release.metadataChain.artifactDigest = release.sourceHash ∧ release.metadataChain.trustedRootKeyIds ≠ []

variable {codes : List RegistryReasonCode}

section Evaluates

variable {s : RegistryState} {l : Log RegistryOp.Answer} {request : RegistryEligibilityRequest}

inductive AnswerCodes (s : RegistryState) (request : RegistryEligibilityRequest) :
    List RegistryReasonCode → Prop
  | unknown : AnswerCodes s request [.distributionBlocked]
  | known {package : RegistryPackage} {release : RegistryRelease} {now evaluatedAt : IsoTime} :
      s.packages.find? request.packageId = some package → s.releases.find? request.releaseId = some release →
      AnswerCodes s request (evaluateRegistryEligibility request package release
        (validateRegistryMetadataChain (ownValidationInput release.metadataChain release.sourceHash
          (request.evaluatedAt.getD now))) evaluatedAt).blockReasonCodes

theorem meets_timestampOf_alone (given : Option IsoTime) :
    (timestampOf given).Meets registryAnswers .alone
      (fun _ y t => t = s ∧ ∀ timestamp, y = .ok timestamp → ∃ now, timestamp = given.getD now) l s := by
  cases given with
  | some timestamp => exact ⟨rfl, fun t ht => ⟨timestamp, (Except.ok.inj ht).symm⟩⟩
  | none =>
    refine meets_alone_call fun env r s' hanswers => ?_
    cases hanswers
    exact ⟨rfl, fun t ht => ⟨env.now, (Except.ok.inj ht).symm⟩⟩

theorem meets_evaluateInstallEligibility :
    (evaluateInstallEligibility request).Meets registryAnswers .alone
      (fun _ y _ => ∀ snapshot, y = .ok snapshot → AnswerCodes s request snapshot.blockReasonCodes) l s := by
  refine meets_bind.mpr ((meets_unwrap _).mpr ?_)
  cases hparse : request.parse with
  | error e => exact fun snapshot h => by cases h
  | ok parsed =>
    obtain rfl := parseTexts_eq hparse
    refine meets_alone_call fun env r s₁ hanswers => ?_
    cases hanswers
    refine meets_alone_call fun env r s₁ hanswers => ?_
    cases hanswers
    show (evaluateRecords parsed _ _).Meets _ _ _ _ _
    unfold evaluateRecords
    split
    · rename_i package release hpackage hrelease
      refine meets_bind.mpr ((meets_timestampOf_alone _).mono fun l₁ y s₁ ⟨_, hy⟩ => ?_)
      cases y with
      | error e => exact fun snapshot h => by cases h
      | ok checkedAt =>
        obtain ⟨now, rfl⟩ := hy checkedAt rfl
        refine meets_bind.mpr ((meets_timestampOf_alone _).mono fun l₁ y s₂ _ => ?_)
        cases y with
        | error e => exact fun snapshot h => by cases h
        | ok evaluatedAt =>
          intro snapshot hsnapshot
          cases hsnapshot
          exact .known hpackage hrelease
    · refine meets_bind.mpr ((meets_timestampOf_alone _).mono fun l₁ y s₂ _ => ?_)
      cases y with
      | error e => exact fun snapshot h => by cases h
      | ok evaluatedAt =>
        intro snapshot hsnapshot
        cases hsnapshot
        exact .unknown

variable {snapshot : RegistryInstallEligibilitySnapshot}

theorem answerCodes_of_freely {script : List RegistryEnv} {s' : RegistryState}
    (hfreely : (evaluateInstallEligibility request).freely registryAnswers script s = some (.ok snapshot, s')) :
    AnswerCodes s request snapshot.blockReasonCodes := by
  obtain ⟨l, hends⟩ := ends_of_freely hfreely
  exact meets_evaluateInstallEligibility.of_alone hends snapshot rfl

theorem AnswerCodes.eq_nil (h : AnswerCodes s request codes) (hnil : codes = []) :
    ∃ now, Unobjectionable s request (request.evaluatedAt.getD now) := by
  cases h with
  | unknown => cases hnil
  | @known package release now evaluatedAt hpackage hrelease =>
    obtain ⟨htier, hstatus, hmoderation, hcompatibility, hoverride, hmetadata⟩ := blockReasonCodes_eq_nil.mp hnil
    exact ⟨now, package, release, hpackage, hrelease, htier, hstatus, hmoderation, hcompatibility, hoverride,
      ownValidation_eq_nil.mp hmetadata⟩

theorem parse_of_freely {script : List RegistryEnv} {s' : RegistryState}
    (hfreely : (evaluateInstallEligibility request).freely registryAnswers script s = some (.ok snapshot, s')) :
    request.parse = .ok request := by
  cases hparse : request.parse with
  | error e =>
    unfold evaluateInstallEligibility at hfreely
    rw [hparse] at hfreely
    obtain ⟨l, hends⟩ := ends_of_freely hfreely
    cases hends
  | ok parsed => rw [parseTexts_eq hparse]

theorem exists_answer_without_codes {now : IsoTime} (hparse : request.parse = .ok request)
    (h : Unobjectionable s request (request.evaluatedAt.getD now)) :
    ∃ script snapshot s', (evaluateInstallEligibility request).freely registryAnswers script s = some (.ok snapshot, s') ∧
      snapshot.blockReasonCodes = [] := by
  obtain ⟨package, release, hpackage, hrelease, htier, hstatus, hmoderation, hcompatibility, hoverride, hmetadata⟩ := h
  let env : RegistryEnv := ⟨now, ⟨"id", by decide⟩, .error "", .error ""⟩
  let snapshot := evaluateRegistryEligibility request package release (validateRegistryMetadataChain
    (ownValidationInput release.metadataChain release.sourceHash (request.evaluatedAt.getD now)))
    (request.evaluatedAt.getD now)
  refine ⟨if request.evaluatedAt.isSome then [env, env] else [env, env, env, env], snapshot, s, ?_,
    blockReasonCodes_eq_nil.mpr ⟨htier, hstatus, hmoderation, hcompatibility, hoverride, ownValidation_eq_nil.mpr hmetadata⟩⟩
  unfold evaluateInstallEligibility
  rw [hparse]
  cases hgiven : request.evaluatedAt with
  | some evaluatedAt =>
    show (evaluateRecords request (s.packages.find? request.packageId) (s.releases.find? request.releaseId)).alone
      registryAnswers _ [] _ s = _
    rw [hpackage, hrelease]
    unfold evaluateRecords timestampOf snapshot
    rw [hgiven]
    rfl
  | none =>
    show (evaluateRecords request (s.packages.find? request.packageId) (s.releases.find? request.releaseId)).alone
      registryAnswers _ [env, env] _ s = _
    rw [hpackage, hrelease]
    unfold evaluateRecords timestampOf snapshot
    rw [hgiven]
    rfl

end Evaluates

/-- The answer to a request is blocked, and only answers about the package's own releases are not. -/
structure Moderated (h : History) (request : RegistryEligibilityRequest) : Prop where
  blocked : (h.standing request.packageId).blocks = true → ∀ script snapshot s',
    (evaluateInstallEligibility request).freely registryAnswers script h.state = some (.ok snapshot, s') →
      .distributionBlocked ∈ snapshot.blockReasonCodes
  belongs : ∀ script snapshot s',
    (evaluateInstallEligibility request).freely registryAnswers script h.state = some (.ok snapshot, s') →
      snapshot.blockReasonCodes = [] → Belongs h.state request

theorem Kept.blocked {h : History} (hkept : Kept h) {request : RegistryEligibilityRequest}
    (hblocks : (h.standing request.packageId).blocks = true)
    (hcodes : AnswerCodes h.state request codes) : .distributionBlocked ∈ codes := by
  cases hcodes with
  | unknown => exact List.mem_singleton_self _
  | @known package release now evaluatedAt hpackage hrelease =>
    refine distributionBlocked_mem ?_
    rcases Bool.or_eq_true _ _ ▸ hblocks with hdistribution | hmoderation
    · obtain ⟨stored, hstored, hstatus⟩ := hkept.distribution request.packageId (of_decide_eq_true hdistribution)
      cases hpackage.symm.trans hstored
      exact .inl hstatus
    · obtain ⟨stored, hstored, hstatus⟩ := hkept.moderation request.packageId hmoderation
      cases hpackage.symm.trans hstored
      exact .inr hstatus

/-- **Moderation.** As long as no release is submitted that undoes a block, a block that stands is reported; and only
answers about the package's own releases are without codes, unless nothing stands against the other release. -/
theorem moderation_kept {hs : List (RegistryCall × List RegistryEnv)} {h : History}
    (hrun : Run (Guarded Acts SubmissionKept) .start hs h) (request : RegistryEligibilityRequest) :
    ((h.standing request.packageId).blocks = true → ∀ script snapshot s',
      (evaluateInstallEligibility request).freely registryAnswers script h.state = some (.ok snapshot, s') →
        .distributionBlocked ∈ snapshot.blockReasonCodes) ∧
    (Moderated h request ↔ Belongs h.state request ∨ request.parse ≠ .ok request ∨
      ∀ now, ¬Unobjectionable h.state request (request.evaluatedAt.getD now)) := by
  have hblocked : (h.standing request.packageId).blocks = true → ∀ script snapshot s',
      (evaluateInstallEligibility request).freely registryAnswers script h.state = some (.ok snapshot, s') →
        .distributionBlocked ∈ snapshot.blockReasonCodes :=
    fun hblocks script snapshot s' hfreely => (kept_of_run hrun).blocked hblocks (answerCodes_of_freely hfreely)
  refine ⟨hblocked, fun hmoderated => ?_, fun hcondition => ⟨hblocked, fun script snapshot s' hfreely hnil => ?_⟩⟩
  · by_contra hnone
    obtain ⟨hforeign, hrest⟩ := not_or.mp hnone
    obtain ⟨hparse, hobject⟩ := not_or.mp hrest
    push Not at hparse hobject
    obtain ⟨now, hobject⟩ := hobject
    obtain ⟨script, snapshot, s', hfreely, hnil⟩ := exists_answer_without_codes hparse hobject
    exact hforeign (hmoderated.belongs script snapshot s' hfreely hnil)
  · rcases hcondition with hbelongs | hinvalid | hobject
    · exact hbelongs
    · exact absurd (parse_of_freely hfreely) hinvalid
    · obtain ⟨now, hun⟩ := (answerCodes_of_freely hfreely).eq_nil hnil
      exact absurd hun (hobject now)

/-! ## A block that publishing undoes -/

section Republished

def publishTime : IsoTime := ⟨"2026-03-06T20:30:00.000Z", 1772829000000⟩

def expiryTime : IsoTime := ⟨"2027-03-06T20:30:00.000Z", 1804365000000⟩

/-- Each call takes its id from here; nothing fails. -/
def registryEnv (id : NonemptyText) : RegistryEnv := ⟨publishTime, id, .ok ⟨"witness-1", by decide⟩, .ok none⟩

def firstPartyRelease (packageId : String) : RegistryReleaseSubmissionInput where
  projectId := none
  packageId := packageId
  packageVersion := "1.0.0"
  originClass := .nousFirstParty
  registered := true
  signingKeyId := "key-1"
  sourceHash := "sha256:a"
  dataSchemaVersions := ["1"]
  metadataChain := ⟨1, 1, 1, 1, ["root-1"], expiryTime, "sha256:a"⟩
  maintainerIds := ["maintainer-1"]
  publishedAt := some publishTime

def globalBlock (packageId : String) : RegistryGovernanceActionInput where
  actionType := .applyModerationAction
  packageId := some packageId
  releaseId := none
  maintainerId := none
  actorId := "principal"
  reasonCode := "malware"
  targetDistributionStatus := none
  targetModerationState := some .globalBlock
  targetVerificationState := none
  targetSigningKeyId := none
  approvalEvidenceRef := none
  evidenceRefs := []

def installRequest (packageId releaseId : String) : RegistryEligibilityRequest :=
  ⟨none, packageId, releaseId, false, false, some publishTime⟩

/-- A package, its first release and its block. -/
def blockedCalls : List (RegistryCall × List RegistryEnv) :=
  [(.submitRelease (firstPartyRelease "package-1"), .replicate 6 (registryEnv ⟨"release-1", by decide⟩)),
    (.applyGovernanceAction (globalBlock "package-1"), .replicate 6 (registryEnv ⟨"action-1", by decide⟩))]

def republishedCalls : List (RegistryCall × List RegistryEnv) :=
  blockedCalls ++ [(.submitRelease (firstPartyRelease "package-1"), .replicate 5 (registryEnv ⟨"release-2", by decide⟩))]

def foreignCalls : List (RegistryCall × List RegistryEnv) :=
  [(.submitRelease (firstPartyRelease "package-1"), .replicate 6 (registryEnv ⟨"release-1", by decide⟩)),
    (.submitRelease (firstPartyRelease "package-2"), .replicate 5 (registryEnv ⟨"release-2", by decide⟩))]

instance (h : History) : ∀ c, Decidable (SubmissionKept h c)
  | (.submitRelease _, _) => inferInstanceAs (Decidable (_ → _ ∨ _ ∧ _))
  | (.evaluateInstallEligibility _, _) | (.applyGovernanceAction _, _) | (.submitAppeal _, _)
  | (.resolveAppeal _, _) => inferInstanceAs (Decidable True)

/-- The request is answered without codes, at the end of these calls. -/
def installs (h : History) (request : RegistryEligibilityRequest) : Bool :=
  ((evaluateInstallEligibility request).freely registryAnswers (.replicate 2 (registryEnv ⟨"id", by decide⟩)) h.state).any
    fun answer => answer.1.toOption.any (·.blockReasonCodes = [])

theorem exists_answer_of_installs {h : History} {request : RegistryEligibilityRequest}
    (hinstalls : installs h request = true) : ∃ script snapshot s',
      (evaluateInstallEligibility request).freely registryAnswers script h.state = some (.ok snapshot, s') ∧
        snapshot.blockReasonCodes = [] := by
  obtain ⟨⟨y, s'⟩, hfreely, hy⟩ := (Option.any_eq_true _ _).mp hinstalls
  obtain ⟨snapshot, hok, hnil⟩ := (Option.any_eq_true _ _).mp hy
  cases y with
  | error e => cases hok
  | ok answer =>
    obtain rfl := Option.some.inj hok
    exact ⟨_, answer, s', hfreely, of_decide_eq_true hnil⟩

theorem moderation_kept_of_block : ∃ h, Run (Guarded Acts SubmissionKept) .start blockedCalls h ∧
    ∀ script snapshot s', (evaluateInstallEligibility (installRequest "package-1" "release-1")).freely registryAnswers
      script h.state = some (.ok snapshot, s') → .distributionBlocked ∈ snapshot.blockReasonCodes := by
  obtain ⟨h, hfold, hblocks⟩ := exists_foldlM_of_check (guardStep History.act SubmissionKept) blockedCalls .start
    (fun h => (h.standing "package-1").blocks) (by decide +kernel)
  have hrun := run_of_guardStep hfold
  exact ⟨h, hrun, (moderation_kept hrun (installRequest "package-1" "release-1")).1 hblocks⟩

/-- A new release ends the block of its package, and a package is answered for with the release of another. -/
theorem block_undone :
    (¬∀ hs h, Run Acts .start hs h → ∀ request, (h.standing request.packageId).blocks = true → ∀ script snapshot s',
      (evaluateInstallEligibility request).freely registryAnswers script h.state = some (.ok snapshot, s') →
        .distributionBlocked ∈ snapshot.blockReasonCodes) ∧
    ¬∀ hs h, Run Acts .start hs h → ∀ request script snapshot s',
      (evaluateInstallEligibility request).freely registryAnswers script h.state = some (.ok snapshot, s') →
        snapshot.blockReasonCodes = [] → Belongs h.state request := by
  refine ⟨fun hall => ?_, fun hall => ?_⟩
  · obtain ⟨h, hfold, hcheck⟩ := exists_foldlM_of_check History.act republishedCalls .start
      (fun h => (h.standing "package-1").blocks && installs h (installRequest "package-1" "release-2"))
      (by decide +kernel)
    obtain ⟨hblocks, hinstalls⟩ := Bool.and_eq_true_iff.mp hcheck
    obtain ⟨script, snapshot, s', hfreely, hnil⟩ := exists_answer_of_installs hinstalls
    have hmem := hall _ h (run_of_foldlM hfold) (installRequest "package-1" "release-2") hblocks script snapshot s' hfreely
    rw [hnil] at hmem
    cases hmem
  · obtain ⟨h, hfold, hcheck⟩ := exists_foldlM_of_check History.act foreignCalls .start
      (fun h => (h.state.releases.find? "release-2").all (·.packageId ≠ "package-1") &&
        installs h (installRequest "package-1" "release-2")) (by decide +kernel)
    obtain ⟨hforeign, hinstalls⟩ := Bool.and_eq_true_iff.mp hcheck
    obtain ⟨script, snapshot, s', hfreely, hnil⟩ := exists_answer_of_installs hinstalls
    obtain ⟨release, hrelease, hpackage⟩ := hall _ h (run_of_foldlM hfold) _ script snapshot s' hfreely hnil
    have hrelease : h.state.releases.find? "release-2" = some release := hrelease
    rw [hrelease] at hforeign
    exact of_decide_eq_true hforeign hpackage

end Republished

end NousCore.Registry
