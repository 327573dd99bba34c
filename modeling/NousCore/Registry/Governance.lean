import NousCore.Registry.Service
import NousCore.Lib.Isolation

/-!
# What the calls do to the packages

* `Standing` : what governance actions have set for a package, and not set back since; `Standing.blocks`;
* `Acts` : one call after the other, with what then stands;
* `meets_submitRelease`, `meets_applyGovernanceAction`, `meets_resolveAppeal` : the packages that a call leaves.
-/

namespace NousCore.Registry

open Async

/-! ## What governance has set -/

structure Standing where
  distribution : RegistryDistributionStatus
  moderation : Option RegistryModerationState

def Standing.none : Standing := ⟨.active, Option.none⟩

def Standing.blocks (standing : Standing) : Bool :=
  standing.distribution ≠ .active || standing.moderation.any (·.blocks)

def RegistryGovernanceActionInput.distributionSet (action : RegistryGovernanceActionInput) :
    Option RegistryDistributionStatus :=
  match action.targetDistributionStatus with
  | some status => some status
  | Option.none => if action.actionType = .changeDistributionStatus then some .blocked else Option.none

def RegistryGovernanceActionInput.moderationSet (action : RegistryGovernanceActionInput) :
    Option RegistryModerationState :=
  match action.targetModerationState with
  | some state => some state
  | Option.none => if action.actionType = .applyModerationAction then some .distributionHold else Option.none

def Standing.after (standing : Standing) (action : RegistryGovernanceActionInput) : Standing where
  distribution := action.distributionSet.getD standing.distribution
  moderation := action.moderationSet.or standing.moderation

/-- The registry, and what governance has set for each package. -/
structure History where
  state : RegistryState
  standing : String → Standing

def History.start : History := ⟨.empty, fun _ => .none⟩

/-- What stands after a call: an action that was applied to a package of the registry sets what it sets. -/
def History.standingAfter (h : History) : RegistryCall → Except RegistryError RegistryResult → String → Standing
  | .applyGovernanceAction input, .ok _ =>
    match input.packageId with
    | some packageId =>
      if (h.state.packages.find? packageId).isSome then
        Function.update h.standing packageId ((h.standing packageId).after input)
      else h.standing
    | Option.none => h.standing
  | _, _ => h.standing

/-- One call, with the choices of the environment. -/
def History.act (h : History) (c : RegistryCall × List RegistryEnv) : Except String History :=
  match c.1.run.freely registryAnswers c.2 h.state with
  | some (y, state) => .ok ⟨state, h.standingAfter c.1 y⟩
  | Option.none => .error "script"

def Acts : History → RegistryCall × List RegistryEnv → History → Prop := Succeeds History.act

theorem acts_cases {h h' : History} {c : RegistryCall × List RegistryEnv} (hacts : Acts h c h') :
    ∃ y, c.1.run.freely registryAnswers c.2 h.state = some (y, h'.state) ∧ h'.standing = h.standingAfter c.1 y := by
  unfold Acts Succeeds History.act at hacts
  split at hacts
  · rename_i y state hrun
    cases hacts
    exact ⟨y, hrun, rfl⟩
  · cases hacts

/-! ## Calls that save no package -/

def RegistryOp.keepsPackages : RegistryOp → Bool
  | .savePackage _ => false
  | _ => true

section Keeps

variable {s : RegistryState} {l : Log RegistryOp.Answer} {α β : Type}

theorem packages_of_answers {o : RegistryOp} {env : RegistryEnv} {s s' : RegistryState} {r : o.Answer}
    (ho : o.keepsPackages = true) (hanswers : registryAnswers o env s = some (r, s')) : s.packages = s'.packages := by
  cases o with
  | savePackage => cases ho
  | _ =>
    cases hanswers
    rfl

theorem meets_keeps {p : RegistryM α} (hp : p.Every (RegistryOp.keepsPackages · = true)) :
    p.Meets registryAnswers .alone (fun _ _ t => s.packages = t.packages) l s :=
  have htrans : ∀ s t u : RegistryState, s.packages = t.packages → t.packages = u.packages → s.packages = u.packages :=
    fun _ _ _ h h' => h.trans h'
  meets_alone_of_every (R := fun s t => s.packages = t.packages) (fun _ => rfl) htrans
    (fun _ _ _ _ _ ho hanswers => packages_of_answers ho hanswers) hp l s

variable {p : RegistryM β}

theorem meets_bind_of_keeps {f : β → RegistryM α} {P : Except RegistryError α → RegistryState → Prop}
    (hp : p.Every (RegistryOp.keepsPackages · = true))
    (hok : ∀ b l t, s.packages = t.packages → (f b).Meets registryAnswers .alone (fun _ => P) l t)
    (herror : ∀ e t, s.packages = t.packages → P (.error e) t) :
    (p >>= f).Meets registryAnswers .alone (fun _ => P) l s := by
  refine meets_bind.mpr ((meets_keeps hp).mono fun l y t ht => ?_)
  cases y with
  | ok b => exact hok b l t ht
  | error e => exact herror e t ht

theorem every_map (f : β → α) (hp : p.Every (RegistryOp.keepsPackages · = true)) :
    (f <$> p).Every (RegistryOp.keepsPackages · = true) :=
  every_bind hp fun _ => trivial

theorem meets_map_result (f : β → α) {c : Contract RegistryOp.Answer RegistryEnv RegistryState}
    {P : RegistryState → Prop} (hp : p.Meets registryAnswers c (fun _ _ t => P t) l s) :
    (f <$> p).Meets registryAnswers c (fun _ _ t => P t) l s :=
  meets_map.mpr hp

theorem every_timestampOf (given : Option IsoTime) : (timestampOf given).Every (RegistryOp.keepsPackages · = true) := by
  cases given with
  | none => exact ⟨rfl, fun _ => trivial⟩
  | some timestamp => trivial

theorem every_nextId : nextId.Every (RegistryOp.keepsPackages · = true) := ⟨rfl, fun _ => trivial⟩

theorem every_now : now.Every (RegistryOp.keepsPackages · = true) := ⟨rfl, fun _ => trivial⟩

theorem every_orFail (outcome : Except String α) : (orFail outcome).Every (RegistryOp.keepsPackages · = true) :=
  every_unwrap _

theorem every_recordWitness (actionRef : String) (succeeded : Bool) :
    (recordWitness actionRef succeeded).Every (RegistryOp.keepsPackages · = true) :=
  every_bind (every_perform rfl) fun _ => every_bind (every_orFail _) fun _ => trivial

theorem every_ensureMaintainers (signingKeyId : String) (timestamp : IsoTime) (maintainerIds : List String) :
    (ensureMaintainers signingKeyId timestamp maintainerIds).Every (RegistryOp.keepsPackages · = true) := by
  induction maintainerIds with
  | nil => trivial
  | cons maintainerId maintainerIds ih =>
    refine every_bind (every_bind (every_perform rfl) fun existing => ?_) fun _ => every_bind ih fun _ => trivial
    cases existing with
    | none => exact ⟨rfl, fun _ => trivial⟩
    | some existing => trivial

theorem every_escalate (input : RegistryReleaseSubmissionInput) (reasonCodes : List RegistryReasonCode) :
    (escalate input reasonCodes).Every (RegistryOp.keepsPackages · = true) := by
  unfold escalate
  split_ifs
  · exact every_bind (every_perform rfl) fun _ => every_orFail _
  · trivial

theorem every_evaluateInstallEligibility (request : RegistryEligibilityRequest) :
    (evaluateInstallEligibility request).Every (RegistryOp.keepsPackages · = true) := by
  refine every_bind (every_unwrap _) fun parsed => every_bind (every_perform rfl) fun package =>
    every_bind (every_perform rfl) fun release => ?_
  unfold evaluateRecords
  split
  · exact every_bind (every_timestampOf _) fun _ => every_bind (every_timestampOf _) fun _ => trivial
  · exact every_bind (every_timestampOf _) fun _ => trivial

theorem every_submitAppeal (input : RegistryAppealSubmissionInput) :
    (submitAppeal input).Every (RegistryOp.keepsPackages · = true) :=
  every_bind (every_unwrap _) fun _ => every_bind every_now fun _ => every_bind (every_recordWitness _ _) fun _ =>
    every_bind every_nextId fun _ => ⟨rfl, fun _ => trivial⟩

end Keeps

/-! ## Calls that save a package -/

section Calls

variable {s : RegistryState} {l : Log RegistryOp.Answer}

section

variable (input : RegistryReleaseSubmissionInput)

/-- The times at which a release may be submitted: the one that is given, or else what the clock answers first. -/
def submittedAt (script : List RegistryEnv) : Option IsoTime :=
  input.publishedAt.or (script.head?.map (·.now))

theorem meets_timestampOf (script : List RegistryEnv) :
    (timestampOf input.publishedAt).Meets registryAnswers (.within fun l _ env _ => script[l.length]? = some env)
      (fun _ y t => t.packages = s.packages ∧ ∀ timestamp, y = .ok timestamp → timestamp ∈ submittedAt input script)
      [] s := by
  unfold submittedAt
  cases input.publishedAt with
  | some timestamp => exact ⟨rfl, fun t ht => by simpa using (Except.ok.inj ht)⟩
  | none =>
    refine meets_within_call fun env r s' hanswers hfirst => ?_
    cases hanswers
    refine ⟨rfl, fun t ht => ?_⟩
    cases ht
    rw [List.length_nil, ← List.head?_eq_getElem?] at hfirst
    simp [hfirst]

def SubmittedPackage (timestamp : IsoTime) (package : RegistryPackage) : Prop :=
  ∃ releaseId maintainers witnessRef, package =
    (makeSubmission input timestamp releaseId (resolveTrustTier input maintainers) witnessRef).finalPackage timestamp

theorem meets_submitRelease (script : List RegistryEnv) :
    (submitRelease input).Meets registryAnswers (.within fun l _ env _ => script[l.length]? = some env)
      (fun _ _ t => t.packages = s.packages ∨ input.parse = .ok input ∧ ∃ timestamp ∈ submittedAt input script,
        ∃ package, SubmittedPackage input timestamp package ∧ t.packages = s.packages.put package) [] s := by
  refine meets_bind.mpr ((meets_unwrap _).mpr ?_)
  cases hparse : input.parse with
  | error e => exact .inl rfl
  | ok parsed =>
    obtain rfl := parseTexts_eq hparse
    refine meets_bind.mpr ((meets_timestampOf parsed script).mono fun l₁ y s₁ ⟨hs₁, hy⟩ => ?_)
    cases y with
    | error e => exact .inl hs₁
    | ok timestamp =>
      refine Meets.within _ ?_
      refine meets_bind_of_keeps every_nextId (fun releaseId l₂ s₂ hs₂ => ?_)
        fun e t ht => .inl (ht.symm.trans hs₁)
      refine meets_bind_of_keeps (every_ensureMaintainers _ _ _) (fun maintainers l₃ s₃ hs₃ => ?_)
        fun e t ht => .inl ((hs₂.trans ht).symm.trans hs₁)
      refine meets_bind_of_keeps (every_recordWitness _ _) (fun witnessRef l₄ s₄ hs₄ => ?_)
        fun e t ht => .inl ((hs₂.trans (hs₃.trans ht)).symm.trans hs₁)
      have hs : s₄.packages = s.packages := (hs₂.trans (hs₃.trans hs₄)).symm.trans hs₁
      refine meets_alone_call fun env r s₅ hanswers => ?_
      cases hanswers
      refine meets_alone_call fun env r s₆ hanswers => ?_
      cases hanswers
      show (escalate parsed _ >>= _).Meets _ _ _ _ _
      refine meets_bind_of_keeps (every_escalate _ _) (fun escalationId l₅ s₅ hs₅ => ?_) fun e t ht => ?_
      · exact .inr ⟨rfl, timestamp, hy _ rfl, _, ⟨releaseId, maintainers, witnessRef, rfl⟩, by rw [← hs₅, ← hs]⟩
      · exact .inr ⟨rfl, timestamp, hy _ rfl, _, ⟨releaseId, maintainers, witnessRef, rfl⟩, by rw [← ht, ← hs]⟩

end

section

variable (action : RegistryGovernanceAction)

theorem meets_mutatePackage (timestamp : IsoTime) :
    (mutatePackage action timestamp).Meets registryAnswers .alone (fun _ y t => y = .ok () ∧
      ((∀ packageId ∈ action.packageId, s.packages.find? packageId = Option.none) ∧ t.packages = s.packages ∨
        ∃ packageId existing, action.packageId = some packageId ∧ s.packages.find? packageId = some existing ∧
          t.packages = s.packages.put (governedPackage action timestamp existing))) l s := by
  unfold mutatePackage
  cases hid : action.packageId with
  | none => exact ⟨rfl, .inl ⟨by simp, rfl⟩⟩
  | some packageId =>
    refine meets_alone_call fun env r s₁ hanswers => ?_
    cases hanswers
    cases hfind : s.packages.find? packageId with
    | none => exact ⟨rfl, .inl ⟨by simp [hfind], rfl⟩⟩
    | some existing =>
      refine meets_alone_call fun env r s₁ hanswers => ?_
      cases hanswers
      exact ⟨rfl, .inr ⟨packageId, existing, rfl, hfind, rfl⟩⟩

theorem meets_mutateRelease :
    (mutateRelease action).Meets registryAnswers .alone
      (fun _ y t => y = .ok () ∧ t.packages = s.packages) l s := by
  unfold mutateRelease
  cases action.releaseId with
  | none => exact ⟨rfl, rfl⟩
  | some releaseId =>
    refine meets_alone_call fun env r s₁ hanswers => ?_
    cases hanswers
    cases hfind : s.releases.find? releaseId with
    | none => exact ⟨rfl, rfl⟩
    | some existing =>
      cases action.targetDistributionStatus with
      | none => exact ⟨rfl, rfl⟩
      | some status =>
        refine meets_alone_call fun env r s₁ hanswers => ?_
        cases hanswers
        exact ⟨rfl, rfl⟩

theorem meets_mutateMaintainer (timestamp : IsoTime) :
    (mutateMaintainer action timestamp).Meets registryAnswers .alone
      (fun _ y t => y = .ok () ∧ t.packages = s.packages) l s := by
  unfold mutateMaintainer
  cases action.maintainerId with
  | none => exact ⟨rfl, rfl⟩
  | some maintainerId =>
    refine meets_alone_call fun env r s₁ hanswers => ?_
    cases hanswers
    refine meets_alone_call fun env r s₁ hanswers => ?_
    cases hanswers
    exact ⟨rfl, rfl⟩

def PackagesGoverned (timestamp : IsoTime) (s t : RegistryState) : Prop :=
  (∀ packageId ∈ action.packageId, s.packages.find? packageId = Option.none) ∧ t.packages = s.packages ∨
    ∃ packageId existing, action.packageId = some packageId ∧ s.packages.find? packageId = some existing ∧
      t.packages = s.packages.put (governedPackage action timestamp existing)

theorem meets_applyGovernanceMutation (timestamp : IsoTime) :
    (applyGovernanceMutation action timestamp).Meets registryAnswers .alone
      (fun _ y t => y = .ok () ∧ PackagesGoverned action timestamp s t) l s := by
  refine meets_bind.mpr ((meets_mutatePackage action timestamp).mono fun l₁ y s₁ ⟨hy, hs₁⟩ => ?_)
  subst hy
  refine meets_bind.mpr ((meets_mutateRelease action).mono fun l₂ y s₂ ⟨hy, hs₂⟩ => ?_)
  subst hy
  refine (meets_mutateMaintainer action timestamp).mono fun l₃ y s₃ ⟨hy, hs₃⟩ => ⟨hy, ?_⟩
  unfold PackagesGoverned
  rw [hs₃, hs₂]
  exact hs₁

end

/-- An action sets what it sets on the package that it names, or fails before. -/
structure Governed (input : RegistryGovernanceActionInput) (s t : RegistryState) (applied : Bool) : Prop where
  failed : applied = false → t.packages = s.packages
  missing : (∀ packageId ∈ input.packageId, s.packages.find? packageId = Option.none) → t.packages = s.packages
  set : ∀ packageId existing, applied = true → input.packageId = some packageId →
    s.packages.find? packageId = some existing → ∃ package : RegistryPackage, package.packageId = packageId ∧
      package.distributionStatus = input.distributionSet.getD existing.distributionStatus ∧
      package.moderationState = input.moderationSet.or existing.moderationState ∧
      t.packages = s.packages.put package

theorem nextDistribution_eq (action : RegistryGovernanceActionInput) (status : RegistryDistributionStatus) :
    nextDistribution action status = action.distributionSet.getD status := by
  unfold nextDistribution RegistryGovernanceActionInput.distributionSet
  cases action.targetDistributionStatus with
  | some target => rfl
  | none =>
    split_ifs <;> rfl

theorem nextModeration_eq (action : RegistryGovernanceActionInput) (state : Option RegistryModerationState) :
    nextModeration action state = action.moderationSet.or state := by
  unfold nextModeration RegistryGovernanceActionInput.moderationSet
  cases action.targetModerationState with
  | some target => rfl
  | none =>
    split_ifs <;> rfl

variable {input : RegistryGovernanceActionInput}

theorem governed_of_failed {s t : RegistryState} (h : t.packages = s.packages) : Governed input s t false :=
  ⟨fun _ => h, fun _ => h, fun _ _ happlied => by cases happlied⟩

theorem governed_of_packagesGoverned {action : RegistryGovernanceAction}
    {timestamp : IsoTime} {s s' t : RegistryState} (hid : action.packageId = input.packageId)
    (hdistribution : action.distributionSet = input.distributionSet)
    (hmoderation : action.moderationSet = input.moderationSet) (hs : s.packages = s'.packages)
    (h : PackagesGoverned action timestamp s' t) : Governed input s t true := by
  unfold PackagesGoverned at h
  rw [hid, ← hs] at h
  refine ⟨fun hfailed => (by cases hfailed), fun hmissing => ?_, fun packageId existing _ hinput hfind => ?_⟩
  · rcases h with ⟨-, hsame⟩ | ⟨packageId, existing, hinput, hfind, -⟩
    · exact hsame
    · rw [hmissing packageId hinput] at hfind
      cases hfind
  · rcases h with ⟨hmissing, -⟩ | ⟨packageId', existing', hinput', hfind', hput⟩
    · rw [hmissing packageId hinput] at hfind
      cases hfind
    · cases hinput.symm.trans hinput'
      cases hfind.symm.trans hfind'
      have hkey : existing.packageId = packageId := s.packages.keyed _ _ hfind
      refine ⟨governedPackage action timestamp existing, hkey, ?_, ?_, hput⟩
      · exact (nextDistribution_eq _ _).trans (by rw [hdistribution])
      · exact (nextModeration_eq _ _).trans (by rw [hmoderation])

theorem meets_applyGovernanceAction (input : RegistryGovernanceActionInput) :
    (applyGovernanceAction input).Meets registryAnswers .alone
      (fun _ y t => Governed input s t y.isOk) l s := by
  refine meets_bind.mpr ((meets_unwrap _).mpr ?_)
  cases hparse : input.parse with
  | error e => exact governed_of_failed rfl
  | ok parsed =>
    obtain rfl := parseTexts_eq hparse
    refine meets_bind.mpr ((meets_unwrap _).mpr ?_)
    cases assertGovernanceAuthority parsed with
    | error e => exact governed_of_failed rfl
    | ok =>
      refine meets_bind_of_keeps every_now (fun timestamp l₁ s₁ hs₁ => ?_) fun e t ht => governed_of_failed ht.symm
      refine meets_bind_of_keeps every_nextId (fun actionId l₂ s₂ hs₂ => ?_)
        fun e t ht => governed_of_failed (hs₁.trans ht).symm
      refine meets_bind_of_keeps (every_recordWitness _ _) (fun witnessRef l₃ s₃ hs₃ => ?_)
        fun e t ht => governed_of_failed (hs₁.trans (hs₂.trans ht)).symm
      have hs : s.packages = s₃.packages := hs₁.trans (hs₂.trans hs₃)
      refine meets_alone_call fun env r s₄ hanswers => ?_
      cases hanswers
      show (applyGovernanceMutation _ _ >>= _).Meets _ _ _ _ _
      refine meets_bind.mpr ((meets_applyGovernanceMutation _ timestamp).mono fun l₅ y s₅ ⟨hy, hs₅⟩ => ?_)
      subst hy
      exact governed_of_packagesGoverned rfl rfl rfl hs hs₅

end Calls

section Appeals

variable {s : RegistryState} {l : Log RegistryOp.Answer}

theorem meets_resolveAppeal (input : RegistryAppealResolutionInput) :
    (resolveAppeal input).Meets registryAnswers .alone (fun _ _ t => t.packages = s.packages ∨
      ∃ existing applied, Governed (resolutionAction existing input) s t applied) l s := by
  refine meets_bind.mpr ((meets_unwrap _).mpr ?_)
  cases hparse : input.parse with
  | error e => exact .inl rfl
  | ok parsed =>
    obtain rfl := parseTexts_eq hparse
    refine meets_alone_call fun env r s₁ hanswers => ?_
    cases hanswers
    cases s.appeals.find? parsed.appealId with
    | none => exact .inl rfl
    | some existing =>
      show (applyGovernanceAction (resolutionAction existing parsed) >>= _).Meets _ _ _ _ _
      refine meets_bind.mpr ((meets_applyGovernanceAction _).mono fun l₁ y s₁ hgoverned => ?_)
      cases y with
      | error e => exact .inr ⟨existing, _, hgoverned⟩
      | ok action =>
        refine meets_alone_call fun env r s₂ hanswers => ?_
        cases hanswers
        refine meets_alone_call fun env r s₂ hanswers => ?_
        cases hanswers
        exact .inr ⟨existing, _, hgoverned.failed, hgoverned.missing, hgoverned.set⟩

end Appeals

end NousCore.Registry
