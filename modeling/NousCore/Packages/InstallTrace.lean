import NousCore.Packages.Installer
import NousCore.Packages.LifecycleGates

/-!
# What a failed installation leaves

Nothing that the orchestrator has written is undone, and a package that is taken out is put back only from the backup of
its own update. So a failed installation leaves no trace when its first package is refused before anything is written.

* `Older`, `Recorded` : records that have only grown older, and a record that has;
* `noTrace_iff` : when a failed installation leaves no trace.
-/

namespace NousCore.Packages

open Fallible FileSystem

/-! ## Records grow older -/

/-- Every record is still there, at its version or a later one. -/
def Older (before after : LifecycleRecords) : Prop :=
  ∀ key record, before.get? key = some record → ∃ record', after.get? key = some record' ∧
    record.version ≤ record'.version

/-- Some record is at a later version, or is new. -/
def Recorded (before after : LifecycleRecords) : Prop :=
  ∃ key record, after.get? key = some record ∧ ∀ old, before.get? key = some old → old.version < record.version

section Records

variable {before mid after : LifecycleRecords}

theorem Older.refl (records : LifecycleRecords) : Older records records := fun _ record h => ⟨record, h, le_rfl⟩

theorem Older.trans (h : Older before mid) (h' : Older mid after) : Older before after := by
  intro key record hrecord
  obtain ⟨record', hrecord', hle⟩ := h key record hrecord
  obtain ⟨record'', hrecord'', hle'⟩ := h' key record' hrecord'
  exact ⟨record'', hrecord'', hle.trans hle'⟩

theorem Recorded.trans (h : Recorded before mid) (h' : Older mid after) : Recorded before after := by
  obtain ⟨key, record, hrecord, hlater⟩ := h
  obtain ⟨record', hrecord', hle⟩ := h' key record hrecord
  exact ⟨key, record', hrecord', fun old hold => lt_of_lt_of_le (hlater old hold) hle⟩

theorem Recorded.ne (h : Recorded before after) : ¬∀ key, after.get? key = before.get? key := by
  intro hsame
  obtain ⟨key, record, hrecord, hlater⟩ := h
  exact lt_irrefl _ (hlater record ((hsame key).symm.trans hrecord))

end Records

def effectOf (env : InstallEnvironment) (request : PackageLifecycleTransitionRequest) (world : InstallWorld) :
    LifecycleEffect :=
  handle (env.lifecycle world.lifecycleCalls) request.targetTransition (.parsed request)
    ⟨world.records, world.snapshots, world.records⟩

/-- **A request** leaves the records and is not allowed, or it writes the next version of a record. -/
theorem records_handle (env : InstallEnvironment) (request : PackageLifecycleTransitionRequest) (world : InstallWorld) :
    ((effectOf env request world).records = world.records ∧
      ∀ result, (effectOf env request world).answer = .ok result → result.decision ≠ .allowed) ∨
    ∃ record, record.version = ((world.records.get? request.key).map (·.version)).getD 0 + 1 ∧ ∀ key,
      (effectOf env request world).records.get? key =
        if key = request.key then some record else world.records.get? key := by
  unfold effectOf handle executeTransition
  dsimp only
  rw [if_neg (not_not_intro rfl)]
  split_ifs
  · refine records_emitResult.imp_right ?_
    rintro ⟨witnessRef, result, -, -, -, hget⟩
    exact ⟨_, rfl, hget⟩
  · refine records_emitResult.imp_right ?_
    rintro ⟨witnessRef, result, -, -, -, hget⟩
    exact ⟨_, rfl, hget⟩

section Effect

variable {env : InstallEnvironment} {request : PackageLifecycleTransitionRequest} {world : InstallWorld}

theorem older_effectOf : Older world.records (effectOf env request world).records := by
  rcases records_handle env request world with ⟨hsame, -⟩ | ⟨record, hversion, hget⟩
  · rw [hsame]
    exact .refl _
  · intro key old hold
    by_cases hkey : key = request.key
    · subst hkey
      refine ⟨record, by rw [hget, if_pos rfl], ?_⟩
      rw [hversion, hold]
      exact Nat.le_succ _
    · exact ⟨old, by rw [hget, if_neg hkey, hold], le_rfl⟩

theorem recorded_effectOf (h : ¬((effectOf env request world).records = world.records ∧
    ∀ result, (effectOf env request world).answer = .ok result → result.decision ≠ .allowed)) :
    Recorded world.records (effectOf env request world).records := by
  obtain ⟨record, hversion, hget⟩ := (records_handle env request world).resolve_left h
  refine ⟨request.key, record, by rw [hget, if_pos rfl], fun old hold => ?_⟩
  rw [hversion, hold]
  exact Nat.lt_succ_self _

end Effect

/-! ## The condition -/

/-- The orchestrator answers, does not allow the request, and writes nothing. -/
def Refused (env : InstallEnvironment) (request : PackageLifecycleTransitionRequest) (world : InstallWorld) : Prop :=
  (∃ result, (effectOf env request world).answer = .ok result ∧ result.decision ≠ .allowed) ∧
    (effectOf env request world).records = world.records

/-- The package is refused before anything is written: an update is not staged; a package that is new is not ingested; or
one that is known is stopped by its guards, or has no files yet and then cannot be put in place or is not installed. -/
def FirstUntouched (env : InstallEnvironment) (input : ResolvedNodeInput) (before : InstallWorld) : Prop :=
  if input.isUpdate then Refused env input.stageRequest before
  else if input.currentState.isNone then Refused env input.ingestRequest before
  else evaluateTransitionGuards input.installRequest ≠ none ∨
    (∀ q, q.Within input.target.packagePath → before.files.fileAt q = none) ∧
      ((∃ e, (outcome (Installing.materializePackage env input.release input.target false) before).1 = .error e) ∨
        Refused env input.installRequest before)

/-- What the first package of a resolution is installed with, unless it is missing something. -/
def firstInput (env : InstallEnvironment) (request : InstallServiceRequest) (resolution : PackageResolutionResult)
    (targets : InstallTargets) (before : InstallWorld) : Option ResolvedNodeInput := do
  let packageId ← resolution.installOrder.head?
  let releaseId ← (releaseIdsByPackage resolution).get? packageId
  let release ← (env.getRelease 0 releaseId).toOption.join
  let target ← targets.get? packageId
  let registryEligibility ← (env.evaluateInstallEligibility 0).toOption
  return ⟨request.projectId, release, target, before.records.get? (buildKey request.projectId packageId),
    registryEligibility⟩

/-- The first package to install, if there is one, is refused before anything is written. -/
def NothingBegun (env : InstallEnvironment) (request : InstallServiceRequest) (before : InstallWorld) : Prop :=
  ∀ resolution targets input, env.resolveDependencyGraph request.toPackageInstallRequest = .ok resolution →
    resolution.blocked = false → Installing.installTargets env request resolution = .ok targets →
    firstInput env request resolution targets before = some input → FirstUntouched env input before

def IsPackageDirectory (stores : List CanonicalStoreDescriptor) (p : Path) : Prop :=
  ∃ store ∈ stores, ∃ packageId : PackageId, p = store.absolutePath.resolve (sanitizePackageId packageId.val)

/-- **No trace**: the records of all packages and the files of all package directories are as before. -/
structure NoTrace (stores : List CanonicalStoreDescriptor) (before after : InstallWorld) : Prop where
  records : ∀ key, after.records.get? key = before.records.get? key
  files : ∀ p, IsPackageDirectory stores p → ∀ q, q.Within p → after.files.fileAt q = before.files.fileAt q

/-! ## What the operations keep -/

structure SameLifecycle (before after : InstallWorld) : Prop where
  records : after.records = before.records
  snapshots : after.snapshots = before.snapshots
  lifecycleCalls : after.lifecycleCalls = before.lifecycleCalls

/-- The lifecycle is untouched, and so are the files outside `p`. -/
structure Confined (p : Path) (before after : InstallWorld) : Prop where
  lifecycle : SameLifecycle before after
  files : SameOutside p before.files after.files

theorem SameLifecycle.refl (world : InstallWorld) : SameLifecycle world world := ⟨rfl, rfl, rfl⟩

theorem SameLifecycle.trans {before mid after : InstallWorld} (h : SameLifecycle before mid)
    (h' : SameLifecycle mid after) : SameLifecycle before after :=
  ⟨h'.records.trans h.records, h'.snapshots.trans h.snapshots, h'.lifecycleCalls.trans h.lifecycleCalls⟩

theorem Confined.refl (p : Path) (world : InstallWorld) : Confined p world world := ⟨.refl _, .refl⟩

theorem Confined.trans {p : Path} {before mid after : InstallWorld} (h : Confined p before mid)
    (h' : Confined p mid after) : Confined p before after :=
  ⟨h.lifecycle.trans h'.lifecycle, h.files.trans h'.files⟩

theorem SameLifecycle.effectOf_eq {before after : InstallWorld} (h : SameLifecycle before after)
    (env : InstallEnvironment) (request : PackageLifecycleTransitionRequest) :
    effectOf env request after = effectOf env request before := by
  unfold effectOf
  rw [h.records, h.snapshots, h.lifecycleCalls]

def Ages (before after : InstallWorld) : Prop := Older before.records after.records

theorem SameLifecycle.ages {before after : InstallWorld} (h : SameLifecycle before after) : Ages before after := by
  unfold Ages
  rw [h.records]
  exact .refl _

namespace Installing

variable {env : InstallEnvironment} {world : InstallWorld}

section Respects

variable {R : InstallWorld → InstallWorld → Prop}

theorem respects_ofRegistry {α : Type} (hrefl : ∀ world, R world world) (answer : Except String α) :
    Respects R (ofRegistry answer) := by
  cases answer with
  | ok a => exact respects_pure hrefl a
  | error message => exact respects_throw hrefl _

theorem respects_pathExists (hrefl : ∀ world, R world world) (path : Path) : Respects R (pathExists path) := by
  intro world
  exact hrefl world

theorem respects_failureOf (hrefl : ∀ world, R world world) (reasonCode : String) (packageId : PackageId)
    (detail : String) : Respects R (failureOf reasonCode packageId detail) := by
  unfold failureOf
  split_ifs
  · exact respects_throw hrefl _
  · exact respects_pure hrefl _

end Respects

variable {operation : Extent → FileSystem → FileSystem}

theorem ends_operate : Ends (operate env operation) world
    (fun _ after => after.files = operation whole world.files ∧ SameLifecycle world after)
    fun _ after => ∃ extent, after.files = operation extent world.files ∧ SameLifecycle world after := by
  have hget : Ends (get : Installing InstallWorld) world (fun found after => found = world ∧ after = world)
      fun _ after => ∃ extent, after.files = operation extent world.files ∧ SameLifecycle world after :=
    ends_get ⟨rfl, rfl⟩
  refine ends_bind hget fun found after hfound => ?_
  obtain ⟨rfl, rfl⟩ := hfound
  cases env.runtimeFails after.runtimeCalls with
  | none => exact ends_set ⟨rfl, rfl, rfl, rfl⟩
  | some failure =>
    have hset : Ends (set { after with
          files := operation failure.2 after.files
          runtimeCalls := after.runtimeCalls + 1 } : Installing PUnit) after
        (fun _ left => left.files = operation failure.2 after.files ∧ SameLifecycle after left)
        fun _ left => ∃ extent, left.files = operation extent after.files ∧ SameLifecycle after left :=
      ends_set ⟨rfl, rfl, rfl, rfl⟩
    exact ends_bind hset fun _ left hleft => ends_throw ⟨failure.2, hleft⟩

theorem ends_transition {request : PackageLifecycleTransitionRequest} : Ends (transition env request) world
    (fun result after => (effectOf env request world).answer = .ok result ∧ after.files = world.files ∧
      after.records = (effectOf env request world).records)
    fun _ after => Ages world after := by
  have hget : Ends (get : Installing InstallWorld) world (fun found after => found = world ∧ after = world)
      fun _ after => Ages world after := ends_get ⟨rfl, rfl⟩
  refine ends_bind hget fun found after hfound => ?_
  obtain ⟨rfl, rfl⟩ := hfound
  have hset : Ends (set { after with
        records := (effectOf env request after).records
        snapshots := (effectOf env request after).snapshots
        lifecycleCalls := after.lifecycleCalls + 1 } : Installing PUnit) after
      (fun _ left => left.files = after.files ∧ left.records = (effectOf env request after).records)
      fun _ left => Ages after left := ends_set ⟨rfl, rfl⟩
  refine ends_bind hset fun _ left hleft => ?_
  show Ends (ofRegistry (effectOf env request after).answer) left _ _
  cases hanswer : (effectOf env request after).answer with
  | ok result => exact ends_pure ⟨rfl, hleft⟩
  | error message =>
    refine ends_throw ?_
    unfold Ages
    rw [hleft.2]
    exact older_effectOf

/-! ## The files that are touched -/

theorem confined_operate {p : Path}
    (h : ∀ extent files, SameOutside p files (operation extent files)) : Respects (Confined p) (operate env operation) := by
  intro world
  refine (ends_operate).mono (fun _ after hafter => ⟨hafter.2, ?_⟩) fun _ after hafter => ?_
  · rw [hafter.1]
    exact h _ _
  · obtain ⟨extent, hfiles, hsame⟩ := hafter
    refine ⟨hsame, ?_⟩
    rw [hfiles]
    exact h _ _

theorem sameLifecycle_operate (operation : Extent → FileSystem → FileSystem) :
    Respects SameLifecycle (operate env operation) := by
  intro world
  refine (ends_operate).mono (fun _ after hafter => hafter.2) fun _ after hafter => ?_
  obtain ⟨extent, -, hsame⟩ := hafter
  exact hsame

theorem respects_checkSource {R : InstallWorld → InstallWorld → Prop} (hrefl : ∀ world, R world world)
    (htrans : ∀ a b c, R a b → R b c → R a c) (release : InstallRelease) (backupPath : Option Path) :
    Respects R (checkSource release backupPath) := by
  unfold checkSource
  cases release.installSourcePath with
  | none => exact respects_pure hrefl _
  | some source =>
    refine respects_bind htrans (respects_pathExists hrefl source) fun found => ?_
    cases found with
    | true => exact respects_pure hrefl _
    | false => exact respects_throw hrefl _

variable {release : InstallRelease} {target : CanonicalInstallTarget}

theorem respects_materializePackage {R : InstallWorld → InstallWorld → Prop} (hrefl : ∀ world, R world world)
    (htrans : ∀ a b c, R a b → R b c → R a c)
    {createBackup : Bool} (hroot : Respects R (operate env (makeDirs target.absoluteRootPath)))
    (hbackup : Respects R (backUp env target (if createBackup then some (resolveRollbackPath target) else none)))
    (hremove : Respects R (operate env (remove target.packagePath)))
    (hcopy : Respects R (copyPackage env release target)) :
    Respects R (materializePackage env release target createBackup) := by
  refine respects_bind htrans (respects_checkSource hrefl htrans release _) fun _ => ?_
  refine respects_bind htrans hroot fun _ => respects_bind htrans hbackup fun _ => ?_
  refine respects_bind htrans hremove fun _ => respects_bind htrans (respects_attempt hcopy) fun copied => ?_
  cases copied with
  | error e => exact respects_throw hrefl _
  | ok _ => exact respects_pure hrefl _

theorem sameLifecycle_materializePackage (release : InstallRelease) (target : CanonicalInstallTarget)
    (createBackup : Bool) : Respects SameLifecycle (materializePackage env release target createBackup) := by
  have htrans : ∀ a b c, SameLifecycle a b → SameLifecycle b c → SameLifecycle a c := fun _ _ _ => SameLifecycle.trans
  refine respects_materializePackage .refl htrans (sameLifecycle_operate _) ?_ (sameLifecycle_operate _) ?_
  · cases createBackup with
    | false => exact respects_pure .refl _
    | true =>
      refine respects_bind htrans (respects_pathExists .refl _) fun found => ?_
      cases found with
      | false => exact respects_pure .refl _
      | true => exact respects_bind htrans (sameLifecycle_operate _) fun _ => sameLifecycle_operate _
  · unfold copyPackage
    cases release.installSourcePath with
    | some source => exact sameLifecycle_operate _
    | none => exact respects_bind htrans (sameLifecycle_operate _) fun _ => sameLifecycle_operate _

theorem within_resolve_manifestName (p : Path) : (p.resolve manifestName).Within p := by
  have hname : IsName manifestName := by decide
  rw [show p.resolve manifestName = p.child ⟨manifestName, hname⟩ from Path.resolve_name p ⟨manifestName, hname⟩]
  exact List.prefix_append _ _

theorem confined_materializePackage (release : InstallRelease) (target : CanonicalInstallTarget) :
    Respects (Confined target.packagePath) (materializePackage env release target false) := by
  have htrans : ∀ a b c, Confined target.packagePath a b → Confined target.packagePath b c →
      Confined target.packagePath a c := fun _ _ _ => Confined.trans
  have hdirs : ∀ dir, Respects (Confined target.packagePath) (operate env (makeDirs dir)) :=
    fun dir => confined_operate fun _ _ => sameOutside_makeDirs
  refine respects_materializePackage (.refl _) htrans (hdirs _) (respects_pure (.refl _) _)
    (confined_operate fun _ _ => sameOutside_remove) ?_
  unfold copyPackage
  cases release.installSourcePath with
  | some source => exact confined_operate fun _ _ => sameOutside_copy
  | none =>
    refine respects_bind htrans (hdirs _) fun _ => confined_operate fun _ _ => ?_
    exact sameOutside_write (within_resolve_manifestName _)

theorem sameLifecycle_rollbackMaterializedPackage (target : CanonicalInstallTarget) (selectedVersion : Text)
    (backupPath : Option Path) :
    Respects SameLifecycle (rollbackMaterializedPackage env target selectedVersion backupPath) := by
  have htrans : ∀ a b c, SameLifecycle a b → SameLifecycle b c → SameLifecycle a c := fun _ _ _ => SameLifecycle.trans
  refine respects_bind htrans (sameLifecycle_operate _) fun _ => ?_
  cases backupPath with
  | none => exact respects_pure SameLifecycle.refl _
  | some backupPath =>
    refine respects_bind htrans (respects_pathExists SameLifecycle.refl _) fun found => ?_
    cases found with
    | false => exact respects_pure SameLifecycle.refl _
    | true =>
      refine respects_bind htrans (sameLifecycle_operate _) fun _ => ?_
      exact respects_bind htrans (sameLifecycle_operate _) fun _ => respects_pure SameLifecycle.refl _

theorem ends_rollbackMaterializedPackage {selectedVersion : Text} :
    Ends (rollbackMaterializedPackage env target selectedVersion none) world
      (fun writes after => writes = rollbackWrites target selectedVersion ∧
        after.files = remove target.packagePath whole world.files ∧ SameLifecycle world after) fun _ _ => True := by
  have hremove : Ends (operate env (remove target.packagePath)) world
      (fun _ after => after.files = remove target.packagePath whole world.files ∧ SameLifecycle world after)
      fun _ _ => True := (ends_operate).mono (fun _ _ h => h) fun _ _ _ => trivial
  exact ends_bind hremove fun _ after hafter => ends_pure ⟨rfl, hafter⟩

theorem ends_materializePackage {createBackup : Bool} :
    Ends (materializePackage env release target createBackup) world
      (fun materialized _ => materialized.1 = materializedWrites release target) fun _ _ => True := by
  have hany : ∀ {α : Type} (x : Installing α) (world : InstallWorld), Ends x world (fun _ _ => True) fun _ _ => True := by
    intro α x world
    unfold Ends
    rcases outcome x world with ⟨e | a, after⟩ <;> trivial
  refine ends_bind (hany _ _) fun _ _ _ => ends_bind (hany _ _) fun _ _ _ => ends_bind (hany _ _) fun _ _ _ => ?_
  refine ends_bind (hany _ _) fun _ _ _ => ends_bind (hany _ _) fun copied _ _ => ?_
  cases copied with
  | error e => exact ends_throw trivial
  | ok _ => exact ends_pure rfl

/-! ## Records through an installation -/

theorem ages_of_sameLifecycle {α : Type} {x : Installing α} (h : Respects SameLifecycle x) : Respects Ages x :=
  fun world => (h world).mono (fun _ _ h => h.ages) fun _ _ h => h.ages

theorem ages_refl (world : InstallWorld) : Ages world world := Older.refl _

theorem ages_trans (a b c : InstallWorld) (h : Ages a b) (h' : Ages b c) : Ages a c := Older.trans h h'

theorem ages_transition (request : PackageLifecycleTransitionRequest) : Respects Ages (transition env request) := by
  intro world
  refine ends_transition.mono (fun result after h => ?_) fun _ _ h => h
  unfold Ages
  rw [h.2.2]
  exact older_effectOf

theorem ages_rollback (target : CanonicalInstallTarget) (selectedVersion : Text) (backupPath : Option Path) :
    Respects Ages (rollbackMaterializedPackage env target selectedVersion backupPath) :=
  ages_of_sameLifecycle (sameLifecycle_rollbackMaterializedPackage _ _ _)

theorem ages_materialize (release : InstallRelease) (target : CanonicalInstallTarget) (createBackup : Bool) :
    Respects Ages (Fallible.attempt (materializePackage env release target createBackup)) :=
  respects_attempt (ages_of_sameLifecycle (sameLifecycle_materializePackage _ _ _))

theorem ages_installIngested (input : ResolvedNodeInput) (results : List PackageLifecycleTransitionResult) :
    Respects Ages (installIngested env input results) := by
  unfold installIngested
  cases evaluateTransitionGuards input.installRequest with
  | some guardFailure => exact respects_pure ages_refl _
  | none =>
    refine respects_bind ages_trans (ages_materialize _ _ _) fun materialized => ?_
    cases materialized with
    | error e =>
      refine respects_bind ages_trans (ages_rollback _ _ _) fun _ => ?_
      exact respects_bind ages_trans (respects_failureOf ages_refl _ _ _) fun _ => respects_pure ages_refl _
    | ok materialized =>
      refine respects_bind ages_trans (ages_transition _) fun install => ?_
      split_ifs
      · exact respects_bind ages_trans (ages_rollback _ _ _) fun _ => respects_pure ages_refl _
      · exact respects_pure ages_refl _

theorem ages_installStaged (input : ResolvedNodeInput) (stageUpdate : PackageLifecycleTransitionResult) :
    Respects Ages (installStaged env input stageUpdate) := by
  have hfailure : ∀ (message : String) (next : PackageResolutionFailure → NodeResult), Respects Ages (do
      let failure ← failureOf "PKG-009-INSTALL_WRITE_FAILED" input.release.packageId message
      return next failure) := fun message next =>
    respects_bind ages_trans (respects_failureOf ages_refl _ _ _) fun _ => respects_pure ages_refl _
  refine respects_bind ages_trans (ages_materialize _ _ _) fun materialized => ?_
  cases materialized with
  | error e =>
    refine respects_bind ages_trans (ages_transition _) fun rollbackUpdate => ?_
    cases e with
    | materialization message rollbackNeeded backupPath =>
      cases rollbackNeeded with
      | false => exact hfailure _ _
      | true => exact respects_bind ages_trans (ages_rollback _ _ _) fun _ => hfailure _ _
    | other message => exact respects_bind ages_trans (ages_rollback _ _ _) fun _ => hfailure _ _
  | ok materialized =>
    obtain ⟨writes, backupPath⟩ := materialized
    refine respects_bind ages_trans (ages_transition _) fun commitUpdate => ?_
    split_ifs
    · exact respects_bind ages_trans (ages_rollback _ _ _) fun _ => respects_pure ages_refl _
    · cases backupPath with
      | none => exact respects_pure ages_refl _
      | some backupPath =>
        refine respects_bind ages_trans (respects_pathExists ages_refl _) fun found => ?_
        cases found with
        | false => exact respects_pure ages_refl _
        | true =>
          exact respects_bind ages_trans (ages_of_sameLifecycle (sameLifecycle_operate _)) fun _ =>
            respects_pure ages_refl _

theorem ages_installResolvedNode (input : ResolvedNodeInput) : Respects Ages (installResolvedNode env input) := by
  unfold installResolvedNode
  split_ifs
  · refine respects_bind ages_trans (ages_transition _) fun stageUpdate => ?_
    split_ifs
    · exact respects_pure ages_refl _
    · exact ages_installStaged input stageUpdate
  · unfold installFresh
    cases input.currentState with
    | some current => exact ages_installIngested input []
    | none =>
      refine respects_bind ages_trans (ages_transition _) fun ingest => ?_
      split_ifs
      · exact respects_pure ages_refl _
      · exact ages_installIngested input [ingest]

theorem ages_rollbackPreviouslyAppliedNodes (targets : InstallTargets) : ∀ entries : List PackageInstallJournalEntry,
    Respects Ages (rollbackPreviouslyAppliedNodes env targets entries)
  | [] => respects_pure ages_refl _
  | entry :: entries => by
    unfold rollbackPreviouslyAppliedNodes
    cases targets.get? entry.packageId with
    | none => exact ages_rollbackPreviouslyAppliedNodes targets entries
    | some target =>
      refine respects_bind ages_trans (ages_rollback _ _ _) fun _ => ?_
      exact respects_bind ages_trans (ages_rollbackPreviouslyAppliedNodes targets entries) fun _ =>
        respects_pure ages_refl _

theorem respects_nodeInput {R : InstallWorld → InstallWorld → Prop} (hrefl : ∀ world, R world world)
    (htrans : ∀ a b c, R a b → R b c → R a c) (request : InstallServiceRequest) (turn : Nat) (release : InstallRelease)
    (target : CanonicalInstallTarget) (packageId : PackageId) :
    Respects R (nodeInput env request turn release target packageId) := by
  unfold nodeInput
  cases env.getStateFails turn with
  | some message => exact respects_throw hrefl _
  | none =>
    refine respects_bind htrans (respects_get hrefl) fun world => ?_
    exact respects_bind htrans (respects_ofRegistry hrefl _) fun _ => respects_pure hrefl _

theorem ages_installNodes (request : InstallServiceRequest) (resolution : PackageResolutionResult)
    (targets : InstallTargets) : ∀ (order : List PackageId) (turn : Nat) (progress : InstallProgress),
    Respects Ages (installNodes env request resolution targets turn order progress)
  | [], _, _ => respects_pure ages_refl _
  | packageId :: rest, turn, progress => by
    unfold installNodes
    cases (releaseIdsByPackage resolution).get? packageId with
    | none => exact respects_pure ages_refl _
    | some releaseId =>
      refine respects_bind ages_trans (respects_ofRegistry ages_refl _) fun release => ?_
      cases release with
      | none => exact respects_pure ages_refl _
      | some release =>
        cases targets.get? packageId with
        | none => exact respects_pure ages_refl _
        | some target =>
          refine respects_bind ages_trans (respects_nodeInput ages_refl ages_trans _ _ _ _ _) fun input => ?_
          refine respects_bind ages_trans (ages_installResolvedNode input) fun node => ?_
          rcases node.failure with _ | ⟨status, failure⟩
          · exact ages_installNodes request resolution targets rest (turn + 1) _
          · exact respects_bind ages_trans (ages_rollbackPreviouslyAppliedNodes targets _) fun _ =>
              respects_pure ages_refl _

/-! ## The first package -/

def NoFiles (p : Path) (files : FileSystem) : Prop := ∀ q, q.Within p → files.fileAt q = none

/-- What the first package leaves: something recorded, or a failure that leaves the records and either all files or none
of those its directory had. -/
def FirstPost (env : InstallEnvironment) (input : ResolvedNodeInput) (before : InstallWorld) (node : NodeResult)
    (after : InstallWorld) : Prop :=
  (Recorded before.records after.records ∧ ¬FirstUntouched env input before) ∨
  (node.failure ≠ none ∧ collectAppliedWrites node.writes = [] ∧ after.records = before.records ∧
    ((FirstUntouched env input before ∧ ∀ q, after.files.fileAt q = before.files.fileAt q) ∨
      (¬FirstUntouched env input before ∧ ∃ q, q.Within input.target.packagePath ∧ before.files.fileAt q ≠ none ∧
        after.files.fileAt q = none)))

theorem files_of_emptied {p : Path} {before mid after : FileSystem} (hmid : SameOutside p before mid)
    (hafter : after = remove p whole mid) :
    (NoFiles p before ∧ ∀ q, after.fileAt q = before.fileAt q) ∨
      (¬NoFiles p before ∧ ∃ q, q.Within p ∧ before.fileAt q ≠ none ∧ after.fileAt q = none) := by
  subst hafter
  by_cases hnone : NoFiles p before
  · refine .inl ⟨hnone, fun q => ?_⟩
    by_cases hq : q.Within p
    · rw [fileAt_remove_whole hq, hnone q hq]
    · rw [sameOutside_remove q hq, hmid q hq]
  · refine .inr ⟨hnone, ?_⟩
    unfold NoFiles at hnone
    rw [not_forall] at hnone
    obtain ⟨q, hq⟩ := hnone
    rw [Classical.not_imp] at hq
    exact ⟨q, hq.1, hq.2, fileAt_remove_whole hq.1⟩

theorem collectAppliedWrites_rollback (target : CanonicalInstallTarget) (version : Text) :
    collectAppliedWrites (rollbackWrites target version) = [] := rfl

theorem collectAppliedWrites_undone (release : InstallRelease) (target : CanonicalInstallTarget) :
    collectAppliedWrites (materializedWrites release target ++ rollbackWrites target release.packageVersion) = [] := by
  have happlied : stillApplied (materializedWrites release target ++ rollbackWrites target release.packageVersion) = [] := by
    simp [stillApplied, materializedWrites, rollbackWrites, buildJournalEntry, addToSet]
  unfold collectAppliedWrites
  rw [happlied]
  simp [materializedWrites, rollbackWrites, buildJournalEntry]

theorem recorded_or_refused {request : PackageLifecycleTransitionRequest} {result : PackageLifecycleTransitionResult}
    (hanswer : (effectOf env request world).answer = .ok result) :
    (result.decision ≠ .allowed ∧ Refused env request world) ∨
      (Recorded world.records (effectOf env request world).records ∧ ¬Refused env request world) := by
  by_cases hsame : (effectOf env request world).records = world.records ∧
      ∀ result, (effectOf env request world).answer = .ok result → result.decision ≠ .allowed
  · exact .inl ⟨hsame.2 result hanswer, ⟨result, hanswer, hsame.2 result hanswer⟩, hsame.1⟩
  · have hrecorded := recorded_effectOf hsame
    refine .inr ⟨hrecorded, fun hrefused => hrecorded.ne fun key => ?_⟩
    rw [hrefused.2]

variable {input : ResolvedNodeInput}

theorem ends_installIngested {results : List PackageLifecycleTransitionResult}
    (hupdate : input.isUpdate = false) (hknown : input.currentState.isNone = false) :
    Ends (installIngested env input results) world (FirstPost env input world) fun _ _ => True := by
  have hiff : FirstUntouched env input world ↔ evaluateTransitionGuards input.installRequest ≠ none ∨
      NoFiles input.target.packagePath world.files ∧
        ((∃ e, (outcome (materializePackage env input.release input.target false) world).1 = .error e) ∨
          Refused env input.installRequest world) := by
    unfold FirstUntouched
    rw [hupdate, hknown, if_neg Bool.false_ne_true, if_neg Bool.false_ne_true]
    rfl
  unfold installIngested
  cases hguards : evaluateTransitionGuards input.installRequest with
  | some guardFailure =>
    refine ends_pure (.inr ⟨Option.some_ne_none _, rfl, rfl, .inl ⟨hiff.mpr (.inl ?_), fun q => rfl⟩⟩)
    rw [hguards]
    exact Option.some_ne_none _
  | none =>
    rw [hguards] at hiff
    have hiff : FirstUntouched env input world ↔ NoFiles input.target.packagePath world.files ∧
        ((∃ e, (outcome (materializePackage env input.release input.target false) world).1 = .error e) ∨
          Refused env input.installRequest world) :=
      hiff.trans ⟨fun h => h.resolve_left fun hne => hne rfl, .inr⟩
    refine ends_bind ends_attempt_outcome fun materialized placed hplaced => ?_
    have hconfined := (confined_materializePackage input.release input.target).outcome hplaced
    cases materialized with
    | error e =>
      refine ends_bind ends_rollbackMaterializedPackage fun undone after hafter => ?_
      obtain ⟨rfl, hfiles, hsame⟩ := hafter
      have hfailure : Ends (failureOf "PKG-009-INSTALL_WRITE_FAILED" input.release.packageId e.message) after
          (fun _ left => left = after) fun _ _ => True := by
        unfold failureOf
        split_ifs
        · exact ends_throw trivial
        · exact ends_pure rfl
      refine ends_bind hfailure fun failure left hleft => ?_
      subst hleft
      have hfails : ∃ e, (outcome (materializePackage env input.release input.target false) world).1 = .error e :=
        ⟨e, by rw [hplaced]⟩
      refine ends_pure (.inr ⟨Option.some_ne_none _, collectAppliedWrites_rollback _ _,
        hsame.records.trans hconfined.lifecycle.records, ?_⟩)
      rcases files_of_emptied hconfined.files hfiles with ⟨hnone, hkept⟩ | ⟨hnone, hlost⟩
      · exact .inl ⟨hiff.mpr ⟨hnone, .inl hfails⟩, hkept⟩
      · exact .inr ⟨fun h => hnone (hiff.mp h).1, hlost⟩
    | ok materialized =>
      have hwrites : materialized.1 = materializedWrites input.release input.target := by
        have hend : Ends (materializePackage env input.release input.target false) world
            (fun materialized _ => materialized.1 = materializedWrites input.release input.target) fun _ _ => True :=
          ends_materializePackage
        unfold Ends at hend
        rwa [hplaced] at hend
      have htransition : Ends (transition env input.installRequest) placed
          (fun result after => (effectOf env input.installRequest world).answer = .ok result ∧
            after.files = placed.files ∧ after.records = (effectOf env input.installRequest world).records)
          fun _ _ => True := by
        rw [← hconfined.lifecycle.effectOf_eq env input.installRequest]
        exact ends_transition.mono (fun _ _ h => h) fun _ _ _ => trivial
      refine ends_bind htransition fun install decided hdecided => ?_
      obtain ⟨hanswer, hfiles, hrecords⟩ := hdecided
      have hsucceeds : ¬∃ e, (outcome (materializePackage env input.release input.target false) world).1 = .error e := by
        rintro ⟨e, he⟩
        rw [hplaced] at he
        cases he
      rcases recorded_or_refused hanswer with ⟨hdecision, hrefused⟩ | ⟨hrecorded, hnot⟩
      · rw [if_pos hdecision]
        refine ends_bind ends_rollbackMaterializedPackage fun undone after hafter => ?_
        obtain ⟨rfl, hremoved, hsame⟩ := hafter
        rw [hfiles] at hremoved
        refine ends_pure (.inr ⟨Option.some_ne_none _, ?_, hsame.records.trans (hrecords.trans hrefused.2), ?_⟩)
        · rw [hwrites]
          exact collectAppliedWrites_undone _ _
        · rcases files_of_emptied hconfined.files hremoved with ⟨hnone, hkept⟩ | ⟨hnone, hlost⟩
          · exact .inl ⟨hiff.mpr ⟨hnone, .inr hrefused⟩, hkept⟩
          · exact .inr ⟨fun h => hnone (hiff.mp h).1, hlost⟩
      · have htouched : ¬FirstUntouched env input world := fun h => (hiff.mp h).2.elim hsucceeds hnot
        rw [← hrecords] at hrecorded
        by_cases hdecision : install.decision ≠ .allowed
        · rw [if_pos hdecision]
          refine ends_bind ends_rollbackMaterializedPackage fun undone after hafter => ?_
          refine ends_pure (.inl ⟨?_, htouched⟩)
          rw [hafter.2.2.records]
          exact hrecorded
        · rw [if_neg hdecision]
          exact ends_pure (.inl ⟨hrecorded, htouched⟩)

theorem ends_transition_first {request : PackageLifecycleTransitionRequest}
    (hiff : FirstUntouched env input world ↔ Refused env request world)
    {refusal : PackageLifecycleTransitionResult → PackageInstallStatus × PackageResolutionFailure}
    {next : PackageLifecycleTransitionResult → Installing NodeResult} (hnext : ∀ result, Respects Ages (next result)) :
    Ends (do
      let result ← transition env request
      if result.decision ≠ .allowed then return ⟨[], [result], some (refusal result)⟩ else next result) world
      (FirstPost env input world) fun _ _ => True := by
  have htransition : Ends (transition env request) world
      (fun result after => (effectOf env request world).answer = .ok result ∧ after.files = world.files ∧
        after.records = (effectOf env request world).records) fun _ _ => True :=
    ends_transition.mono (fun _ _ h => h) fun _ _ _ => trivial
  refine ends_bind htransition fun result after hafter => ?_
  obtain ⟨hanswer, hfiles, hrecords⟩ := hafter
  rcases recorded_or_refused hanswer with ⟨hdecision, hrefused⟩ | ⟨hrecorded, hnot⟩
  · rw [if_pos hdecision]
    refine ends_pure (.inr ⟨Option.some_ne_none _, rfl, hrecords.trans hrefused.2,
      .inl ⟨hiff.mpr hrefused, fun q => ?_⟩⟩)
    rw [hfiles]
  · rw [← hrecords] at hrecorded
    have htouched : ¬FirstUntouched env input world := fun h => hnot (hiff.mp h)
    by_cases hdecision : result.decision ≠ .allowed
    · rw [if_pos hdecision]
      exact ends_pure (.inl ⟨hrecorded, htouched⟩)
    · rw [if_neg hdecision]
      exact (hnext result after).mono (fun _ left hleft => .inl ⟨hrecorded.trans hleft, htouched⟩) fun _ _ _ => trivial

theorem ends_installResolvedNode :
    Ends (installResolvedNode env input) world (FirstPost env input world) fun _ _ => True := by
  unfold installResolvedNode
  cases hupdate : input.isUpdate with
  | true =>
    rw [if_pos rfl]
    refine ends_transition_first ?_ fun result => ages_installStaged input result
    unfold FirstUntouched
    rw [if_pos hupdate]
  | false =>
    rw [if_neg Bool.false_ne_true]
    unfold installFresh
    cases hcurrent : input.currentState with
    | some current => exact ends_installIngested hupdate (by rw [hcurrent]; rfl)
    | none =>
      refine ends_transition_first ?_ fun result => ages_installIngested input [result]
      unfold FirstUntouched
      rw [if_neg (by rw [hupdate]; exact Bool.false_ne_true), if_pos (by rw [hcurrent]; rfl)]

/-! ## The packages of a resolution -/

theorem noTrace_refl (stores : List CanonicalStoreDescriptor) (world : InstallWorld) : NoTrace stores world world :=
  ⟨fun _ => rfl, fun _ _ _ _ => rfl⟩

theorem not_noTrace_of_recorded {stores : List CanonicalStoreDescriptor} {before after : InstallWorld}
    (h : Recorded before.records after.records) : ¬NoTrace stores before after := fun hnone => h.ne hnone.records

theorem isPackageDirectory_of_target {request : InstallServiceRequest} {resolution : PackageResolutionResult}
    {targets : InstallTargets} (h : installTargets env request resolution = .ok targets) {packageId : PackageId}
    (hget : targets.get? packageId = some target) :
    IsPackageDirectory (storeOf env.cwd (some request.instanceRoot)) target.packagePath := by
  obtain ⟨node, -, -, htarget⟩ := exists_node_of_target h hget
  unfold installTarget at htarget
  split at htarget
  · cases htarget
  next root hfind =>
    dsimp only at htarget
    split_ifs at htarget
    cases htarget
    exact ⟨root, List.mem_of_find?_eq_some hfind, node.packageId, rfl⟩

theorem ends_ofRegistry {α : Type} {answer : Except String α} : Ends (ofRegistry answer) world
    (fun a after => after = world ∧ answer = .ok a) fun _ _ => True := by
  cases answer with
  | ok a => exact ends_pure ⟨rfl, rfl⟩
  | error message => exact ends_throw trivial

theorem ends_nodeInput {request : InstallServiceRequest} {turn : Nat}
    {packageId : PackageId} :
    Ends (nodeInput env request turn release target packageId) world
      (fun input after => after = world ∧ ∃ eligibility, env.evaluateInstallEligibility turn = .ok eligibility ∧
        input = ⟨request.projectId, release, target, world.records.get? (buildKey request.projectId packageId),
          eligibility⟩) fun _ _ => True := by
  unfold nodeInput
  cases env.getStateFails turn with
  | some message => exact ends_throw trivial
  | none =>
    have hget : Ends (get : Installing InstallWorld) world (fun found after => found = world ∧ after = world)
        fun _ _ => True := ends_get ⟨rfl, rfl⟩
    refine ends_bind hget fun found after hfound => ?_
    obtain ⟨rfl, rfl⟩ := hfound
    refine ends_bind ends_ofRegistry fun eligibility left hleft => ?_
    obtain ⟨rfl, heligibility⟩ := hleft
    exact ends_pure ⟨rfl, eligibility, heligibility, rfl⟩

theorem ends_installNodes_first {request : InstallServiceRequest} {resolution : PackageResolutionResult}
    {targets : InstallTargets} (htargets : installTargets env request resolution = .ok targets) :
    Ends (installNodes env request resolution targets 0 resolution.installOrder ⟨[], []⟩) world
      (fun done after => match done with
        | .inl _ => NoTrace (storeOf env.cwd (some request.instanceRoot)) world after ↔
            ∀ input, firstInput env request resolution targets world = some input → FirstUntouched env input world
        | .inr progress =>
            (progress.writes = [] ∧ after = world ∧ firstInput env request resolution targets world = none) ∨
            (Recorded world.records after.records ∧ ∃ input,
              firstInput env request resolution targets world = some input ∧ ¬FirstUntouched env input world))
      fun _ _ => True := by
  have hnone : firstInput env request resolution targets world = none →
      (NoTrace (storeOf env.cwd (some request.instanceRoot)) world world ↔
        ∀ input, firstInput env request resolution targets world = some input → FirstUntouched env input world) := by
    intro h
    refine ⟨fun _ input hinput => ?_, fun _ => noTrace_refl _ _⟩
    rw [h] at hinput
    cases hinput
  unfold firstInput at hnone ⊢
  cases horder : resolution.installOrder with
  | nil =>
    refine ends_pure (.inl ⟨rfl, rfl, ?_⟩)
    rfl
  | cons packageId rest =>
    rw [horder] at hnone
    unfold installNodes
    cases hreleaseId : (releaseIdsByPackage resolution).get? packageId with
    | none =>
      refine ends_pure (hnone ?_)
      simp [hreleaseId]
    | some releaseId =>
      refine ends_bind ends_ofRegistry fun found after hfound => ?_
      obtain ⟨rfl, hfound⟩ := hfound
      cases found with
      | none =>
        refine ends_pure (hnone ?_)
        simp [hreleaseId, hfound, Except.toOption]
      | some release =>
        cases htarget : targets.get? packageId with
        | none =>
          refine ends_pure (hnone ?_)
          simp [hreleaseId, htarget, Except.toOption]
        | some target =>
          refine ends_bind ends_nodeInput fun input after' hinput => ?_
          obtain ⟨rfl, eligibility, heligibility, hinput⟩ := hinput
          have hfirst : ∀ other, (do
              let packageId ← (packageId :: rest).head?
              let releaseId ← (releaseIdsByPackage resolution).get? packageId
              let release ← (env.getRelease 0 releaseId).toOption.join
              let target ← targets.get? packageId
              let registryEligibility ← (env.evaluateInstallEligibility 0).toOption
              return (⟨request.projectId, release, target,
                after'.records.get? (buildKey request.projectId packageId), registryEligibility⟩ : ResolvedNodeInput)) =
                some other ↔ other = input := by
            intro other
            rw [hinput]
            simp [hreleaseId, hfound, htarget, heligibility, Except.toOption, eq_comm]
          have hall : (∀ other, _ = some other → FirstUntouched env other after') ↔ FirstUntouched env input after' :=
            ⟨fun h => h input ((hfirst input).mpr rfl), fun h other hother => (hfirst other).mp hother ▸ h⟩
          refine ends_bind ends_installResolvedNode fun node left hpost => ?_
          rcases hfailure : node.failure with _ | ⟨status, failure⟩
          · rcases hpost with ⟨hrecorded, htouched⟩ | ⟨hfailed, -⟩
            swap
            · exact absurd hfailure hfailed
            refine (ages_installNodes request resolution targets rest (0 + 1) _ left).mono (fun done final hfinal => ?_)
              fun _ _ _ => trivial
            have hrecorded := hrecorded.trans hfinal
            cases done with
            | inl result => exact ⟨fun h => absurd h (not_noTrace_of_recorded hrecorded), fun h => absurd (hall.mp h) htouched⟩
            | inr progress => exact .inr ⟨hrecorded, input, (hfirst input).mpr rfl, htouched⟩
          · rcases hpost with ⟨hrecorded, htouched⟩ | ⟨-, hwrites, hrecords, hfiles⟩
            · have hback : Ends (rollbackPreviouslyAppliedNodes env targets (collectAppliedWrites ([] ++ node.writes))) left
                  (fun _ final => Recorded after'.records final.records) fun _ _ => True :=
                (ages_rollbackPreviouslyAppliedNodes targets _ left).mono (fun _ final hfinal => hrecorded.trans hfinal)
                  fun _ _ _ => trivial
              refine ends_bind hback fun undone final hfinal => ends_pure ?_
              exact ⟨fun h => absurd h (not_noTrace_of_recorded hfinal), fun h => absurd (hall.mp h) htouched⟩
            · have hback : Ends (rollbackPreviouslyAppliedNodes env targets (collectAppliedWrites ([] ++ node.writes))) left
                  (fun _ final => final = left) fun _ _ => True := by
                rw [List.nil_append, hwrites]
                exact ends_pure rfl
              refine ends_bind hback fun undone final hfinal => ends_pure ?_
              subst hfinal
              rcases hfiles with ⟨huntouched, hsame⟩ | ⟨htouched, q, hq, hbefore, hafter⟩
              · refine ⟨fun _ => hall.mpr huntouched, fun _ => ⟨fun key => ?_, fun _ _ q _ => hsame q⟩⟩
                rw [hrecords]
              · refine ⟨fun h => absurd ?_ hbefore, fun h => absurd (hall.mp h) htouched⟩
                have hplace : input.target = target := by rw [hinput]
                rw [hplace] at hq
                rw [← h.files target.packagePath (isPackageDirectory_of_target htargets htarget) q hq]
                exact hafter

/-- **When a failed installation leaves no trace**: its first package is refused before anything is written. -/
theorem noTrace_iff (env : InstallEnvironment) (request : InstallServiceRequest) (before : InstallWorld)
    {result : PackageInstallResult} {after : InstallWorld}
    (hend : outcome (installPackage env request) before = (.ok result, after)) (hstatus : result.status ≠ .installed) :
    NoTrace (storeOf env.cwd (some request.instanceRoot)) before after ↔ NothingBegun env request before := by
  have hends : Ends (installPackage env request) before
      (fun result after => result.status ≠ .installed →
        (NoTrace (storeOf env.cwd (some request.instanceRoot)) before after ↔ NothingBegun env request before))
      fun _ _ => True := by
    refine ends_bind ends_ofRegistry fun resolution world hresolution => ?_
    obtain ⟨rfl, hresolution⟩ := hresolution
    have hbegun : (∀ targets, resolution.blocked = false → installTargets env request resolution = .ok targets →
        False) → NothingBegun env request world := by
      intro hnone resolution' targets input hresolution' hblocked htargets
      cases hresolution.symm.trans hresolution'
      exact (hnone targets hblocked htargets).elim
    cases hblocked : resolution.blocked with
    | true =>
      refine ends_pure fun _ => ⟨fun _ => hbegun fun _ h => ?_, fun _ => noTrace_refl _ _⟩
      rw [hblocked] at h
      cases h
    | false =>
      rw [if_neg Bool.false_ne_true]
      cases htargets : installTargets env request resolution with
      | error failure =>
        refine ends_pure fun _ => ⟨fun _ => hbegun fun targets _ h => ?_, fun _ => noTrace_refl _ _⟩
        rw [htargets] at h
        cases h
      | ok targets =>
        have hfirst : NothingBegun env request world ↔ ∀ input,
            firstInput env request resolution targets world = some input → FirstUntouched env input world := by
          refine ⟨fun h input hinput => h resolution targets input hresolution hblocked htargets hinput, ?_⟩
          intro h resolution' targets' input hresolution' _ htargets' hinput
          cases hresolution.symm.trans hresolution'
          cases htargets.symm.trans htargets'
          exact h input hinput
        refine ends_bind (ends_installNodes_first htargets) fun done left hdone => ?_
        cases done with
        | inl result => exact ends_pure fun _ => hdone.trans hfirst.symm
        | inr progress =>
          cases credentialSetupError env request resolution with
          | none => exact ends_pure fun h => absurd rfl h
          | some message =>
            have hfailure : ∀ world, Ends (failureOf "PKG-010-OAUTH_FLOW_FAILED" resolution.rootPackageId message) world
                (fun _ after => after = world) fun _ _ => True := by
              intro world
              unfold failureOf
              split_ifs
              · exact ends_throw trivial
              · exact ends_pure rfl
            rcases hdone with ⟨hwrites, rfl, hnone⟩ | ⟨hrecorded, input, hinput, htouched⟩
            · have hback : Ends (rollbackPreviouslyAppliedNodes env targets (collectAppliedWrites progress.writes)) left
                  (fun _ final => final = left) fun _ _ => True := by
                rw [hwrites]
                exact ends_pure rfl
              refine ends_bind hback fun undone final hfinal => ?_
              subst hfinal
              refine ends_bind (hfailure _) fun failure last hlast => ends_pure fun _ => ?_
              subst hlast
              refine ⟨fun _ => hfirst.mpr fun input hinput => ?_, fun _ => noTrace_refl _ _⟩
              rw [hnone] at hinput
              cases hinput
            · have hback : Ends (rollbackPreviouslyAppliedNodes env targets (collectAppliedWrites progress.writes)) left
                  (fun _ final => Recorded world.records final.records) fun _ _ => True :=
                (ages_rollbackPreviouslyAppliedNodes targets _ left).mono
                  (fun _ final hfinal => hrecorded.trans hfinal) fun _ _ _ => trivial
              refine ends_bind hback fun undone final hfinal => ?_
              refine ends_bind (hfailure _) fun failure last hlast => ends_pure fun _ => ?_
              subst hlast
              exact ⟨fun h => absurd h (not_noTrace_of_recorded hfinal),
                fun h => absurd (hfirst.mp h input hinput) htouched⟩
  unfold Ends at hends
  rw [hend] at hends
  exact hends hstatus

/-! ## A new package -/

def demoId : PackageId := ⟨['d', 'e', 'm', 'o'], by decide⟩

def demoRelease : InstallRelease where
  releaseId := "demo@1"
  packageId := demoId
  packageVersion := ⟨['2', '0'], by decide⟩
  originClass := .thirdPartyExternal
  installSourcePath := none

def demoResolution : PackageResolutionResult where
  rootPackageId := demoId
  nodes := [⟨demoId, .skill, "1", ["*"], [], .skills, some "demo@1", []⟩]
  installOrder := [demoId]
  dedupedPackageIds := []
  blocked := false
  failure := none

/-- The registry knows the release or has withdrawn it; the disk is full when the manifest is written. -/
def demoEnvironment (known : Bool) : InstallEnvironment where
  cwd := serverPath
  resolveDependencyGraph := fun _ => .ok demoResolution
  getRelease := fun _ _ => .ok (if known then some demoRelease else none)
  getStateFails := fun _ => none
  evaluateInstallEligibility := fun _ => .ok ⟨⟨.compatible, true, false, []⟩, true⟩
  runtimeFails := fun n => if n = 3 then some ("ENOSPC", fun _ => false) else none
  lifecycle := fun _ =>
    { emitted := fun _ => .ok (.ingestReceived, ['w'])
      now := "2026-01-01T00:00:00Z"
      stagedAt := "2026-01-01T00:00:00Z" }
  credentials := none
  describe := fun _ => "{}"

def demoRequest : InstallServiceRequest where
  packageId := demoId
  requestedVersionRange := none
  releaseId := none
  projectId := ⟨['s', 'h', 'o', 'p'], by decide⟩
  instanceRoot := ['/', 's', 'r', 'v']
  credentialSetup := none

def emptyWorld : InstallWorld where
  files := fun _ => none
  records := .empty
  snapshots := .empty
  runtimeCalls := 0
  lifecycleCalls := 0

theorem exists_result (env : InstallEnvironment) (request : InstallServiceRequest) (before : InstallWorld)
    (status : PackageInstallStatus)
    (h : ((outcome (installPackage env request) before).1.toOption.map (·.status)) = some status) :
    ∃ result, outcome (installPackage env request) before =
      (.ok result, (outcome (installPackage env request) before).2) ∧ result.status = status := by
  obtain ⟨result, hresult, hstatus⟩ := Option.map_eq_some_iff.mp h
  exact ⟨result, Prod.ext (eq_ok_of_toOption hresult) rfl, hstatus⟩

/-- The package is rolled back, and the record of its ingest is still there. -/
theorem ingest_remains : ∃ result after,
    outcome (installPackage (demoEnvironment true) demoRequest) emptyWorld = (.ok result, after) ∧
      result.status = .rolledBack ∧
      ¬NoTrace (storeOf (demoEnvironment true).cwd (some demoRequest.instanceRoot)) emptyWorld after := by
  obtain ⟨result, hend, hstatus⟩ :=
    exists_result (demoEnvironment true) demoRequest emptyWorld .rolledBack (by decide +kernel)
  refine ⟨result, _, hend, hstatus, fun hnone => ?_⟩
  have hrecord : ((outcome (installPackage (demoEnvironment true) demoRequest) emptyWorld).2.records.get?
      (buildKey demoRequest.projectId demoId)).isSome = true := by decide +kernel
  rw [hnone.records] at hrecord
  exact absurd hrecord (by decide)

/-- A release that the registry has withdrawn leaves no trace. -/
theorem noTrace_withdrawn : ∃ result after,
    outcome (installPackage (demoEnvironment false) demoRequest) emptyWorld = (.ok result, after) ∧
      result.status ≠ .installed ∧
      (NoTrace (storeOf (demoEnvironment false).cwd (some demoRequest.instanceRoot)) emptyWorld after ↔
        NothingBegun (demoEnvironment false) demoRequest emptyWorld) := by
  obtain ⟨result, hend, hstatus⟩ :=
    exists_result (demoEnvironment false) demoRequest emptyWorld .blocked (by decide +kernel)
  have hblocked : result.status ≠ .installed := by
    rw [hstatus]
    decide
  exact ⟨result, _, hend, hblocked, noTrace_iff (demoEnvironment false) demoRequest emptyWorld hend hblocked⟩

end Installing

end NousCore.Packages
