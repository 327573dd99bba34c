import NousCore.Lib.Runs
import NousCore.Packages.Types

/-!
# Where packages are put

`package-install/planner.ts`, with the backup directories of `materializer.ts`.

* `sanitizePackageId` : the name of a package in its root directory;
* `buildInstallTargets` : the targets of a resolution.
-/

namespace NousCore.Packages

/-! ## Names -/

/-- `[a-zA-Z0-9._-]`. -/
def isPlain (c : Char) : Bool :=
  ('a' ≤ c && c ≤ 'z') || ('A' ≤ c && c ≤ 'Z') || ('0' ≤ c && c ≤ '9') || c = '.' || c = '_' || c = '-'

/-- `replace(/[^a-zA-Z0-9._-]+/g, '__')`, with whether the character before was in a run that is replaced. -/
def replaceRuns : Bool → List Char → List Char
  | _, [] => []
  | inRun, c :: cs =>
    if isPlain c then c :: replaceRuns false cs
    else if inRun then replaceRuns true cs
    else '_' :: '_' :: replaceRuns true cs

def sanitizePackageId (packageId : List Char) : List Char := replaceRuns false packageId

theorem isPlain_of_mem_replaceRuns {c : Char} : ∀ {text : List Char} {inRun : Bool}, c ∈ replaceRuns inRun text →
    isPlain c = true
  | [], _, h => by simp [replaceRuns] at h
  | d :: text, inRun, h => by
    unfold replaceRuns at h
    split_ifs at h with hplain hrun
    · rcases List.mem_cons.mp h with rfl | h
      · exact hplain
      · exact isPlain_of_mem_replaceRuns h
    · exact isPlain_of_mem_replaceRuns h
    · rcases List.mem_cons.mp h with rfl | h
      · decide
      · rcases List.mem_cons.mp h with rfl | h
        · decide
        · exact isPlain_of_mem_replaceRuns h

theorem slash_not_mem_sanitizePackageId (text : List Char) : '/' ∉ sanitizePackageId text := fun h =>
  absurd (isPlain_of_mem_replaceRuns h) (by decide)

theorem replaceRuns_append {front : List Char} (h : ∀ c ∈ front, isPlain c = true) (text : List Char) :
    sanitizePackageId (front ++ text) = front ++ sanitizePackageId text := by
  unfold sanitizePackageId
  induction front with
  | nil => rfl
  | cons c front ih =>
    have hplain := h c List.mem_cons_self
    rw [List.cons_append, replaceRuns, if_pos hplain, ih fun d hd => h d (List.mem_cons_of_mem _ hd)]
    rfl

variable {text : List Char}

theorem sanitizePackageId_of_plain (h : ∀ c ∈ text, isPlain c = true) : sanitizePackageId text = text := by
  have hkept := replaceRuns_append h []
  rwa [List.append_nil, show sanitizePackageId [] = [] from rfl, List.append_nil] at hkept

theorem exists_of_sanitizePackageId_eq_append {front : List Char} (hfront : '_' ∉ front) :
    ∀ {text rest : List Char}, sanitizePackageId text = front ++ rest →
      ∃ tail, text = front ++ tail ∧ sanitizePackageId tail = rest := by
  induction front with
  | nil => exact fun {text rest} h => ⟨text, rfl, h⟩
  | cons c front ih =>
    intro text rest h
    cases text with
    | nil => simp [sanitizePackageId, replaceRuns] at h
    | cons d text =>
      rw [sanitizePackageId, replaceRuns, if_neg Bool.false_ne_true, List.cons_append] at h
      split_ifs at h with hplain
      · obtain ⟨rfl, hrest⟩ := List.cons.inj h
        obtain ⟨tail, rfl, htail⟩ := ih (fun hc => hfront (List.mem_cons_of_mem _ hc)) hrest
        exact ⟨tail, rfl, htail⟩
      · exact absurd ((List.cons.inj h).1 ▸ List.mem_cons_self) hfront

theorem sanitizePackageId_ne_nil (h : text ≠ []) : sanitizePackageId text ≠ [] := by
  cases text with
  | nil => exact absurd rfl h
  | cons c text =>
    rw [sanitizePackageId, replaceRuns, if_neg Bool.false_ne_true]
    split_ifs <;> exact List.cons_ne_nil _ _

theorem sanitizePackageId_eq_iff {name : List Char} (hname : '_' ∉ name) (hplain : ∀ c ∈ name, isPlain c = true)
    (text : List Char) : sanitizePackageId text = name ↔ text = name := by
  constructor
  · intro h
    rw [← List.append_nil name] at h
    obtain ⟨tail, rfl, htail⟩ := exists_of_sanitizePackageId_eq_append hname h
    have htail : tail = [] := by_contra fun hne => sanitizePackageId_ne_nil hne htail
    rw [htail, List.append_nil]
  · rintro rfl
    exact sanitizePackageId_of_plain hplain

theorem isName_sanitizePackageId (hne : text ≠ []) (hdot : text ≠ ['.'])
    (hdots : text ≠ ['.', '.']) : IsName (sanitizePackageId text) := by
  refine ⟨sanitizePackageId_ne_nil hne, slash_not_mem_sanitizePackageId text, fun h => hdot ?_, fun h => hdots ?_⟩
  · exact (sanitizePackageId_eq_iff (by decide) (List.all_eq_true.mp rfl) text).mp h
  · exact (sanitizePackageId_eq_iff (by decide) (List.all_eq_true.mp rfl) text).mp h

/-! ## Targets -/

/-- `SYSTEM_BOUNDARY_PATTERN`: between separators stands `.system`. -/
def crossesSystemBoundary (path : Path) : Bool :=
  (path.text.splitOnP fun c => c = '/' || c = '\\').any (· = ['.', 's', 'y', 's', 't', 'e', 'm'])

/-- One turn of the loop. -/
def installTarget (snapshot : List CanonicalStoreDescriptor) (node : ResolvedPackageNode) :
    Except PackageResolutionFailure CanonicalInstallTarget :=
  match snapshot.find? (·.rootDir = node.installRoot) with
  | none =>
    .error
      { reasonCode := "PKG-009-STORE_TARGET_INVALID"
        packageId := some node.packageId
        detail := some s!"Invalid canonical install root: {String.ofList node.installRoot.text}" }
  | some root =>
    if root.surface ≠ .packageStore then
      .error
        { reasonCode := "PKG-009-STORE_TARGET_INVALID"
          packageId := some node.packageId
          detail := some s!"Invalid canonical install root: {String.ofList node.installRoot.text}" }
    else
      let packagePath := root.absolutePath.resolve (sanitizePackageId node.packageId.val)
      if crossesSystemBoundary packagePath then
        .error
          { reasonCode := "PKG-009-SYSTEM_BOUNDARY_VIOLATION"
            packageId := some node.packageId
            detail := some (String.ofList packagePath.text) }
      else
        .ok
          { packageId := node.packageId
            packageType := node.packageType
            rootDir := node.installRoot
            absoluteRootPath := root.absolutePath
            packagePath := packagePath }

def buildInstallTargets (cwd : Path) (instanceRoot : Option (List Char)) (resolution : PackageResolutionResult) :
    Except PackageResolutionFailure (Record PackageId CanonicalInstallTarget) :=
  let snapshot := discoverCanonicalPackageStores cwd (instanceRoot.getD cwd.text)
  resolution.nodes.foldlM (fun targets node => do
    let target ← installTarget snapshot node
    return targets.set node.packageId target) .empty

/-- `.rollback-${basename(target.package_path)}` in the root directory. -/
def resolveRollbackPath (target : CanonicalInstallTarget) : Path :=
  target.absoluteRootPath.resolve
    (['.', 'r', 'o', 'l', 'l', 'b', 'a', 'c', 'k', '-'] ++ target.packagePath.basename)

/-! ## Separation -/

section

variable {cwd : Path} {instanceRoot : List Char} {node other : ResolvedPackageNode}
  {target backup : CanonicalInstallTarget}

structure IsTarget (cwd : Path) (instanceRoot : List Char) (node : ResolvedPackageNode)
    (target : CanonicalInstallTarget) : Prop where
  packageId : target.packageId = node.packageId
  root : target.absoluteRootPath = (cwd.resolve instanceRoot).child node.installRoot.name
  packagePath : target.packagePath = target.absoluteRootPath.resolve (sanitizePackageId node.packageId.val)

theorem isTarget_of_installTarget
    (h : installTarget (discoverCanonicalPackageStores cwd instanceRoot) node = .ok target) :
    IsTarget cwd instanceRoot node target := by
  unfold installTarget at h
  split at h
  · cases h
  next root hfind =>
  dsimp only at h
  split_ifs at h
  cases h
  have hroot : root.rootDir = node.installRoot := by simpa using List.find?_some hfind
  exact ⟨rfl, hroot ▸ absolutePath_eq (List.mem_of_find?_eq_some hfind), rfl⟩

/-- A name of its own in the root directory. -/
def ResolvedPackageNode.IsNamed (node : ResolvedPackageNode) : Prop :=
  node.packageId.val ≠ ['.'] ∧ node.packageId.val ≠ ['.', '.']

def ResolvedPackageNode.directory (node : ResolvedPackageNode) (h : node.IsNamed) : Name :=
  ⟨sanitizePackageId node.packageId.val, isName_sanitizePackageId node.packageId.property h.1 h.2⟩

theorem IsTarget.packagePath_eq (h : IsTarget cwd instanceRoot node target) (hnamed : node.IsNamed) :
    target.packagePath = target.absoluteRootPath.child (node.directory hnamed) := by
  rw [h.packagePath]
  exact Path.resolve_name _ (node.directory hnamed)

theorem IsTarget.inside_iff (h : IsTarget cwd instanceRoot node target) :
    target.packagePath.Inside target.absoluteRootPath ↔ node.IsNamed := by
  constructor
  · intro hinside
    rw [h.packagePath] at hinside
    constructor
    · intro hdot
      rw [hdot, show sanitizePackageId ['.'] = ['.'] by decide, Path.resolve_dot] at hinside
      exact Path.not_inside_self _ hinside
    · intro hdots
      rw [hdots, show sanitizePackageId ['.', '.'] = ['.', '.'] by decide, Path.resolve_dots] at hinside
      exact Path.not_inside_parent _ hinside
  · intro hnamed
    rw [h.packagePath_eq hnamed]
    exact Path.inside_child _ _

theorem IsTarget.packagePath_eq_iff {target' : CanonicalInstallTarget} (h : IsTarget cwd instanceRoot node target)
    (h' : IsTarget cwd instanceRoot other target') (hnamed : node.IsNamed) (hnamed' : other.IsNamed) :
    target.packagePath = target'.packagePath ↔ node.installRoot = other.installRoot ∧
      sanitizePackageId node.packageId.val = sanitizePackageId other.packageId.val := by
  rw [h.packagePath_eq hnamed, h'.packagePath_eq hnamed', Path.child_inj, h.root, h'.root, Path.child_inj,
    CanonicalRootDirectory.name_inj, Subtype.ext_iff]
  simp only [true_and]
  rfl

/-- The characters in front of the name of a backup. -/
def rollbackPrefix : List Char := ['.', 'r', 'o', 'l', 'l', 'b', 'a', 'c', 'k', '-']

theorem isName_rollback {name : List Char} (h : '/' ∉ name) : IsName (rollbackPrefix ++ name) := by
  refine ⟨by simp [rollbackPrefix], fun hslash => ?_, by simp [rollbackPrefix], by simp [rollbackPrefix]⟩
  rcases List.mem_append.mp hslash with hslash | hslash
  · exact absurd hslash (by decide)
  · exact h hslash

theorem IsTarget.rollbackPath_eq (h : IsTarget cwd instanceRoot node target) (hnamed : node.IsNamed) :
    resolveRollbackPath target = target.absoluteRootPath.child
      ⟨rollbackPrefix ++ sanitizePackageId node.packageId.val,
        isName_rollback (slash_not_mem_sanitizePackageId _)⟩ := by
  rw [resolveRollbackPath, h.packagePath_eq hnamed, Path.basename_child]
  exact Path.resolve_name _ ⟨rollbackPrefix ++ sanitizePackageId node.packageId.val,
    isName_rollback (slash_not_mem_sanitizePackageId _)⟩

/-- A package is in a backup when its id goes on, after the prefix, with what reads like the other id. -/
theorem IsTarget.within_rollback_iff (h : IsTarget cwd instanceRoot node target)
    (h' : IsTarget cwd instanceRoot other backup) (hnamed : node.IsNamed) (hnamed' : other.IsNamed) :
    target.packagePath.Within (resolveRollbackPath backup) ↔ node.installRoot = other.installRoot ∧
      ∃ tail, node.packageId.val = rollbackPrefix ++ tail ∧
        sanitizePackageId tail = sanitizePackageId other.packageId.val := by
  rw [h.packagePath_eq hnamed, h'.rollbackPath_eq hnamed', Path.within_child_iff, h.root, h'.root, Path.child_inj,
    CanonicalRootDirectory.name_inj, Subtype.ext_iff]
  · constructor
    · rintro ⟨⟨-, hroot⟩, hname⟩
      exact ⟨hroot, exists_of_sanitizePackageId_eq_append (by decide) hname⟩
    · rintro ⟨hroot, tail, hid, htail⟩
      refine ⟨⟨rfl, hroot⟩, ?_⟩
      have hplain : ∀ c ∈ rollbackPrefix, isPlain c = true := List.all_eq_true.mp rfl
      have hfront := replaceRuns_append hplain tail
      rw [← hid, htail] at hfront
      exact hfront
  · rw [h.root, h'.root]
    simp [Path.child]

end

section

variable {cwd : Path} {instanceRoot : Option (List Char)} {resolution : PackageResolutionResult}

/-- The targets of a list of packages are contained in their roots, apart, and out of every backup. -/
structure SeparateTargets (snapshot : List CanonicalStoreDescriptor) (nodes : List ResolvedPackageNode) : Prop where
  contained : ∀ node ∈ nodes, ∀ target, installTarget snapshot node = .ok target →
    target.packagePath.Inside target.absoluteRootPath
  apart : ∀ node ∈ nodes, ∀ other ∈ nodes, ∀ target target', installTarget snapshot node = .ok target →
    installTarget snapshot other = .ok target' → node.packageId ≠ other.packageId →
    target.packagePath ≠ target'.packagePath
  outOfBackups : ∀ node ∈ nodes, ∀ other ∈ nodes, ∀ target backup, installTarget snapshot node = .ok target →
    installTarget snapshot other = .ok backup → ¬target.packagePath.Within (resolveRollbackPath backup)

/-- Package ids that do not get into each other's way. -/
structure SeparateIds (nodes : List ResolvedPackageNode) : Prop where
  named : ∀ node ∈ nodes, node.packageId.val ≠ ['.'] ∧ node.packageId.val ≠ ['.', '.']
  apart : ∀ node ∈ nodes, ∀ other ∈ nodes, node.installRoot = other.installRoot → node.packageId ≠ other.packageId →
    sanitizePackageId node.packageId.val ≠ sanitizePackageId other.packageId.val
  outOfBackups : ∀ node ∈ nodes, ∀ other ∈ nodes, node.installRoot = other.installRoot → ∀ tail,
    node.packageId.val = rollbackPrefix ++ tail →
    sanitizePackageId tail ≠ sanitizePackageId other.packageId.val

/-- The directories that a planner without a failure found for the packages of a resolution. -/
def storeOf (cwd : Path) (instanceRoot : Option (List Char)) : List CanonicalStoreDescriptor :=
  discoverCanonicalPackageStores cwd (instanceRoot.getD cwd.text)

theorem targets_of_foldlM {snapshot : List CanonicalStoreDescriptor} :
    ∀ {nodes : List ResolvedPackageNode} {before targets : Record PackageId CanonicalInstallTarget},
      nodes.foldlM (fun targets node => do
        let target ← installTarget snapshot node
        return targets.set node.packageId target) before = .ok targets →
      (∀ node ∈ nodes, ∃ target, installTarget snapshot node = .ok target) ∧
      ∀ id target, targets.get? id = some target → before.get? id = some target ∨
        ∃ node ∈ nodes, node.packageId = id ∧ installTarget snapshot node = .ok target
  | [], before, targets, h => by
    cases h
    exact ⟨by simp, fun id target hget => .inl hget⟩
  | node :: nodes, before, targets, h => by
    rw [List.foldlM_cons] at h
    obtain ⟨next, hnext, h⟩ := bind_eq_ok.mp h
    obtain ⟨target, htarget, hset⟩ := bind_eq_ok.mp hnext
    cases hset
    obtain ⟨hall, hmap⟩ := targets_of_foldlM h
    refine ⟨List.forall_mem_cons.mpr ⟨⟨target, htarget⟩, hall⟩, fun id found hget => ?_⟩
    rcases hmap id found hget with hset | ⟨other, hmem, hother⟩
    · rw [Record.get?_set] at hset
      split_ifs at hset with hid
      · cases hset
        exact .inr ⟨node, List.mem_cons_self, hid.symm, htarget⟩
      · exact .inl hset
    · exact .inr ⟨other, List.mem_cons_of_mem _ hmem, hother⟩

variable {targets : Record PackageId CanonicalInstallTarget}

theorem installTarget_of_targets
    (h : buildInstallTargets cwd instanceRoot resolution = .ok targets) {node : ResolvedPackageNode}
    (hmem : node ∈ resolution.nodes) :
    ∃ target, installTarget (storeOf cwd instanceRoot) node = .ok target :=
  (targets_of_foldlM h).1 node hmem

theorem exists_node_of_target
    (h : buildInstallTargets cwd instanceRoot resolution = .ok targets) {id : PackageId}
    {target : CanonicalInstallTarget} (hget : targets.get? id = some target) :
    ∃ node ∈ resolution.nodes, node.packageId = id ∧
      installTarget (storeOf cwd instanceRoot) node = .ok target :=
  ((targets_of_foldlM h).2 id target hget).resolve_left fun hempty => by cases hempty

/-- **Separate directories.** The targets of a planner without a failure are contained in their roots, apart from each
other and out of the backups exactly when the ids of the packages do not get into each other's way. -/
theorem separateTargets_iff {targets : Record PackageId CanonicalInstallTarget}
    (h : buildInstallTargets cwd instanceRoot resolution = .ok targets) :
    SeparateTargets (storeOf cwd instanceRoot) resolution.nodes ↔ SeparateIds resolution.nodes := by
  constructor
  · intro hseparate
    have hnamed : ∀ node ∈ resolution.nodes, node.IsNamed := fun node hmem => by
      obtain ⟨target, htarget⟩ := installTarget_of_targets h hmem
      exact (isTarget_of_installTarget htarget).inside_iff.mp (hseparate.contained node hmem target htarget)
    refine ⟨hnamed, fun node hmem other hother hroot hne hname => ?_, fun node hmem other hother hroot tail hid htail => ?_⟩
    all_goals
      obtain ⟨target, htarget⟩ := installTarget_of_targets h hmem
      obtain ⟨target', htarget'⟩ := installTarget_of_targets h hother
      have his := isTarget_of_installTarget htarget
      have his' := isTarget_of_installTarget htarget'
    · exact hseparate.apart node hmem other hother target target' htarget htarget' hne
        ((his.packagePath_eq_iff his' (hnamed node hmem) (hnamed other hother)).mpr ⟨hroot, hname⟩)
    · exact hseparate.outOfBackups node hmem other hother target target' htarget htarget'
        ((his.within_rollback_iff his' (hnamed node hmem) (hnamed other hother)).mpr ⟨hroot, tail, hid, htail⟩)
  · intro hids
    refine ⟨fun node hmem target htarget => ?_, fun node hmem other hother target target' htarget htarget' hne heq => ?_,
      fun node hmem other hother target backup htarget hbackup hwithin => ?_⟩
    · exact (isTarget_of_installTarget htarget).inside_iff.mpr (hids.named node hmem)
    · obtain ⟨hroot, hname⟩ := ((isTarget_of_installTarget htarget).packagePath_eq_iff
        (isTarget_of_installTarget htarget') (hids.named node hmem) (hids.named other hother)).mp heq
      exact hids.apart node hmem other hother hroot hne hname
    · obtain ⟨hroot, tail, hid, htail⟩ := ((isTarget_of_installTarget htarget).within_rollback_iff
        (isTarget_of_installTarget hbackup) (hids.named node hmem) (hids.named other hother)).mp hwithin
      exact hids.outOfBackups node hmem other hother hroot tail hid htail

end

/-! ## A resolution with two applications -/

def appNode (packageId : PackageId) : ResolvedPackageNode where
  packageId := packageId
  packageType := .app
  selectedVersion := "1.0.0"
  requestedRanges := ["*"]
  dependencyIds := []
  installRoot := .apps
  sourceReleaseId := none
  dedupeParentIds := []

def appResolution (root : PackageId) (others : List PackageId) : PackageResolutionResult where
  rootPackageId := root
  nodes := (root :: others).map appNode
  installOrder := others ++ [root]
  dedupedPackageIds := []
  blocked := false
  failure := none

def serverPath : Path := ⟨[⟨['s', 'r', 'v'], by decide⟩]⟩

def plainApps : PackageResolutionResult := appResolution ⟨['a', '/', 'b'], by decide⟩ [⟨['a', '.', 'b'], by decide⟩]

/-- Two ids that read differently. -/
theorem separateTargets_plainApps : ∃ targets, buildInstallTargets serverPath none plainApps = .ok targets ∧
    SeparateTargets (storeOf serverPath none) plainApps.nodes := by
  obtain ⟨targets, hsome⟩ := Option.isSome_iff_exists.mp
    (show (buildInstallTargets serverPath none plainApps).toOption.isSome = true by decide +kernel)
  have htargets := eq_ok_of_toOption hsome
  refine ⟨targets, htargets, (separateTargets_iff htargets).mpr ⟨?_, ?_, ?_⟩⟩
  · decide
  · decide
  · intro node hmem other _ _ tail hid
    have hdot : ∀ node ∈ plainApps.nodes, node.packageId.val.head? ≠ some '.' := by decide
    exact absurd (hid ▸ rfl) (hdot node hmem)

/-- The package `..` is put where the root directory itself lies. -/
theorem escapes_root : ¬∀ (cwd : Path) (instanceRoot : Option (List Char)) (resolution : PackageResolutionResult)
    (targets : Record PackageId CanonicalInstallTarget),
    buildInstallTargets cwd instanceRoot resolution = .ok targets →
    SeparateTargets (storeOf cwd instanceRoot) resolution.nodes := by
  intro hall
  obtain ⟨targets, hsome⟩ := Option.isSome_iff_exists.mp
    (show (buildInstallTargets serverPath none (appResolution ⟨['.', '.'], by decide⟩ [])).toOption.isSome = true by
      decide +kernel)
  have htargets := eq_ok_of_toOption hsome
  have hnode : appNode ⟨['.', '.'], by decide⟩ ∈ (appResolution ⟨['.', '.'], by decide⟩ []).nodes :=
    List.mem_cons_self
  obtain ⟨target, htarget⟩ := installTarget_of_targets htargets hnode
  have hinside := (hall _ _ _ _ htargets).contained _ hnode target htarget
  exact ((isTarget_of_installTarget htarget).inside_iff.mp hinside).2 rfl

end NousCore.Packages
