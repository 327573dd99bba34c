import NousCore.Lib.FileSystem
import NousCore.Lib.Record

/-!
# Packages and their places in the store

* `PackageId`, `ResolvedPackageNode`, `PackageResolutionResult` : what a resolution says;
* `CanonicalStoreDescriptor`, `discoverCanonicalPackageStores` : the directories of an instance;
* `CanonicalInstallTarget` : where a package goes.
-/

namespace NousCore.Packages

/-! ## Resolutions -/

/-- `z.string().min(1)`. -/
abbrev PackageId := { text : List Char // text ≠ [] }

instance : LawfulBEq PackageId := Subtype.instLawfulBEq

inductive PackageResolutionCanonicalType where
  | skill | app | workflow
  deriving DecidableEq

inductive CanonicalRootDirectory where
  | apps | skills | workflows | projects | contracts
  deriving DecidableEq

structure ResolvedPackageNode where
  packageId : PackageId
  packageType : PackageResolutionCanonicalType
  selectedVersion : String
  requestedRanges : List String
  dependencyIds : List PackageId
  installRoot : CanonicalRootDirectory
  sourceReleaseId : Option String
  dedupeParentIds : List PackageId
  deriving DecidableEq

structure PackageResolutionFailure where
  reasonCode : String
  packageId : Option PackageId := none
  versionRange : Option String := none
  conflictPackageId : Option PackageId := none
  detail : Option String := none
  deriving DecidableEq

/-- A resolution; it is blocked when it carries a failure. -/
structure PackageResolutionResult where
  rootPackageId : PackageId
  nodes : List ResolvedPackageNode
  installOrder : List PackageId
  dedupedPackageIds : List PackageId
  blocked : Bool
  failure : Option PackageResolutionFailure
  deriving DecidableEq

/-! ## The store of an instance -/

namespace CanonicalRootDirectory

def text : CanonicalRootDirectory → List Char
  | apps => ['.', 'a', 'p', 'p', 's']
  | skills => ['.', 's', 'k', 'i', 'l', 'l', 's']
  | workflows => ['.', 'w', 'o', 'r', 'k', 'f', 'l', 'o', 'w', 's']
  | projects => ['.', 'p', 'r', 'o', 'j', 'e', 'c', 't', 's']
  | contracts => ['.', 'c', 'o', 'n', 't', 'r', 'a', 'c', 't', 's']

def name (rootDir : CanonicalRootDirectory) : Name := ⟨rootDir.text, by cases rootDir <;> decide⟩

theorem name_inj {a b : CanonicalRootDirectory} : a.name = b.name ↔ a = b := by
  constructor
  · intro h
    cases a <;> cases b <;> first | rfl | exact absurd h (by decide)
  · rintro rfl
    rfl

end CanonicalRootDirectory

def PackageResolutionCanonicalType.root : PackageResolutionCanonicalType → CanonicalRootDirectory
  | app => .apps
  | skill => .skills
  | workflow => .workflows

inductive CanonicalRootSurface where
  | packageStore | workspace | sharedContracts
  deriving DecidableEq

def CANONICAL_STORE_LAYOUT : List (CanonicalRootDirectory × CanonicalRootSurface) :=
  [(.apps, .packageStore), (.skills, .packageStore), (.workflows, .packageStore), (.projects, .workspace),
    (.contracts, .sharedContracts)]

structure CanonicalStoreDescriptor where
  rootDir : CanonicalRootDirectory
  surface : CanonicalRootSurface
  absolutePath : Path

/-- The entries of the snapshot: every root directory below the instance root. -/
def discoverCanonicalPackageStores (cwd : Path) (instanceRoot : List Char) : List CanonicalStoreDescriptor :=
  CANONICAL_STORE_LAYOUT.map fun layout =>
    ⟨layout.1, layout.2, (cwd.resolve instanceRoot).resolve layout.1.text⟩

theorem absolutePath_eq {cwd : Path} {instanceRoot : List Char} {entry : CanonicalStoreDescriptor}
    (h : entry ∈ discoverCanonicalPackageStores cwd instanceRoot) :
    entry.absolutePath = (cwd.resolve instanceRoot).child entry.rootDir.name := by
  obtain ⟨layout, -, rfl⟩ := List.mem_map.mp h
  exact Path.resolve_name _ layout.1.name

/-! ## Targets -/

structure CanonicalInstallTarget where
  packageId : PackageId
  packageType : PackageResolutionCanonicalType
  rootDir : CanonicalRootDirectory
  absoluteRootPath : Path
  packagePath : Path

end NousCore.Packages
