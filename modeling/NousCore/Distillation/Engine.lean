import NousCore.Distillation.Promotion
import NousCore.Memory.Changes

/-!
# The distillation engine

* `queryRecords`, `parseRecords`, `DistillationPass.promoteAll`, `DistillationPass.run` : a pass over the active records;
* `Event`, `Step` : passes, reversals and governed mutations, one after the other.
-/

namespace NousCore.Distillation

open Memory (MemoryEntry EntryCollection LtmState LtmRuntime MemoryMutationRequest Mutates)
open Fallible

/-! ## A pass -/

/-- `sortEntries`. -/
def entryLe (a b : MemoryEntry) : Bool :=
  a.updatedAt.text < b.updatedAt.text || a.updatedAt.text = b.updatedAt.text && a.id ≤ b.id

/-- The active records, of one project if it is given. -/
def queryRecords (projectId : Option String) (entries : EntryCollection) : List MemoryEntry :=
  (entries.all.filter fun e => e.type = .experienceRecord && e.lifecycleStatus = .active &&
    projectId.all fun p => e.projectId = some p).insertionSort fun a b => entryLe a b

def parseRecords : List MemoryEntry → Except String (List ExperienceRecord)
  | [] => .ok []
  | e :: es =>
    if h : IsExperienceRecord e then do
      let records ← parseRecords es
      return ⟨e, h⟩ :: records
    else .error "Invalid ExperienceRecord"

/-- What a pass is asked to do, and what it decides: which clusters it promotes, and how. -/
structure DistillationPass where
  projectId : Option String
  config : DistillationClusterConfig
  promotes : (cluster : ExperienceCluster) → Option { promotion : Promotion // promotion.cluster = cluster }

instance (promotion : Promotion) (entries : EntryCollection) : Decidable (Fresh promotion entries) :=
  decidable_of_iff (entries.find? promotion.pattern.id = none ∧ promotion.pattern.id ∉ promotion.sources ∧
    ∀ e ∈ entries.all, e.supersededBy ≠ some promotion.pattern.id) <| by
  constructor
  · rintro ⟨habsent, hsource, hsupersedes⟩
    refine ⟨habsent, hsource, fun id e he => hsupersedes e (Collection.mem_all.mpr ?_)⟩
    rwa [entries.keyed id e he]
  · intro h
    exact ⟨h.absent, h.source, fun e he => h.supersedes e.id e (Collection.mem_all.mp he)⟩

namespace DistillationPass

variable (pass : DistillationPass)

/-- The promotions of the clusters; nothing where the id of a pattern is in use. -/
def promoteAll : List ExperienceCluster → EntryCollection → Option (Except String Unit × EntryCollection)
  | [], entries => some (.ok (), entries)
  | cluster :: clusters, entries =>
    match pass.promotes cluster with
    | none => promoteAll clusters entries
    | some promotion =>
      if Fresh promotion.val entries then
        match outcome promotion.val.persistPromotion entries with
        | (.ok (), entries') => promoteAll clusters entries'
        | (.error e, entries') => some (.error e, entries')
      else none

/-- `runDistillationPass`. -/
def run (entries : EntryCollection) : Option (Except String Unit × EntryCollection) :=
  match parseRecords (queryRecords pass.projectId entries) with
  | .error e => some (.error e, entries)
  | .ok records => pass.promoteAll (identifyClusters records pass.config) entries

end DistillationPass

/-! ## A reversal -/

/-- The pattern, and the times at which its sources are restored and it is retired itself. -/
structure SupersessionReversalRequest where
  patternId : String
  restoredAt : String → IsoTime
  retiredAt : IsoTime

/-- `[...new Set(pattern.supersedes)]`. -/
def sourceIds (pattern : MemoryEntry) : List String :=
  ((pattern.patternRefs.map (·.supersedes)).getD []).eraseDups

def restoreAll (restoredAt : String → IsoTime) : List String → PromotionM Unit
  | [] => pure ()
  | id :: ids => do
    match (← get).find? id with
    | some entry => write (pure ()) (restored (restoredAt id) entry)
    | none => pure ()
    restoreAll restoredAt ids

def retired (retiredAt : IsoTime) (pattern : MemoryEntry) : MemoryEntry :=
  { pattern with lifecycleStatus := .superseded, updatedAt := retiredAt }

/-- The calls to the store succeed. -/
def reverseSupersession (request : SupersessionReversalRequest) : PromotionM Unit := do
  match (← get).find? request.patternId with
  | none => throw ("Pattern not found: " ++ request.patternId)
  | some pattern =>
    if pattern.type ≠ .distilledPattern then throw ("Pattern not found: " ++ request.patternId)
    else if sourceIds pattern = [] then throw ("Pattern has no source records to restore: " ++ request.patternId)
    else
      restoreAll request.restoredAt (sourceIds pattern)
      write (pure ()) (retired request.retiredAt pattern)

/-! ## Histories -/

inductive Event where
  | pass (pass : DistillationPass)
  | reverse (request : SupersessionReversalRequest)
  | mutate (request : MemoryMutationRequest) (projectId : Option String)

inductive Step (runtime : LtmRuntime) : LtmState → Event → LtmState → Prop
  | pass {s : LtmState} {pass : DistillationPass} {result : Except String Unit} {entries : EntryCollection} :
      pass.run s.entries = some (result, entries) → Step runtime s (.pass pass) { s with entries := entries }
  | reverse (s : LtmState) (request : SupersessionReversalRequest) :
      Step runtime s (.reverse request)
        { s with entries := (outcome (reverseSupersession request) s.entries).2 }
  | mutate {s t : LtmState} {request : MemoryMutationRequest} {projectId : Option String} :
      Mutates runtime s (request, projectId) t → Step runtime s (.mutate request projectId) t

end NousCore.Distillation
