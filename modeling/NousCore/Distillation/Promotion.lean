import NousCore.Distillation.Clustering
import NousCore.Lib.Fallible
import NousCore.Memory.Types

/-!
# Promoting a pattern

* `AllOrNothing` : the promotion is done, or nothing has happened and the failure is reported;
* `Ended` : how a promotion ends, for every entry.
-/

namespace NousCore.Distillation

open Memory (MemoryEntry EntryCollection parseEntryForWrite)
open Fallible

/-! ## The program -/

/-- The calls that may fail; the sources are numbered as they are listed. -/
inductive PromotionCall where
  | writePattern
  | patternMetric
  | readSource (index : Nat)
  | writeSource (index : Nat)
  | supersessionMetric
  | appendAudit
  deriving DecidableEq

/-- The cluster and the draft of its pattern, the call that fails and with what, whether there are an observer and an
audit sink, and the times at which sources are superseded and restored. -/
structure Promotion where
  cluster : ExperienceCluster
  draft : DraftInput
  nonempty : cluster.records ≠ []
  failing : Option PromotionCall
  error : String
  hasObserver : Bool
  hasAuditSink : Bool
  supersededAt : IsoTime
  restoredAt : String → IsoTime

abbrev PromotionM := Fallible String EntryCollection

def marked (patternId : String) (supersededAt : IsoTime) (entry : MemoryEntry) : MemoryEntry :=
  { entry with lifecycleStatus := .superseded, supersededBy := some patternId, updatedAt := supersededAt }

/-- A source that is active again. -/
def restored (restoredAt : IsoTime) (entry : MemoryEntry) : MemoryEntry :=
  { entry with lifecycleStatus := .active, supersededBy := none, updatedAt := restoredAt }

/-- `DocumentLtmStore.write`, where `put` is the call to the document store. -/
def write (put : PromotionM Unit) (entry : MemoryEntry) : PromotionM Unit := do
  let parsed ← MonadExcept.ofExcept (parseEntryForWrite entry)
  put
  modify (·.put parsed)

namespace Promotion

variable (promotion : Promotion)

def pattern : MemoryEntry := draftPattern promotion.cluster promotion.draft

def sources : List String := basedOn promotion.cluster

def call (c : PromotionCall) : PromotionM Unit :=
  if promotion.failing = some c then throw promotion.error else pure ()

def emitObserverMetric (c : PromotionCall) : PromotionM Unit :=
  if promotion.hasObserver then promotion.call c else pure ()

def appendPromotionAudit : PromotionM Unit :=
  if promotion.hasAuditSink then promotion.call .appendAudit else pure ()

/-- The sources from `index` on are superseded; those that are not stored are passed over. -/
def markSuperseded : Nat → List String → PromotionM Unit
  | _, [] => pure ()
  | index, id :: ids => do
    promotion.call (.readSource index)
    match (← get).find? id with
    | some entry =>
      write (promotion.call (.writeSource index)) (marked promotion.pattern.id promotion.supersededAt entry)
    | none => pure ()
    markSuperseded (index + 1) ids

/-- What the pattern superseded is made active. -/
def restoreSources : List String → PromotionM Unit
  | [] => pure ()
  | id :: ids => do
    match (← get).find? id with
    | some entry =>
      if entry.supersededBy = some promotion.pattern.id then
        write (pure ()) (restored (promotion.restoredAt id) entry)
      else pure ()
    | none => pure ()
    restoreSources ids

/-- The second `try` block. -/
def supersedeSources : PromotionM Unit := do
  promotion.markSuperseded 0 promotion.sources
  promotion.emitObserverMetric .supersessionMetric
  promotion.appendPromotionAudit

/-- Its `catch`: the compensating calls succeed. -/
def compensate (e : String) : PromotionM Unit := do
  promotion.restoreSources promotion.sources
  modify (·.delete promotion.pattern.id)
  throw e

/-- The `catch` of the first `try` block only counts the failure. -/
def persistPromotion : PromotionM Unit := do
  write (promotion.call .writePattern) promotion.pattern
  promotion.emitObserverMetric .patternMetric
  tryCatch promotion.supersedeSources promotion.compensate

end Promotion

/-! ## All or nothing -/

/-- The pattern is stored, and supersedes every source that was stored. -/
structure Promoted (promotion : Promotion) (before after : EntryCollection) : Prop where
  pattern : after.find? promotion.pattern.id = some promotion.pattern
  sources : ∀ id ∈ promotion.sources, ∀ e, before.find? id = some e → ∃ e', after.find? id = some e' ∧
    e'.lifecycleStatus = .superseded ∧ e'.supersededBy = some promotion.pattern.id

/-- The pattern is absent, the sources are what they were, and the failure is reported. -/
structure Unchanged (promotion : Promotion) (before : EntryCollection) (result : Except String Unit)
    (after : EntryCollection) : Prop where
  pattern : after.find? promotion.pattern.id = none
  sources : ∀ id ∈ promotion.sources, after.find? id = before.find? id
  reported : ∃ e, result = .error e

def AllOrNothing (promotion : Promotion) (before : EntryCollection) (end_ : Except String Unit × EntryCollection) :
    Prop := Promoted promotion before end_.2 ∨ Unchanged promotion before end_.1 end_.2

/-! ## What the program finds -/

/-- Every entry is as its schema made it, when it was written. -/
def Parsed (entries : EntryCollection) : Prop :=
  ∀ id e, entries.find? id = some e → parseEntryForWrite e = .ok e

/-- The id of the pattern is new. -/
structure Fresh (promotion : Promotion) (entries : EntryCollection) : Prop where
  absent : entries.find? promotion.pattern.id = none
  source : promotion.pattern.id ∉ promotion.sources
  supersedes : ∀ id e, entries.find? id = some e → e.supersededBy ≠ some promotion.pattern.id

/-- The supersession is stopped at the source of this index, or after the last one. -/
inductive StoppedAt (promotion : Promotion) (entries : EntryCollection) : Nat → Prop
  | read (index : Nat) : promotion.failing = some (.readSource index) → index < promotion.sources.length →
      StoppedAt promotion entries index
  | write (index : Nat) (id : String) (e : MemoryEntry) : promotion.failing = some (.writeSource index) →
      promotion.sources[index]? = some id → entries.find? id = some e → StoppedAt promotion entries index
  | metric : promotion.failing = some .supersessionMetric → promotion.hasObserver = true →
      StoppedAt promotion entries promotion.sources.length
  | audit : promotion.failing = some .appendAudit → promotion.hasAuditSink = true →
      StoppedAt promotion entries promotion.sources.length

/-- Restoring these sources makes them what they were. -/
def Restorable (promotion : Promotion) (entries : EntryCollection) (ids : List String) : Prop :=
  ∀ id ∈ ids, ∀ e, entries.find? id = some e →
    e.lifecycleStatus = .active ∧ e.supersededBy = none ∧ e.updatedAt = promotion.restoredAt id

/-- No call fails once the pattern is written, or the failure can be undone. -/
structure Undoable (promotion : Promotion) (entries : EntryCollection) : Prop where
  counted : promotion.failing = some .patternMetric → promotion.hasObserver = true →
    ∀ id ∈ promotion.sources, entries.find? id = none
  stopped : ∀ index, StoppedAt promotion entries index → Restorable promotion entries (promotion.sources.take index)

/-! ## The sources while they are superseded -/

/-- The entries once `ids` are superseded. -/
abbrev Marked (promotion : Promotion) : EntryCollection → List String → EntryCollection → Prop :=
  Collection.Edited fun _ => marked promotion.pattern.id promotion.supersededAt

/-- The entries once `ids` are restored, as far as the pattern superseded them. -/
abbrev Restored (promotion : Promotion) : EntryCollection → List String → EntryCollection → Prop :=
  Collection.Edited fun id e =>
    if e.supersededBy = some promotion.pattern.id then restored (promotion.restoredAt id) e else e

theorem parse_lifecycle {e : MemoryEntry} (h : parseEntryForWrite e = .ok e) (status : Memory.MemoryLifecycleStatus)
    (supersededBy : Option String) (time : IsoTime) :
    parseEntryForWrite { e with lifecycleStatus := status, supersededBy := supersededBy, updatedAt := time } =
      .ok { e with lifecycleStatus := status, supersededBy := supersededBy, updatedAt := time } :=
  Memory.parse_of_same h ⟨rfl, rfl, rfl, rfl, rfl, rfl, rfl⟩

variable {ids : List String} {id : String}

section Ends

variable {promotion : Promotion} {before s : EntryCollection} {ok : Unit → EntryCollection → Prop}
  {error : String → EntryCollection → Prop}

theorem ends_call {c : PromotionCall} (hok : promotion.failing ≠ some c → ok () s)
    (herror : promotion.failing = some c → error promotion.error s) : Ends (promotion.call c) s ok error := by
  unfold Promotion.call
  split_ifs with hfails
  · exact ends_throw (herror hfails)
  · exact ends_pure (hok hfails)

theorem ends_emitObserverMetric {c : PromotionCall}
    (hok : (promotion.failing = some c → promotion.hasObserver = false) → ok () s)
    (herror : promotion.failing = some c → promotion.hasObserver = true → error promotion.error s) :
    Ends (promotion.emitObserverMetric c) s ok error := by
  unfold Promotion.emitObserverMetric
  split_ifs with hobserver
  · exact ends_call (fun hfails => hok fun h => absurd h hfails) fun hfails => herror hfails hobserver
  · exact ends_pure (hok fun _ => Bool.eq_false_iff.mpr hobserver)

theorem ends_appendPromotionAudit
    (hok : (promotion.failing = some .appendAudit → promotion.hasAuditSink = false) → ok () s)
    (herror : promotion.failing = some .appendAudit → promotion.hasAuditSink = true → error promotion.error s) :
    Ends promotion.appendPromotionAudit s ok error := by
  unfold Promotion.appendPromotionAudit
  split_ifs with hsink
  · exact ends_call (fun hfails => hok fun h => absurd h hfails) fun hfails => herror hfails hsink
  · exact ends_pure (hok fun _ => Bool.eq_false_iff.mpr hsink)

theorem ends_write {put : PromotionM Unit} {entry : MemoryEntry} (h : parseEntryForWrite entry = .ok entry)
    (hput : Ends put s (fun _ s' => ok () (s'.put entry)) error) : Ends (write put entry) s ok error := by
  unfold write
  rw [h]
  have hparsed : Ends (pure entry : PromotionM MemoryEntry) s (fun parsed s' => parsed = entry ∧ s' = s) error :=
    ends_pure ⟨rfl, rfl⟩
  refine ends_bind hparsed fun parsed s' hs' => ?_
  obtain ⟨rfl, rfl⟩ := hs'
  exact ends_bind hput fun _ s' hs' => ends_modify hs'

theorem Marked.parsed (h : Marked promotion before ids s) (hparsed : Parsed before) : Parsed s :=
  Collection.Edited.forall (P := fun e => parseEntryForWrite e = .ok e) h (fun _ _ he => parse_lifecycle he _ _ _) hparsed

/-- The supersession has stopped, and every source before is superseded. -/
def Halted (promotion : Promotion) (before : EntryCollection) (_ : String) (s : EntryCollection) : Prop :=
  ∃ index, StoppedAt promotion before index ∧ Marked promotion before (promotion.sources.take index) s

theorem not_stoppedAt {index : Nat} (hget : promotion.sources[index]? = some id)
    (hread : promotion.failing ≠ some (.readSource index))
    (hwrite : ∀ e, before.find? id = some e → promotion.failing ≠ some (.writeSource index)) :
    ¬StoppedAt promotion before index := by
  have hlt : index < promotion.sources.length := (List.getElem?_eq_some_iff.mp hget).1
  intro h
  cases h with
  | read _ hfails => exact hread hfails
  | write _ id' e hfails hid he =>
    obtain rfl : id = id' := Option.some.inj (hget.symm.trans hid)
    exact hwrite e he hfails
  | metric | audit => exact absurd hlt (lt_irrefl _)

theorem ends_markSuperseded (hparsed : Parsed before) : ∀ {rest ids : List String} {s : EntryCollection},
    promotion.sources = ids ++ rest → Marked promotion before ids s →
    Ends (promotion.markSuperseded ids.length rest) s
      (fun _ s' => Marked promotion before promotion.sources s' ∧
        ∀ index, ids.length ≤ index → index < promotion.sources.length → ¬StoppedAt promotion before index)
      (Halted promotion before)
  | [], ids, s, hsources, h => by
    rw [List.append_nil] at hsources
    refine ends_pure ⟨hsources ▸ h, fun index hle hlt => ?_⟩
    rw [hsources] at hlt
    omega
  | id :: rest, ids, s, hsources, h => by
    have hlt : ids.length < promotion.sources.length := by
      rw [hsources, List.length_append, List.length_cons]
      omega
    have hget : promotion.sources[ids.length]? = some id := by
      rw [hsources, List.getElem?_append_right (le_refl _), Nat.sub_self, List.getElem?_cons_zero]
    have htake : promotion.sources.take ids.length = ids := by
      rw [hsources, List.take_left]
    have hnext : promotion.sources = (ids ++ [id]) ++ rest := by rw [hsources, List.append_assoc, List.singleton_append]
    -- what is left of the loop, once this source has been dealt with and has not stopped it
    have hrest : ∀ s', Marked promotion before (ids ++ [id]) s' → ¬StoppedAt promotion before ids.length →
        Ends (promotion.markSuperseded (ids.length + 1) rest) s'
          (fun _ s' => Marked promotion before promotion.sources s' ∧
            ∀ index, ids.length ≤ index → index < promotion.sources.length → ¬StoppedAt promotion before index)
          (Halted promotion before) := by
      intro s' hs' hstopped
      have hih := ends_markSuperseded hparsed hnext hs'
      rw [List.length_append, List.length_singleton] at hih
      refine hih.mono (fun _ s' hs' => ⟨hs'.1, fun index hle hindex => ?_⟩) fun _ _ hs' => hs'
      rcases hle.eq_or_lt with rfl | hlt'
      · exact hstopped
      · exact hs'.2 index hlt' hindex
    have hread : Ends (promotion.call (.readSource ids.length)) s
        (fun _ s' => s' = s ∧ promotion.failing ≠ some (.readSource ids.length)) (Halted promotion before) :=
      ends_call (fun hok => ⟨rfl, hok⟩) fun hfails => ⟨_, .read _ hfails hlt, htake.symm ▸ h⟩
    refine ends_bind hread fun _ s' hs' => ?_
    obtain ⟨rfl, hreads⟩ := hs'
    have hstored : Ends (get : PromotionM EntryCollection) s' (fun t s'' => t = s' ∧ s'' = s')
        (Halted promotion before) := ends_get ⟨rfl, rfl⟩
    refine ends_bind hstored fun t s'' hs'' => ?_
    obtain ⟨rfl, rfl⟩ := hs''
    split
    · rename_i entry hentry
      have hbefore : ∃ e, before.find? id = some e := by
        rw [h id] at hentry
        obtain ⟨e, he, -⟩ := Option.map_eq_some_iff.mp hentry
        exact ⟨e, he⟩
      obtain ⟨e, he⟩ := hbefore
      have hwrite : Ends (write (promotion.call (.writeSource ids.length))
          (marked promotion.pattern.id promotion.supersededAt entry)) s''
          (fun _ s' => Marked promotion before (ids ++ [id]) s' ∧
            promotion.failing ≠ some (.writeSource ids.length)) (Halted promotion before) := by
        refine ends_write (parse_lifecycle ((h.parsed hparsed) id entry hentry) _ _ _) ?_
        refine ends_call (fun hok => ⟨h.edit hentry (fun _ => rfl) (fun _ => rfl), hok⟩) fun hfails => ?_
        exact ⟨_, .write _ id e hfails hget he, htake.symm ▸ h⟩
      refine ends_bind hwrite fun _ s' hs' => hrest s' hs'.1 ?_
      exact not_stoppedAt hget hreads fun _ _ => hs'.2
    · rename_i hnone
      refine hrest _ (h.skip fun e he => absurd (hnone.symm.trans he) nofun) (not_stoppedAt hget hreads fun e he => ?_)
      rw [h id, he] at hnone
      cases hnone

theorem ends_supersedeSources (hparsed : Parsed before) (h : Marked promotion before [] s) :
    Ends promotion.supersedeSources s
      (fun _ s' => Marked promotion before promotion.sources s' ∧ ∀ index, ¬StoppedAt promotion before index)
      (Halted promotion before) := by
  have hall : promotion.sources.take promotion.sources.length = promotion.sources := List.take_length
  refine ends_bind (ends_markSuperseded hparsed (List.nil_append _).symm h) fun _ s' hs' => ?_
  obtain ⟨hmarked, hsources⟩ := hs'
  have hmetric : Ends (promotion.emitObserverMetric .supersessionMetric) s' (fun _ t => t = s' ∧
      (promotion.failing = some .supersessionMetric → promotion.hasObserver = false)) (Halted promotion before) :=
    ends_emitObserverMetric (fun hok => ⟨rfl, hok⟩) fun hfails hobserver =>
      ⟨_, .metric hfails hobserver, hall.symm ▸ hmarked⟩
  refine ends_bind hmetric fun _ t ht => ?_
  obtain ⟨rfl, hmetrics⟩ := ht
  refine ends_appendPromotionAudit (fun haudit => ⟨hmarked, fun index hstopped => ?_⟩) fun hfails hsink =>
    ⟨_, .audit hfails hsink, hall.symm ▸ hmarked⟩
  have hindex : ¬index < promotion.sources.length := fun hlt => hsources index (Nat.zero_le _) hlt hstopped
  cases hstopped with
  | read _ _ hlt => exact hindex hlt
  | write _ id e _ hid => exact hindex (List.getElem?_eq_some_iff.mp hid).1
  | metric hfails hobserver => exact absurd (hmetrics hfails) (by rw [hobserver]; decide)
  | audit hfails hsink => exact absurd (haudit hfails) (by rw [hsink]; decide)

end Ends

/-! ## The sources once they are restored -/

section Compensation

variable {promotion : Promotion} {stopped s : EntryCollection}

theorem Restored.parsed (h : Restored promotion stopped ids s) (hparsed : Parsed stopped) : Parsed s := by
  refine Collection.Edited.forall (P := fun e => parseEntryForWrite e = .ok e) h (fun id e he => ?_) hparsed
  split_ifs
  · exact parse_lifecycle he _ _ _
  · exact he

theorem Restored.restore {entry : MemoryEntry} (h : Restored promotion stopped ids s)
    (hentry : s.find? id = some entry) (hpattern : entry.supersededBy = some promotion.pattern.id) :
    Restored promotion stopped (ids ++ [id]) (s.put (restored (promotion.restoredAt id) entry)) := by
  have hedited : Restored promotion stopped (ids ++ [id]) (s.put (if entry.supersededBy = some promotion.pattern.id
      then restored (promotion.restoredAt id) entry else entry)) := by
    refine Collection.Edited.edit h hentry (fun e => ?_) fun e => ?_
    · split_ifs <;> rfl
    · split_ifs <;> rfl
  rwa [if_pos hpattern] at hedited

theorem ends_restoreSources (hparsed : Parsed stopped) : ∀ {rest ids : List String} {s : EntryCollection},
    Restored promotion stopped ids s → Ends (promotion.restoreSources rest) s
      (fun _ s' => Restored promotion stopped (ids ++ rest) s') (fun _ _ => False)
  | [], ids, s, h => ends_pure (by rwa [List.append_nil])
  | id :: rest, ids, s, h => by
    have hrest : ∀ s', Restored promotion stopped (ids ++ [id]) s' → Ends (promotion.restoreSources rest) s'
        (fun _ s' => Restored promotion stopped (ids ++ id :: rest) s') (fun _ _ => False) := by
      intro s' hs'
      have hih : Ends (promotion.restoreSources rest) s'
          (fun _ s' => Restored promotion stopped ((ids ++ [id]) ++ rest) s') (fun _ _ => False) :=
        ends_restoreSources hparsed hs'
      rwa [List.append_assoc, List.singleton_append] at hih
    have hstored : Ends (get : PromotionM EntryCollection) s (fun t s' => t = s ∧ s' = s) (fun _ _ => False) :=
      ends_get ⟨rfl, rfl⟩
    refine ends_bind hstored fun t s' hs' => ?_
    obtain ⟨rfl, rfl⟩ := hs'
    split
    · rename_i entry hentry
      split_ifs with hpattern
      · have hwrite : Ends (write (pure ()) (restored (promotion.restoredAt id) entry)) s'
            (fun _ s' => Restored promotion stopped (ids ++ [id]) s') (fun _ _ => False) :=
          ends_write (parse_lifecycle ((h.parsed hparsed) id entry hentry) _ _ _)
            (ends_pure (h.restore hentry hpattern))
        exact ends_bind hwrite fun _ s' hs' => hrest s' hs'
      · refine hrest _ (h.skip fun e he => if_neg ?_)
        rwa [← Option.some.inj (hentry.symm.trans he)]
    · rename_i hnone
      exact hrest _ (h.skip fun e he => absurd (hnone.symm.trans he) nofun)

end Compensation

/-! ## The whole promotion -/

section Whole

variable {promotion : Promotion} {before : EntryCollection}

theorem pattern_parsed (promotion : Promotion) : parseEntryForWrite promotion.pattern = .ok promotion.pattern :=
  parseEntryForWrite_draftPattern promotion.nonempty promotion.draft

theorem find?_put_pattern (hfresh : Fresh promotion before) (h : id ∈ promotion.sources) :
    (before.put promotion.pattern).find? id = before.find? id := by
  rw [Collection.find?_put, if_neg]
  rintro rfl
  exact hfresh.source h

theorem parsed_put_pattern (hparsed : Parsed before) : Parsed (before.put promotion.pattern) := by
  intro k e he
  rw [Collection.find?_put] at he
  split_ifs at he with hk
  · rw [← Option.some.inj he]
    exact pattern_parsed promotion
  · exact hparsed k e he

theorem stoppedAt_put_pattern (hfresh : Fresh promotion before) {index : Nat} :
    StoppedAt promotion (before.put promotion.pattern) index ↔ StoppedAt promotion before index := by
  constructor
  · intro h
    cases h with
    | read _ hfails hlt => exact .read _ hfails hlt
    | write _ id e hfails hget he =>
      exact .write _ id e hfails hget (by rwa [find?_put_pattern hfresh (List.mem_of_getElem? hget)] at he)
    | metric hfails hobserver => exact .metric hfails hobserver
    | audit hfails hsink => exact .audit hfails hsink
  · intro h
    cases h with
    | read _ hfails hlt => exact .read _ hfails hlt
    | write _ id e hfails hget he =>
      exact .write _ id e hfails hget (by rwa [find?_put_pattern hfresh (List.mem_of_getElem? hget)])
    | metric hfails hobserver => exact .metric hfails hobserver
    | audit hfails hsink => exact .audit hfails hsink

theorem promoted_of_marked {after : EntryCollection} (hfresh : Fresh promotion before)
    (h : Marked promotion (before.put promotion.pattern) promotion.sources after) : Promoted promotion before after := by
  refine ⟨?_, fun id hid e he => ?_⟩
  · rw [h, Collection.find?_put_self, Option.map_some, if_neg hfresh.source]
  · refine ⟨marked promotion.pattern.id promotion.supersededAt e, ?_, rfl, rfl⟩
    rw [h, find?_put_pattern hfresh hid, he, Option.map_some, if_pos hid]

/-- What the compensation leaves: the pattern is deleted, and what it superseded is active. -/
structure Undone (promotion : Promotion) (before : EntryCollection) (ids : List String) (after : EntryCollection) :
    Prop where
  pattern : after.find? promotion.pattern.id = none
  entries : ∀ k, k ≠ promotion.pattern.id → after.find? k = (before.find? k).map fun e =>
    if k ∈ ids then restored (promotion.restoredAt k) e else e

theorem ends_compensate (hparsed : Parsed before) (hfresh : Fresh promotion before)
    (hids : ids ⊆ promotion.sources) {s : EntryCollection} (h : Marked promotion (before.put promotion.pattern) ids s)
    (e : String) :
    Ends (promotion.compensate e) s (fun _ _ => False) (fun _ after => Undone promotion before ids after) := by
  have hs : Parsed s := h.parsed (parsed_put_pattern hparsed)
  refine ends_bind ((ends_restoreSources hs (Collection.Edited.start _ s)).mono (fun _ _ h => h) fun _ _ h => h.elim)
    fun _ s' hs' => ?_
  rw [List.nil_append] at hs'
  have hdelete : Ends (modify (·.delete promotion.pattern.id) : PromotionM PUnit) s'
      (fun _ after => Undone promotion before ids after) (fun _ after => Undone promotion before ids after) := by
    refine ends_modify ⟨by rw [Collection.find?_delete, if_pos rfl], fun k hne => ?_⟩
    rw [Collection.find?_delete, if_neg hne, hs' k, h k, Collection.find?_put, if_neg hne, Option.map_map]
    cases he : before.find? k with
    | none => rfl
    | some e =>
      rw [Option.map_some, Option.map_some, Function.comp_apply]
      dsimp only
      congr 1
      by_cases hmarked : k ∈ ids
      · rw [if_pos hmarked, if_pos hmarked, if_pos (hids hmarked)]
        exact if_pos rfl
      · rw [if_neg hmarked, if_neg hmarked, if_neg (hfresh.supersedes k e he), ite_self]
  exact ends_bind hdelete fun _ after hafter => ends_throw hafter

theorem unchanged_iff_restorable (hfresh : Fresh promotion before) (hids : ids ⊆ promotion.sources)
    {after : EntryCollection} (h : Undone promotion before ids after) (e : String) :
    AllOrNothing promotion before (.error e, after) ↔ Restorable promotion before ids := by
  have hsources : ∀ id ∈ promotion.sources, after.find? id = (before.find? id).map fun e =>
      if id ∈ ids then restored (promotion.restoredAt id) e else e := fun id hid =>
    h.entries id fun heq => hfresh.source (heq ▸ hid)
  constructor
  · rintro (hpromoted | hunchanged)
    · exact absurd (h.pattern.symm.trans hpromoted.pattern) nofun
    · intro id hid entry hentry
      have hsame := (hsources id (hids hid)).symm.trans (hunchanged.sources id (hids hid))
      rw [hentry, Option.map_some, if_pos hid] at hsame
      have heq := Option.some.inj hsame
      rw [← heq]
      exact ⟨rfl, rfl, rfl⟩
  · intro hrestorable
    refine .inr ⟨h.pattern, fun id hid => ?_, e, rfl⟩
    rw [hsources id hid]
    cases hentry : before.find? id with
    | none => rfl
    | some entry =>
      rw [Option.map_some]
      split_ifs with hmarked
      · obtain ⟨hstatus, hsuperseded, htime⟩ := hrestorable id hmarked entry hentry
        rw [restored, ← hstatus, ← hsuperseded, ← htime]
      · rfl

theorem undoable_of_not_stopped (hmetric : promotion.failing = some .patternMetric → promotion.hasObserver = false)
    (hstopped : ∀ index, ¬StoppedAt promotion before index) : Undoable promotion before where
  counted := fun hfails hobserver => absurd (hmetric hfails) (by rw [hobserver]; decide)
  stopped := fun index h => absurd h (hstopped index)

theorem StoppedAt.unique {i j : Nat} (hi : StoppedAt promotion before i) (hj : StoppedAt promotion before j) : i = j := by
  cases hi <;> cases hj <;> simp_all

theorem failing_of_stoppedAt {index : Nat} (h : StoppedAt promotion before index) :
    promotion.failing ≠ some .writePattern ∧ promotion.failing ≠ some .patternMetric := by
  cases h <;> simp_all

inductive Ended (promotion : Promotion) (before : EntryCollection) : Except String Unit → EntryCollection → Prop
  | promoted {after : EntryCollection} :
      (promotion.failing = some .patternMetric → promotion.hasObserver = false) →
      (∀ index, ¬StoppedAt promotion before index) →
      Marked promotion (before.put promotion.pattern) promotion.sources after → Ended promotion before (.ok ()) after
  | refused (e : String) : promotion.failing = some .writePattern → Ended promotion before (.error e) before
  | uncounted (e : String) : promotion.failing = some .patternMetric → promotion.hasObserver = true →
      Ended promotion before (.error e) (before.put promotion.pattern)
  | undone (e : String) {index : Nat} {after : EntryCollection} : StoppedAt promotion before index →
      Undone promotion before (promotion.sources.take index) after → Ended promotion before (.error e) after

theorem ends_persistPromotion (hparsed : Parsed before) (hfresh : Fresh promotion before) :
    Ends promotion.persistPromotion before (fun _ after => Ended promotion before (.ok ()) after)
      (fun e after => Ended promotion before (.error e) after) := by
  have hwrite : Ends (write (promotion.call .writePattern) promotion.pattern) before
      (fun _ s => s = before.put promotion.pattern) (fun e after => Ended promotion before (.error e) after) :=
    ends_write (pattern_parsed promotion) (ends_call (fun _ => rfl) fun hfails => .refused _ hfails)
  refine ends_bind hwrite fun _ s hs => ?_
  subst hs
  have hmetric : Ends (promotion.emitObserverMetric .patternMetric) (before.put promotion.pattern)
      (fun _ s => s = before.put promotion.pattern ∧
        (promotion.failing = some .patternMetric → promotion.hasObserver = false))
      (fun e after => Ended promotion before (.error e) after) :=
    ends_emitObserverMetric (fun hok => ⟨rfl, hok⟩) fun hfails hobserver => .uncounted _ hfails hobserver
  refine ends_bind hmetric fun _ s hs => ?_
  obtain ⟨rfl, hmetrics⟩ := hs
  have hnone : Marked promotion (before.put promotion.pattern) [] (before.put promotion.pattern) := .start _ _
  have hsupersede := ends_supersedeSources (parsed_put_pattern hparsed) hnone
  refine ends_tryCatch (hsupersede.mono (fun _ after h => ?_) fun _ _ h => h) fun e s hs => ?_
  · exact .promoted hmetrics (fun index hstopped => h.2 index ((stoppedAt_put_pattern hfresh).mpr hstopped)) h.1
  · obtain ⟨index, hstopped, hmarked⟩ := hs
    exact (ends_compensate hparsed hfresh (List.take_subset _ _) hmarked e).mono (fun _ _ h => h.elim)
      fun e after hafter => .undone e ((stoppedAt_put_pattern hfresh).mp hstopped) hafter

theorem ended_persistPromotion (hparsed : Parsed before) (hfresh : Fresh promotion before) :
    Ended promotion before (outcome promotion.persistPromotion before).1
      (outcome promotion.persistPromotion before).2 :=
  (ends_persistPromotion hparsed hfresh).result

end Whole

/-- **A promotion is all or nothing exactly when no call fails once the pattern is written, or the failure can be
undone**: at the metric, no source is stored; later, the sources that were superseded were active, superseded by no
other, and last updated at the time at which they are restored. -/
theorem promotion_all_or_nothing_iff {promotion : Promotion} {before : EntryCollection} (hparsed : Parsed before)
    (hfresh : Fresh promotion before) :
    AllOrNothing promotion before (outcome promotion.persistPromotion before) ↔ Undoable promotion before := by
  have hended := ended_persistPromotion hparsed hfresh
  rcases houtcome : outcome promotion.persistPromotion before with ⟨result, after⟩
  rw [houtcome] at hended
  cases hended with
  | promoted hmetric hstopped hmarked =>
    exact iff_of_true (.inl (promoted_of_marked hfresh hmarked)) (undoable_of_not_stopped hmetric hstopped)
  | refused e hfails =>
    refine iff_of_true (.inr ⟨hfresh.absent, fun _ _ => rfl, e, rfl⟩) (undoable_of_not_stopped ?_ fun index h => ?_)
    · rw [hfails]
      exact nofun
    · exact (failing_of_stoppedAt h).1 hfails
  | uncounted e hfails hobserver =>
    constructor
    · rintro (h | h)
      · refine ⟨fun _ _ id hid => ?_, fun index hstopped => absurd hfails (failing_of_stoppedAt hstopped).2⟩
        by_contra hstored
        obtain ⟨entry, hentry⟩ := Option.ne_none_iff_exists'.mp hstored
        obtain ⟨e', he', -, hsuperseded⟩ := h.sources id hid entry hentry
        exact hfresh.supersedes id e' ((find?_put_pattern hfresh hid).symm.trans he') hsuperseded
      · exact absurd ((Collection.find?_put_self _ _).symm.trans h.pattern) nofun
    · intro h
      refine .inl ⟨Collection.find?_put_self _ _, fun id hid e he => ?_⟩
      exact absurd ((h.counted hfails hobserver id hid).symm.trans he) nofun
  | @undone e index after hstopped hundone =>
    rw [unchanged_iff_restorable hfresh (List.take_subset _ _) hundone]
    constructor
    · intro h
      refine ⟨fun hfails => absurd hfails (failing_of_stoppedAt hstopped).2, fun j hj => ?_⟩
      rwa [hj.unique hstopped]
    · intro h
      exact h.stopped index hstopped

/-! ## A metric that fails -/

def ourCluster : ExperienceCluster := ⟨[ourRecord], "our-cluster", ourRecord.projectId⟩

def ourDraft : DraftInput where
  id := "550e8400-e29b-41d4-a716-446655440050"
  traceId := "550e8400-e29b-41d4-a716-446655440060"
  createdAt := ⟨"2026-01-02T00:00:00.000Z", 86400000⟩
  updatedAt := ⟨"2026-01-02T00:00:00.000Z", 86400000⟩
  content := "summary"
  evidenceRefs := [.string "trace"]
  evidenced := nofun

def ourPromotion (failing : Option PromotionCall) : Promotion where
  cluster := ourCluster
  draft := ourDraft
  nonempty := nofun
  failing := failing
  error := "observer unavailable"
  hasObserver := true
  hasAuditSink := true
  supersededAt := ⟨"2026-01-02T00:00:00.001Z", 86400001⟩
  restoredAt := fun _ => ⟨"2026-01-02T00:00:00.002Z", 86400002⟩

def ourEntries : EntryCollection := Collection.empty.put ourRecord.val

theorem find?_ourEntries {e : MemoryEntry} (h : ourEntries.find? id = some e) : e = ourRecord.val := by
  unfold ourEntries at h
  rw [Collection.find?_put] at h
  split_ifs at h with hid
  · exact (Option.some.inj h).symm
  · cases h

theorem ourEntries_parsed : Parsed ourEntries := by
  intro id e he
  rw [find?_ourEntries he]
  decide

theorem ourPromotion_fresh (failing : Option PromotionCall) : Fresh (ourPromotion failing) ourEntries where
  absent := by
    show ourEntries.find? ourDraft.id = none
    decide +kernel
  source := by
    show ourDraft.id ∉ basedOn ourCluster
    decide +kernel
  supersedes := fun id e he => by
    rw [find?_ourEntries he]
    exact nofun

/-- A promotion whose last call fails. -/
theorem all_or_nothing_of_audit :
    AllOrNothing (ourPromotion (some .appendAudit)) ourEntries
        (outcome (ourPromotion (some .appendAudit)).persistPromotion ourEntries) ↔
      Undoable (ourPromotion (some .appendAudit)) ourEntries :=
  promotion_all_or_nothing_iff ourEntries_parsed (ourPromotion_fresh _)

/-- The metric that counts the pattern fails: the pattern stays, and its source is not superseded. -/
theorem half_promoted : ¬AllOrNothing (ourPromotion (some .patternMetric)) ourEntries
    (outcome (ourPromotion (some .patternMetric)).persistPromotion ourEntries) := by
  rintro (h | h)
  · obtain ⟨e', he', hstatus, -⟩ := h.sources ourRecord.id (by decide +kernel) ourRecord.val (by decide +kernel)
    have hkept : (outcome (ourPromotion (some .patternMetric)).persistPromotion ourEntries).2.find? ourRecord.id =
        some ourRecord.val := by decide +kernel
    rw [← Option.some.inj (hkept.symm.trans he')] at hstatus
    cases hstatus
  · have hstored : (outcome (ourPromotion (some .patternMetric)).persistPromotion ourEntries).2.find?
        (ourPromotion (some .patternMetric)).pattern.id ≠ none := by decide +kernel
    exact hstored h.pattern

end NousCore.Distillation
