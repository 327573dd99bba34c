import NousCore.Distillation.Engine

/-!
# Reversals

* `Coherent` : no active entry is superseded, and the sources of an active pattern are superseded by it;
* `coherent_of_changes`, `coherent_of_pass`, `coherent_of_reversal` : what each step of a history does to it.
-/

namespace NousCore.Distillation

open Memory (MemoryEntry EntryCollection LtmState LtmRuntime MemoryLifecycleStatus Mutates parseEntryForWrite
  parse_of_same)
open Fallible

/-! ## What a reversal should do -/

def Supersedes (pattern : MemoryEntry) (id : String) : Prop := id ∈ sourceIds pattern

structure ActivePattern (pattern : MemoryEntry) : Prop where
  type : pattern.type = .distilledPattern
  active : pattern.lifecycleStatus = .active

def Elsewhere (patternId : String) (e : MemoryEntry) : Prop :=
  e.lifecycleStatus = .softDeleted ∨ e.lifecycleStatus = .hardDeleted ∨
    e.lifecycleStatus = .superseded ∧ ∃ other, e.supersededBy = some other ∧ other ≠ patternId

/-- **A reversal touches only what the pattern superseded.** -/
structure ReversesOnly (patternId : String) (s t : EntryCollection) : Prop where
  restores : ∀ pattern, s.find? patternId = some pattern → pattern.type = .distilledPattern →
    ∀ id, Supersedes pattern id → ∀ e, s.find? id = some e → e.lifecycleStatus = .superseded →
      e.supersededBy = some patternId → ∃ e', t.find? id = some e' ∧ e'.lifecycleStatus = .active
  only : ∀ id e e', s.find? id = some e → t.find? id = some e' → e.lifecycleStatus ≠ .active →
    e'.lifecycleStatus = .active → e.supersededBy = some patternId ∧
      ∃ pattern, s.find? patternId = some pattern ∧ Supersedes pattern id
  keeps : ∀ id e, s.find? id = some e → Elsewhere patternId e → t.find? id = some e
  uncovered : ∀ id e, t.find? id = some e → e.lifecycleStatus = .active → ∀ key pattern, t.find? key = some pattern →
    ActivePattern pattern → ¬Supersedes pattern id

/-! ## The invariant -/

structure Coherent (entries : EntryCollection) : Prop where
  parsed : Parsed entries
  idle : ∀ id e, entries.find? id = some e → e.lifecycleStatus = .active → e.supersededBy = none
  sources : ∀ key pattern, entries.find? key = some pattern → pattern.type = .distilledPattern →
    ∀ id, Supersedes pattern id → ∃ e, entries.find? id = some e ∧ e.type = .experienceRecord
  covered : ∀ key pattern, entries.find? key = some pattern → ActivePattern pattern →
    ∀ id, Supersedes pattern id → ∀ e, entries.find? id = some e → e.supersededBy = some key

theorem coherent_empty : Coherent .empty where
  parsed := fun _ _ h => by cases h
  idle := fun _ _ h => by cases h
  sources := fun _ _ h => by cases h
  covered := fun _ _ h => by cases h

variable {s t : EntryCollection}

variable {id key : String}

theorem Coherent.uncovered (h : Coherent s) {e pattern : MemoryEntry} (he : s.find? id = some e)
    (hactive : e.lifecycleStatus = .active) (hpattern : s.find? key = some pattern) (hp : ActivePattern pattern) :
    ¬Supersedes pattern id := by
  intro hid
  have hcovered := h.covered key pattern hpattern hp id hid e he
  rw [h.idle id e he hactive] at hcovered
  cases hcovered

/-- What may take the place of an entry. -/
structure Replaces (e e' : MemoryEntry) : Prop where
  type : e'.type = e.type
  patternRefs : e'.patternRefs = e.patternRefs
  parsed : parseEntryForWrite e' = .ok e'
  idle : e'.lifecycleStatus = .active → e.lifecycleStatus = .active ∧ e'.supersededBy = none
  covered : ∀ key, e.supersededBy = some key → e'.supersededBy = some key

theorem Replaces.refl (h : Coherent s) {e : MemoryEntry} (he : s.find? id = some e) : Replaces e e :=
  ⟨rfl, rfl, h.parsed id e he, fun hactive => ⟨hactive, h.idle id e he hactive⟩, fun _ h => h⟩

variable {e e' : MemoryEntry}

theorem Replaces.supersedes (h : Replaces e e') (id : String) :
    Supersedes e' id ↔ Supersedes e id := by
  unfold Supersedes sourceIds
  rw [h.patternRefs]

theorem Replaces.activePattern (h : Replaces e e') (hp : ActivePattern e') : ActivePattern e :=
  ⟨h.type ▸ hp.type, (h.idle hp.active).1⟩

theorem Coherent.replace (h : Coherent s) (new : Option MemoryEntry)
    (hold : ∀ k e, s.find? k = some e → ∃ e', t.find? k = some e' ∧ Replaces e e')
    (hnew : ∀ k, s.find? k = none → ∀ e, t.find? k = some e → new = some e)
    (hparsed : ∀ e, new = some e → parseEntryForWrite e = .ok e)
    (hidle : ∀ e, new = some e → e.lifecycleStatus = .active → e.supersededBy = none)
    (hsources : ∀ e, new = some e → e.type = .distilledPattern → ∀ id, Supersedes e id →
      ∃ e', t.find? id = some e' ∧ e'.type = .experienceRecord ∧ e'.supersededBy = some e.id) : Coherent t := by
  have hcases : ∀ k e', t.find? k = some e' → (∃ e, s.find? k = some e ∧ Replaces e e') ∨
      s.find? k = none ∧ new = some e' := by
    intro k e' he'
    cases he : s.find? k with
    | none => exact .inr ⟨rfl, hnew k he e' he'⟩
    | some e =>
      obtain ⟨e'', he'', hreplaces⟩ := hold k e he
      cases he'.symm.trans he''
      exact .inl ⟨e, rfl, hreplaces⟩
  refine ⟨fun k e' he' => ?_, fun k e' he' hactive => ?_, fun key p hp htype id hid => ?_,
    fun key p hp hpattern id hid e' he' => ?_⟩
  · rcases hcases k e' he' with ⟨e, -, hreplaces⟩ | ⟨-, hn⟩
    · exact hreplaces.parsed
    · exact hparsed e' hn
  · rcases hcases k e' he' with ⟨e, -, hreplaces⟩ | ⟨-, hn⟩
    · exact (hreplaces.idle hactive).2
    · exact hidle e' hn hactive
  · rcases hcases key p hp with ⟨p₀, hp₀, hreplaces⟩ | ⟨-, hn⟩
    · obtain ⟨e, he, hrecord⟩ := h.sources key p₀ hp₀ (hreplaces.type ▸ htype) id ((hreplaces.supersedes id).mp hid)
      obtain ⟨e', he', hreplaced⟩ := hold id e he
      exact ⟨e', he', hreplaced.type.trans hrecord⟩
    · obtain ⟨e', he', hrecord, -⟩ := hsources p hn htype id hid
      exact ⟨e', he', hrecord⟩
  · rcases hcases key p hp with ⟨p₀, hp₀, hreplaces⟩ | ⟨-, hn⟩
    · have hid := (hreplaces.supersedes id).mp hid
      have hp₀' := hreplaces.activePattern hpattern
      obtain ⟨e, he, -⟩ := h.sources key p₀ hp₀ hp₀'.type id hid
      obtain ⟨e'', he'', hreplaced⟩ := hold id e he
      cases he'.symm.trans he''
      exact hreplaced.covered key (h.covered key p₀ hp₀ hp₀' id hid e he)
    · obtain ⟨e'', he'', -, hsuperseded⟩ := hsources p hn hpattern.type id hid
      cases he'.symm.trans he''
      rw [hsuperseded, t.keyed key p hp]

/-! ## Governed mutations -/

theorem Coherent.replaces_of_mutated (h : Coherent s) (he : s.find? e.id = some e)
    (hmutated : Memory.Mutated e e') : Replaces e e' := by
  have hparsed := h.parsed e.id e he
  cases hmutated with
  | superseded replacementId mutationId now hactive =>
    refine ⟨rfl, rfl, parse_of_same hparsed ⟨rfl, rfl, rfl, rfl, rfl, rfl, rfl⟩, nofun, fun key hkey => ?_⟩
    rw [h.idle e.id e he hactive] at hkey
    cases hkey
  | deleted tombstoneId mutationId now =>
    refine ⟨rfl, rfl, parse_of_same hparsed ⟨rfl, rfl, rfl, rfl, rfl, rfl, rfl⟩, fun hactive => ?_, fun _ h => h⟩
    have hstatus : (if tombstoneId.isSome then MemoryLifecycleStatus.hardDeleted else .softDeleted) = .active := hactive
    split_ifs at hstatus
  | moved request mutationId now =>
    exact ⟨rfl, rfl, parse_of_same hparsed ⟨rfl, rfl, rfl, rfl, rfl, rfl, rfl⟩,
      fun hactive => ⟨hactive, h.idle e.id e he hactive⟩, fun _ h => h⟩

theorem Coherent.put (h : Coherent s) (he : s.find? e.id = some e) (hid : e'.id = e.id)
    (hreplaces : Replaces e e') : Coherent (s.put e') := by
  refine h.replace none (fun k e₀ he₀ => ?_) (fun k hnone e₀ he₀ => ?_)
    (fun _ h => (Option.some_ne_none _ h.symm).elim) (fun _ h => (Option.some_ne_none _ h.symm).elim)
    fun _ h => (Option.some_ne_none _ h.symm).elim
  · rw [Collection.find?_put, hid]
    split_ifs with hk
    · subst hk
      cases he.symm.trans he₀
      exact ⟨e', rfl, hreplaces⟩
    · exact ⟨e₀, he₀, .refl h he₀⟩
  · rw [Collection.find?_put, hid] at he₀
    split_ifs at he₀ with hk
    · rw [hk, he] at hnone
      cases hnone
    · rw [hnone] at he₀
      cases he₀

theorem coherent_of_change {s t : LtmState} (h : Coherent s.entries) (hchange : Memory.Change s t) :
    Coherent t.entries := by
  cases hchange with
  | audit | tombstone | indexed | unindexed => exact h
  | created e hnew htype hentry _ hparsed =>
    refine h.replace (some e) (fun k e₀ he₀ => ?_) (fun k hnone e₀ he₀ => ?_) ?_ ?_ ?_
    · refine ⟨e₀, ?_, .refl h he₀⟩
      rw [Collection.find?_put, if_neg]
      · exact he₀
      · rintro rfl
        rw [hnew] at he₀
        cases he₀
    · rw [Collection.find?_put] at he₀
      split_ifs at he₀
      · exact he₀
      · rw [hnone] at he₀
        cases he₀
    · rintro e₀ he₀
      cases he₀
      exact hparsed
    · rintro e₀ he₀ -
      cases he₀
      exact hentry.supersededBy
    · rintro e₀ he₀ hpattern
      cases he₀
      exact absurd hpattern htype
  | mutated e e' parsed he hmutated hparsed =>
    have hreplaces := h.replaces_of_mutated he hmutated
    cases hreplaces.parsed.symm.trans hparsed
    refine h.put he ?_ hreplaces
    cases hmutated <;> rfl

theorem coherent_of_changes {s t : LtmState} (h : Coherent s.entries) (hchanges : Memory.Changes s t) :
    Coherent t.entries := by
  induction hchanges with
  | refl => exact h
  | tail _ hchange ih => exact coherent_of_change ih hchange

/-! ## Promotions -/

section Promotions

variable {promotion : Promotion} {before after : EntryCollection} {result : Except String Unit}

theorem supersedes_pattern : Supersedes promotion.pattern id ↔ id ∈ promotion.sources :=
  List.mem_eraseDups

def ActiveSources (promotion : Promotion) (entries : EntryCollection) : Prop :=
  ∀ id ∈ promotion.sources, ∃ e, entries.find? id = some e ∧ e.type = .experienceRecord ∧ e.lifecycleStatus = .active

def Counts (promotion : Promotion) : Prop := promotion.failing = some .patternMetric → promotion.hasObserver = false

theorem coherent_of_ended (h : Coherent before) (hfresh : Fresh promotion before)
    (hsources : ActiveSources promotion before) (hcounts : Counts promotion)
    (hended : Ended promotion before result after) : Coherent after := by
  have hidle : ∀ k ∈ promotion.sources, ∀ e, before.find? k = some e →
      e.lifecycleStatus = .active ∧ e.supersededBy = none := by
    intro k hk e he
    obtain ⟨e', he', -, hactive⟩ := hsources k hk
    cases he.symm.trans he'
    exact ⟨hactive, h.idle k e he hactive⟩
  have hne : ∀ k e, before.find? k = some e → k ≠ promotion.pattern.id := by
    rintro k e he rfl
    rw [hfresh.absent] at he
    cases he
  cases hended with
  | promoted _ _ hmarked =>
    refine h.replace (some promotion.pattern) (fun k e he => ?_) (fun k hnone e he => ?_) ?_ ?_ ?_
    · rw [hmarked k, Collection.find?_put, if_neg (hne k e he), he, Option.map_some]
      refine ⟨_, rfl, ?_⟩
      split_ifs with hk
      · refine ⟨rfl, rfl, parse_lifecycle (h.parsed k e he) _ _ _, nofun, fun key hkey => ?_⟩
        rw [(hidle k hk e he).2] at hkey
        cases hkey
      · exact .refl h he
    · by_cases hk : k = promotion.pattern.id
      · rw [hmarked k, Collection.find?_put, if_pos hk, hk, Option.map_some,
          if_neg hfresh.source] at he
        exact he
      · rw [hmarked k, Collection.find?_put, if_neg hk, hnone] at he
        cases he
    · rintro e he
      cases he
      exact pattern_parsed promotion
    · rintro e he -
      cases he
      rfl
    · rintro e he - id hid
      cases he
      have hid := supersedes_pattern.mp hid
      obtain ⟨e', he', hrecord, -⟩ := hsources id hid
      refine ⟨marked promotion.pattern.id promotion.supersededAt e', ?_, hrecord, rfl⟩
      rw [hmarked id, find?_put_pattern hfresh hid, he', Option.map_some, if_pos hid]
  | refused => exact h
  | uncounted _ hfails hobserver =>
    rw [hcounts hfails] at hobserver
    cases hobserver
  | undone _ _ hundone =>
    refine h.replace none (fun k e he => ?_) (fun k hnone e he => ?_)
      (fun _ h => (Option.some_ne_none _ h.symm).elim) (fun _ h => (Option.some_ne_none _ h.symm).elim)
      fun _ h => (Option.some_ne_none _ h.symm).elim
    · rw [hundone.entries k (hne k e he), he, Option.map_some]
      refine ⟨_, rfl, ?_⟩
      split_ifs with hk
      · obtain ⟨hactive, hnone⟩ := hidle k (List.take_subset _ _ hk) e he
        refine ⟨rfl, rfl, parse_lifecycle (h.parsed k e he) _ _ _, fun _ => ⟨hactive, rfl⟩, fun key hkey => ?_⟩
        rw [hnone] at hkey
        cases hkey
      · exact .refl h he
    · by_cases hk : k = promotion.pattern.id
      · rw [hk, hundone.pattern] at he
        cases he
      · rw [hundone.entries k hk, hnone] at he
        cases he

end Promotions

/-! ## Passes -/

theorem map_val_of_parseRecords : ∀ {entries : List MemoryEntry} {records : List ExperienceRecord},
    parseRecords entries = .ok records → records.map Subtype.val = entries
  | [], records, h => by rw [← Except.ok.inj h, List.map_nil]
  | e :: es, records, h => by
    unfold parseRecords at h
    split_ifs at h with hrecord
    obtain ⟨rest, hrest, hcons⟩ := bind_eq_ok.mp h
    rw [← Except.ok.inj hcons, List.map_cons, map_val_of_parseRecords hrest]

/-- A record as the store has it, active. -/
structure Listed (entries : EntryCollection) (record : ExperienceRecord) : Prop where
  stored : entries.find? record.id = some record.val
  active : record.lifecycleStatus = .active

variable {records : List ExperienceRecord}

theorem listed_of_parseRecords {projectId : Option String}
    (h : parseRecords (queryRecords projectId s) = .ok records) : ∀ r ∈ records, Listed s r := by
  intro r hr
  have hmem : r.val ∈ queryRecords projectId s := by
    rw [← map_val_of_parseRecords h]
    exact List.mem_map_of_mem hr
  obtain ⟨hall, hfilter⟩ := List.mem_filter.mp ((List.mem_insertionSort _).mp hmem)
  simp only [Bool.and_eq_true, decide_eq_true_eq] at hfilter
  exact ⟨Collection.mem_all.mp hall, hfilter.1.2⟩

theorem nodup_of_parseRecords {projectId : Option String}
    (h : parseRecords (queryRecords projectId s) = .ok records) : (records.map (·.id)).Nodup := by
  have hids : records.map (·.id) = (queryRecords projectId s).map MemoryEntry.id := by
    rw [← map_val_of_parseRecords h, List.map_map]
    rfl
  rw [hids]
  exact ((List.perm_insertionSort _ _).map _).nodup_iff.mpr (s.nodup_map_all.sublist (List.filter_sublist.map _))

theorem activeSources_of_listed {promotion : Promotion} (h : ∀ r ∈ promotion.cluster.records, Listed s r) :
    ActiveSources promotion s := by
  intro id hid
  obtain ⟨r, hr, rfl⟩ := mem_basedOn.mp hid
  exact ⟨r.val, (h r hr).stored, r.property.type, (h r hr).active⟩

theorem find?_of_promoted {promotion : Promotion} {before after : EntryCollection}
    (hended : Ended promotion before (.ok ()) after) {k : String} (hne : k ≠ promotion.pattern.id)
    (hk : k ∉ promotion.sources) : after.find? k = before.find? k := by
  cases hended with
  | promoted _ _ hmarked =>
    rw [hmarked k, Collection.find?_put, if_neg hne]
    simp only [hk, if_false, Option.map_id']

/-- No promotion of the pass is stopped at its metric. -/
def DistillationPass.Counts (pass : DistillationPass) : Prop :=
  ∀ cluster promotion, pass.promotes cluster = some promotion → Distillation.Counts promotion.val

theorem coherent_of_promoteAll {pass : DistillationPass} (hcounts : pass.Counts) {result : Except String Unit} :
    ∀ {clusters : List ExperienceCluster} {s : EntryCollection}, Coherent s →
      clusters.Pairwise (fun c d => ∀ r ∈ c.records, ∀ r' ∈ d.records, r.id ≠ r'.id) →
      (∀ c ∈ clusters, ∀ r ∈ c.records, Listed s r) → pass.promoteAll clusters s = some (result, t) → Coherent t
  | [], s, hs, _, _, h => by
    cases h
    exact hs
  | cluster :: clusters, s, hs, hdisjoint, hlisted, h => by
    rw [List.pairwise_cons] at hdisjoint
    have hrest : ∀ c ∈ clusters, ∀ r ∈ c.records, Listed s r := fun c hc => hlisted c (List.mem_cons_of_mem _ hc)
    unfold DistillationPass.promoteAll at h
    split at h
    · exact coherent_of_promoteAll hcounts hs hdisjoint.2 hrest h
    rename_i promotion hpromotes
    split_ifs at h with hfresh
    have hsources : ActiveSources promotion.val s := by
      refine activeSources_of_listed fun r hr => hlisted cluster List.mem_cons_self r ?_
      rwa [← promotion.property]
    have hended := ended_persistPromotion hs.parsed hfresh
    have hcoherent := coherent_of_ended hs hfresh hsources (hcounts cluster promotion hpromotes) hended
    split at h
    · rename_i s' houtcome
      rw [houtcome] at hended hcoherent
      refine coherent_of_promoteAll hcounts hcoherent hdisjoint.2 (fun c hc r hr => ?_) h
      have hr' := hrest c hc r hr
      refine ⟨(find?_of_promoted hended ?_ ?_).trans hr'.stored, hr'.active⟩
      · intro hid
        exact absurd ((hid ▸ hfresh.absent).symm.trans hr'.stored) nofun
      · intro hid
        obtain ⟨r₀, hr₀, heq⟩ := mem_basedOn.mp hid
        exact hdisjoint.1 c hc r₀ (by rwa [← promotion.property]) r hr heq
    · rename_i e s' houtcome
      rw [houtcome] at hcoherent
      cases h
      exact hcoherent

theorem coherent_of_pass {pass : DistillationPass} (hcounts : pass.Counts) {result : Except String Unit}
    (hs : Coherent s) (h : pass.run s = some (result, t)) : Coherent t := by
  unfold DistillationPass.run at h
  split at h
  · cases h
    exact hs
  rename_i records hrecords
  have hidentified := identified_identifyClusters pass.config records
  have htaken := hidentified.taken.trans List.filter_sublist.subperm
  refine coherent_of_promoteAll hcounts hs (pairwise_of_taken htaken (nodup_of_parseRecords hrecords)) ?_ h
  intro c hc r hr
  refine listed_of_parseRecords hrecords r (htaken.subset (List.mem_flatMap.mpr ⟨c, hc, hr⟩))

/-! ## A reversal -/

theorem ends_restoreAll {restoredAt : String → IsoTime} {before : EntryCollection} (hparsed : Parsed before) :
    ∀ {rest ids : List String} {s : EntryCollection},
      Collection.Edited (fun id => restored (restoredAt id)) before ids s → Ends (restoreAll restoredAt rest) s
        (fun _ s' => Collection.Edited (fun id => restored (restoredAt id)) before (ids ++ rest) s') (fun _ _ => False)
  | [], ids, s, h => ends_pure (by rwa [List.append_nil])
  | id :: rest, ids, s, h => by
    have hrest : ∀ s', Collection.Edited (fun id => restored (restoredAt id)) before (ids ++ [id]) s' →
        Ends (restoreAll restoredAt rest) s'
          (fun _ s' => Collection.Edited (fun id => restored (restoredAt id)) before (ids ++ id :: rest) s')
          (fun _ _ => False) := by
      intro s' hs'
      have hih : Ends (restoreAll restoredAt rest) s' (fun _ s' =>
          Collection.Edited (fun id => restored (restoredAt id)) before ((ids ++ [id]) ++ rest) s') (fun _ _ => False) :=
        ends_restoreAll hparsed hs'
      rwa [List.append_assoc, List.singleton_append] at hih
    have hs : Parsed s := Collection.Edited.forall (P := fun e => parseEntryForWrite e = .ok e) h
      (fun _ _ he => parse_lifecycle he _ _ _) hparsed
    have hstored : Ends (get : PromotionM EntryCollection) s (fun t s' => t = s ∧ s' = s) (fun _ _ => False) :=
      ends_get ⟨rfl, rfl⟩
    refine ends_bind hstored fun t s' hs' => ?_
    obtain ⟨rfl, rfl⟩ := hs'
    split
    · rename_i entry hentry
      have hwrite : Ends (write (pure ()) (restored (restoredAt id) entry)) s'
          (fun _ s' => Collection.Edited (fun id => restored (restoredAt id)) before (ids ++ [id]) s')
          (fun _ _ => False) :=
        ends_write (parse_lifecycle (hs id entry hentry) _ _ _)
          (ends_pure (h.edit hentry (fun _ => rfl) fun _ => rfl))
      exact ends_bind hwrite fun _ s' hs' => hrest s' hs'
    · rename_i hnone
      exact hrest _ (h.skip fun e he => absurd (hnone.symm.trans he) nofun)

/-- A reversal restores all sources of a pattern and retires it, or changes nothing. -/
inductive Reversed (request : SupersessionReversalRequest) (s : EntryCollection) : EntryCollection → Prop
  | refused : (∀ pattern, s.find? request.patternId = some pattern → pattern.type = .distilledPattern →
      sourceIds pattern = []) → Reversed request s s
  | reversed {pattern : MemoryEntry} {s' : EntryCollection} : s.find? request.patternId = some pattern →
      pattern.type = .distilledPattern → sourceIds pattern ≠ [] →
      Collection.Edited (fun id => restored (request.restoredAt id)) s (sourceIds pattern) s' →
      Reversed request s (s'.put (retired request.retiredAt pattern))

theorem reversed_reverseSupersession (hparsed : Parsed s) (request : SupersessionReversalRequest) :
    Reversed request s (outcome (reverseSupersession request) s).2 := by
  have hends : Ends (reverseSupersession request) s (fun _ t => Reversed request s t) (fun _ t => Reversed request s t) := by
    have hstored : Ends (get : PromotionM EntryCollection) s (fun t s' => t = s ∧ s' = s)
        (fun _ t => Reversed request s t) := ends_get ⟨rfl, rfl⟩
    refine ends_bind hstored fun t s' hs' => ?_
    obtain ⟨rfl, rfl⟩ := hs'
    split
    · rename_i hnone
      exact ends_throw (.refused fun pattern hpattern => absurd (hnone.symm.trans hpattern) nofun)
    rename_i pattern hpattern
    split_ifs with htype hsources
    · refine ends_throw (.refused fun pattern' hpattern' htype' => ?_)
      cases hpattern.symm.trans hpattern'
      exact absurd htype' htype
    · refine ends_throw (.refused fun pattern' hpattern' _ => ?_)
      cases hpattern.symm.trans hpattern'
      exact hsources
    · have hrestore : Ends (restoreAll request.restoredAt (sourceIds pattern)) s' (fun _ s₁ =>
          Collection.Edited (fun id => restored (request.restoredAt id)) s' ([] ++ sourceIds pattern) s₁)
          (fun _ _ => False) := ends_restoreAll hparsed (.start _ s')
      refine ends_bind (hrestore.mono (fun _ _ h => h) fun _ _ h => h.elim) fun _ s₁ hs₁ => ?_
      refine ends_write (parse_of_same (hparsed _ pattern hpattern) ⟨rfl, rfl, rfl, rfl, rfl, rfl, rfl⟩) (ends_pure ?_)
      exact .reversed hpattern (not_not.mp htype) hsources hs₁
  exact hends.state

/-- Every source is active, or superseded by the pattern and by no other, and so is the pattern. -/
def Reversible (request : SupersessionReversalRequest) (s : EntryCollection) : Prop :=
  ∀ pattern, s.find? request.patternId = some pattern → pattern.type = .distilledPattern →
    sourceIds pattern ≠ [] → ¬Elsewhere request.patternId pattern ∧
      ∀ id, Supersedes pattern id → ∀ e, s.find? id = some e → e.lifecycleStatus = .active ∨
        e.lifecycleStatus = .superseded ∧ e.supersededBy = some request.patternId

section Reversal

variable {request : SupersessionReversalRequest}

theorem not_elsewhere {patternId : String} {e : MemoryEntry}
    (h : e.lifecycleStatus = .active ∨ e.lifecycleStatus = .superseded ∧ e.supersededBy = some patternId) :
    ¬Elsewhere patternId e := by
  rintro (hsoft | hhard | ⟨hsuperseded, other, hother, hne⟩)
  · rcases h with h | ⟨h, -⟩ <;> exact absurd (h.symm.trans hsoft) nofun
  · rcases h with h | ⟨h, -⟩ <;> exact absurd (h.symm.trans hhard) nofun
  · rcases h with h | ⟨-, h⟩
    · exact absurd (h.symm.trans hsuperseded) nofun
    · exact hne (Option.some.inj (hother.symm.trans h))

structure Reverses (request : SupersessionReversalRequest) (pattern : MemoryEntry) (s t : EntryCollection) : Prop where
  stored : s.find? request.patternId = some pattern
  type : pattern.type = .distilledPattern
  nonempty : sourceIds pattern ≠ []
  itself : t.find? request.patternId = some (retired request.retiredAt pattern)
  sources : ∀ id, Supersedes pattern id → id ≠ request.patternId →
    t.find? id = (s.find? id).map (restored (request.restoredAt id))
  others : ∀ k, ¬Supersedes pattern k → k ≠ request.patternId → t.find? k = s.find? k

theorem Reversed.cases (h : Reversed request s t) : t = s ∧ (∀ pattern, s.find? request.patternId = some pattern →
    pattern.type = .distilledPattern → sourceIds pattern = []) ∨ ∃ pattern, Reverses request pattern s t := by
  cases h with
  | refused h => exact .inl ⟨rfl, h⟩
  | @reversed pattern s' hpattern htype hnonempty hedited =>
    have hid : (retired request.retiredAt pattern).id = request.patternId := s.keyed _ pattern hpattern
    refine .inr ⟨pattern, hpattern, htype, hnonempty, ?_, fun id hsource hne => ?_, fun k hsource hne => ?_⟩
    · rw [Collection.find?_put, hid, if_pos rfl]
    · rw [Collection.find?_put, hid, if_neg hne, hedited id]
      simp only [show id ∈ sourceIds pattern from hsource, if_true]
    · rw [Collection.find?_put, hid, if_neg hne, hedited k]
      simp only [show k ∉ sourceIds pattern from hsource, if_false, Option.map_id']

variable {pattern : MemoryEntry}

theorem Reverses.before (h : Reverses request pattern s t) {k : String} {e' : MemoryEntry}
    (he' : t.find? k = some e') : ∃ e, s.find? k = some e ∧ e'.type = e.type ∧ e'.patternRefs = e.patternRefs := by
  by_cases hk : k = request.patternId
  · subst hk
    cases h.itself.symm.trans he'
    exact ⟨pattern, h.stored, rfl, rfl⟩
  · by_cases hsource : Supersedes pattern k
    · rw [h.sources k hsource hk] at he'
      obtain ⟨e, he, rfl⟩ := Option.map_eq_some_iff.mp he'
      exact ⟨e, he, rfl, rfl⟩
    · rw [h.others k hsource hk] at he'
      exact ⟨e', he', rfl, rfl⟩

theorem Reverses.after (h : Reverses request pattern s t) {k : String} {e : MemoryEntry}
    (he : s.find? k = some e) : ∃ e', t.find? k = some e' ∧ e'.type = e.type := by
  by_cases hk : k = request.patternId
  · subst hk
    cases h.stored.symm.trans he
    exact ⟨_, h.itself, rfl⟩
  · by_cases hsource : Supersedes pattern k
    · rw [h.sources k hsource hk, he]
      exact ⟨_, rfl, rfl⟩
    · rw [h.others k hsource hk, he]
      exact ⟨_, rfl, rfl⟩

theorem Coherent.not_pattern (h : Coherent s) {pattern e : MemoryEntry}
    (hpattern : s.find? key = some pattern) (htype : pattern.type = .distilledPattern) (hid : Supersedes pattern id)
    (he : s.find? id = some e) : e.type ≠ .distilledPattern := by
  obtain ⟨e', he', hrecord⟩ := h.sources key pattern hpattern htype id hid
  cases he.symm.trans he'
  rw [hrecord]
  decide

theorem Coherent.source_ne (h : Coherent s) (hr : Reverses request pattern s t)
    (hid : Supersedes pattern id) : id ≠ request.patternId := by
  rintro rfl
  exact h.not_pattern hr.stored hr.type hid hr.stored hr.type

theorem coherent_of_reverses (h : Coherent s) (hreversible : Reversible request s)
    (hr : Reverses request pattern s t) : Coherent t := by
  obtain ⟨-, hsources⟩ := hreversible pattern hr.stored hr.type hr.nonempty
  refine ⟨fun k e' he' => ?_, fun k e' he' hactive => ?_, fun key p hp htype id hid => ?_,
    fun key p hp hpattern id hid e' he' => ?_⟩
  · by_cases hk : k = request.patternId
    · subst hk
      cases hr.itself.symm.trans he'
      exact parse_of_same (h.parsed _ pattern hr.stored) ⟨rfl, rfl, rfl, rfl, rfl, rfl, rfl⟩
    · by_cases hsource : Supersedes pattern k
      · rw [hr.sources k hsource hk] at he'
        obtain ⟨e, he, rfl⟩ := Option.map_eq_some_iff.mp he'
        exact parse_lifecycle (h.parsed k e he) _ _ _
      · rw [hr.others k hsource hk] at he'
        exact h.parsed k e' he'
  · by_cases hk : k = request.patternId
    · subst hk
      cases hr.itself.symm.trans he'
      cases hactive
    · by_cases hsource : Supersedes pattern k
      · rw [hr.sources k hsource hk] at he'
        obtain ⟨e, he, rfl⟩ := Option.map_eq_some_iff.mp he'
        rfl
      · rw [hr.others k hsource hk] at he'
        exact h.idle k e' he' hactive
  · obtain ⟨p₀, hp₀, htype₀, hrefs⟩ := hr.before hp
    have hid₀ : Supersedes p₀ id := by
      unfold Supersedes sourceIds at hid ⊢
      rwa [hrefs] at hid
    obtain ⟨e, he, hrecord⟩ := h.sources key p₀ hp₀ (htype₀ ▸ htype) id hid₀
    obtain ⟨e', he', htype'⟩ := hr.after he
    exact ⟨e', he', htype'.trans hrecord⟩
  · have hkey : key ≠ request.patternId := by
      rintro rfl
      cases hr.itself.symm.trans hp
      cases hpattern.active
    obtain ⟨p₀, hp₀, htype₀, -⟩ := hr.before hp
    have hnot : ¬Supersedes pattern key := fun hsource =>
      h.not_pattern hr.stored hr.type hsource hp₀ (htype₀ ▸ hpattern.type)
    rw [hr.others key hnot hkey] at hp
    have hne : id ≠ request.patternId := by
      rintro rfl
      exact h.not_pattern hp hpattern.type hid hr.stored hr.type
    by_cases hsource : Supersedes pattern id
    · rw [hr.sources id hsource hne] at he'
      obtain ⟨e, he, rfl⟩ := Option.map_eq_some_iff.mp he'
      have hcovered := h.covered key p hp hpattern id hid e he
      rcases hsources id hsource e he with hactive | ⟨-, hsuperseded⟩
      · rw [h.idle id e he hactive] at hcovered
        cases hcovered
      · exact absurd (Option.some.inj (hcovered.symm.trans hsuperseded)) hkey
    · rw [hr.others id hsource hne] at he'
      exact h.covered key p hp hpattern id hid e' he'

theorem reversesOnly_of_reverses (h : Coherent s) (hreversible : Reversible request s)
    (hr : Reverses request pattern s t) : ReversesOnly request.patternId s t := by
  obtain ⟨hitself, hsources⟩ := hreversible pattern hr.stored hr.type hr.nonempty
  have hcoherent := coherent_of_reverses h hreversible hr
  refine ⟨fun pattern' hpattern' _ id hid e he _ _ => ?_, fun k e e' he he' hidle hactive => ?_,
    fun k e he helsewhere => ?_, fun id e he hactive key p hp hpattern => hcoherent.uncovered he hactive hp hpattern⟩
  · cases hr.stored.symm.trans hpattern'
    rw [hr.sources id hid (h.source_ne hr hid), he]
    exact ⟨_, rfl, rfl⟩
  · by_cases hk : k = request.patternId
    · subst hk
      cases hr.itself.symm.trans he'
      cases hactive
    · by_cases hsource : Supersedes pattern k
      · rcases hsources k hsource e he with hactive' | ⟨-, hsuperseded⟩
        · exact absurd hactive' hidle
        · exact ⟨hsuperseded, pattern, hr.stored, hsource⟩
      · rw [hr.others k hsource hk] at he'
        cases he.symm.trans he'
        exact absurd hactive hidle
  · by_cases hk : k = request.patternId
    · subst hk
      cases hr.stored.symm.trans he
      exact absurd helsewhere hitself
    · by_cases hsource : Supersedes pattern k
      · exact absurd helsewhere (not_elsewhere (hsources k hsource e he))
      · rw [hr.others k hsource hk, he]

theorem coherent_of_reversal (h : Coherent s) (hreversible : Reversible request s) (hr : Reversed request s t) :
    Coherent t ∧ ReversesOnly request.patternId s t := by
  rcases hr.cases with ⟨rfl, hnothing⟩ | ⟨pattern, hr⟩
  · refine ⟨h, fun pattern hpattern htype id hid => ?_, fun k e e' he he' hidle hactive => ?_, fun k e he _ => he,
      fun id e he hactive key p hp hpattern => h.uncovered he hactive hp hpattern⟩
    · unfold Supersedes at hid
      rw [hnothing pattern hpattern htype] at hid
      exact absurd hid List.not_mem_nil
    · cases he.symm.trans he'
      exact absurd hactive hidle
  · exact ⟨coherent_of_reverses h hreversible hr, reversesOnly_of_reverses h hreversible hr⟩

end Reversal

/-! ## Every history -/

/-- No promotion is stopped at its metric, and every reversal is reversible. -/
def Allowed (s : LtmState) : Event → Prop
  | .pass pass => pass.Counts
  | .reverse request => Reversible request s.entries
  | .mutate _ _ => True

variable {runtime : LtmRuntime}

theorem coherent_of_step {s t : LtmState} {event : Event} (h : Coherent s.entries)
    (hstep : Step runtime s event t) (hallowed : Allowed s event) : Coherent t.entries := by
  cases hstep with
  | pass hrun => exact coherent_of_pass hallowed h hrun
  | reverse request =>
    exact (coherent_of_reversal h hallowed (reversed_reverseSupersession h.parsed request)).1
  | mutate hmutates => exact coherent_of_changes h hmutates.changes

/-- **Reversals.** In a history in which no promotion is stopped at its metric, and in which the sources of a pattern
that is reversed are active or superseded by it, every reversal touches only what its pattern superseded. -/
theorem reverses_only_of_run {runtime : LtmRuntime} {events : List Event} {s t : LtmState}
    {request : SupersessionReversalRequest} (hrun : Run (Guarded (Step runtime) Allowed) .empty events s)
    (hstep : Guarded (Step runtime) Allowed s (.reverse request) t) :
    ReversesOnly request.patternId s.entries t.entries := by
  have hcoherent : Coherent s.entries :=
    hrun.invariant (P := fun s => Coherent s.entries) (fun _ _ _ h hstep => coherent_of_step h hstep.1 hstep.2)
      coherent_empty
  obtain ⟨hreverses, hallowed⟩ := hstep
  cases hreverses with
  | reverse =>
    exact (coherent_of_reversal hcoherent hallowed (reversed_reverseSupersession hcoherent.parsed request)).2

/-! ## Histories on fixed inputs -/

section Decidable

instance (patternId : String) (e : MemoryEntry) : Decidable (Elsewhere patternId e) :=
  decidable_of_iff (e.lifecycleStatus = .softDeleted ∨ e.lifecycleStatus = .hardDeleted ∨
    e.lifecycleStatus = .superseded ∧ e.supersededBy.any (· ≠ patternId) = true) <| by
  simp [Elsewhere, Option.any_eq_true]

instance (request : SupersessionReversalRequest) (s : EntryCollection) : Decidable (Reversible request s) :=
  inferInstanceAs (Decidable (∀ pattern ∈ s.find? request.patternId, pattern.type = .distilledPattern →
    sourceIds pattern ≠ [] → ¬Elsewhere request.patternId pattern ∧ ∀ id ∈ sourceIds pattern, ∀ e ∈ s.find? id,
      e.lifecycleStatus = .active ∨ e.lifecycleStatus = .superseded ∧ e.supersededBy = some request.patternId))

end Decidable

/-- One event, with a script of what its calls are answered. -/
def runEvent (runtime : LtmRuntime) (s : LtmState) : Event × List Memory.LtmEnv → Option LtmState
  | (.pass pass, _) => (pass.run s.entries).map fun end_ => { s with entries := end_.2 }
  | (.reverse request, _) => some { s with entries := (outcome (reverseSupersession request) s.entries).2 }
  | (.mutate request projectId, script) =>
    ((Memory.mutate runtime request projectId).alone Memory.answers Memory.NewIds script [] s).map Prod.snd

theorem step_of_runEvent {s t : LtmState} {event : Event × List Memory.LtmEnv}
    (h : runEvent runtime s event = some t) : Step runtime s event.1 t := by
  obtain ⟨event, script⟩ := event
  cases event with
  | pass pass =>
    obtain ⟨end_, hend, rfl⟩ := Option.map_eq_some_iff.mp h
    exact .pass hend
  | reverse request =>
    cases h
    exact .reverse s request
  | mutate request projectId =>
    obtain ⟨end_, hend, rfl⟩ := Option.map_eq_some_iff.mp h
    obtain ⟨l, hends⟩ := Async.ends_of_alone hend
    exact .mutate ⟨end_.1, l, hends⟩

def runEvents (runtime : LtmRuntime) : List (Event × List Memory.LtmEnv) → LtmState → Option LtmState
  | [], s => some s
  | event :: events, s => (runEvent runtime s event).bind (runEvents runtime events)

theorem run_of_runEvents : ∀ {events : List (Event × List Memory.LtmEnv)} {s t : LtmState},
    runEvents runtime events s = some t → Run (Step runtime) s (events.map Prod.fst) t
  | [], s, t, h => Option.some.inj h ▸ .nil
  | event :: events, s, t, h => by
    obtain ⟨u, hu, hrest⟩ := Option.bind_eq_some_iff.mp h
    exact .cons (step_of_runEvent hu) (run_of_runEvents hrest)

def ourCandidate : Memory.MemoryWriteCandidate where
  content := "content"
  type := .experienceRecord
  scope := .project
  projectId := some "550e8400-e29b-41d4-a716-446655440000"
  traceId := "trace"
  sentiment := some .strongPositive
  mutabilityClass := none
  context := some "context"
  action := some "action"
  outcome := some "outcome"
  reason := some "reason"
  tags := []

def ourMutation (action : Memory.MemoryMutationAction) (id : String) (target : Option String) :
    Memory.MemoryMutationRequest where
  id := some id
  action := action
  actor := .core
  projectId := ourCandidate.projectId
  targetEntryId := target
  replacementCandidate := some ourCandidate
  reason := ⟨"reason", by decide⟩
  traceId := none
  evidenceRefs := []
  requestedAt := some ⟨"2026-01-01T00:00:00.000Z", 0⟩

def createRecord (id : String) : Event × List Memory.LtmEnv :=
  (.mutate (ourMutation .create ("create-" ++ id) none) none, List.replicate 4 (Memory.envOne none id))

def deleteRecord (id : String) : Event × List Memory.LtmEnv :=
  (.mutate (ourMutation .softDelete ("delete-" ++ id) (some id)) none, List.replicate 4 (Memory.envOne none id))

/-- A pass over all projects that promotes every cluster of two records. -/
def ourPass : DistillationPass where
  projectId := none
  config := { tagConfig with clusteringStrategy := .project }
  promotes := fun cluster =>
    if h : cluster.records ≠ [] then
      some ⟨{ ourPromotion none with cluster := cluster, nonempty := h }, rfl⟩
    else none

theorem ourPass_counts : ourPass.Counts := by
  intro cluster promotion hpromotes hfails
  unfold ourPass at hpromotes
  dsimp only at hpromotes
  split_ifs at hpromotes
  cases hpromotes
  cases hfails

def ourReversal : SupersessionReversalRequest where
  patternId := ourDraft.id
  restoredAt := fun _ => ⟨"2026-01-03T00:00:00.000Z", 172800000⟩
  retiredAt := ⟨"2026-01-03T00:00:00.000Z", 172800000⟩

def firstId : String := "550e8400-e29b-41d4-a716-446655440071"

def twoRecords : List (Event × List Memory.LtmEnv) :=
  [createRecord firstId, createRecord "550e8400-e29b-41d4-a716-446655440072", (.pass ourPass, [])]

def statusOf (s : LtmState) (id : String) : Option MemoryLifecycleStatus := (s.entries.find? id).map (·.lifecycleStatus)

theorem reversed_twoRecords : ∃ s t, Run (Guarded (Step Memory.withoutIndex) Allowed) .empty (twoRecords.map Prod.fst) s ∧
    statusOf s firstId = some .superseded ∧ statusOf t firstId = some .active ∧
      ReversesOnly ourReversal.patternId s.entries t.entries := by
  have hends : (runEvents Memory.withoutIndex twoRecords .empty).any (fun s =>
      statusOf s firstId = some .superseded ∧ Reversible ourReversal s.entries ∧
        (runEvent Memory.withoutIndex s (.reverse ourReversal, [])).any fun t =>
          statusOf t firstId = some .active) = true := by decide +kernel
  obtain ⟨s, hs, hcheck⟩ := (Option.any_eq_true _ _).mp hends
  obtain ⟨hbefore, hreversible, hreverse⟩ := of_decide_eq_true hcheck
  obtain ⟨t, ht, hafter⟩ := (Option.any_eq_true _ _).mp hreverse
  have hallowed : ∀ event ∈ twoRecords.map Prod.fst, ∀ s, Allowed s event := by
    intro event hevent s
    simp only [twoRecords, createRecord, List.map_cons, List.map_nil, List.mem_cons, List.not_mem_nil, or_false] at hevent
    rcases hevent with rfl | rfl | rfl
    · trivial
    · trivial
    · exact ourPass_counts
  have hrun : Run (Guarded (Step Memory.withoutIndex) Allowed) .empty (twoRecords.map Prod.fst) s :=
    ((run_of_runEvents hs).guarded (G := fun event => ∀ s, Allowed s event) hallowed).mono fun s _ _ h => ⟨h.1, h.2 s⟩
  exact ⟨s, t, hrun, hbefore, of_decide_eq_true hafter,
    reverses_only_of_run hrun ⟨step_of_runEvent ht, hreversible⟩⟩

/-- A superseded record is deleted, and the reversal of its pattern makes it active. -/
theorem reversal_revives_deleted : ¬∀ runtime events s t request, Run (Step runtime) .empty events s →
    Step runtime s (.reverse request) t → ReversesOnly request.patternId s.entries t.entries := by
  intro hall
  have hends : (runEvents Memory.withoutIndex (twoRecords ++ [deleteRecord firstId]) .empty).any (fun s =>
      statusOf s firstId = some .softDeleted ∧ (runEvent Memory.withoutIndex s (.reverse ourReversal, [])).any fun t =>
        statusOf t firstId = some .active) = true := by decide +kernel
  obtain ⟨s, hs, hcheck⟩ := (Option.any_eq_true _ _).mp hends
  obtain ⟨hbefore, hreverse⟩ := of_decide_eq_true hcheck
  obtain ⟨t, ht, hafter⟩ := (Option.any_eq_true _ _).mp hreverse
  obtain ⟨e, he, hdeleted⟩ := Option.map_eq_some_iff.mp hbefore
  have hkept := (hall _ _ s t ourReversal (run_of_runEvents hs) (step_of_runEvent ht)).keeps firstId e he (.inl hdeleted)
  have hactive : statusOf t firstId = some .active := of_decide_eq_true hafter
  unfold statusOf at hactive
  rw [hkept, Option.map_some, hdeleted] at hactive
  cases hactive

end NousCore.Distillation
