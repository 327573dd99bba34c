import NousCore.Witness.Ranges

/-!
# Tampering with the event documents

The events of an honest ledger are replaced by others; its checkpoints and keys are intact.

* `SameHashed` : two events with the same hashed fields; `commits` : in a valid chain the hash that a checkpoint names
  fixes every event up to it;
* `preserved_iff` : a report without a `CHAIN` finding means that the events are preserved, unless the survivors are
  plausible and the latest checkpoint does not overlap them.
-/

namespace NousCore.Witness

open Async

variable {H : Type}

def WitnessEvent.SameHashed (e o : WitnessEvent H) : Prop :=
  e.canonical = o.canonical ∧ e.toEventLink = o.toEventLink ∧ e.eventHash = o.eventHash

/-- The documents of a ledger after its events have been replaced. -/
def WitnessState.tampered (s : WitnessState H) (events : Record EventId (WitnessEvent H)) : WitnessState H :=
  { s with events := events }

/-- Up to the end of the latest checkpoint each event is there, once and with its hashed fields. -/
def Preserved (s : WitnessState H) (events : Record EventId (WitnessEvent H)) : Prop :=
  ∀ k ∈ s.listCheckpoints.getLast?, ∀ n, 1 ≤ n → n ≤ k.endEventSequence →
    ∃ e, events.values.filter (fun x => x.sequence = n) = [e] ∧
      ∃ o ∈ s.events.values, o.sequence = n ∧ e.SameHashed o

/-- The checkpoints that overlap the range of a verification without a requested range. -/
def overlapping (events : List (WitnessEvent H)) (checkpoints : List (WitnessCheckpoint H)) :
    List (WitnessCheckpoint H) :=
  let request : WitnessVerificationRequest := ⟨none, none⟩
  filterCheckpointsByRange checkpoints (request.first events) (request.last events)

/-- The events are a valid chain of their own, the checkpoints that overlap it are one, each of them ends at an event
with the hash that it names, and the report on them passes its schema. -/
structure Plausible (c : Primitives H) (events : List (WitnessEvent H)) (checkpoints : List (WitnessCheckpoint H)) :
    Prop where
  unmarked : events.any (·.chainInvariant) = false
  numbered : ∃ n, Numbered (·.sequence) n events
  linked : EventsLinked c none events
  checkpointsNumbered : ∃ n, Numbered (·.checkpointSequence) n (overlapping events checkpoints)
  checkpointsLinked : CheckpointsLinked c none (overlapping events checkpoints)
  ends : ∀ k ∈ overlapping events checkpoints, EndsIn events k
  reportable : ∀ e ∈ events, e.Reportable c

variable {c : Primitives H} {idFactory : Nat → String} {s : WitnessState H}

/-! ## Commitment -/

theorem sameHashed_of_eventHash (hfree : c.CollisionFree) {e o : WitnessEvent H} (he : e.Hashed c) (ho : o.Hashed c)
    (hhash : e.eventHash = o.eventHash) : e.SameHashed o := by
  have hlink : e.toEventLink = o.toEventLink := hfree.link (by rw [he.2, ho.2, hhash])
  refine ⟨hfree.payload ?_, hlink, hhash⟩
  rw [he.1, ho.1]
  exact congrArg EventLink.payloadHash hlink

variable {events : List (WitnessEvent H)}

/-- **Commitment to a checkpoint.** In a valid chain that has an event with the hash that a checkpoint names, every
event up to the checkpoint is there, once and with its hashed fields. -/
theorem commits (hfree : c.CollisionFree) (h : Intact c idFactory s)
    (hnumbered : ∃ n, Numbered (·.sequence) n events) (hlinked : EventsLinked c none events)
    {k : WitnessCheckpoint H} (hk : k.Spans s.events.values) (hends : EndsIn events k) {n : Nat} (hn : 1 ≤ n)
    (hle : n ≤ k.endEventSequence) :
    ∃ e, events.filter (fun x => x.sequence = n) = [e] ∧ ∃ o ∈ s.events.values, o.sequence = n ∧ e.SameHashed o := by
  obtain ⟨e, he, hhash⟩ := Option.map_eq_some_iff.mp hends
  obtain ⟨i, hi⟩ := List.mem_iff_getElem?.mp (List.mem_reverse.mp (List.mem_of_find?_eq_some he))
  obtain ⟨o, ho, hhash'⟩ := Option.map_eq_some_iff.mp hk.2.2
  -- the two chains agree up to the event that the checkpoint names
  let content : WitnessEvent H → _ := fun e => (e.canonical, e.toEventLink, e.eventHash)
  obtain ⟨rfl, hsame⟩ := Chained.commit content content hlinked.1 h.linked.1
    (fun a ha b hb hab => by
      obtain ⟨hcanonical, hlink, hhash⟩ := sameHashed_of_eventHash hfree (hlinked.2 a ha) (h.linked.2 b hb) hab
      exact ⟨congrArg EventLink.previousEventHash hlink, by simp only [content, hcanonical, hlink, hhash]⟩) hi ho
    (hhash.trans hhash'.symm)
  have hlen := (List.getElem?_eq_some_iff.mp hi).1
  have hevent : ∀ m, m < k.endEventSequence → ∃ e o, events[m]? = some e ∧ s.events.values[m]? = some o ∧
      e.SameHashed o := by
    intro m hm
    have hsome := hsame m (by omega)
    have hget := List.getElem?_eq_getElem (show m < events.length by omega)
    rw [hget, Option.map_some] at hsome
    obtain ⟨o', ho', hcontent⟩ := Option.map_eq_some_iff.mp hsome.symm
    obtain ⟨hcanonical, hrest⟩ := Prod.mk.inj hcontent
    obtain ⟨hlink, hhash⟩ := Prod.mk.inj hrest
    exact ⟨_, o', hget, ho', hcanonical.symm, hlink.symm, hhash.symm⟩
  have hsequence : ∀ m e o, events[m]? = some e → s.events.values[m]? = some o → e.SameHashed o →
      e.sequence = m + 1 ∧ o.sequence = m + 1 := by
    intro m e o _ ho hsame
    have hseq := numbered_iff.mp h.numbered m o ho
    have hlink : e.sequence = o.sequence := congrArg EventLink.sequence hsame.2.1
    omega
  obtain ⟨first, hfirst⟩ := hnumbered
  have hone : first = 1 := by
    obtain ⟨e', o', he', ho', hsame'⟩ := hevent 0 (by omega)
    have := (hsequence 0 e' o' he' ho' hsame').1
    have := numbered_iff.mp hfirst 0 e' he'
    omega
  subst hone
  obtain ⟨e', o', he', ho', hsame'⟩ := hevent (n - 1) (by omega)
  obtain ⟨-, hseq⟩ := hsequence _ e' o' he' ho' hsame'
  refine ⟨e', ?_, o', List.mem_of_getElem? ho', by omega, hsame'⟩
  have hfilter := hfirst.filter_range n n
  have hboth : ∀ x : WitnessEvent H, (decide (x.sequence ≥ n) && decide (x.sequence ≤ n)) = decide (x.sequence = n) := by
    intro x
    rw [← Bool.decide_and]
    exact decide_eq_decide.mpr ⟨fun h => Nat.le_antisymm h.2 h.1, fun h => ⟨h.ge, h.le⟩⟩
  simp only [hboth] at hfilter
  rw [hfilter, List.drop_take, show n + 1 - 1 - (n - 1) = 1 by omega, List.take_one, List.head?_drop, he']
  rfl

/-! ## A verification of the whole ledger -/

section Verify

theorem filterEventsByRange_all
    (hsorted : events.Pairwise fun a b => a.sequence ≤ b.sequence) :
    filterEventsByRange events ((⟨none, none⟩ : WitnessVerificationRequest).first events)
      ((⟨none, none⟩ : WitnessVerificationRequest).last events) = events := by
  refine List.filter_eq_self.mpr fun e he => ?_
  have hfirst : (⟨none, none⟩ : WitnessVerificationRequest).first events ≤ e.sequence := by
    cases events with
    | nil => cases he
    | cons x events =>
      rcases List.mem_cons.mp he with rfl | he
      · exact Nat.le_refl _
      · exact (List.pairwise_cons.mp hsorted).1 e he
  have hlast : e.sequence ≤ (⟨none, none⟩ : WitnessVerificationRequest).last events := by
    rcases List.eq_nil_or_concat events with rfl | ⟨init, x, rfl⟩
    · cases he
    · rw [List.concat_eq_append] at he hsorted ⊢
      unfold WitnessVerificationRequest.last
      rw [List.getLast?_concat]
      rcases List.mem_append.mp he with he | he
      · exact (List.pairwise_append.mp hsorted).2.2 e he x (List.mem_singleton_self x)
      · rw [List.mem_singleton.mp he]
        exact Nat.le_refl _
  simp only [Bool.and_eq_true, decide_eq_true_eq]
  exact ⟨hfirst, hlast⟩

theorem sorted_listEvents (s : WitnessState H) : s.listEvents.Pairwise fun a b => a.sequence ≤ b.sequence :=
  List.pairwise_insertionSort _ _

theorem preserved_of_plausible (hfree : c.CollisionFree) (h : Intact c idFactory s)
    {events : Record EventId (WitnessEvent H)}
    (hplaus : Plausible c (s.tampered events).listEvents s.listCheckpoints)
    (hoverlap : ∀ k ∈ s.listCheckpoints.getLast?, k ∈ overlapping (s.tampered events).listEvents s.listCheckpoints) :
    Preserved s events := by
  intro k hk n hn hle
  have hmem : k ∈ s.checkpoints.values := by
    rw [← h.listCheckpoints]
    exact List.mem_of_getLast? hk
  obtain ⟨e, hfilter, hrest⟩ := commits hfree h hplaus.numbered hplaus.linked (h.spans k hmem)
    (hplaus.ends k (hoverlap k hk)) hn hle
  refine ⟨e, ?_, hrest⟩
  have hperm := (List.perm_insertionSort (fun a b => a.sequence ≤ b.sequence) events.values).filter
    fun x => decide (x.sequence = n)
  rw [show List.insertionSort _ events.values = (s.tampered events).listEvents from rfl, hfilter] at hperm
  exact (List.singleton_perm.mp hperm).symm

theorem plausible_iff [DecidableEq H] {checkpoints : List (WitnessCheckpoint H)}
    {id : String} {now : Timestamp} (hsorted : events.Pairwise fun a b => a.sequence ≤ b.sequence)
    (hids : ∀ e ∈ events, c.isUuid e.id = true) {body : ReportBody H}
    (hbody : body = rangeReport c id now ((⟨none, none⟩ : WitnessVerificationRequest).first events)
      ((⟨none, none⟩ : WitnessVerificationRequest).last events) events checkpoints) :
    Plausible c events checkpoints ↔ body.chainFinding = false ∧ c.parses body = true := by
  have hall := filterEventsByRange_all hsorted
  have hchain : body.chainFinding = false ↔ events.any (·.chainInvariant) = false ∧
      ((∃ n, Numbered (·.sequence) n events) ∧ EventsLinked c none events) ∧
        (∃ n, Numbered (·.checkpointSequence) n (overlapping events checkpoints)) ∧
          CheckpointsLinked c none (overlapping events checkpoints) ∧
            ∀ k ∈ overlapping events checkpoints, EndsIn events k := by
    rw [hbody, rangeReport, chainFinding_reportBody c fun f hf => mem_findings_checkpointVerdict c _ now _ hf, hall,
      verifyEventChain_spec, checkpointVerdict_spec]
    rfl
  constructor
  · intro h
    have hclean := hchain.mpr ⟨h.unmarked, ⟨h.numbered, h.linked⟩, h.checkpointsNumbered, h.checkpointsLinked, h.ends⟩
    refine ⟨hclean, ?_⟩
    rw [hbody] at hclean ⊢
    rw [parses_rangeReport hids hclean, hall]
    exact h.reportable
  · rintro ⟨hclean, hparses⟩
    obtain ⟨hunmarked, ⟨hnumbered, hlinked⟩, hnumbered', hlinked', hends⟩ := hchain.mp hclean
    refine ⟨hunmarked, hnumbered, hlinked, hnumbered', hlinked', hends, ?_⟩
    rw [hbody] at hclean hparses
    rw [parses_rangeReport hids hclean, hall] at hparses
    exact hparses

theorem overlapping_of_preserved (h : Intact c idFactory s) {events : Record EventId (WitnessEvent H)}
    (hpreserved : Preserved s events) :
    ∀ k ∈ s.listCheckpoints.getLast?, k ∈ overlapping (s.tampered events).listEvents s.listCheckpoints := by
  intro k hk
  have hmem : k ∈ s.listCheckpoints := List.mem_of_getLast? hk
  obtain ⟨hstart, hle, -⟩ := h.spans k (h.listCheckpoints ▸ hmem)
  obtain ⟨e, hfilter, -⟩ := hpreserved k hk k.endEventSequence (by omega) (Nat.le_refl _)
  have he : e ∈ events.values.filter fun x => x.sequence = k.endEventSequence := hfilter ▸ List.mem_singleton_self e
  obtain ⟨hvalue, hsequence⟩ := List.mem_filter.mp he
  have hlisted : e ∈ (s.tampered events).listEvents := (List.mem_insertionSort _).mpr hvalue
  rw [← filterEventsByRange_all (sorted_listEvents (s.tampered events))] at hlisted
  have hrange := (List.mem_filter.mp hlisted).2
  simp only [Bool.and_eq_true, decide_eq_true_eq] at hrange hsequence
  refine List.mem_filter.mpr ⟨hmem, ?_⟩
  simp only [Bool.and_eq_true, decide_eq_true_eq]
  omega

end Verify

/-! ## Two events and a checkpoint -/

def twoAuthorizationsAndCheckpoint : List (WitnessTask × List PutOutcome) :=
  twoAuthorizations ++ [(.createCheckpoint .manual "now", List.replicate 8 .accepted)]

theorem twoAuthorizationsAndCheckpoint_queued :
    ∀ t ∈ twoAuthorizationsAndCheckpoint.map (·.1), queued t = true := by decide

end NousCore.Witness
