import NousCore.Witness.Queued
import NousCore.Witness.Verification

/-!
# The ranges of an honest ledger

* `reportsOn_of_ends` : what a verification that runs alone reports;
* `Verifiable` : the ranges of which the report finds nothing wrong with the chains (`verify_clean_iff`).
-/

namespace NousCore.Witness

open Async

variable {H : Type}

/-- The ids that the detail of an invariant event names as evidence have the format of ids. -/
def WitnessEvent.Reportable (c : Primitives H) (e : WitnessEvent H) : Prop :=
  e.stage = .invariant → e.invariantCode ≠ none →
    ∀ ids, (e.detail.get? "evidenceEventIds").bind Json.strings? = some ids → ids.all c.isUuid = true

/-- The report is clean and passes its schema. -/
structure Verifiable (c : Primitives H) (s : WitnessState H) (first last : Nat) : Prop where
  first : first = 1
  ends : ∀ k ∈ s.checkpoints.values, k.startEventSequence ≤ last → k.endEventSequence ≤ last
  unmarked : ∀ e ∈ s.events.values, e.sequence ≤ last → e.chainInvariant = false
  reportable : ∀ e ∈ s.events.values, e.sequence ≤ last → e.Reportable c

variable {c : Primitives H} {idFactory : Nat → String} {s : WitnessState H}

/-! ## The schema of the report -/

section Schema

variable {events : List (WitnessEvent H)} {now : Timestamp}

theorem parses_collectInvariantEventFindings (hids : ∀ e ∈ events, c.isUuid e.id = true) :
    ((collectInvariantEventFindings events now).all fun f => f.evidenceEventIds.all c.isUuid) = true ↔
      ∀ e ∈ events, e.Reportable c := by
  unfold collectInvariantEventFindings
  rw [List.all_filterMap, List.all_eq_true]
  refine forall₂_congr fun e he => ?_
  unfold WitnessEvent.Reportable
  cases hstage : e.stage <;> cases hcode : e.invariantCode <;> simp only [reduceCtorEq, false_implies, ne_eq,
    not_true_eq_false, not_false_eq_true, forall_const]
  cases hdetail : (e.detail.get? "evidenceEventIds").bind Json.strings? with
  | none => simp [createInvariantFinding, hids e he]
  | some ids => simp [createInvariantFinding]

theorem parses_findEvidenceCompletenessFindings (hids : ∀ e ∈ events, c.isUuid e.id = true) :
    ((findEvidenceCompletenessFindings events now).all fun f => f.evidenceEventIds.all c.isUuid) = true := by
  unfold findEvidenceCompletenessFindings
  rw [List.all_append, Bool.and_eq_true, List.all_map, List.all_map, List.all_eq_true, List.all_eq_true]
  constructor
  · intro id hid
    have hmem := List.mem_eraseDups.mp (List.mem_of_mem_filter hid)
    obtain ⟨e, he, rfl⟩ := List.mem_map.mp hmem
    simpa [createInvariantFinding] using hids e (List.mem_of_mem_filter he)
  · intro e he
    simpa [createInvariantFinding] using hids e (List.mem_of_mem_filter (List.mem_of_mem_filter he))

variable [DecidableEq H]

/-- A report without a `CHAIN` finding passes its schema when the events of its range are reportable. -/
theorem parses_rangeReport {first last : Nat} {id : String} {checkpoints : List (WitnessCheckpoint H)}
    (hids : ∀ e ∈ events, c.isUuid e.id = true)
    (hclean : (rangeReport c id now first last events checkpoints).chainFinding = false) :
    c.parses (rangeReport c id now first last events checkpoints) = true ↔
      ∀ e ∈ filterEventsByRange events first last, e.Reportable c := by
  obtain ⟨-, hevents, hcheckpoints⟩ :=
    (chainFinding_reportBody c fun f hf => mem_findings_checkpointVerdict c _ now _ hf).mp hclean
  have hids' : ∀ e ∈ filterEventsByRange events first last, c.isUuid e.id = true := fun e he =>
    hids e (List.mem_of_mem_filter he)
  unfold Primitives.parses rangeReport reportBody
  dsimp only
  rw [hevents, hcheckpoints, List.append_nil, List.append_nil, List.all_append, Bool.and_eq_true,
    parses_collectInvariantEventFindings hids', and_iff_left (parses_findEvidenceCompletenessFindings hids')]

end Schema

/-! ## A verification that runs alone -/

section Verify

variable {checkpointInterval first last : Nat} {now : Timestamp}

theorem verifying_alone : Verifying c (fun s => ∀ j ∈ s.checkpoints.values, j.Signed c s)
    ⟨honestStore, Eq, fun _ _ => True⟩ where
  honest := fun _ _ _ _ h => h
  signed := fun _ h => h
  inv := fun s s' hs h => (show s = s' from hs) ▸ h
  checkpoints := fun s s' hs => (show s = s' from hs) ▸ List.Subset.refl _
  refl := fun _ => trivial
  nextId := fun _ => trivial
  createKeyPair := fun _ => trivial
  putHead := fun _ _ _ _ => trivial
  putKeyEpoch := fun _ _ _ _ _ => trivial
  putReport := fun _ _ => trivial

section

variable [DecidableEq H]

/-- The outcome is the report on the requested range, unless its schema refuses it. -/
def ReportsOn (c : Primitives H) (s : WitnessState H) (request : WitnessVerificationRequest) (now : Timestamp) :
    Except WitnessError (WitnessResult H) → Prop := fun y =>
  ∃ id, ∃ report : VerificationReport H,
    report.toReportBody = rangeReport c id now (request.first s.listEvents) (request.last s.listEvents) s.listEvents
      s.listCheckpoints ∧
      y = if c.parses report.toReportBody then .ok (.report report) else .error .invalidReport

theorem reportsOn_of_ends {request : WitnessVerificationRequest} (h : ∀ j ∈ s.checkpoints.values, j.Signed c s)
    {y : Except WitnessError (WitnessResult H)} {l : Log (WitnessOp.Answer (H := H))} {t : WitnessState H}
    (hends : (taskBody c checkpointInterval (.verify request now)).Ends (answers c idFactory) honestStore [] s y l t) :
    ReportsOn c s request now y := by
  have hmeets : (taskBody c checkpointInterval (.verify request now)).Meets (answers c idFactory)
      ⟨honestStore, Eq, fun _ _ => True⟩ (fun _ y _ => ReportsOn c s request now y) [] s := by
    refine meets_verify verifying_alone h fun s' l' t id report hs _ hreport => ?_
    obtain rfl : s = s' := hs
    exact ⟨id, report, hreport, rfl⟩
  exact hmeets.ends (fun _ => rfl) (fun _ _ _ _ hallowed => hallowed) hends

theorem exists_ends_honestStore (c : Primitives H) (checkpointInterval : Nat) (idFactory : Nat → String)
    (t : WitnessTask) (s : WitnessState H) :
    ∃ y l t', (taskBody c checkpointInterval t).Ends (answers c idFactory) honestStore [] s y l t' := by
  refine exists_ends (fun l o s => ?_) _ [] s
  cases o <;> exact ⟨.accepted, _, _, rfl, rfl⟩

end

theorem verifiable_iff (h : Intact c idFactory s) (hfirst : 1 ≤ first) (hle : first ≤ last)
    (hlast : last ≤ s.events.values.length) :
    Verifiable c s first last ↔ CleanRange first last s.events.values s.checkpoints.values ∧
      ∀ e ∈ filterEventsByRange s.events.values first last, e.Reportable c := by
  have hrange : ∀ e, e ∈ filterEventsByRange s.events.values first last ↔
      e ∈ s.events.values ∧ first ≤ e.sequence ∧ e.sequence ≤ last := by
    intro e
    simp [filterEventsByRange]
  have hevent : ∀ n, 1 ≤ n → n ≤ s.events.values.length → ∃ e ∈ s.events.values, e.sequence = n := by
    intro n hn hlen
    have hget := List.getElem?_eq_getElem (show n - 1 < s.events.values.length by omega)
    refine ⟨_, List.mem_of_getElem? hget, ?_⟩
    rw [numbered_iff.mp h.numbered _ _ hget]
    omega
  have hone : (∀ e ∈ (filterEventsByRange s.events.values first last).head?, e.sequence = 1) ↔ first = 1 := by
    obtain ⟨before, hlength, -, hnumbered, -⟩ := range_split first last h.numbered h.linked
    rw [List.length_take] at hlength
    obtain ⟨e, he, hsequence⟩ := hevent first hfirst (hle.trans hlast)
    have hmem := (hrange e).mpr ⟨he, by omega, by omega⟩
    generalize filterEventsByRange s.events.values first last = range at hnumbered hmem ⊢
    cases range with
    | nil => cases hmem
    | cons x range =>
      have hx : x.sequence = 1 + before.length := hnumbered.1
      simp only [List.head?_cons, Option.mem_def, Option.some.injEq, forall_eq']
      omega
  unfold CleanRange Unbroken
  rw [hone, List.any_eq_false]
  constructor
  · rintro ⟨rfl, hends, hunmarked, hreportable⟩
    refine ⟨⟨fun e he => ?_, rfl, fun k hk => ?_⟩, fun e he => ?_⟩
    · obtain ⟨hmem, -, hseq⟩ := (hrange e).mp he
      rw [hunmarked e hmem hseq]
      exact Bool.false_ne_true
    · have hmem := List.mem_of_mem_filter hk
      obtain ⟨hstart, hend, -⟩ := h.spans k hmem
      have hoverlap := (List.mem_filter.mp hk).2
      simp only [Bool.and_eq_true, decide_eq_true_eq] at hoverlap
      have hended := hends k hmem hoverlap.2
      obtain ⟨e, he, hsequence⟩ := hevent k.endEventSequence (by omega) (by omega)
      exact ⟨e, (hrange e).mpr ⟨he, by omega, by omega⟩, hsequence⟩
    · obtain ⟨hmem, -, hseq⟩ := (hrange e).mp he
      exact hreportable e hmem hseq
  · rintro ⟨⟨hunmarked, rfl, hends⟩, hreportable⟩
    have hmem : ∀ e ∈ s.events.values, e.sequence ≤ last → e ∈ filterEventsByRange s.events.values 1 last :=
      fun e he hseq => (hrange e).mpr ⟨he, (h.numbered.bounds he).1, hseq⟩
    refine ⟨rfl, fun k hk hstart => ?_, fun e he hseq => ?_, fun e he hseq => hreportable e (hmem e he hseq)⟩
    · obtain ⟨hpos, hend, -⟩ := h.spans k hk
      obtain ⟨e, he, hsequence⟩ := hends k (by
        refine List.mem_filter.mpr ⟨hk, ?_⟩
        simp only [Bool.and_eq_true, decide_eq_true_eq]
        omega)
      have := ((hrange e).mp he).2.2
      omega
    · exact Bool.eq_false_iff.mpr (hunmarked e (hmem e he hseq))

variable [DecidableEq H]

/-- **Ranges of an honest ledger.** Of a ledger that queued calls have built, a verification of a range within it ends;
it reports valid chains and no `CHAIN` finding exactly when the range starts at the first event, no checkpoint that
starts in it ends after it, none of its invariant events was recorded with a `CHAIN` code, and the evidence that they
name passes the schema of the report. -/
theorem verify_clean_iff (hinj : Function.Injective idFactory) (huuid : ∀ n, c.isUuid (idFactory n) = true)
    (hverifies : c.Verifies) {tasks : List WitnessTask}
    (hrun : Run (Guarded (Called c checkpointInterval idFactory honestStore) fun _ t => queued t = true) .empty tasks s)
    (hfirst : 1 ≤ first) (hle : first ≤ last) (hlast : last ≤ s.events.values.length) :
    (∃ y l t, (taskBody c checkpointInterval (.verify ⟨some first, some last⟩ now)).Ends (answers c idFactory)
        honestStore [] s y l t) ∧
      ((∀ y l t, (taskBody c checkpointInterval (.verify ⟨some first, some last⟩ now)).Ends (answers c idFactory)
          honestStore [] s y l t → ∃ report, y = .ok (.report report) ∧ report.Clean) ↔ Verifiable c s first last) := by
  have h := (idle_of_run hinj hverifies (fun _ _ _ _ hx => hx) hrun).intact
  have hids : ∀ e ∈ s.events.values, c.isUuid e.id = true := by
    intro e he
    obtain ⟨n, hn⟩ := h.namedIds e he
    rw [hn]
    exact huuid n
  have hreports : ∀ y, ReportsOn c s ⟨some first, some last⟩ now y → ∃ id, ∃ report : VerificationReport H,
      report.toReportBody = rangeReport c id now first last s.events.values s.checkpoints.values ∧
        y = if c.parses report.toReportBody then .ok (.report report) else .error .invalidReport := by
    rintro y ⟨id, report, hreport, hy⟩
    rw [h.listEvents, h.listCheckpoints] at hreport
    exact ⟨id, report, hreport, hy⟩
  obtain ⟨y, l, t, hends⟩ := exists_ends_honestStore c checkpointInterval idFactory
    (.verify ⟨some first, some last⟩ now) s
  refine ⟨⟨y, l, t, hends⟩, ?_⟩
  rw [verifiable_iff h hfirst hle hlast]
  constructor
  · intro hall
    obtain ⟨id, report, hreport, hy⟩ := hreports y (reportsOn_of_ends h.signed hends)
    obtain ⟨report', hy', hclean⟩ := hall y l t hends
    split_ifs at hy with hparses
    · rw [hy] at hy'
      obtain rfl : report = report' := by injection hy' with hy'; injection hy'
      have hchain := hclean.chainFinding
      rw [hreport] at hchain hparses
      exact ⟨(chainFinding_rangeReport h (List.prefix_refl _) _ _).mp hchain, (parses_rangeReport hids hchain).mp hparses⟩
    · rw [hy] at hy'
      cases hy'
  · rintro ⟨hclean, hreportable⟩ y l t hends
    obtain ⟨id, report, hreport, rfl⟩ := hreports y (reportsOn_of_ends h.signed hends)
    have hchain := (chainFinding_rangeReport h (List.prefix_refl _) id now).mpr hclean
    rw [hreport, if_pos ((parses_rangeReport hids hchain).mpr hreportable)]
    refine ⟨report, rfl, ?_⟩
    rw [hreport]
    exact clean_rangeReport.mpr hchain

end Verify

/-! ## Two events -/

def sampleAuthorization : WitnessAuthorizationInput :=
  ⟨.toolExecute, "tool", none, none, .core, .approved, .empty, none⟩

/-- Two authorizations; the first call also stores the first head. -/
def twoAuthorizations : List (WitnessTask × List PutOutcome) :=
  [(.appendAuthorization sampleAuthorization "now", List.replicate 5 .accepted),
    (.appendAuthorization sampleAuthorization "now", List.replicate 4 .accepted)]

theorem twoAuthorizations_queued : ∀ t ∈ twoAuthorizations.map (·.1), queued t = true := by decide

theorem twoAuthorizations_clean_iff :
    ∃ s, Run (Guarded (Called symbolic 25 unaryId honestStore) fun _ t => queued t = true) .empty
        (twoAuthorizations.map (·.1)) s ∧
      (∃ y l t, (taskBody symbolic 25 (.verify ⟨some 1, some 2⟩ "now")).Ends (answers symbolic unaryId) honestStore [] s
        y l t) ∧
      ((∀ y l t, (taskBody symbolic 25 (.verify ⟨some 1, some 2⟩ "now")).Ends (answers symbolic unaryId) honestStore []
        s y l t → ∃ report, y = .ok (.report report) ∧ report.Clean) ↔ Verifiable symbolic s 1 2) := by
  obtain ⟨s, hrun, hlength⟩ := exists_run_of_check symbolic 25 unaryId honestStore twoAuthorizations
    (fun s => decide (2 ≤ s.events.values.length)) (by decide +kernel)
  have hrun' := hrun.guarded twoAuthorizations_queued
  exact ⟨s, hrun', verify_clean_iff unaryId_injective symbolic_isUuid symbolic_verifies hrun' (by decide) (by decide)
    (of_decide_eq_true hlength)⟩

/-- The event before the second one is outside of the range, and its hash is taken for a wrong link. -/
theorem twoAuthorizations_not_clean :
    ∃ s, Run (Guarded (Called symbolic 25 unaryId honestStore) fun _ t => queued t = true) .empty
        (twoAuthorizations.map (·.1)) s ∧ 2 ≤ s.events.values.length ∧
      ∃ y l t, (taskBody symbolic 25 (.verify ⟨some 2, some 2⟩ "now")).Ends (answers symbolic unaryId) honestStore [] s
        y l t ∧ ¬∃ report, y = .ok (.report report) ∧ report.Clean := by
  obtain ⟨s, hrun, hcheck⟩ := exists_run_of_check symbolic 25 unaryId honestStore twoAuthorizations
    (fun s => decide (2 ≤ s.events.values.length) &&
      ((taskBody symbolic 25 (.verify ⟨some 2, some 2⟩ "now")).alone (answers symbolic unaryId) honestStore
        (List.replicate 9 .accepted) [] s).any fun y => reportsChain y.1) (by decide +kernel)
  obtain ⟨hlength, hreport⟩ := (Bool.and_eq_true _ _).mp hcheck
  obtain ⟨⟨y, t⟩, halone, hy⟩ := (Option.any_eq_true _ _).mp hreport
  obtain ⟨l, hends⟩ := ends_of_alone halone
  exact ⟨s, hrun.guarded twoAuthorizations_queued, of_decide_eq_true hlength, y, l, t, hends,
    not_clean_of_reportsChain hy⟩

end NousCore.Witness
