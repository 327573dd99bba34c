import NousCore.Witness.Honest

/-!
# Verifying a range of an intact ledger

* `meets_verify` : what a verification reports, whatever queued calls run in between.
-/

namespace NousCore.Witness

open Async

variable {H : Type} {c : Primitives H} {idFactory : Nat → String}

/-- The range starts at the first event, and every checkpoint that overlaps it ends at one of its events. -/
def Unbroken (first last : Nat) (events : List (WitnessEvent H)) (checkpoints : List (WitnessCheckpoint H)) : Prop :=
  (∀ e ∈ (filterEventsByRange events first last).head?, e.sequence = 1) ∧
    ∀ k ∈ filterCheckpointsByRange checkpoints first last,
      ∃ e ∈ filterEventsByRange events first last, e.sequence = k.endEventSequence

instance (first last : Nat) (events : List (WitnessEvent H)) (checkpoints : List (WitnessCheckpoint H)) :
    Decidable (Unbroken first last events checkpoints) :=
  inferInstanceAs (Decidable ((∀ e ∈ (filterEventsByRange events first last).head?, e.sequence = 1) ∧
    ∀ k ∈ filterCheckpointsByRange checkpoints first last,
      ∃ e ∈ filterEventsByRange events first last, e.sequence = k.endEventSequence))

/-! ## The chain of events -/

section Events

variable {events : List (WitnessEvent H)} (first last : Nat)

theorem range_split (hnumbered : Numbered (·.sequence) 1 events) (hlinked : EventsLinked c none events) :
    ∃ before, before.length = min (first - 1) (events.take last).length ∧
      events.take last = before ++ filterEventsByRange events first last ∧
      Numbered (·.sequence) (1 + before.length) (filterEventsByRange events first last) ∧
      EventsLinked c (lastHash (·.eventHash) none before) (filterEventsByRange events first last) := by
  have hrange : filterEventsByRange events first last = (events.take last).drop (first - 1) := by
    unfold filterEventsByRange
    rw [hnumbered.filter_range]
    rfl
  have hsplit := (List.take_append_drop (first - 1) (events.take last)).symm
  have htake : events.take last <+: events := List.take_prefix _ _
  obtain ⟨after, hafter⟩ := htake
  rw [← hafter] at hnumbered hlinked
  have hnumbered' := (numbered_append.mp hnumbered).1
  have hchained' := hlinked.1.left
  rw [hsplit] at hnumbered' hchained'
  refine ⟨(events.take last).take (first - 1), List.length_take, by rw [hrange]; exact hsplit, ?_, ?_, ?_⟩
  · rw [hrange]
    exact (numbered_append.mp hnumbered').2
  · rw [hrange]
    exact (chained_append.mp hchained').2
  · intro e he
    rw [hrange] at he
    exact hlinked.2 e (List.mem_append_left _ (List.mem_of_mem_drop he))

variable [DecidableEq H]

/-- **Events of a range.** Their chain is found valid exactly when the range starts at the first event. -/
theorem verifyEventChain_range (hnumbered : Numbered (·.sequence) 1 events) (hlinked : EventsLinked c none events)
    (now : Timestamp) : (verifyEventChain c (filterEventsByRange events first last) now).findings = [] ↔
      ∀ e ∈ (filterEventsByRange events first last).head?, e.sequence = 1 := by
  obtain ⟨before, -, hsplit, hnumbers, hlinks⟩ := range_split first last hnumbered hlinked
  rw [verifyEventChain_spec]
  generalize filterEventsByRange events first last = range at hsplit hnumbers hlinks ⊢
  cases range with
  | nil => simp [Numbered, EventsLinked, Chained]
  | cons e range =>
    have hfirst : e.sequence = 1 + before.length := hnumbers.1
    have hback : e.previousEventHash = lastHash (·.eventHash) none before := hlinks.1.1
    simp only [List.head?_cons, Option.mem_def, Option.some.injEq, forall_eq']
    constructor
    · rintro ⟨-, ⟨hnone, -⟩, -⟩
      rcases List.eq_nil_or_concat before with rfl | ⟨init, x, rfl⟩
      · rw [hfirst]
        rfl
      · rw [List.concat_eq_append, lastHash_append_singleton] at hback
        rw [show e.previousEventHash = none from hnone] at hback
        cases hback
    · intro hone
      have hnil : before = [] := by
        rw [← List.length_eq_zero_iff]
        omega
      rw [hnil] at hlinks
      exact ⟨⟨_, hnumbers⟩, hlinks⟩

end Events

/-! ## The chain of checkpoints -/

section Checkpoints

variable {s : WitnessState H} {events : List (WitnessEvent H)} (first last : Nat)

theorem endsIn_iff (h : Intact c idFactory s) (hpre : events <+: s.events.values) {k : WitnessCheckpoint H}
    (hk : k ∈ s.checkpoints.values) : EndsIn (filterEventsByRange events first last) k ↔
      ∃ e ∈ filterEventsByRange events first last, e.sequence = k.endEventSequence := by
  unfold EndsIn eventBySequence
  constructor
  · intro hend
    obtain ⟨e, he, -⟩ := Option.map_eq_some_iff.mp hend
    exact ⟨e, List.mem_reverse.mp (List.mem_of_find?_eq_some he), by simpa using List.find?_some he⟩
  · rintro ⟨e, he, hsequence⟩
    obtain ⟨e', he'⟩ : ∃ e', (filterEventsByRange events first last).reverse.find?
        (fun event => event.sequence = k.endEventSequence) = some e' := by
      rw [← Option.isSome_iff_exists, List.find?_isSome]
      exact ⟨e, List.mem_reverse.mpr he, decide_eq_true hsequence⟩
    have hmem : e' ∈ s.events.values :=
      hpre.subset (List.mem_of_mem_filter (List.mem_reverse.mp (List.mem_of_find?_eq_some he')))
    obtain ⟨hstart, hle, hspan⟩ := h.spans k hk
    have hget := (h.numbered.getElem?_eq (Nat.le_trans hstart hle) hmem).mp (by simpa using List.find?_some he')
    rw [he', ← hget, hspan]

theorem filterCheckpoints_isPrefix (h : Intact c idFactory s) (hfirst : first ≤ 1) :
    filterCheckpointsByRange s.checkpoints.values first last <+: s.checkpoints.values := by
  refine filter_isPrefix (h.ordered.imp_of_mem fun {a b} ha hb hab hq => ?_)
  obtain ⟨hstart, hle, -⟩ := h.spans a ha
  simp only [Bool.and_eq_true, decide_eq_true_eq] at hq ⊢
  omega

variable [DecidableEq H]

/-- **Checkpoints of a range.** Their chain is found valid when the range is unbroken, and only if each of them ends in
it. -/
theorem checkpointVerdict_range (h : Intact c idFactory s) (hpre : events <+: s.events.values) (now : Timestamp)
    (hfirst : ∀ e ∈ (filterEventsByRange events first last).head?, e.sequence = 1) :
    (checkpointVerdict c (filterEventsByRange events first last) now
        (filterCheckpointsByRange s.checkpoints.values first last)).findings = [] ↔
      ∀ k ∈ filterCheckpointsByRange s.checkpoints.values first last,
        ∃ e ∈ filterEventsByRange events first last, e.sequence = k.endEventSequence := by
  rw [checkpointVerdict_spec]
  have hmem : ∀ k ∈ filterCheckpointsByRange s.checkpoints.values first last, k ∈ s.checkpoints.values := fun k hk =>
    List.mem_of_mem_filter hk
  constructor
  · rintro ⟨-, -, hends⟩ k hk
    exact (endsIn_iff first last h hpre (hmem k hk)).mp (hends k hk)
  · intro hends
    have hsegment : filterCheckpointsByRange s.checkpoints.values first last <+: s.checkpoints.values := by
      by_cases hnil : filterCheckpointsByRange s.checkpoints.values first last = []
      · rw [hnil]
        exact List.nil_prefix
      obtain ⟨k, hk⟩ := List.exists_mem_of_ne_nil _ hnil
      obtain ⟨e, he, -⟩ := hends k hk
      refine filterCheckpoints_isPrefix first last h ?_
      cases hrange : filterEventsByRange events first last with
      | nil =>
        rw [hrange] at he
        cases he
      | cons x range =>
        have hx : x ∈ filterEventsByRange events first last := hrange ▸ List.mem_cons_self
        have hone := hfirst x (by rw [hrange]; rfl)
        have hge := (List.mem_filter.mp hx).2
        simp only [Bool.and_eq_true, decide_eq_true_eq] at hge
        omega
    obtain ⟨rest, hrest⟩ := hsegment
    have hnumbered := h.checkpointsNumbered
    have hlinked := h.checkpointsLinked
    rw [← hrest] at hnumbered hlinked
    exact ⟨⟨1, (numbered_append.mp hnumbered).1⟩,
      ⟨hlinked.1.left, fun k hk => hlinked.2 k (List.mem_append_left _ hk)⟩,
      fun k hk => (endsIn_iff first last h hpre (hmem k hk)).mpr (hends k hk)⟩

end Checkpoints

/-! ## The report on a range -/

/-- The range is unbroken, and none of its events was recorded with a `CHAIN` code. -/
def CleanRange (first last : Nat) (events : List (WitnessEvent H)) (checkpoints : List (WitnessCheckpoint H)) : Prop :=
  (filterEventsByRange events first last).any (·.chainInvariant) = false ∧ Unbroken first last events checkpoints

instance (first last : Nat) (events : List (WitnessEvent H)) (checkpoints : List (WitnessCheckpoint H)) :
    Decidable (CleanRange first last events checkpoints) :=
  inferInstanceAs (Decidable (_ ∧ Unbroken first last events checkpoints))

/-- The report finds nothing wrong with the chains. -/
structure ReportBody.Clean (r : ReportBody H) : Prop where
  sequenceContiguous : r.sequenceContiguous = true
  hashChainValid : r.hashChainValid = true
  checkpointChainValid : r.checkpointChainValid = true
  signaturesValid : r.signaturesValid = true
  chainFinding : r.chainFinding = false

/-- The outcome of a call is a report with a `CHAIN` finding. -/
def reportsChain : Except WitnessError (WitnessResult H) → Bool
  | .ok (.report report) => report.chainFinding
  | _ => false

/-- The outcome of a call is a report without a `CHAIN` finding. -/
def reportsNoChain : Except WitnessError (WitnessResult H) → Bool
  | .ok (.report report) => !report.chainFinding
  | _ => false

variable {y : Except WitnessError (WitnessResult H)}

theorem exists_report_of_reportsNoChain (h : reportsNoChain y = true) :
    ∃ report, y = .ok (.report report) ∧ report.chainFinding = false := by
  unfold reportsNoChain at h
  split at h
  · exact ⟨_, rfl, by simpa using h⟩
  · cases h

theorem not_clean_of_reportsChain (h : reportsChain y = true) :
    ¬∃ report, y = .ok (.report report) ∧ report.Clean := by
  rintro ⟨report, rfl, hclean⟩
  have hfinding : report.chainFinding = true := h
  rw [hclean.chainFinding] at hfinding
  cases hfinding

variable {now : Timestamp}

section Report

variable [DecidableEq H] {s : WitnessState H} {events : List (WitnessEvent H)} {first last : Nat}

/-- The report on a range of events of an intact ledger, and on the checkpoints that overlap it. -/
def rangeReport (c : Primitives H) (id : String) (now : Timestamp) (first last : Nat) (events : List (WitnessEvent H))
    (checkpoints : List (WitnessCheckpoint H)) : ReportBody H :=
  reportBody c id now first last (filterEventsByRange events first last)
    (filterCheckpointsByRange checkpoints first last)
    (checkpointVerdict c (filterEventsByRange events first last) now (filterCheckpointsByRange checkpoints first last))

theorem chainFinding_rangeReport (h : Intact c idFactory s) (hpre : events <+: s.events.values) (id : String)
    (now : Timestamp) : (rangeReport c id now first last events s.checkpoints.values).chainFinding = false ↔
      CleanRange first last events s.checkpoints.values := by
  obtain ⟨more, hmore⟩ := hpre
  have hnumbered := h.numbered
  have hlinked := h.linked
  rw [← hmore] at hnumbered hlinked
  have hevents := verifyEventChain_range first last (numbered_append.mp hnumbered).1
    ⟨hlinked.1.left, fun e he => hlinked.2 e (List.mem_append_left _ he)⟩ now
  unfold rangeReport CleanRange Unbroken
  rw [chainFinding_reportBody c fun f hf => mem_findings_checkpointVerdict c _ now _ hf, hevents]
  refine and_congr_right fun _ => and_congr_right fun hfirst => ?_
  exact checkpointVerdict_range first last h ⟨more, hmore⟩ now hfirst

theorem clean_rangeReport {id : String} {checkpoints : List (WitnessCheckpoint H)} :
    (rangeReport c id now first last events checkpoints).Clean ↔
      (rangeReport c id now first last events checkpoints).chainFinding = false := by
  refine ⟨fun h => h.chainFinding, fun h => ?_⟩
  obtain ⟨-, hevents, hcheckpoints⟩ :=
    (chainFinding_reportBody c fun f hf => mem_findings_checkpointVerdict c _ now _ hf).mp h
  obtain ⟨hcontiguous, hvalid⟩ := (findings_verifyEventChainFrom c now none _).mp hevents
  exact ⟨hcontiguous, hvalid, (findings_checkpointVerdictFrom c _ now none _).mp hcheckpoints,
    signaturesValid_checkpointVerdictFrom c _ now none _, h⟩

end Report

/-! ## The call -/

section Call

variable {α : Type} {k : Contract (WitnessOp.Answer (H := H)) PutOutcome (WitnessState H)}
  {post : Log (WitnessOp.Answer (H := H)) → Except WitnessError α → WitnessState H → Prop}

/-- What a verification asks of its contract, and of what is assumed of the store: the stored checkpoints are signed,
the others only add to them, and each of its own operations is guaranteed. -/
structure Verifying (c : Primitives H) (inv : WitnessState H → Prop)
    (k : Contract (WitnessOp.Answer (H := H)) PutOutcome (WitnessState H)) : Prop where
  honest : Honest k.allowed
  signed : ∀ s, inv s → ∀ j ∈ s.checkpoints.values, j.Signed c s
  inv : ∀ s s', k.rely s s' → inv s → inv s'
  checkpoints : ∀ s s', k.rely s s' → s.checkpoints.values ⊆ s'.checkpoints.values
  refl : ∀ s, k.guar s s
  nextId : ∀ s, k.guar s { s with issued := s.issued + 1 }
  createKeyPair : ∀ s, k.guar s { s with drawn := s.drawn + 1 }
  putHead : ∀ l s now, k.allowed l (.putHead (LedgerHead.initial now)) .accepted s →
    k.guar s { s with head := some (LedgerHead.initial now) }
  putKeyEpoch : ∀ l s (r : KeyEpochRecord), k.allowed l (.putKeyEpoch r) .accepted s →
    (∃ n, r.toKeyPair = c.keyPair n) → k.guar s { s with keyEpochs := s.keyEpochs.set r.keyEpoch r }
  putReport : ∀ s (r : VerificationReport H), k.guar s { s with reports := s.reports.set r.id r }

variable {inv : WitnessState H → Prop} (hk : Verifying c inv k)
include hk

theorem meets_issueAttestationReceipt {subjectHash : H} {f : AttestationReceipt H → WitnessCall H α}
    (hf : ∀ l s r, (f r).Meets (answers c idFactory) k post l s) (l : Log (WitnessOp.Answer (H := H)))
    (s : WitnessState H) :
    (issueAttestationReceipt c subjectHash now >>= f).Meets (answers c idFactory) k post l s := by
  have hreceipt : ∀ (r : KeyEpochRecord) l s,
      (nextId >>= fun id => f ⟨id, subjectHash, r.keyEpoch, c.signDigest subjectHash r.privateKeyPem,
        c.verifyDigestSignature subjectHash (c.signDigest subjectHash r.privateKeyPem) r.publicKeyPem, now⟩).Meets
        (answers c idFactory) k post l s := fun r l s =>
    meets_answered hk.honest (o := .nextId) rfl (fun _ => hk.nextId s) fun _ s' _ => hf _ s' _
  have hkey : ∀ (head : LedgerHead H) l s,
      (ensureKeyEpoch head.activeKeyEpoch now >>= fun r => nextId >>= fun id =>
        f ⟨id, subjectHash, r.keyEpoch, c.signDigest subjectHash r.privateKeyPem,
          c.verifyDigestSignature subjectHash (c.signDigest subjectHash r.privateKeyPem) r.publicKeyPem, now⟩).Meets
        (answers c idFactory) k post l s := by
    intro head l s
    refine meets_answered hk.honest (o := .getKeyEpoch head.activeKeyEpoch) rfl (fun _ => hk.refl s) fun _ s₁ _ => ?_
    cases s.keyEpochs.get? head.activeKeyEpoch with
    | some r => exact hreceipt r _ _
    | none =>
      refine meets_answered hk.honest (o := .createKeyPair) rfl (fun _ => hk.createKeyPair s₁) fun _ s₂ _ => ?_
      refine meets_answered hk.honest (o := .putKeyEpoch _) rfl
        (fun hallow => hk.putKeyEpoch _ s₂ _ hallow ⟨s₁.drawn, rfl⟩) fun _ s₃ _ => hreceipt _ _ s₃
  unfold issueAttestationReceipt
  simp only [bind_assoc']
  refine meets_answered hk.honest (o := .getHead) rfl (fun _ => hk.refl s) fun _ s₁ _ => ?_
  cases s.head with
  | some head => exact hkey head _ _
  | none =>
    refine meets_answered hk.honest (o := .putHead (LedgerHead.initial now)) rfl
      (fun hallow => hk.putHead _ s₁ now hallow) fun _ s₂ _ => hkey _ _ s₂

theorem meets_verifyCheckpointSignature {j : WitnessCheckpoint H} {f : Bool → WitnessCall H α} {s : WitnessState H}
    (h : inv s) (hj : j ∈ s.checkpoints.values)
    (hf : ∀ l s', k.rely s s' → (f true).Meets (answers c idFactory) k post l s') :
    ∀ l, (verifyCheckpointSignature c j >>= f).Meets (answers c idFactory) k post l s := by
  intro l
  obtain ⟨r, hr, hvalid⟩ := hk.signed s h j hj
  unfold verifyCheckpointSignature
  rw [bind_assoc']
  refine meets_answered hk.honest (o := .getKeyEpoch j.keyEpoch) rfl (fun _ => hk.refl s) fun _ s' hs' => ?_
  rw [hr]
  show (f (c.verifyDigestSignature j.checkpointHash j.signature r.publicKeyPem)).Meets _ _ _ _ _
  rw [hvalid]
  exact hf _ s' hs'

variable [DecidableEq H]

theorem meets_verifyCheckpointChainFrom {events : List (WitnessEvent H)} {now : Timestamp} :
    ∀ {checkpoints : List (WitnessCheckpoint H)} {previous : Option (WitnessCheckpoint H)}
      {f : CheckpointChainVerification → WitnessCall H α} {s : WitnessState H}, inv s →
      (∀ j ∈ checkpoints, j ∈ s.checkpoints.values) →
      (∀ l s', (f (checkpointVerdictFrom c events now previous checkpoints)).Meets (answers c idFactory) k post l s') →
      ∀ l, (verifyCheckpointChainFrom c events now previous checkpoints >>= f).Meets (answers c idFactory) k post l s
  | [], _, _, s, _, _, hf => fun l => hf l s
  | j :: checkpoints, previous, f, s, h, hmem, hf => by
    unfold verifyCheckpointChainFrom
    simp only [bind_assoc']
    refine meets_verifyCheckpointSignature hk h (hmem j List.mem_cons_self) fun l s' hs' => ?_
    refine meets_verifyCheckpointChainFrom (hk.inv s s' hs' h)
      (fun i hi => hk.checkpoints s s' hs' (hmem i (List.mem_cons_of_mem _ hi))) (fun l' t => ?_) l
    have hverdict := hf l' t
    simp only [pure_bind', signaturesValid_checkpointVerdictFrom, findingUnless, Bool.and_self, if_true,
      List.append_nil]
    exact hverdict

/-- **Verification.** The report is on the events that were there when it read them, and on the checkpoints that were
there afterwards. -/
theorem meets_verify {request : WitnessVerificationRequest} {s : WitnessState H}
    {l : Log (WitnessOp.Answer (H := H))} {g : VerificationReport H → α} (h : inv s)
    (hpost : ∀ s' l' t id report, k.rely s s' →
      k.allowed (l ++ [⟨.listEvents, s.listEvents⟩]) .listCheckpoints .accepted s' →
      report.toReportBody = rangeReport c id now (request.first s.listEvents) (request.last s.listEvents)
        s.listEvents s'.listCheckpoints →
      post l' (if c.parses report.toReportBody then .ok (g report) else .error .invalidReport) t) :
    (g <$> verify c request now).Meets (answers c idFactory) k post l s := by
  rw [map_eq_bind]
  unfold verify
  simp only [bind_assoc']
  refine meets_answered hk.honest (o := .listEvents) rfl (fun _ => hk.refl s) fun _ s₁ hs₁ => ?_
  refine meets_answered hk.honest (o := .listCheckpoints) rfl (fun _ => hk.refl s₁) fun hallow s₂ hs₂ => ?_
  refine meets_verifyCheckpointChainFrom hk (hk.inv s₁ s₂ hs₂ (hk.inv s s₁ hs₁ h))
    (fun j hj => hk.checkpoints s₁ s₂ hs₂ ((List.mem_insertionSort _).mp (List.mem_of_mem_filter hj)))
    (fun l₃ s₃ => ?_) _
  refine meets_answered hk.honest (o := .nextId) rfl (fun _ => hk.nextId s₃) fun _ s₄ _ => ?_
  refine meets_issueAttestationReceipt hk (fun l₅ s₅ receipt => ?_) _ s₄
  show ((if c.parses (rangeReport c (idFactory s₃.issued) now _ _ s.listEvents s₁.listCheckpoints) = true
    then _ else _) >>= _ : WitnessCall H α).Meets _ _ _ _ _
  have hend := fun l' t => hpost s₁ l' t (idFactory s₃.issued)
    { rangeReport c (idFactory s₃.issued) now _ _ s.listEvents s₁.listCheckpoints with receipt := receipt }
    hs₁ hallow rfl
  split_ifs at hend ⊢ with hparses
  · exact meets_answered hk.honest (o := .putReport _) rfl (fun _ => hk.putReport s₅ _) fun _ s₆ _ => hend _ s₆
  · exact hend _ s₅

end Call

end NousCore.Witness
