import NousCore.Witness.Service
import NousCore.Lib.HashChain

/-!
# What the verifier accepts

* `checkpointVerdict`, `checkpointVerdict_spec` : the same of checkpoints whose signatures are valid;
* `chainFinding_reportBody` : a report has a `CHAIN` finding when one of the chains is broken, or when an invariant
  event of the range has a `CHAIN` code of its own.
-/

namespace NousCore.Witness

open Async

variable {H : Type} (c : Primitives H)

/-- The hashes of the event are those of its payload and of its link. -/
def WitnessEvent.Hashed (e : WitnessEvent H) : Prop :=
  c.hashPayload e.canonical = e.payloadHash ∧ c.hashLink e.toEventLink = e.eventHash

def WitnessCheckpoint.Hashed (k : WitnessCheckpoint H) : Prop := c.hashCheckpoint k.toCheckpointBody = k.checkpointHash

/-- Each event names the hash of the one before it, and its hashes are right. -/
def EventsLinked (p : Option H) (events : List (WitnessEvent H)) : Prop :=
  Chained (·.previousEventHash) (·.eventHash) p events ∧ ∀ e ∈ events, e.Hashed c

/-- Each checkpoint names the hash of the one before it, and its hash is right. -/
def CheckpointsLinked (p : Option H) (checkpoints : List (WitnessCheckpoint H)) : Prop :=
  Chained (·.previousCheckpointHash) (·.checkpointHash) p checkpoints ∧ ∀ k ∈ checkpoints, k.Hashed c

variable {c}

theorem findingUnless_eq_nil {passes : Bool} {rest description : String} {ids : List EventId} {now : Timestamp} :
    findingUnless passes rest description ids now = [] ↔ passes = true := by
  cases passes <;> simp [findingUnless]

variable {f : InvariantFinding}

theorem mem_findingUnless {passes : Bool} {rest description : String} {ids : List EventId} {now : Timestamp}
    (h : f ∈ findingUnless passes rest description ids now) : f.code.family = .CHAIN := by
  unfold findingUnless at h
  split_ifs at h
  · simp at h
  · rw [List.mem_singleton.mp h, createInvariantFinding_code]
    rfl

variable (c) [DecidableEq H]

/-! ## Events -/

section Events

variable (now : Timestamp) (previous : Option (WitnessEvent H)) (events : List (WitnessEvent H))

theorem sequenceContiguous_verifyEventChainFrom :
    (verifyEventChainFrom c now previous events).sequenceContiguous = true ↔
      match previous with
      | none => ∃ n, Numbered (·.sequence) n events
      | some p => Numbered (·.sequence) (p.sequence + 1) events := by
  induction events generalizing previous with
  | nil => cases previous <;> simp [verifyEventChainFrom, Numbered]
  | cons e events ih =>
    simp only [verifyEventChainFrom, Bool.and_eq_true, ih (some e), verifyEvent, decide_eq_true_eq]
    cases previous with
    | none =>
      refine ⟨fun h => ⟨e.sequence, rfl, h.2⟩, ?_⟩
      rintro ⟨_, rfl, h⟩
      exact ⟨rfl, h⟩
    | some p =>
      refine and_congr_right fun he => ?_
      rw [show e.sequence = p.sequence + 1 from he]

theorem hashChainValid_verifyEventChainFrom :
    (verifyEventChainFrom c now previous events).hashChainValid = true ↔
      EventsLinked c (previous.map (·.eventHash)) events := by
  induction events generalizing previous with
  | nil => simp [verifyEventChainFrom, EventsLinked, Chained]
  | cons e events ih =>
    simp only [verifyEventChainFrom, Bool.and_eq_true, ih (some e), verifyEvent, decide_eq_true_eq]
    constructor
    · rintro ⟨⟨⟨hpayload, hback⟩, hhash⟩, hchain, hall⟩
      exact ⟨⟨hback, hchain⟩, List.forall_mem_cons.mpr ⟨⟨hpayload, hhash⟩, hall⟩⟩
    · rintro ⟨⟨hback, hchain⟩, hall⟩
      obtain ⟨⟨hpayload, hhash⟩, hall⟩ := List.forall_mem_cons.mp hall
      exact ⟨⟨⟨hpayload, hback⟩, hhash⟩, hchain, hall⟩

theorem findings_verifyEventChainFrom :
    (verifyEventChainFrom c now previous events).findings = [] ↔
      (verifyEventChainFrom c now previous events).sequenceContiguous = true ∧
        (verifyEventChainFrom c now previous events).hashChainValid = true := by
  induction events generalizing previous with
  | nil => simp [verifyEventChainFrom]
  | cons e events ih =>
    simp only [verifyEventChainFrom, List.append_eq_nil_iff, ih (some e), verifyEvent, findingUnless_eq_nil,
      Bool.and_eq_true]
    tauto

theorem mem_findings_verifyEventChainFrom
    (h : f ∈ (verifyEventChainFrom c now previous events).findings) : f.code.family = .CHAIN := by
  induction events generalizing previous with
  | nil => simp [verifyEventChainFrom] at h
  | cons e events ih =>
    simp only [verifyEventChainFrom, verifyEvent, List.mem_append] at h
    obtain (((h | h) | h) | h) | h := h
    · exact mem_findingUnless h
    · exact mem_findingUnless h
    · exact mem_findingUnless h
    · exact mem_findingUnless h
    · exact ih (some e) h

/-- **Events.** The chain of events is found valid exactly when they are numbered without gap, linked and hashed. -/
theorem verifyEventChain_spec :
    (verifyEventChain c events now).findings = [] ↔
      (∃ n, Numbered (·.sequence) n events) ∧ EventsLinked c none events := by
  unfold verifyEventChain
  rw [findings_verifyEventChainFrom, sequenceContiguous_verifyEventChainFrom, hashChainValid_verifyEventChainFrom]
  rfl

end Events

/-! ## Checkpoints -/

section Checkpoints

variable (events : List (WitnessEvent H)) (now : Timestamp) (previous : Option (WitnessCheckpoint H))
  (checkpoints : List (WitnessCheckpoint H))

/-- The verdict on checkpoints whose signatures are valid. -/
def checkpointVerdictFrom : Option (WitnessCheckpoint H) → List (WitnessCheckpoint H) → CheckpointChainVerification
  | _, [] => ⟨true, true, []⟩
  | previous, checkpoint :: checkpoints =>
    let here := verifyCheckpoint c events now previous checkpoint
    let rest := checkpointVerdictFrom (some checkpoint) checkpoints
    ⟨here.checkpointChainValid && rest.checkpointChainValid, true, here.findings ++ rest.findings⟩

def checkpointVerdict : CheckpointChainVerification := checkpointVerdictFrom c events now none checkpoints

/-- The event at the end of the checkpoint is there, with the hash that the checkpoint names. -/
def EndsIn (events : List (WitnessEvent H)) (k : WitnessCheckpoint H) : Prop :=
  (eventBySequence events k.endEventSequence).map (·.eventHash) = some k.ledgerHeadHash

theorem signaturesValid_checkpointVerdictFrom :
    (checkpointVerdictFrom c events now previous checkpoints).signaturesValid = true := by
  cases checkpoints <;> rfl

theorem checkpointChainValid_checkpointVerdictFrom :
    (checkpointVerdictFrom c events now previous checkpoints).checkpointChainValid = true ↔
      (match previous with
        | none => ∃ n, Numbered (·.checkpointSequence) n checkpoints
        | some p => Numbered (·.checkpointSequence) (p.checkpointSequence + 1) checkpoints) ∧
      CheckpointsLinked c (previous.map (·.checkpointHash)) checkpoints ∧ ∀ k ∈ checkpoints, EndsIn events k := by
  induction checkpoints generalizing previous with
  | nil => cases previous <;> simp [checkpointVerdictFrom, Numbered, CheckpointsLinked, Chained]
  | cons k checkpoints ih =>
    simp only [checkpointVerdictFrom, Bool.and_eq_true, ih (some k), verifyCheckpoint, decide_eq_true_eq]
    constructor
    · rintro ⟨⟨⟨⟨hsequence, hlink⟩, hhash⟩, hend⟩, hnumbered, ⟨hchain, hhashed⟩, hends⟩
      refine ⟨?_, ⟨⟨hlink.symm, hchain⟩, List.forall_mem_cons.mpr ⟨hhash, hhashed⟩⟩,
        List.forall_mem_cons.mpr ⟨hend, hends⟩⟩
      cases previous with
      | none => exact ⟨k.checkpointSequence, rfl, hnumbered⟩
      | some p =>
        have hk : k.checkpointSequence = p.checkpointSequence + 1 := of_decide_eq_true hsequence
        rw [hk] at hnumbered
        exact ⟨hk, hnumbered⟩
    · rintro ⟨hnumbered, ⟨⟨hlink, hchain⟩, hhashed⟩, hends⟩
      obtain ⟨hhash, hhashed⟩ := List.forall_mem_cons.mp hhashed
      obtain ⟨hend, hends⟩ := List.forall_mem_cons.mp hends
      cases previous with
      | none =>
        obtain ⟨_, rfl, hnumbered⟩ := hnumbered
        exact ⟨⟨⟨⟨rfl, hlink.symm⟩, hhash⟩, hend⟩, hnumbered, ⟨hchain, hhashed⟩, hends⟩
      | some p =>
        obtain ⟨hk, hnumbered⟩ := hnumbered
        have hk' : k.checkpointSequence = p.checkpointSequence + 1 := hk
        rw [← hk'] at hnumbered
        exact ⟨⟨⟨⟨decide_eq_true hk, hlink.symm⟩, hhash⟩, hend⟩, hnumbered, ⟨hchain, hhashed⟩, hends⟩

theorem findings_checkpointVerdictFrom :
    (checkpointVerdictFrom c events now previous checkpoints).findings = [] ↔
      (checkpointVerdictFrom c events now previous checkpoints).checkpointChainValid = true := by
  induction checkpoints generalizing previous with
  | nil => simp [checkpointVerdictFrom]
  | cons k checkpoints ih =>
    simp only [checkpointVerdictFrom, List.append_eq_nil_iff, ih (some k), verifyCheckpoint, findingUnless_eq_nil,
      Bool.and_eq_true]

theorem mem_findings_checkpointVerdictFrom
    (h : f ∈ (checkpointVerdictFrom c events now previous checkpoints).findings) : f.code.family = .CHAIN := by
  induction checkpoints generalizing previous with
  | nil => simp [checkpointVerdictFrom] at h
  | cons k checkpoints ih =>
    simp only [checkpointVerdictFrom, verifyCheckpoint, List.mem_append] at h
    obtain (((h | h) | h) | h) | h := h
    · exact mem_findingUnless h
    · exact mem_findingUnless h
    · exact mem_findingUnless h
    · exact mem_findingUnless h
    · exact ih (some k) h

theorem mem_findings_checkpointVerdict
    (h : f ∈ (checkpointVerdict c events now checkpoints).findings) : f.code.family = .CHAIN :=
  mem_findings_checkpointVerdictFrom c events now none checkpoints h

/-- **Checkpoints.** With valid signatures the chain of checkpoints is found valid exactly when they are numbered
without gap, linked and hashed, and each ends in one of the events. -/
theorem checkpointVerdict_spec :
    (checkpointVerdict c events now checkpoints).findings = [] ↔
      (∃ n, Numbered (·.checkpointSequence) n checkpoints) ∧ CheckpointsLinked c none checkpoints ∧
        ∀ k ∈ checkpoints, EndsIn events k := by
  unfold checkpointVerdict
  rw [findings_checkpointVerdictFrom, checkpointChainValid_checkpointVerdictFrom]
  rfl

end Checkpoints

/-! ## The report -/

/-- An invariant event that was recorded with a `CHAIN` code: `verify` repeats it as a finding. -/
def WitnessEvent.chainInvariant (e : WitnessEvent H) : Bool :=
  e.stage = .invariant && e.invariantCode.any fun code => code.family = .CHAIN

omit [DecidableEq H] in
theorem any_collectInvariantEventFindings (events : List (WitnessEvent H)) (now : Timestamp) :
    (collectInvariantEventFindings events now).any (fun f => f.code.family = .CHAIN) =
      events.any (·.chainInvariant) := by
  unfold collectInvariantEventFindings
  rw [List.any_filterMap]
  congr 1
  funext e
  unfold WitnessEvent.chainInvariant
  cases hstage : e.stage <;> cases hcode : e.invariantCode <;> simp

omit [DecidableEq H] in
theorem any_findEvidenceCompletenessFindings (events : List (WitnessEvent H)) (now : Timestamp) :
    (findEvidenceCompletenessFindings events now).any (fun f => f.code.family = .CHAIN) = false := by
  unfold findEvidenceCompletenessFindings
  simp

theorem any_chain_eq_false {findings : List InvariantFinding} (h : ∀ f ∈ findings, f.code.family = .CHAIN) :
    findings.any (fun f => f.code.family = .CHAIN) = false ↔ findings = [] := by
  rw [List.any_eq_false]
  constructor
  · intro hnone
    refine List.eq_nil_iff_forall_not_mem.mpr fun f hf => ?_
    exact hnone f hf (decide_eq_true (h f hf))
  · rintro rfl f hf
    simp at hf

/-- A report has no `CHAIN` finding exactly when no invariant event of the range carries such a code, and both chains
are found valid. -/
theorem chainFinding_reportBody {id : String} {now : Timestamp} {first last : Nat} {events : List (WitnessEvent H)}
    {checkpoints : List (WitnessCheckpoint H)} {verification : CheckpointChainVerification}
    (h : ∀ f ∈ verification.findings, f.code.family = .CHAIN) :
    (reportBody c id now first last events checkpoints verification).chainFinding = false ↔
      events.any (·.chainInvariant) = false ∧ (verifyEventChain c events now).findings = [] ∧
        verification.findings = [] := by
  unfold ReportBody.chainFinding reportBody
  simp only [List.any_append, Bool.or_eq_false_iff, any_collectInvariantEventFindings,
    any_findEvidenceCompletenessFindings, and_true]
  have hevents : ∀ f ∈ (verifyEventChain c events now).findings, f.code.family = .CHAIN := fun f hf =>
    mem_findings_verifyEventChainFrom c now none events hf
  rw [any_chain_eq_false hevents, any_chain_eq_false h, and_assoc]

end NousCore.Witness
