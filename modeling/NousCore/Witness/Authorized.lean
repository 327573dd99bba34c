import NousCore.Witness.Failures
import NousCore.Witness.Tampering

/-!
# Completions and their authorizations

* `Eventless`, `Records`, `meets_taskBody_events` : a call adds at most one event, and which one.
-/

namespace NousCore.Witness

open Async

variable {H : Type} {c : Primitives H} {checkpointInterval : Nat} {idFactory : Nat → String}
  {allowed : Allowance (WitnessOp.Answer (H := H)) PutOutcome (WitnessState H)} {s s' : WitnessState H}

def MISSING_AUTHORIZATION : InvariantCode := ⟨.EVID, "MISSING-AUTHORIZATION"⟩

/-! ## The finding -/

/-- A completion that names no authorization event of the list. -/
def WitnessEvent.Unauthorized (events : List (WitnessEvent H)) (e : WitnessEvent H) : Prop :=
  e.stage = .completion ∧ ∀ a ∈ events, a.stage = .authorization → e.authorizationRef ≠ some a.id

variable {events : List (WitnessEvent H)} {now : Timestamp} {f : InvariantFinding}

theorem mem_findEvidenceCompletenessFindings
    (h : f ∈ findEvidenceCompletenessFindings events now) (hcode : f.code = MISSING_AUTHORIZATION) :
    ∃ e ∈ events, e.Unauthorized events := by
  rcases List.mem_append.mp h with h | h
  · obtain ⟨id, -, rfl⟩ := List.mem_map.mp h
    rw [createInvariantFinding_code] at hcode
    exact absurd hcode (by decide)
  · obtain ⟨e, he, -⟩ := List.mem_map.mp h
    obtain ⟨hcompletion, hnone⟩ := List.mem_filter.mp he
    obtain ⟨hmem, hstage⟩ := List.mem_filter.mp hcompletion
    refine ⟨e, hmem, of_decide_eq_true hstage, fun a ha hauthorization href => ?_⟩
    have hcontains : a.id ∈ (events.filter fun event => event.stage = .authorization).map (·.id) :=
      List.mem_map.mpr ⟨a, List.mem_filter.mpr ⟨ha, decide_eq_true hauthorization⟩, rfl⟩
    rw [href, Option.any_some, List.contains_iff_mem.mpr hcontains] at hnone
    cases hnone

theorem mem_collectInvariantEventFindings (h : f ∈ collectInvariantEventFindings events now) :
    ∃ e ∈ events, e.stage = .invariant ∧ e.invariantCode = some f.code := by
  obtain ⟨e, he, hf⟩ := List.mem_filterMap.mp h
  refine ⟨e, he, ?_⟩
  split at hf
  · rename_i code hstage hcode
    cases hf
    rw [createInvariantFinding_code]
    exact ⟨hstage, hcode⟩
  · cases hf

variable {checkpoints : List (WitnessCheckpoint H)}

/-- **Where the finding comes from**: a completion without its authorization, or an invariant event of that code. -/
theorem missing_authorization_of_mem [DecidableEq H] {id : String} {first last : Nat}
    {verification : CheckpointChainVerification} (hchain : ∀ f ∈ verification.findings, f.code.family = .CHAIN)
    (h : f ∈ (reportBody c id now first last events checkpoints verification).findings)
    (hcode : f.code = MISSING_AUTHORIZATION) :
    ∃ e ∈ events, e.Unauthorized events ∨ e.stage = .invariant ∧ e.invariantCode = some MISSING_AUTHORIZATION := by
  have hfamily : f.code.family ≠ .CHAIN := by
    rw [hcode]
    decide
  rcases List.mem_append.mp h with h | h
  · rcases List.mem_append.mp h with h | h
    · rcases List.mem_append.mp h with h | h
      · obtain ⟨e, he, hstage, hinvariant⟩ := mem_collectInvariantEventFindings h
        exact ⟨e, he, .inr ⟨hstage, hcode ▸ hinvariant⟩⟩
      · obtain ⟨e, he, hunauthorized⟩ := mem_findEvidenceCompletenessFindings h hcode
        exact ⟨e, he, .inl hunauthorized⟩
    · exact absurd (mem_findings_verifyEventChainFrom _ _ _ _ h) hfamily
  · exact absurd (hchain f h) hfamily

/-! ## The event of a call -/

def Eventless : WitnessOp H → Prop
  | .putEvent _ => False
  | _ => True

/-- The events are as they were, and ids have only been drawn. -/
def SameEvents (s t : WitnessState H) : Prop := t.events = s.events ∧ s.issued ≤ t.issued

def AddedEvent (idFactory : Nat → String) (payload : EventPayload Detail) (s t : WitnessState H) : Prop :=
  ∃ n, s.issued ≤ n ∧ n < t.issued ∧ ∃ event : WitnessEvent H, event.id = idFactory n ∧
    event.toEventPayload = payload ∧ t.events = s.events.set event.id event

variable {o : WitnessOp H}

theorem sameEvents_of_answers (ho : Eventless o) {x : PutOutcome} {r : o.Answer}
    (h : answers c idFactory o x s = some (r, s')) : SameEvents s s' := by
  cases o with
  | putEvent => exact ho.elim
  | putHead | putCheckpoint | putKeyEpoch | putReport =>
    obtain ⟨-, rfl⟩ := Prod.mk.inj (Option.some.inj h)
    cases x <;> exact ⟨rfl, Nat.le_refl _⟩
  | nextId =>
    cases h
    exact ⟨rfl, Nat.le_succ _⟩
  | _ =>
    cases h
    exact ⟨rfl, Nat.le_refl _⟩

theorem SameEvents.refl (s : WitnessState H) : SameEvents s s := ⟨rfl, Nat.le_refl _⟩

theorem SameEvents.trans {s t u : WitnessState H} (h : SameEvents s t) (h' : SameEvents t u) : SameEvents s u :=
  ⟨h'.1.trans h.1, h.2.trans h'.2⟩

theorem meets_eventless {α : Type} {p : WitnessCall H α} (hp : p.Every Eventless)
    (l : Log (WitnessOp.Answer (H := H))) (s : WitnessState H) :
    p.Meets (answers c idFactory) .alone (fun _ _ t => SameEvents s t) l s :=
  meets_alone_of_every SameEvents.refl (fun _ _ _ => SameEvents.trans)
    (fun _ _ _ _ _ ho hanswers => sameEvents_of_answers ho hanswers) hp l s

theorem Keeping.eventless {head : LedgerHead H} (h : Keeping head o) : Eventless o := by
  cases o <;> first | exact h.elim | trivial

theorem Reporting.eventless (h : Reporting o) : Eventless o := by
  cases o <;> first | exact h.elim | trivial

theorem every_eventless_getLedgerHead : (getLedgerHead (H := H) now).Every Eventless :=
  every_getLedgerHead.mono fun _ => Reporting.eventless

variable {payload : EventPayload Detail}

theorem meets_appendEvent_adds {head : LedgerHead H}
    (l : Log (WitnessOp.Answer (H := H))) (s : WitnessState H) :
    (appendEvent c checkpointInterval head payload now).Meets (answers c idFactory) .alone
      (fun _ _ t => SameEvents s t ∨ AddedEvent idFactory payload s t) l s := by
  refine meets_alone_call fun x id s₁ hid => ?_
  cases hid
  refine meets_alone_call fun x r s₂ hput => ?_
  obtain ⟨rfl, rfl⟩ := Prod.mk.inj (Option.some.inj hput)
  cases x with
  | rejected => exact .inl ⟨rfl, Nat.le_succ _⟩
  | accepted =>
    refine (meets_eventless ?_ _ _).mono fun _ _ t ht => ?_
    · refine ⟨trivial, fun r => ?_⟩
      cases r with
      | error e => trivial
      | ok _ =>
        show (maybeIntervalCheckpoint c checkpointInterval _ now >>= fun _ => pure _).Every Eventless
        exact every_bind (Every.mono (fun _ => Keeping.eventless) (every_maybeIntervalCheckpoint c)) fun _ => trivial
    · refine .inr ⟨s.issued, Nat.le_refl _, Nat.lt_of_lt_of_le (Nat.lt_succ_self _) ht.2, ?_⟩
      exact ⟨_, rfl, rfl, ht.1⟩

def Records (s : WitnessState H) (payload : EventPayload Detail) : WitnessTask → Prop
  | .appendAuthorization _ _ => payload.stage = .authorization
  | .appendCompletion input _ => payload.stage = .completion ∧ payload.authorizationRef = some input.authorizationRef ∧
      ∃ e, s.events.get? input.authorizationRef = some e
  | .appendInvariant input _ => payload.stage = .invariant ∧ payload.invariantCode = some input.code
  | _ => False

theorem meets_append (l : Log (WitnessOp.Answer (H := H)))
    (s : WitnessState H) :
    (getLedgerHead now >>= fun head => appendEvent c checkpointInterval head payload now).Meets (answers c idFactory)
      .alone (fun _ _ t => SameEvents s t ∨ AddedEvent idFactory payload s t) l s := by
  refine meets_bind.mpr ((meets_eventless every_eventless_getLedgerHead l s).mono fun l' y t h => ?_)
  cases y with
  | error e => exact .inl h
  | ok head =>
    refine (meets_appendEvent_adds l' t).mono fun _ _ u hu => ?_
    rcases hu with hu | ⟨n, hn, hn', event, hid, hpayload, hevents⟩
    · exact .inl (h.trans hu)
    · exact .inr ⟨n, Nat.le_trans h.2 hn, hn', event, hid, hpayload, h.1 ▸ hevents⟩

variable [DecidableEq H]

/-- **One event at most.** A call leaves the events as they are, or adds the event of its own payload. -/
theorem meets_taskBody_events (t : WitnessTask) (s : WitnessState H) :
    (taskBody c checkpointInterval t).Meets (answers c idFactory) .alone
      (fun _ _ s' => SameEvents s s' ∨ ∃ payload, Records s payload t ∧ AddedEvent idFactory payload s s') [] s := by
  have hsame : ∀ {β : Type} {p : WitnessCall H β} {f : β → WitnessResult H}, p.Every Eventless →
      (f <$> p).Meets (answers c idFactory) .alone
        (fun _ _ s' => SameEvents s s' ∨ ∃ payload, Records s payload t ∧ AddedEvent idFactory payload s s') [] s :=
    fun hp => meets_map.mpr ((meets_eventless hp [] s).mono fun _ _ _ h => .inl h)
  have hadds : ∀ {payload : EventPayload Detail} {now : Timestamp} {l : Log (WitnessOp.Answer (H := H))},
      Records s payload t → (getLedgerHead now >>= fun head => appendEvent c checkpointInterval head payload now).Meets
        (answers c idFactory) .alone
        (fun _ _ s' => SameEvents s s' ∨ ∃ payload, Records s payload t ∧ AddedEvent idFactory payload s s') l s :=
    fun hrecords => (meets_append _ s).mono fun _ _ _ h => h.imp_right fun hadded => ⟨_, hrecords, hadded⟩
  cases t with
  | appendAuthorization input now =>
    refine meets_map.mpr (hadds ?_)
    rfl
  | appendInvariant input now =>
    refine meets_map.mpr (hadds ?_)
    exact ⟨rfl, rfl⟩
  | appendCompletion input now =>
    refine meets_map.mpr (meets_alone_call fun x found s₁ hfound => ?_)
    cases hfound
    cases hget : s.events.get? input.authorizationRef with
    | none => exact .inl (.refl s)
    | some e =>
      refine hadds ?_
      exact ⟨rfl, rfl, e, hget⟩
  | createCheckpoint reason now =>
    refine hsame (every_bind every_eventless_getLedgerHead fun head => ?_)
    exact Every.mono (fun _ => Keeping.eventless) (every_createCheckpointInternal c)
  | rotateKeyEpoch now =>
    refine hsame (every_bind every_eventless_getLedgerHead fun head => ?_)
    refine every_bind (every_ensureKeyEpoch (fun _ => trivial) trivial fun _ => trivial) fun _ => ?_
    refine every_bind (every_bind (every_perform trivial) every_unwrap) fun _ => ?_
    split_ifs
    · exact every_bind (Every.mono (fun _ => Keeping.eventless) (every_createCheckpointInternal c)) fun _ => trivial
    · trivial
  | verify request now => exact hsame (Every.mono (fun _ => Reporting.eventless) (every_verify c))

/-! ## Every completion has its authorization -/

/-- The ids are drawn ones, each completion names an authorization event, and no invariant event has the code. -/
structure Authorized (idFactory : Nat → String) (s : WitnessState H) : Prop where
  drawn : ∀ id e, s.events.get? id = some e → e.id = id ∧ ∃ n < s.issued, id = idFactory n
  answered : ∀ id e, s.events.get? id = some e → e.stage = .completion →
    ∃ ref a, e.authorizationRef = some ref ∧ s.events.get? ref = some a ∧ a.stage = .authorization
  signaled : ∀ id e, s.events.get? id = some e → e.stage = .invariant → e.invariantCode ≠ some MISSING_AUTHORIZATION

/-- The event that a completion names, if there is one, is an authorization event; and no invariant is signaled with
the code of the finding. -/
def Vouched (s : WitnessState H) : WitnessTask → Prop
  | .appendCompletion input _ => ∀ e ∈ s.events.get? input.authorizationRef, e.stage = .authorization
  | .appendInvariant input _ => input.code ≠ MISSING_AUTHORIZATION
  | _ => True

instance (s : WitnessState H) (t : WitnessTask) : Decidable (Vouched s t) :=
  match t with
  | .appendCompletion input _ =>
    inferInstanceAs (Decidable (∀ e ∈ s.events.get? input.authorizationRef, e.stage = .authorization))
  | .appendInvariant input _ => inferInstanceAs (Decidable (input.code ≠ MISSING_AUTHORIZATION))
  | .appendAuthorization _ _ => .isTrue trivial
  | .createCheckpoint _ _ => .isTrue trivial
  | .rotateKeyEpoch _ => .isTrue trivial
  | .verify _ _ => .isTrue trivial

omit [DecidableEq H] in
theorem authorized_empty : Authorized (H := H) idFactory .empty := by
  have hnone : ∀ id (e : WitnessEvent H), (WitnessState.empty : WitnessState H).events.get? id ≠ some e := fun id e =>
    (Option.some_ne_none e).symm
  exact ⟨fun id e he => absurd he (hnone id e), fun id e he => absurd he (hnone id e), fun id e he =>
    absurd he (hnone id e)⟩

omit [DecidableEq H] in
theorem Authorized.added (h : Authorized idFactory s) (hinj : Function.Injective idFactory)
    {t : WitnessTask} (hvouched : Vouched s t) (hrecords : Records s payload t)
    (hadded : AddedEvent idFactory payload s s') : Authorized idFactory s' := by
  obtain ⟨n, hn, hn', event, hid, rfl, hevents⟩ := hadded
  have hget : ∀ id, s'.events.get? id = if id = event.id then some event else s.events.get? id := fun id => by
    rw [hevents, Record.get?_set]
  -- the id is new, so no event is replaced
  have hkept : ∀ id e, s.events.get? id = some e → s'.events.get? id = some e := by
    intro id e he
    obtain ⟨-, m, hm, rfl⟩ := h.drawn id e he
    rw [hget, if_neg, he]
    intro heq
    have := hinj (heq.trans hid)
    omega
  refine ⟨fun id e he => ?_, fun id e he hstage => ?_, fun id e he hstage => ?_⟩
  · rw [hget] at he
    split_ifs at he with hnew
    · cases he
      exact ⟨hnew.symm, n, hn', hnew.trans hid⟩
    · obtain ⟨hidEq, m, hm, heq⟩ := h.drawn id e he
      exact ⟨hidEq, m, by omega, heq⟩
  · rw [hget] at he
    split_ifs at he with hnew
    · cases he
      cases t with
      | appendCompletion input now =>
        obtain ⟨-, href, a, ha⟩ := hrecords
        exact ⟨_, a, href, hkept _ a ha, hvouched a ha⟩
      | appendAuthorization input now => exact absurd (hstage.symm.trans hrecords) nofun
      | appendInvariant input now => exact absurd (hstage.symm.trans hrecords.1) nofun
      | _ => exact hrecords.elim
    · obtain ⟨ref, a, href, ha, hauthorization⟩ := h.answered id e he hstage
      exact ⟨ref, a, href, hkept _ a ha, hauthorization⟩
  · rw [hget] at he
    split_ifs at he with hnew
    · cases he
      cases t with
      | appendInvariant input now =>
        obtain ⟨-, hcode⟩ := hrecords
        rw [hcode]
        exact fun heq => hvouched (Option.some.inj heq)
      | appendAuthorization input now => exact absurd (hstage.symm.trans hrecords) nofun
      | appendCompletion input now => exact absurd (hstage.symm.trans hrecords.1) nofun
      | _ => exact hrecords.elim
    · exact h.signaled id e he hstage

theorem Authorized.called (h : Authorized idFactory s) (hinj : Function.Injective idFactory) {t : WitnessTask}
    (hvouched : Vouched s t) (hcalled : Called c checkpointInterval idFactory allowed s t s') :
    Authorized idFactory s' := by
  obtain ⟨y, l, hends⟩ := hcalled
  rcases (meets_taskBody_events t s).of_alone hends with ⟨hevents, hissued⟩ | ⟨payload, hrecords, hadded⟩
  · refine ⟨fun id e he => ?_, hevents ▸ h.answered, hevents ▸ h.signaled⟩
    obtain ⟨hid, n, hn, heq⟩ := h.drawn id e (hevents ▸ he)
    exact ⟨hid, n, Nat.lt_of_lt_of_le hn hissued, heq⟩
  · exact h.added hinj hvouched hrecords hadded

/-! ## The verification -/

theorem traces_verifyCheckpointChainFrom {previous : Option (WitnessCheckpoint H)}
    {l : Log (WitnessOp.Answer (H := H))} :
    (verifyCheckpointChainFrom c events now previous checkpoints).Traces
      (fun _ y => ∀ v, y = .ok v → ∀ f ∈ v.findings, f.code.family = .CHAIN) l := by
  induction checkpoints generalizing previous l with
  | nil =>
    rintro v hv f hf
    cases hv
    cases hf
  | cons k checkpoints ih =>
    rw [verifyCheckpointChainFrom]
    refine traces_bind.mpr ((traces_isPrefix _ l).mono fun l₁ signature _ => ?_)
    cases signature with
    | error e => exact nofun
    | ok signatureValid =>
      refine traces_bind.mpr (ih.mono fun l₂ rest hrest => ?_)
      cases rest with
      | error e => exact nofun
      | ok rest =>
        intro v hv f hf
        cases hv
        rcases List.mem_append.mp hf with hf | hf
        · rcases List.mem_append.mp hf with hf | hf
          · simp only [verifyCheckpoint, List.mem_append] at hf
            rcases hf with ((hf | hf) | hf) | hf <;> exact mem_findingUnless hf
          · exact mem_findingUnless hf
        · exact hrest rest rfl f hf

def ReportOn (c : Primitives H) (now : Timestamp) (events : List (WitnessEvent H))
    (y : Except WitnessError (VerificationReport H)) : Prop :=
  ∀ report, y = .ok report → ∃ id first last checkpoints verification,
    report.toReportBody = reportBody c id now first last events checkpoints verification ∧
      ∀ f ∈ verification.findings, f.code.family = .CHAIN

theorem reportOn_error {e : WitnessError} : ReportOn c now events (.error e) := by
  rintro _ ⟨⟩

theorem meets_verify_events (s : WitnessState H) :
    (verify c ⟨none, none⟩ now).Meets (answers c idFactory) .alone (fun _ y _ => ReportOn c now s.listEvents y) [] s := by
  refine meets_alone_call fun x events s₁ hevents => ?_
  cases hevents
  refine Traces.meets (q := fun _ y => ReportOn c now s.listEvents y) ?_ fun _ _ _ _ _ _ _ _ => True.intro
  intro checkpoints
  show (verifyCheckpointChain c _ _ now >>= _).Traces _ _
  refine traces_bind.mpr (traces_verifyCheckpointChainFrom.mono fun l₁ verification hchain => ?_)
  cases verification with
  | error e => exact reportOn_error
  | ok verification =>
    intro id
    show (issueAttestationReceipt c _ now >>= _).Traces _ _
    refine traces_bind.mpr ((traces_isPrefix _ _).mono fun l₂ receipt _ => ?_)
    cases receipt with
    | error e => exact reportOn_error
    | ok receipt =>
      split_ifs
      · intro stored
        cases stored with
        | error e => exact reportOn_error
        | ok _ =>
          intro report hreport
          cases hreport
          have hall := filterEventsByRange_all (sorted_listEvents s)
          refine ⟨id, (⟨none, none⟩ : WitnessVerificationRequest).first s.listEvents,
            (⟨none, none⟩ : WitnessVerificationRequest).last s.listEvents,
            filterCheckpointsByRange checkpoints ((⟨none, none⟩ : WitnessVerificationRequest).first s.listEvents)
              ((⟨none, none⟩ : WitnessVerificationRequest).last s.listEvents), verification, ?_, hchain verification rfl⟩
          exact congrArg (fun events => reportBody c id now _ _ events _ verification) hall
      · intro report hreport
        cases hreport

/-- **Completions and authorizations.** While each completion that is appended names an authorization event, and no
invariant is signaled with the code of the finding, no verification of the whole ledger has that finding, whatever the
store rejects. -/
theorem authorized_of_run (hinj : Function.Injective idFactory) {tasks : List WitnessTask}
    (hrun : Run (Guarded (Called c checkpointInterval idFactory allowed) Vouched) .empty tasks s) {now : Timestamp}
    {y : Except WitnessError (WitnessResult H)} {l : Log (WitnessOp.Answer (H := H))} {t : WitnessState H}
    (hends : (taskBody c checkpointInterval (.verify ⟨none, none⟩ now)).Ends (answers c idFactory) allowed [] s y l t)
    {report : VerificationReport H} (hreport : y = .ok (.report report)) :
    ∀ f ∈ report.findings, f.code ≠ MISSING_AUTHORIZATION := by
  have hauthorized : Authorized idFactory s :=
    hrun.invariant (fun s t s' h hstep => h.called hinj hstep.2 hstep.1) authorized_empty
  have hmeets : (taskBody c checkpointInterval (.verify ⟨none, none⟩ now)).Meets (answers c idFactory) .alone
      (fun _ y _ => ∀ report, y = .ok (.report report) → ReportOn c now s.listEvents (.ok report)) [] s := by
    refine meets_map.mpr ((meets_verify_events s).mono fun _ y _ hy report heq => ?_)
    cases y with
    | error e => cases heq
    | ok report' =>
      obtain rfl := WitnessResult.report.inj (Except.ok.inj heq)
      exact hy
  obtain ⟨id, first, last, checkpoints, verification, hbody, hchain⟩ := hmeets.of_alone hends report hreport report rfl
  intro f hf hcode
  rw [hbody] at hf
  obtain ⟨e, he, hcause⟩ := missing_authorization_of_mem hchain hf hcode
  have hmem : ∀ {e : WitnessEvent H}, e ∈ s.listEvents ↔ e ∈ s.events.values := List.mem_insertionSort _
  obtain ⟨eid, hget⟩ := Record.mem_values.mp (hmem.mp he)
  rcases hcause with ⟨hstage, hnone⟩ | ⟨hstage, hinvariant⟩
  · obtain ⟨ref, a, href, ha, hauthorization⟩ := hauthorized.answered eid e hget hstage
    refine hnone a (hmem.mpr (Record.mem_values.mpr ⟨ref, ha⟩)) hauthorization ?_
    rw [href, (hauthorized.drawn ref a ha).1]
  · exact hauthorized.signaled eid e hget hstage hinvariant

/-! ## A completion named by another -/

def sampleCompletion (authorizationRef : EventId) : WitnessCompletionInput :=
  ⟨.toolExecute, "tool", authorizationRef, none, none, .core, .succeeded, .empty, none⟩

/-- An authorization, its completion, and a completion that names this completion. -/
def completions : List (WitnessTask × List PutOutcome) :=
  [(.appendAuthorization sampleAuthorization "now", List.replicate 5 .accepted),
    (.appendCompletion (sampleCompletion (unaryId 0)) "now", List.replicate 5 .accepted),
    (.appendCompletion (sampleCompletion (unaryId 1)) "now", List.replicate 5 .accepted)]

theorem completion_authorized :
    ∃ s, Run (Guarded (Called symbolic 25 unaryId honestStore) Vouched) .empty ((completions.take 2).map (·.1)) s ∧
      ∃ y l t report, (taskBody symbolic 25 (.verify ⟨none, none⟩ "now")).Ends (answers symbolic unaryId) honestStore []
        s y l t ∧ y = .ok (.report report) ∧ ∀ f ∈ report.findings, f.code ≠ MISSING_AUTHORIZATION := by
  obtain ⟨s, hrun, hcheck⟩ := exists_guarded_run_of_check symbolic 25 unaryId honestStore Vouched (completions.take 2)
    (fun s => ((taskBody symbolic 25 (.verify ⟨none, none⟩ "now")).alone (answers symbolic unaryId) honestStore
        (List.replicate 9 .accepted) [] s).any fun y => reportsNoChain y.1) (by decide +kernel)
  obtain ⟨⟨y, t⟩, halone, hy⟩ := (Option.any_eq_true _ _).mp hcheck
  obtain ⟨l, hends⟩ := ends_of_alone halone
  obtain ⟨report, hreport, -⟩ := exists_report_of_reportsNoChain hy
  exact ⟨s, hrun, y, l, t, report, hends, hreport, authorized_of_run unaryId_injective hrun hends hreport⟩

def reportsMissing (y : Except WitnessError (WitnessResult Digest)) : Bool :=
  match y with
  | .ok (.report report) => report.findings.any fun f => decide (f.code = MISSING_AUTHORIZATION)
  | _ => false

/-- A completion that names a completion is appended, and then found to have no authorization. -/
theorem completion_unauthorized :
    ∃ s, Run (Called symbolic 25 unaryId honestStore) .empty (completions.map (·.1)) s ∧
      ∃ y l t report, (taskBody symbolic 25 (.verify ⟨none, none⟩ "now")).Ends (answers symbolic unaryId) honestStore []
        s y l t ∧ y = .ok (.report report) ∧ ¬∀ f ∈ report.findings, f.code ≠ MISSING_AUTHORIZATION := by
  obtain ⟨s, hrun, hcheck⟩ := exists_run_of_check symbolic 25 unaryId honestStore completions
    (fun s => ((taskBody symbolic 25 (.verify ⟨none, none⟩ "now")).alone (answers symbolic unaryId) honestStore
        (List.replicate 9 .accepted) [] s).any fun y => reportsMissing y.1) (by decide +kernel)
  obtain ⟨⟨y, t⟩, halone, hy⟩ := (Option.any_eq_true _ _).mp hcheck
  obtain ⟨l, hends⟩ := ends_of_alone halone
  unfold reportsMissing at hy
  split at hy
  · rename_i report hreport
    obtain ⟨f, hf, hcode⟩ := List.any_eq_true.mp hy
    exact ⟨s, hrun, y, l, t, report, hends, hreport, fun h => h f hf (of_decide_eq_true hcode)⟩
  · cases hy

end NousCore.Witness
