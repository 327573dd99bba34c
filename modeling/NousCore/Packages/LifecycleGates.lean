import NousCore.Packages.LifecycleBlocked
import NousCore.Lib.Runs

/-!
# The gates of the package lifecycle

* `LifecycleHistory`, `perform` : the stores, with what every request did;
* `gatesPassed_of_run` : runs of direct requests keep the gates.
-/

namespace NousCore.Packages

variable {env : LifecycleEnvironment} {method : PackageLifecycleTransition} {request : PackageLifecycleTransitionRequest}
  {context : TransitionContext} {outcome : TransitionOutcome} {snapshots : UpdateSnapshots} {records : LifecycleRecords}

/-! ## Histories -/

structure LifecycleCall where
  env : LifecycleEnvironment
  method : PackageLifecycleTransition
  input : LifecycleInput

/-- A request, the decision of its answer, and the state that its package is in afterwards. -/
structure LifecycleEntry where
  method : PackageLifecycleTransition
  request : PackageLifecycleTransitionRequest
  decision : Option PackageLifecycleTransitionDecision
  after : PackageLifecycleSourceState

/-- The stores, and what the requests did, the last one first. -/
structure LifecycleHistory where
  records : LifecycleRecords
  snapshots : UpdateSnapshots
  entries : List LifecycleEntry

def LifecycleHistory.initial : LifecycleHistory := ⟨.empty, .empty, []⟩

def LifecycleCall.effect (call : LifecycleCall) (s : LifecycleHistory) : LifecycleEffect :=
  handle call.env call.method call.input ⟨s.records, s.snapshots, s.records⟩

/-- What the call did to the package that its request names. -/
def LifecycleCall.entries (call : LifecycleCall) (s : LifecycleHistory) : List LifecycleEntry :=
  match call.input with
  | .invalid _ _ _ => []
  | .parsed request =>
    [⟨call.method, request, (call.effect s).answer.toOption.map (·.decision),
      ((call.effect s).records.get? request.key).map (·.currentState)⟩]

def LifecycleHistory.perform (s : LifecycleHistory) (call : LifecycleCall) : LifecycleHistory :=
  ⟨(call.effect s).records, (call.effect s).snapshots, call.entries s ++ s.entries⟩

/-- One request after the other. -/
def Performs (s : LifecycleHistory) (call : LifecycleCall) (t : LifecycleHistory) : Prop := s.perform call = t

/-! ## Gates -/

/-- An install or import that was allowed with its guards satisfied. -/
def LifecycleEntry.passes (entry : LifecycleEntry) : Bool :=
  decide (entry.decision = some .allowed ∧ (entry.method = .install ∨ entry.method = .importPackage) ∧
    evaluateTransitionGuards entry.request = none)

/-- An ingest or a removal that was allowed, or a package left in quarantine. -/
def LifecycleEntry.resets (entry : LifecycleEntry) : Bool :=
  decide ((entry.decision = some .allowed ∧ (entry.method = .ingest ∨ entry.method = .removePackage)) ∨
    entry.after = some .quarantined)

/-- An install or import of the package has been allowed since it was last ingested, removed or in quarantine. -/
def passedGates (projectId : Text) (packageId : PackageId) : List LifecycleEntry → Bool
  | [] => false
  | entry :: earlier =>
    if entry.request.projectId = projectId ∧ entry.request.packageId = packageId then
      entry.passes || (!entry.resets && passedGates projectId packageId earlier)
    else passedGates projectId packageId earlier

/-- **No package runs without passing its gates.** -/
def GatesPassed (s : LifecycleHistory) : Prop :=
  ∀ key record, s.records.get? key = some record → record.currentState = .enabled ∨ record.currentState = .running →
    passedGates record.projectId record.packageId s.entries = true

/-- The record under the request's key is that of its package, and a package that is ingested or in quarantine is not
disabled. -/
def Direct (s : LifecycleHistory) (call : LifecycleCall) : Prop :=
  ∀ request, call.input = .parsed request → ∀ record, s.records.get? request.key = some record →
    (record.projectId = request.projectId ∧ record.packageId = request.packageId) ∧
      (call.method = .disable → record.currentState ≠ .ingested ∧ record.currentState ≠ .quarantined)

/-! ## What one request does -/

/-- The states in which a package has not passed, or no longer counts. -/
def PackageLifecycleState.before (state : PackageLifecycleState) : Prop :=
  state = .ingested ∨ state = .quarantined ∨ state = .removed

theorem records_emitResult :
    ((emitResult env method context outcome snapshots records).records = records ∧
      ∀ result, (emitResult env method context outcome snapshots records).answer = .ok result →
        result.decision ≠ .allowed) ∨
    ∃ witnessRef result, outcome.shouldPersistState = true ∧
      (emitResult env method context outcome snapshots records).answer = .ok result ∧
      result.decision = outcome.decision ∧ ∀ key,
        (emitResult env method context outcome snapshots records).records.get? key =
          if key = context.request.key then some (nextStateRecord env context outcome witnessRef)
          else records.get? key := by
  have hfallback : ∀ reason result, (env.emitted 1).map (fallbackResult context method reason) = .ok result →
      result.decision ≠ .allowed := by
    intro reason result h
    cases hsecond : env.emitted 1 with
    | error e => rw [hsecond] at h; cases h
    | ok event =>
      rw [hsecond] at h
      cases h
      simp [fallbackResult]
  cases hfirst : env.emitted 0 with
  | error e =>
    refine Or.inl ⟨(emitResult_of_error hfirst).1, fun result h => ?_⟩
    rw [(emitResult_of_error hfirst).2] at h
    cases h
  | ok event =>
    by_cases hwitness : event.2 = []
    · refine Or.inl ⟨(emitResult_of_missing hfirst hwitness).1, fun result h => ?_⟩
      rw [(emitResult_of_missing hfirst hwitness).2] at h
      exact hfallback _ result h
    cases hpersist : outcome.shouldPersistState with
    | false =>
      refine Or.inl ⟨(emitResult_of_unwritten hpersist).1, fun result h => ?_⟩
      rw [(emitResult_of_unwritten hpersist).2 result h]
      simp
    | true =>
      cases hupsert : upsert records (nextStateRecord env context outcome event.2)
        (context.current.map (·.version)) with
      | none =>
        refine Or.inl ⟨(emitResult_of_conflict hfirst hwitness hpersist hupsert).1, fun result h => ?_⟩
        rw [(emitResult_of_conflict hfirst hwitness hpersist hupsert).2] at h
        exact hfallback _ result h
      | some written =>
        obtain ⟨hrecords, result, hresult, hdecision, -⟩ :
            (emitResult env method context outcome snapshots records).records = written ∧
              ∃ result, (emitResult env method context outcome snapshots records).answer = .ok result ∧
                result.decision = outcome.decision ∧ result.toState = outcome.toState :=
          emitResult_of_written hfirst hwitness hpersist hupsert
        refine Or.inr ⟨event.2, result, rfl, hresult, hdecision, fun key => ?_⟩
        rw [hrecords, get?_upsert hupsert, nextStateRecord_key]

/-! ## Which states a request writes -/

variable {reason : PackageLifecycleReasonCode}

theorem eq_of_text_rollbackTrustCheckFailed
    (h : reason.text = PackageLifecycleReasonCode.rollbackTrustCheckFailed.text) : reason = .rollbackTrustCheckFailed := by
  cases reason with
  | rollbackTrustCheckFailed => rfl
  | registry code =>
    have hcode := code.property
    rw [show code.val = PackageLifecycleReasonCode.rollbackTrustCheckFailed.text from h] at hcode
    exact absurd hcode (by decide +kernel)
  | _ => exact absurd h (by decide +kernel)

theorem resolveBlockedState_eq_disabled {fromState : PackageLifecycleSourceState}
    (hreason : reason ≠ .rollbackTrustCheckFailed) (h : resolveBlockedState fromState reason = .disabled) :
    fromState = some .disabled := by
  unfold resolveBlockedState at h
  split_ifs at h with hstart htext
  · exact absurd (eq_of_text_rollbackTrustCheckFailed htext) hreason
  · cases fromState with
    | none => cases h
    | some state => exact congrArg some h

theorem admission_failure_ne (origin : OriginClass) (admission : PackageLifecycleAdmissionInput) :
    admission.failure origin ≠ some .rollbackTrustCheckFailed := by
  unfold PackageLifecycleAdmissionInput.failure
  split_ifs <;> simp

theorem eligibility_failure_ne (eligibility : RegistryInstallEligibilitySnapshot) :
    eligibility.failure ≠ some .rollbackTrustCheckFailed := by
  unfold RegistryInstallEligibilitySnapshot.failure
  cases eligibility.blockReasonCodes with
  | nil | cons => dsimp only; split_ifs <;> simp

theorem evaluateTransitionGuards_ne (request : PackageLifecycleTransitionRequest) :
    evaluateTransitionGuards request ≠ some .rollbackTrustCheckFailed := by
  intro h
  rcases Option.or_eq_some_iff.mp h with h | ⟨-, h⟩
  · obtain ⟨admission, -, hfailure⟩ := Option.bind_eq_some_iff.mp h
    exact admission_failure_ne _ _ hfailure
  rcases Option.or_eq_some_iff.mp h with h | ⟨-, h⟩
  · obtain ⟨compatibility, -, hfailure⟩ := Option.bind_eq_some_iff.mp h
    split_ifs at hfailure
    simp at hfailure
  rcases Option.or_eq_some_iff.mp h with h | ⟨-, h⟩
  · obtain ⟨capability, -, hfailure⟩ := Option.bind_eq_some_iff.mp h
    split_ifs at hfailure
    simp at hfailure
  · obtain ⟨eligibility, -, hfailure⟩ := Option.bind_eq_some_iff.mp h
    exact eligibility_failure_ne _ hfailure

theorem evaluateRemoveGuards_ne (request : PackageLifecycleTransitionRequest) :
    evaluateRemoveGuards request ≠ some .rollbackTrustCheckFailed := by
  unfold evaluateRemoveGuards
  split_ifs <;> simp

variable {current : Option PackageLifecycleStateRecord} {packageVersion : Text}

variable {state : PackageLifecycleState}

theorem state_of_recordsBlock
    (h : RecordsBlock env method request current context reason state packageVersion) :
    state = .quarantined ∨ (TransitionContext.mk request current).fromState = some .disabled := by
  cases h with
  | target => exact Or.inl rfl
  | route _ _ hstate hkept =>
    refine hkept.imp_right fun hdisabled => ?_
    exact resolveBlockedState_eq_disabled (by simp) (hstate.trans hdisabled)
  | guards _ _ _ hreason hstate hkept =>
    refine hkept.imp_right fun hdisabled => resolveBlockedState_eq_disabled ?_ (hstate.trans hdisabled)
    rintro rfl
    exact evaluateTransitionGuards_ne request hreason
  | remove _ _ _ hreason hstate hkept =>
    refine hkept.imp_right fun hdisabled => resolveBlockedState_eq_disabled ?_ (hstate.trans hdisabled)
    rintro rfl
    rcases hreason with hreason | ⟨-, hreason, -⟩
    · exact evaluateRemoveGuards_ne request hreason
    · cases hreason

/-- A decision that is written leaves the package before its gates, or is an install or import that passed them, or
goes on from a record that is past them (or disables one that is not). -/
inductive Justified (method : PackageLifecycleTransition) (request : PackageLifecycleTransitionRequest)
    (current : Option PackageLifecycleStateRecord) (outcome : TransitionOutcome) : Prop
  | before (h : outcome.toState.before)
  | passes (hdecision : outcome.decision = .allowed) (hmethod : method = .install ∨ method = .importPackage)
    (hguards : evaluateTransitionGuards request = none)
  | goesOn {record : PackageLifecycleStateRecord} (hcurrent : current = some record)
    (hpast : record.currentState.before → method = .disable ∧ record.currentState ≠ .removed)
    (hmethod : outcome.decision = .allowed → method ≠ .ingest ∧ method ≠ .removePackage)

theorem past_of_allowed (hroute : isTransitionAllowed (TransitionContext.mk request current).fromState method = true)
    (hmethod : method ∉ [.ingest, .install, .importPackage]) :
    ∃ record, current = some record ∧
      (record.currentState.before → method = .disable ∧ record.currentState ≠ .removed) := by
  cases current with
  | none =>
    simp only [TransitionContext.fromState, Option.map_none] at hroute
    cases method <;> first | exact absurd hroute (by decide) | exact absurd hmethod (by decide)
  | some record =>
    refine ⟨record, rfl, ?_⟩
    simp only [TransitionContext.fromState, Option.map_some] at hroute
    rintro (hstate | hstate | hstate) <;> rw [hstate] at hroute ⊢ <;> cases method <;>
      first | exact absurd hroute (by decide) | exact absurd hmethod (by decide) | simp

theorem allowed_of_passed {toState : PackageLifecycleState}
    (h : (whenGuardsPass context snapshots
      (handleSimpleAllowedTransition toState packageVersion, snapshots)).1.decision ≠ .blocked) :
    evaluateTransitionGuards context.request = none ∧ (whenGuardsPass context snapshots
      (handleSimpleAllowedTransition toState packageVersion, snapshots)).1.decision = .allowed := by
  cases hguards : evaluateTransitionGuards context.request with
  | none => exact ⟨rfl, by rw [whenGuardsPass_of_none hguards]; rfl⟩
  | some reason =>
    rw [whenGuardsPass_of_some hguards] at h
    exact absurd rfl h

theorem removed_of_passed (h : (removePackage env context snapshots).1.decision ≠ .blocked) :
    (removePackage env context snapshots).1.toState = .removed := by
  unfold removePackage at h ⊢
  cases hguard : evaluateRemoveGuards context.request with
  | some reason =>
    simp only [hguard] at h
    exact absurd rfl h
  | none =>
    simp only [hguard] at h ⊢
    split_ifs at h ⊢
    · exact absurd rfl h
    · rfl

theorem justified_of_recordsBlock
    (h : RecordsBlock env method request current context reason state packageVersion) :
    Justified method request current (blockedOutcome state reason packageVersion) := by
  rcases state_of_recordsBlock h with hstate | hstate
  · exact .before (Or.inr (Or.inl hstate))
  · obtain ⟨record, hcurrent, hdisabled⟩ := Option.map_eq_some_iff.mp hstate
    refine .goesOn hcurrent (fun hbefore => ?_) fun h => by cases h
    rw [hdisabled] at hbefore
    rcases hbefore with h | h | h <;> cases h

theorem justified_resolver (htarget : request.targetTransition = method)
    (hroute : isTransitionAllowed (TransitionContext.mk request current).fromState method = true)
    (hpersist : (resolver method env ⟨request, current⟩ snapshots).1.shouldPersistState = true) :
    Justified method request current (resolver method env ⟨request, current⟩ snapshots).1 := by
  have hdecides : Decides env method ⟨request, current⟩ snapshots
      (resolver method env ⟨request, current⟩ snapshots) := decides_resolver htarget hroute
  have hpassed : (resolver method env ⟨request, current⟩ snapshots).1.decision ≠ .blocked →
      Justified method request current (resolver method env ⟨request, current⟩ snapshots).1 := by
    intro hdecision
    by_cases hmethod : method ∉ [.ingest, .install, .importPackage]
    · by_cases hremove : method = .removePackage
      · subst hremove
        exact .before (Or.inr (Or.inr (removed_of_passed hdecision)))
      · obtain ⟨record, hcurrent, hpast⟩ := past_of_allowed hroute hmethod
        exact .goesOn hcurrent hpast fun _ => ⟨by rintro rfl; exact hmethod (by simp), hremove⟩
    · rw [not_not] at hmethod
      simp only [List.mem_cons, List.not_mem_nil, or_false] at hmethod
      rcases hmethod with rfl | rfl | rfl
      · exact .before (Or.inl rfl)
      · obtain ⟨hguards, hallowed⟩ : evaluateTransitionGuards request = none ∧
            (resolver .install env ⟨request, current⟩ snapshots).1.decision = .allowed := allowed_of_passed hdecision
        exact .passes hallowed (Or.inl rfl) hguards
      · obtain ⟨hguards, hallowed⟩ : evaluateTransitionGuards request = none ∧
            (resolver .importPackage env ⟨request, current⟩ snapshots).1.decision = .allowed :=
          allowed_of_passed hdecision
        exact .passes hallowed (Or.inr rfl) hguards
  cases hdecides with
  | blocks heq hrecords =>
    rw [heq] at hpersist ⊢
    exact justified_of_recordsBlock (hrecords ((of_decide_eq_true hpersist).resolve_left fun hne => hne rfl))
  | passes hdecision heq => exact hpassed hdecision
  | moves hdecision => exact hpassed hdecision

/-- **A request**: it leaves the records and is not allowed, or it writes a justified decision under its key. -/
theorem handle_cases (env : LifecycleEnvironment) (method : PackageLifecycleTransition)
    (request : PackageLifecycleTransitionRequest) (records : LifecycleRecords) (snapshots : UpdateSnapshots) :
    ((handle env method (.parsed request) ⟨records, snapshots, records⟩).records = records ∧
      ∀ result, (handle env method (.parsed request) ⟨records, snapshots, records⟩).answer = .ok result →
        result.decision ≠ .allowed) ∨
    ∃ outcome record result, Justified method request (records.get? request.key) outcome ∧
      (handle env method (.parsed request) ⟨records, snapshots, records⟩).answer = .ok result ∧
      result.decision = outcome.decision ∧
      (record.projectId = request.projectId ∧ record.packageId = request.packageId ∧
        record.currentState = outcome.toState) ∧ ∀ key,
        (handle env method (.parsed request) ⟨records, snapshots, records⟩).records.get? key =
          if key = request.key then some record else records.get? key := by
  unfold handle executeTransition
  by_cases htarget : request.targetTransition = method
  swap
  · dsimp only
    rw [if_pos htarget]
    refine records_emitResult.imp_right ?_
    rintro ⟨witnessRef, result, -, hanswer, hdecision, hget⟩
    exact ⟨_, _, result, .before (Or.inr (Or.inl rfl)), hanswer, hdecision, ⟨rfl, rfl, rfl⟩, hget⟩
  dsimp only
  rw [if_neg (not_not_intro htarget)]
  cases hroute : isTransitionAllowed (TransitionContext.mk request (records.get? request.key)).fromState method with
  | true =>
    rw [Bool.not_true, if_neg Bool.false_ne_true]
    refine records_emitResult.imp_right ?_
    rintro ⟨witnessRef, result, hpersist, hanswer, hdecision, hget⟩
    exact ⟨_, _, result, justified_resolver htarget hroute hpersist, hanswer, hdecision, ⟨rfl, rfl, rfl⟩, hget⟩
  | false =>
    rw [Bool.not_false, if_pos rfl]
    refine records_emitResult.imp_right ?_
    rintro ⟨witnessRef, result, hpersist, hanswer, hdecision, hget⟩
    refine ⟨_, _, result, ?_, hanswer, hdecision, ⟨rfl, rfl, rfl⟩, hget⟩
    have hrecords : RecordsBlock env method request (records.get? request.key) ⟨request, records.get? request.key⟩ _ _ _ :=
      .route htarget hroute rfl ((of_decide_eq_true hpersist).resolve_left fun hne => hne rfl)
    exact justified_of_recordsBlock hrecords

/-! ## Runs -/

/-- Every record is stored under its own key, and is of a package before its gates or of one that passed them. -/
def Gated (s : LifecycleHistory) : Prop :=
  ∀ key record, s.records.get? key = some record → record.key = key ∧
    (record.currentState.before ∨ passedGates record.projectId record.packageId s.entries = true)

section PassedGates

variable {projectId : Text} {packageId : PackageId} {entry : LifecycleEntry} {earlier : List LifecycleEntry}

theorem passedGates_of_passes (hproject : entry.request.projectId = projectId)
    (hpackage : entry.request.packageId = packageId) (h : entry.passes = true) :
    passedGates projectId packageId (entry :: earlier) = true := by
  rw [passedGates, if_pos ⟨hproject, hpackage⟩, h, Bool.true_or]

theorem passedGates_of_kept
    (hkept : entry.request.projectId = projectId → entry.request.packageId = packageId → entry.resets = false)
    (h : passedGates projectId packageId earlier = true) : passedGates projectId packageId (entry :: earlier) = true := by
  rw [passedGates]
  split_ifs with hids
  · rw [hkept hids.1 hids.2, h, Bool.not_false, Bool.true_and, Bool.or_true]
  · exact h

end PassedGates

theorem gated_perform {s : LifecycleHistory} {call : LifecycleCall} (hdirect : Direct s call) (h : Gated s) :
    Gated (s.perform call) := by
  obtain ⟨env, method, input⟩ := call
  cases input with
  | invalid packageId packageVersion originClass => exact h
  | parsed request =>
    have hcases := handle_cases env method request s.records s.snapshots
    set effect := handle env method (.parsed request) ⟨s.records, s.snapshots, s.records⟩
    set entry : LifecycleEntry := ⟨method, request, effect.answer.toOption.map (·.decision),
      (effect.records.get? request.key).map (·.currentState)⟩ with hentry
    intro key record hrecord
    change effect.records.get? key = some record at hrecord
    -- an entry that is not of an allowed ingest or removal resets only a package that is left in quarantine
    have hkept : (entry.decision = some .allowed → method ≠ .ingest ∧ method ≠ .removePackage) →
        record.key = key → ¬record.currentState.before → request.projectId = record.projectId →
          request.packageId = record.packageId → entry.resets = false := by
      intro hallowed hkey hbefore hproject hpackage
      have hsame : request.key = key := by
        rw [← hkey, PackageLifecycleTransitionRequest.key, hproject, hpackage, PackageLifecycleStateRecord.key]
      refine decide_eq_false ?_
      rintro (⟨hdecision, hmethod⟩ | hquarantined)
      · exact hmethod.elim (hallowed hdecision).1 (hallowed hdecision).2
      · rw [hentry, hsame, hrecord] at hquarantined
        exact hbefore (Or.inr (Or.inl (Option.some.inj hquarantined)))
    rcases hcases with ⟨hrecords, hallowed⟩ | ⟨outcome, written, result, hjustified, hanswer, hdecision, hids, hget⟩
    · rw [hrecords] at hrecord
      obtain ⟨hkey, hgates⟩ := h key record hrecord
      refine ⟨hkey, ?_⟩
      by_cases hbefore : record.currentState.before
      · exact Or.inl hbefore
      refine Or.inr (passedGates_of_kept (hkept (fun hdecision => ?_) hkey hbefore) (hgates.resolve_left hbefore))
      obtain ⟨result, hanswer, hdecided⟩ := Option.map_eq_some_iff.mp hdecision
      exact absurd hdecided (hallowed result (eq_ok_of_toOption hanswer))
    · have hentrydecision : entry.decision = some outcome.decision := by
        rw [hentry, hanswer, ← hdecision]
        rfl
      rw [hget] at hrecord
      split_ifs at hrecord with hkey
      · obtain rfl := Option.some.inj hrecord
        have hown : written.key = key := by
          rw [hkey, PackageLifecycleStateRecord.key, hids.1, hids.2.1, PackageLifecycleTransitionRequest.key]
        refine ⟨hown, ?_⟩
        by_cases hbefore : written.currentState.before
        · exact Or.inl hbefore
        right
        cases hjustified with
        | before hstate =>
          rw [← hids.2.2] at hstate
          exact absurd hstate hbefore
        | passes hallowed hmethod hguards =>
          exact passedGates_of_passes hids.1.symm hids.2.1.symm
            (decide_eq_true ⟨hentrydecision.trans (congrArg some hallowed), hmethod, hguards⟩)
        | goesOn hcurrent hpast hmethod =>
          obtain ⟨⟨hproject, hpackage⟩, hdisable⟩ := hdirect request rfl _ hcurrent
          obtain ⟨-, hgates⟩ := h _ _ hcurrent
          refine passedGates_of_kept (hkept (fun hallowed => ?_) hown hbefore) ?_
          · exact hmethod (Option.some.inj (hentrydecision.symm.trans hallowed))
          · rw [hids.1, hids.2.1, ← hproject, ← hpackage]
            refine hgates.resolve_left fun hearlier => ?_
            obtain ⟨hmethod, hremoved⟩ := hpast hearlier
            obtain ⟨hingested, hquarantined⟩ := hdisable hmethod
            exact hearlier.elim hingested fun h => h.elim hquarantined hremoved
      · obtain ⟨hown, hgates⟩ := h key record hrecord
        refine ⟨hown, hgates.imp_right (passedGates_of_kept fun hproject hpackage => ?_)⟩
        refine absurd ?_ hkey
        rw [← hown, PackageLifecycleStateRecord.key, ← hproject, ← hpackage]
        rfl

/-- **The gates.** In a run of direct requests, every package that is enabled or running has passed its gates. -/
theorem gatesPassed_of_run {calls : List LifecycleCall} {s : LifecycleHistory}
    (h : Run (Guarded Performs Direct) .initial calls s) : GatesPassed s := by
  have hgated : Gated s := by
    refine h.invariant (P := Gated) ?_ ?_
    · rintro t call u hgated ⟨rfl, hdirect⟩
      exact gated_perform hdirect hgated
    · intro key record hrecord
      cases hrecord
  intro key record hrecord hstate
  refine (hgated key record hrecord).2.resolve_left fun hbefore => ?_
  rcases hstate with hstate | hstate <;> rw [hstate] at hbefore <;> rcases hbefore with h | h | h <;> cases h

instance (s : LifecycleHistory) (call : LifecycleCall) : Decidable (Direct s call) :=
  decidable_of_iff ((match call.input with
    | .invalid _ _ _ => true
    | .parsed request => (s.records.get? request.key).all fun record =>
      decide ((record.projectId = request.projectId ∧ record.packageId = request.packageId) ∧
        (call.method = .disable → record.currentState ≠ .ingested ∧ record.currentState ≠ .quarantined))) = true) (by
    unfold Direct
    cases call.input with
    | invalid => simp
    | parsed request => simp only [Option.all_eq_true, decide_eq_true_eq, LifecycleInput.parsed.injEq, forall_eq'])

def lifecycleCall (method : PackageLifecycleTransition) (admission : Option PackageLifecycleAdmissionInput) :
    LifecycleCall where
  env := plainEnvironment
  method
  input := .parsed
    { projectId := text ['h', 'o', 'm', 'e']
      packageId := text ['w', 'i', 'k', 'i']
      packageVersion := text ['1', '0']
      originClass := .thirdPartyExternal
      targetTransition := method
      admission }

/-- A package that is signed, installed and enabled. -/
def enabledHistory : LifecycleHistory :=
  ((LifecycleHistory.initial.perform (lifecycleCall .ingest none)).perform
    (lifecycleCall .install (some ⟨true, true, true, false, false, true, true⟩))).perform (lifecycleCall .enable none)

theorem gatesPassed_enabledHistory : GatesPassed enabledHistory :=
  gatesPassed_of_run (.snoc (.snoc (.snoc .nil ⟨rfl, by decide +kernel⟩) ⟨rfl, by decide +kernel⟩)
    ⟨rfl, by decide +kernel⟩)

/-- A package whose install is blocked, for want of a signature. -/
def unsignedHistory : LifecycleHistory :=
  (((LifecycleHistory.initial.perform (lifecycleCall .ingest none)).perform
    (lifecycleCall .install (some ⟨false, true, true, false, false, true, true⟩))).perform
      (lifecycleCall .disable none)).perform (lifecycleCall .enable none)

/-- The package in quarantine is disabled, and then enabled. -/
theorem unsigned_package_enabled :
    ¬∀ calls s, Run Performs .initial calls s → GatesPassed s := by
  intro h
  have hgates := h _ unsignedHistory (.snoc (.snoc (.snoc (.snoc .nil rfl) rfl) rfl) rfl)
  have henabled : (unsignedHistory.records.get? (buildKey (text ['h', 'o', 'm', 'e']) (text ['w', 'i', 'k', 'i']))).any
      (fun record => record.currentState = .enabled ∧
        passedGates record.projectId record.packageId unsignedHistory.entries = false) = true := by decide +kernel
  obtain ⟨record, hrecord, hstate⟩ := (Option.any_eq_true _ _).mp henabled
  obtain ⟨hstate, hclosed⟩ := of_decide_eq_true hstate
  rw [hgates _ record hrecord (Or.inl hstate)] at hclosed
  cases hclosed

end NousCore.Packages
