import NousCore.Packages.Lifecycle

/-!
# What a blocked lifecycle decision leaves behind

* `Contained`, `blocked_contained_iff` : a request is contained exactly when it is harmless.
-/

namespace NousCore.Packages

variable {env : LifecycleEnvironment} {method : PackageLifecycleTransition} {request : PackageLifecycleTransitionRequest}
  {context : TransitionContext} {outcome : TransitionOutcome} {snapshots snapshots' : UpdateSnapshots}
  {records : LifecycleRecords} {view : LifecycleView}

/-! ## Containment -/

/-- Only the state, the version, the trust scope, the reason, the witness and the time differ. -/
structure RecordKept (toState : PackageLifecycleState) (before after : PackageLifecycleStateRecord) : Prop where
  projectId : after.projectId = before.projectId
  packageId : after.packageId = before.packageId
  packageVersion : after.packageVersion = before.packageVersion
  originClass : after.originClass = before.originClass
  previousSafeVersion : after.previousSafeVersion = before.previousSafeVersion
  currentState : after.currentState = toState
  version : after.version = before.version + 1
  removed : before.currentState = .removed → after.currentState = .removed

/-- A record that was there is unchanged or kept; where there was none, the first version may appear. -/
def RecordContained (toState : PackageLifecycleState) :
    Option PackageLifecycleStateRecord → Option PackageLifecycleStateRecord → Prop
  | none, none => True
  | none, some after => after.currentState = toState ∧ after.version = 1
  | some before, some after => after = before ∨ RecordKept toState before after
  | some _, none => False

/-- **A blocked answer is contained.** -/
def Contained (view : LifecycleView) (effect : LifecycleEffect) : Prop :=
  ∀ result, effect.answer = .ok result → result.decision = .blocked →
    (∀ key, RecordContained result.toState (view.records.get? key) (effect.records.get? key)) ∧
      ∀ key staged, view.snapshots.get? key = some staged → effect.snapshots.get? key = some staged

theorem RecordContained.refl (toState : PackageLifecycleState) (record : Option PackageLifecycleStateRecord) :
    RecordContained toState record record := by
  cases record with
  | none => trivial
  | some record => exact Or.inl rfl

theorem contained_of_eq {effect : LifecycleEffect} (hrecords : effect.records = view.records)
    (hsnapshots : effect.snapshots = view.snapshots) : Contained view effect := by
  intro result _ _
  rw [hrecords, hsnapshots]
  exact ⟨fun key => .refl _ _, fun key staged h => h⟩

/-! ## The condition -/

/-- The blocked decisions that are written: against which record, for which reason, in which state and version. -/
inductive RecordsBlock (env : LifecycleEnvironment) (method : PackageLifecycleTransition)
    (request : PackageLifecycleTransitionRequest) (current : Option PackageLifecycleStateRecord) :
    TransitionContext → PackageLifecycleReasonCode → PackageLifecycleState → Text → Prop
  | target (h : request.targetTransition ≠ method) :
    RecordsBlock env method request current ⟨request, none⟩ .invalidTransition .quarantined request.packageVersion
  | route {state : PackageLifecycleState} (h : request.targetTransition = method)
    (hroute : isTransitionAllowed (TransitionContext.mk request current).fromState method = false)
    (hstate : resolveBlockedState (TransitionContext.mk request current).fromState .invalidTransition = state)
    (hkept : state = .quarantined ∨ state = .disabled) :
    RecordsBlock env method request current ⟨request, current⟩ .invalidTransition state
      (TransitionContext.mk request current).currentVersion
  | guards {reason : PackageLifecycleReasonCode} {state : PackageLifecycleState}
    (h : request.targetTransition = method)
    (hguarded : method ∈ [.install, .enable, .stageUpdate, .commitUpdate, .importPackage])
    (hroute : isTransitionAllowed (TransitionContext.mk request current).fromState method = true)
    (hreason : evaluateTransitionGuards request = some reason)
    (hstate : resolveBlockedState (TransitionContext.mk request current).fromState reason = state)
    (hkept : state = .quarantined ∨ state = .disabled) :
    RecordsBlock env method request current ⟨request, current⟩ reason state request.packageVersion
  | remove {reason : PackageLifecycleReasonCode} {state : PackageLifecycleState}
    (h : request.targetTransition = method) (hremove : method = .removePackage)
    (hroute : isTransitionAllowed (TransitionContext.mk request current).fromState method = true)
    (hreason : evaluateRemoveGuards request = some reason ∨
      (evaluateRemoveGuards request = none ∧ reason = .credentialPurgeFailed ∧
        (env.purgeNamespace.any fun purge => !purge request.packageId) = true))
    (hstate : resolveBlockedState (TransitionContext.mk request current).fromState reason = state)
    (hkept : state = .quarantined ∨ state = .disabled) :
    RecordsBlock env method request current ⟨request, current⟩ reason state
      (TransitionContext.mk request current).currentVersion

/-- A blocked decision may be written over the record stored: without a record read, it writes back the same record;
with one, the record stored has moved on, or the request and the record read agree with it. -/
def Spares (env : LifecycleEnvironment) (context : TransitionContext) (reason : PackageLifecycleReasonCode)
    (state : PackageLifecycleState) (packageVersion : Text) (witnessRef : List Char)
    (stored : PackageLifecycleStateRecord) : Prop :=
  match context.current with
  | none => stored = nextStateRecord env context (blockedOutcome state reason packageVersion) witnessRef
  | some current =>
    stored.version = current.version →
      stored.projectId = context.request.projectId ∧ stored.packageId = context.request.packageId ∧
        stored.packageVersion = packageVersion ∧ stored.originClass = context.request.originClass ∧
        stored.previousSafeVersion = current.previousSafeVersion ∧ stored.currentState ≠ .removed

/-- The decisions that stage an update or consume the one that is staged, with what is staged afterwards. -/
inductive MovesUpdate (env : LifecycleEnvironment) (method : PackageLifecycleTransition)
    (request : PackageLifecycleTransitionRequest) (current : Option PackageLifecycleStateRecord) :
    Option PackageUpdateStageSnapshot → Prop
  | stage {record : PackageLifecycleStateRecord} {snapshot : PackageUpdateStageSnapshot}
    (hmethod : method = .stageUpdate) (hguards : evaluateTransitionGuards request = none)
    (hcurrent : current = some record) (hstage : stage env.stagedAt record request = some snapshot) :
    MovesUpdate env method request current (some snapshot)
  | commit (hmethod : method = .commitUpdate) (hguards : evaluateTransitionGuards request = none) :
    MovesUpdate env method request current none
  | rollback (hmethod : method = .rollbackUpdate) : MovesUpdate env method request current none

/-- The answer falls back: the emitter gives no witness, or the record stored has moved on from the one read. -/
def FallsBack (env : LifecycleEnvironment) (current stored : Option PackageLifecycleStateRecord) : Prop :=
  (∃ event, env.emitted 1 = .ok event) ∧ ∃ event, env.emitted 0 = .ok event ∧
    (event.2 = [] ∨ ∃ record, current = some record ∧ ∀ b, stored = some b → b.version ≠ record.version)

/-- A request whose blocked answer does no harm. -/
structure Harmless (env : LifecycleEnvironment) (method : PackageLifecycleTransition)
    (request : PackageLifecycleTransitionRequest) (view : LifecycleView) : Prop where
  recorded : ∀ {context reason state packageVersion},
    RecordsBlock env method request (view.read.get? request.key) context reason state packageVersion →
      ∀ {type witnessRef}, env.emitted 0 = .ok (type, witnessRef) → witnessRef ≠ [] →
        ∀ stored, view.records.get? request.key = some stored →
          Spares env context reason state packageVersion witnessRef stored
  staged : request.targetTransition = method →
    isTransitionAllowed (TransitionContext.mk request (view.read.get? request.key)).fromState method = true →
      ∀ {after}, MovesUpdate env method request (view.read.get? request.key) after →
        FallsBack env (view.read.get? request.key) (view.records.get? request.key) →
          ∀ staged, view.snapshots.get? request.key = some staged → after = some staged

/-! ## The write of a decision -/

variable {written : LifecycleRecords}

variable {record : PackageLifecycleStateRecord}

theorem get?_upsert {expectedVersion : Option Nat}
    (h : upsert records record expectedVersion = some written) (key : List Char) :
    written.get? key = if key = record.key then some record else records.get? key := by
  have hset : written = records.set record.key record := by
    unfold upsert at h
    split at h
    · split_ifs at h with hversion
      exact (Option.some.inj h).symm
    · exact (Option.some.inj h).symm
  rw [hset, Record.get?_set]

variable {current : Option PackageLifecycleStateRecord}

theorem upsert_eq_none : upsert records record (current.map (·.version)) = none ↔
      ∃ read, current = some read ∧ ∀ stored, records.get? record.key = some stored → stored.version ≠ read.version := by
  cases current with
  | none => simp [upsert]
  | some read =>
    simp only [upsert, Option.map_some, ite_eq_right_iff, reduceCtorEq, imp_false, Option.some.injEq, exists_eq_left',
      Bool.not_eq_true]
    cases records.get? record.key with
    | none => simp
    | some stored => simp

theorem exists_stored_of_upsert {read : PackageLifecycleStateRecord}
        (h : upsert records record (current.map (·.version)) = some written) (hcurrent : current = some read) :
    ∃ stored, records.get? record.key = some stored ∧ stored.version = read.version := by
  by_contra hnone
  push Not at hnone
  rw [upsert_eq_none.2 ⟨read, hcurrent, hnone⟩] at h
  cases h

@[simp] theorem nextStateRecord_key (env : LifecycleEnvironment) (context : TransitionContext)
    (outcome : TransitionOutcome) (witnessRef : List Char) :
    (nextStateRecord env context outcome witnessRef).key = context.request.key := rfl

variable {event : PackageLifecycleEventType × List Char}

theorem emitResult_of_missing (h : env.emitted 0 = .ok event)
    (hmissing : event.2 = []) :
    (emitResult env method context outcome snapshots records).records = records ∧
      (emitResult env method context outcome snapshots records).answer =
        (env.emitted 1).map (fallbackResult context method .missingWitnessRef) := by
  unfold emitResult
  rw [h]
  exact ⟨by simp only [if_pos hmissing], by simp only [if_pos hmissing]⟩

theorem emitResult_of_conflict (h : env.emitted 0 = .ok event)
    (hwitness : event.2 ≠ []) (hpersist : outcome.shouldPersistState = true)
    (hconflict : upsert records (nextStateRecord env context outcome event.2) (context.current.map (·.version)) = none) :
    (emitResult env method context outcome snapshots records).records = records ∧
      (emitResult env method context outcome snapshots records).answer =
        (env.emitted 1).map (fallbackResult context method .invalidTransition) := by
  unfold emitResult
  rw [h]
  simp only [if_neg hwitness, if_pos hpersist, hconflict, and_self]

theorem emitResult_of_written
    (h : env.emitted 0 = .ok event) (hwitness : event.2 ≠ []) (hpersist : outcome.shouldPersistState = true)
    (hwritten : upsert records (nextStateRecord env context outcome event.2) (context.current.map (·.version)) =
      some written) :
    (emitResult env method context outcome snapshots records).records = written ∧
      ∃ result, (emitResult env method context outcome snapshots records).answer = .ok result ∧
        result.decision = outcome.decision ∧ result.toState = outcome.toState := by
  unfold emitResult
  rw [h]
  simp only [if_neg hwitness, if_pos hpersist, hwritten]
  exact ⟨trivial, _, rfl, rfl, rfl⟩

theorem emitResult_of_unwritten (hpersist : outcome.shouldPersistState = false) :
    (emitResult env method context outcome snapshots records).records = records ∧
      ∀ result, (emitResult env method context outcome snapshots records).answer = .ok result →
        result.decision = .blocked := by
  have hblocked : outcome.decision = .blocked := by
    by_contra hne
    exact Bool.false_ne_true (hpersist.symm.trans (decide_eq_true (Or.inl hne)))
  unfold emitResult
  cases env.emitted 0 with
  | error e =>
    refine ⟨rfl, fun result h => ?_⟩
    cases h
  | ok event =>
    by_cases hwitness : event.2 = []
    · simp only [if_pos hwitness, true_and]
      intro result h
      cases hsecond : env.emitted 1 with
      | error e => rw [hsecond] at h; cases h
      | ok fallback =>
        rw [hsecond] at h
        exact Except.ok.inj h ▸ rfl
    · simp only [if_neg hwitness, hpersist, Bool.false_eq_true, if_false, true_and]
      intro result h
      exact Except.ok.inj h ▸ hblocked

theorem emitResult_of_error {e : String} (h : env.emitted 0 = .error e) :
    (emitResult env method context outcome snapshots records).records = records ∧
      (emitResult env method context outcome snapshots records).answer = .error e := by
  unfold emitResult
  rw [h]
  exact ⟨rfl, rfl⟩

@[simp] theorem emitResult_snapshots :
    (emitResult env method context outcome snapshots records).snapshots = snapshots := by
  unfold emitResult
  cases env.emitted 0 with
  | error e => rfl
  | ok event =>
    by_cases hwitness : event.2 = []
    · simp only [if_pos hwitness]
    · simp only [if_neg hwitness]
      cases outcome.shouldPersistState with
      | false => rfl
      | true => cases upsert records (nextStateRecord env context outcome event.2) (context.current.map (·.version)) <;> rfl

theorem decision_emitResult {result : PackageLifecycleTransitionResult}
    (h : (emitResult env method context outcome snapshots records).answer = .ok result)
    (hdecision : outcome.decision ≠ .blocked) :
    result.decision = .blocked ↔ FallsBack env context.current (records.get? context.request.key) := by
  cases hfirst : env.emitted 0 with
  | error e =>
    rw [(emitResult_of_error hfirst).2] at h
    cases h
  | ok event =>
    by_cases hwitness : event.2 = []
    · rw [(emitResult_of_missing hfirst hwitness).2] at h
      cases hsecond : env.emitted 1 with
      | error e =>
        rw [hsecond] at h
        cases h
      | ok fallback =>
        rw [hsecond] at h
        cases h
        exact ⟨fun _ => ⟨⟨_, hsecond⟩, event, hfirst, Or.inl hwitness⟩, fun _ => rfl⟩
    · have hpersist : outcome.shouldPersistState = true := decide_eq_true (Or.inl hdecision)
      cases hupsert : upsert records (nextStateRecord env context outcome event.2)
        (context.current.map (·.version)) with
      | none =>
        have hstale := upsert_eq_none.1 hupsert
        rw [(emitResult_of_conflict hfirst hwitness hpersist hupsert).2] at h
        cases hsecond : env.emitted 1 with
        | error e =>
          rw [hsecond] at h
          cases h
        | ok fallback =>
          rw [hsecond] at h
          cases h
          exact ⟨fun _ => ⟨⟨_, hsecond⟩, event, hfirst, Or.inr hstale⟩, fun _ => rfl⟩
      | some written =>
        obtain ⟨result', hresult, hsame, -⟩ : ∃ result,
            (emitResult env method context outcome snapshots records).answer = .ok result ∧
              result.decision = outcome.decision ∧ result.toState = outcome.toState :=
          (emitResult_of_written hfirst hwitness hpersist hupsert).2
        rw [hresult] at h
        cases h
        rw [hsame]
        refine ⟨fun hblocked => absurd hblocked hdecision, ?_⟩
        rintro ⟨-, event', hevent', hmissing | hstale⟩
        · rw [hfirst] at hevent'
          cases hevent'
          exact absurd hmissing hwitness
        · rw [upsert_eq_none.2 hstale] at hupsert
          cases hupsert

/-- A decision that was not blocked: its answer is contained unless it falls back after the update moved. -/
theorem contained_emitResult_of_passed (hsnapshots : view.snapshots = snapshots) (hrecords : view.records = records)
    (hdecision : outcome.decision ≠ .blocked) :
    Contained view (emitResult env method context outcome snapshots' records) ↔
      (FallsBack env context.current (records.get? context.request.key) →
        ∀ key staged, snapshots.get? key = some staged → snapshots'.get? key = some staged) := by
  subst hsnapshots hrecords
  constructor
  · rintro hcontained hfalls
    obtain ⟨⟨fallback, hsecond⟩, event, hfirst, hwhy⟩ := id hfalls
    by_cases hwitness : event.2 = []
    · have hanswer : (emitResult env method context outcome snapshots' view.records).answer = _ :=
        (emitResult_of_missing hfirst hwitness).2
      rw [hsecond] at hanswer
      have hkept := (hcontained _ hanswer rfl).2
      rwa [emitResult_snapshots] at hkept
    · have hanswer : (emitResult env method context outcome snapshots' view.records).answer = _ :=
        (emitResult_of_conflict hfirst hwitness (decide_eq_true (Or.inl hdecision))
          (upsert_eq_none.2 (hwhy.resolve_left hwitness))).2
      rw [hsecond] at hanswer
      have hkept := (hcontained _ hanswer rfl).2
      rwa [emitResult_snapshots] at hkept
  · intro hkept result hresult hblocked
    have hfalls := (decision_emitResult hresult hdecision).mp hblocked
    have hrecords : (emitResult env method context outcome snapshots' view.records).records = view.records := by
      obtain ⟨-, event, hfirst, hwhy⟩ := hfalls
      by_cases hwitness : event.2 = []
      · exact (emitResult_of_missing hfirst hwitness).1
      · exact (emitResult_of_conflict hfirst hwitness (decide_eq_true (Or.inl hdecision))
          (upsert_eq_none.2 (hwhy.resolve_left hwitness))).1
    rw [hrecords, emitResult_snapshots]
    exact ⟨fun key => .refl _ _, hkept hfalls⟩

variable {reason : PackageLifecycleReasonCode} {state : PackageLifecycleState} {packageVersion : Text}

variable {stored : PackageLifecycleStateRecord}

/-- Where a record has been read, the written one keeps the record stored exactly when the request and the record read
agree with it. -/
theorem recordContained_write {current : PackageLifecycleStateRecord} {witnessRef : List Char}
    (hcurrent : context.current = some current) (hversion : stored.version = current.version)
    (hkept : state = .quarantined ∨ state = .disabled) :
    RecordContained state (some stored)
        (some (nextStateRecord env context (blockedOutcome state reason packageVersion) witnessRef)) ↔
      stored.projectId = context.request.projectId ∧ stored.packageId = context.request.packageId ∧
        stored.packageVersion = packageVersion ∧ stored.originClass = context.request.originClass ∧
        stored.previousSafeVersion = current.previousSafeVersion ∧ stored.currentState ≠ .removed := by
  set written := nextStateRecord env context (blockedOutcome state reason packageVersion) witnessRef with hwritten
  have hnext : written.version = stored.version + 1 := by
    rw [hwritten, hversion]
    simp [nextStateRecord, hcurrent]
  have hprevious : written.previousSafeVersion = current.previousSafeVersion := by
    simp [hwritten, nextStateRecord, blockedOutcome, TransitionContext.previousSafeVersion, hcurrent]
  constructor
  · rintro (hsame | hkeeps)
    · rw [hsame] at hnext
      omega
    · refine ⟨hkeeps.projectId.symm, hkeeps.packageId.symm, hkeeps.packageVersion.symm, hkeeps.originClass.symm,
        hkeeps.previousSafeVersion.symm.trans hprevious, fun hremoved => ?_⟩
      have hstate := hkeeps.currentState.symm.trans (hkeeps.removed hremoved)
      rcases hkept with rfl | rfl <;> cases hstate
  · rintro ⟨hproject, hpackage, hpackageVersion, horigin, hsafe, hremoved⟩
    exact Or.inr ⟨hproject.symm, hpackage.symm, hpackageVersion.symm, horigin.symm, hprevious.trans hsafe.symm, rfl,
      hnext, fun h => absurd h hremoved⟩

theorem recordContained_create {witnessRef : List Char} (hcurrent : context.current = none) :
    RecordContained state (some stored)
        (some (nextStateRecord env context (blockedOutcome state reason packageVersion) witnessRef)) ↔
      stored = nextStateRecord env context (blockedOutcome state reason packageVersion) witnessRef := by
  set written := nextStateRecord env context (blockedOutcome state reason packageVersion) witnessRef with hwritten
  constructor
  · rintro (hsame | hkeeps)
    · exact hsame.symm
    · have hversion := hkeeps.version
      have hfirst : written.version = 1 := by simp [hwritten, nextStateRecord, hcurrent]
      have hpositive := stored.version_pos
      omega
  · intro hsame
    exact Or.inl hsame.symm

/-- A decision that was blocked: its answer is contained exactly when what it is written over is spared. -/
theorem contained_emitResult_of_blocked
    (hsnapshots : view.snapshots = snapshots) (hrecords : view.records = records) :
    Contained view
        (emitResult env method context (blockedOutcome state reason packageVersion) snapshots records) ↔
      (state = .quarantined ∨ state = .disabled → ∀ type witnessRef, env.emitted 0 = .ok (type, witnessRef) →
        witnessRef ≠ [] → ∀ stored, records.get? context.request.key = some stored →
          Spares env context reason state packageVersion witnessRef stored) := by
  subst hsnapshots hrecords
  set outcome := blockedOutcome state reason packageVersion with houtcome
  by_cases hkept : state = .quarantined ∨ state = .disabled
  swap
  · have hunwritten : outcome.shouldPersistState = false :=
      decide_eq_false fun h => hkept (h.resolve_left fun hne => hne rfl)
    exact iff_of_true (contained_of_eq (emitResult_of_unwritten hunwritten).1 emitResult_snapshots)
      fun h => absurd h hkept
  have hpersist : outcome.shouldPersistState = true := decide_eq_true (Or.inr hkept)
  cases hfirst : env.emitted 0 with
  | error e =>
    refine iff_of_true (contained_of_eq (emitResult_of_error hfirst).1 emitResult_snapshots) ?_
    intro _ type witnessRef h
    cases h
  | ok event =>
    obtain ⟨type, witnessRef⟩ := event
    by_cases hwitness : witnessRef = []
    · refine iff_of_true (contained_of_eq (emitResult_of_missing hfirst hwitness).1 emitResult_snapshots) ?_
      intro _ type' witnessRef' h hne
      cases h
      exact absurd hwitness hne
    cases hupsert : upsert view.records (nextStateRecord env context outcome witnessRef)
      (context.current.map (·.version)) with
    | none =>
      obtain ⟨current, hcurrent, hstale⟩ := upsert_eq_none.1 hupsert
      refine iff_of_true
        (contained_of_eq (emitResult_of_conflict hfirst hwitness hpersist hupsert).1 emitResult_snapshots) ?_
      intro _ type' witnessRef' _ _ stored hstored
      simp only [Spares, hcurrent]
      intro hversion
      exact absurd hversion (hstale stored hstored)
    | some written =>
      obtain ⟨hrecords, result, hresult, hblocked, hstate⟩ :
          (emitResult env method context outcome view.snapshots view.records).records = written ∧
            ∃ result, (emitResult env method context outcome view.snapshots view.records).answer = .ok result ∧
              result.decision = outcome.decision ∧ result.toState = outcome.toState :=
        emitResult_of_written hfirst hwitness hpersist hupsert
      have hread := get?_upsert hupsert
      rw [nextStateRecord_key] at hread
      have hspares : ∀ stored, view.records.get? context.request.key = some stored →
          (RecordContained outcome.toState (some stored) (some (nextStateRecord env context outcome witnessRef)) ↔
            Spares env context reason state packageVersion witnessRef stored) := by
        intro stored hstored
        cases hcurrent : context.current with
        | none =>
          simp only [Spares, hcurrent]
          exact recordContained_create hcurrent
        | some current =>
          obtain ⟨stored', hstored', hversion⟩ := exists_stored_of_upsert hupsert hcurrent
          obtain rfl : stored = stored' := Option.some.inj (hstored.symm.trans hstored')
          simp only [Spares, hcurrent, hversion, true_imp_iff]
          exact recordContained_write hcurrent hversion hkept
      constructor
      · intro hcontained _ type' witnessRef' hfirst' _ stored hstored
        cases hfirst'
        have hhere := (hcontained result hresult hblocked).1 context.request.key
        rw [hrecords, hread, if_pos rfl, hstored, hstate] at hhere
        exact (hspares stored hstored).mp hhere
      · intro hspared result' hresult' _
        rw [hresult] at hresult'
        cases hresult'
        rw [hrecords, emitResult_snapshots, hstate]
        refine ⟨fun key => ?_, fun key staged h => h⟩
        rw [hread]
        split_ifs with hkey
        · subst hkey
          cases hstored : view.records.get? context.request.key with
          | none =>
            refine ⟨rfl, ?_⟩
            cases hcurrent : context.current with
            | none => simp [nextStateRecord, hcurrent]
            | some current =>
              obtain ⟨stored, hstored', -⟩ := exists_stored_of_upsert hupsert hcurrent
              rw [nextStateRecord_key, hstored] at hstored'
              cases hstored'
          | some stored =>
            exact (hspares stored hstored).mpr (hspared hkept type witnessRef rfl hwitness stored hstored)
        · exact .refl _ _

/-! ## What the methods decide -/

variable {next : TransitionOutcome × UpdateSnapshots}

theorem whenGuardsPass_of_some (h : evaluateTransitionGuards context.request = some reason) :
    whenGuardsPass context snapshots next = (guardFailed context reason context.request.packageVersion, snapshots) := by
  unfold whenGuardsPass
  rw [h]

theorem whenGuardsPass_of_none
    (h : evaluateTransitionGuards context.request = none) : whenGuardsPass context snapshots next = next := by
  unfold whenGuardsPass
  rw [h]

theorem undoneOutcome_decision (trustChecksFailed : Bool) (reason : PackageLifecycleReasonCode) (packageVersion : Text) :
    (undoneOutcome trustChecksFailed reason packageVersion).decision ≠ .blocked := by
  unfold undoneOutcome
  split_ifs <;> simp

variable {snapshot : PackageUpdateStageSnapshot}

theorem commit_of_some (h : snapshots.get? request.key = some snapshot) :
    (commit request snapshots).1.decision ≠ .blocked ∧
      (commit request snapshots).2 = snapshots.erase request.key := by
  unfold commit
  rw [h]
  refine ⟨?_, rfl⟩
  split_ifs
  · exact undoneOutcome_decision _ _ _
  · simp [handleSimpleAllowedTransition]

theorem rollback_of_some {currentVersion : Text} (h : snapshots.get? request.key = some snapshot) :
    (rollback request currentVersion snapshots).1.decision ≠ .blocked ∧
      (rollback request currentVersion snapshots).2 = snapshots.erase request.key := by
  unfold rollback
  rw [h]
  exact ⟨undoneOutcome_decision _ _ _, rfl⟩

theorem commit_of_none (h : snapshots.get? request.key = none) :
    commit request snapshots =
      (blockedOutcome .updateStaged .invalidTransition request.packageVersion, snapshots) := by
  unfold commit
  rw [h]

theorem rollback_of_none {currentVersion : Text} (h : snapshots.get? request.key = none) :
    rollback request currentVersion snapshots =
      (blockedOutcome .updateStaged .invalidTransition currentVersion, snapshots) := by
  unfold rollback
  rw [h]

theorem resolver_of_recordsBlock (h : RecordsBlock env method request current context reason state packageVersion)
    (htarget : request.targetTransition = method)
    (hroute : isTransitionAllowed (TransitionContext.mk request current).fromState method = true) :
    context = ⟨request, current⟩ ∧
      resolver method env context snapshots = (blockedOutcome state reason packageVersion, snapshots) ∧
      (state = .quarantined ∨ state = .disabled) := by
  cases h with
  | target hne => exact absurd htarget hne
  | route _ hclosed => rw [hroute] at hclosed; cases hclosed
  | guards _ hguarded _ hreason hstate hkept =>
    refine ⟨rfl, ?_, hkept⟩
    have hpass : ∀ next, whenGuardsPass ⟨request, current⟩ snapshots next =
        (blockedOutcome state reason request.packageVersion, snapshots) := by
      intro next
      rw [whenGuardsPass_of_some hreason, guardFailed, hstate]
    simp only [List.mem_cons, List.not_mem_nil, or_false] at hguarded
    rcases hguarded with rfl | rfl | rfl | rfl | rfl <;> exact hpass _
  | remove _ hremove _ hreason hstate hkept =>
    refine ⟨rfl, ?_, hkept⟩
    subst hremove
    simp only [resolver, removePackage]
    rcases hreason with hreason | ⟨hnone, rfl, hpurge⟩
    · simp only [hreason, guardFailed, hstate]
    · simp only [hnone, hpurge, if_true, guardFailed, hstate]

variable {after : Option PackageUpdateStageSnapshot}

theorem resolver_of_movesUpdate {staged : PackageUpdateStageSnapshot}
    (h : MovesUpdate env method request current after) (hstaged : snapshots.get? request.key = some staged) :
    (resolver method env ⟨request, current⟩ snapshots).1.decision ≠ .blocked ∧
      ∀ key, (resolver method env ⟨request, current⟩ snapshots).2.get? key =
        if key = request.key then after else snapshots.get? key := by
  cases h with
  | stage hmethod hguards hcurrent hstage =>
    subst hmethod hcurrent
    have hpass : ∀ current next, whenGuardsPass ⟨request, current⟩ snapshots next = next :=
      fun _ _ => whenGuardsPass_of_none hguards
    simp only [resolver, stageUpdate, hpass, hstage]
    exact ⟨by simp [handleSimpleAllowedTransition], fun key => Record.get?_set _ _ _ _⟩
  | commit hmethod hguards =>
    subst hmethod
    have hpass : ∀ next, whenGuardsPass ⟨request, current⟩ snapshots next = next :=
      fun _ => whenGuardsPass_of_none hguards
    simp only [resolver, commitUpdate, hpass]
    obtain ⟨hdecision, herase⟩ := commit_of_some hstaged
    rw [herase]
    exact ⟨hdecision, fun key => Record.get?_erase _ _ _⟩
  | rollback hmethod =>
    subst hmethod
    simp only [resolver, rollbackUpdate]
    obtain ⟨hdecision, herase⟩ := rollback_of_some hstaged
    rw [herase]
    exact ⟨hdecision, fun key => Record.get?_erase _ _ _⟩

/-- **What a resolver does**: it blocks and leaves the staged update, it passes and leaves it, or it moves it. -/
inductive Decides (env : LifecycleEnvironment) (method : PackageLifecycleTransition) (context : TransitionContext)
    (snapshots : UpdateSnapshots) (decided : TransitionOutcome × UpdateSnapshots) : Prop
  | blocks {reason : PackageLifecycleReasonCode} {state : PackageLifecycleState} {packageVersion : Text}
    (heq : decided = (blockedOutcome state reason packageVersion, snapshots))
    (hrecords : state = .quarantined ∨ state = .disabled →
      RecordsBlock env method context.request context.current context reason state packageVersion)
  | passes (hdecision : decided.1.decision ≠ .blocked) (heq : decided.2 = snapshots)
  | moves {after : Option PackageUpdateStageSnapshot} (hdecision : decided.1.decision ≠ .blocked)
    (hmoves : MovesUpdate env method context.request context.current after)
    (hget : ∀ key, decided.2.get? key = if key = context.request.key then after else snapshots.get? key)

theorem decides_guards (htarget : context.request.targetTransition = method)
    (hroute : isTransitionAllowed context.fromState method = true)
    (hguarded : method ∈ [.install, .enable, .stageUpdate, .commitUpdate, .importPackage])
    (hnext : evaluateTransitionGuards context.request = none → Decides env method context snapshots next) :
    Decides env method context snapshots (whenGuardsPass context snapshots next) := by
  cases hguards : evaluateTransitionGuards context.request with
  | some reason =>
    rw [whenGuardsPass_of_some hguards]
    exact .blocks rfl fun hkept => .guards htarget hguarded hroute hguards rfl hkept
  | none =>
    rw [whenGuardsPass_of_none hguards]
    exact hnext hguards

theorem not_kept_of_allowed
    (h : isTransitionAllowed (some state) .stageUpdate = true) : ¬(state = .quarantined ∨ state = .disabled) := by
  rintro (rfl | rfl) <;> cases h

theorem resolveBlockedState_invalidTransition (fromState : PackageLifecycleSourceState) :
    resolveBlockedState fromState .invalidTransition = fromState.getD .quarantined := by
  unfold resolveBlockedState
  rw [if_neg (by decide +kernel), if_neg (by decide +kernel)]

theorem decides_resolver (htarget : context.request.targetTransition = method)
    (hroute : isTransitionAllowed context.fromState method = true) :
    Decides env method context snapshots (resolver method env context snapshots) := by
  cases method with
  | ingest => exact .passes (by simp [resolver, Packages.ingest, handleSimpleAllowedTransition]) rfl
  | install | enable | importPackage =>
    exact decides_guards htarget hroute (by simp) fun _ => .passes (by simp [handleSimpleAllowedTransition]) rfl
  | run => exact .passes (by simp [resolver, Packages.run, keepVersions, handleSimpleAllowedTransition]) rfl
  | exportPackage =>
    exact .passes (by simp [resolver, Packages.exportPackage, keepVersions, handleSimpleAllowedTransition]) rfl
  | disable => exact .passes (by simp [resolver, Packages.disable, keepVersions, handleSimpleAllowedTransition]) rfl
  | stageUpdate =>
    refine decides_guards htarget hroute (by simp) fun hguards => ?_
    cases hcurrent : context.current with
    | none =>
      simp only [TransitionContext.fromState, hcurrent] at hroute
      cases hroute
    | some current =>
      simp only [TransitionContext.fromState, hcurrent] at hroute
      cases hstage : stage env.stagedAt current context.request with
      | none =>
        simp only [hstage]
        refine .blocks rfl fun hkept => absurd ?_ (not_kept_of_allowed hroute)
        rw [resolveBlockedState_invalidTransition] at hkept
        simpa only [TransitionContext.fromState, hcurrent, Option.map_some, Option.getD_some] using hkept
      | some snapshot =>
        simp only [hstage]
        exact .moves (by simp [handleSimpleAllowedTransition]) (.stage rfl hguards hcurrent hstage)
          fun key => Record.get?_set _ _ _ _
  | commitUpdate =>
    refine decides_guards htarget hroute (by simp) fun hguards => ?_
    cases hsnapshot : snapshots.get? context.request.key with
    | none =>
      rw [commit_of_none hsnapshot]
      refine .blocks rfl fun hkept => ?_
      rcases hkept with hkept | hkept <;> cases hkept
    | some snapshot =>
      obtain ⟨hdecision, herase⟩ := commit_of_some hsnapshot
      refine .moves hdecision (.commit rfl hguards) fun key => ?_
      rw [herase]
      exact Record.get?_erase _ _ _
  | rollbackUpdate =>
    show Decides env _ context snapshots (rollback context.request context.currentVersion snapshots)
    cases hsnapshot : snapshots.get? context.request.key with
    | none =>
      rw [rollback_of_none hsnapshot]
      refine .blocks rfl fun hkept => ?_
      rcases hkept with hkept | hkept <;> cases hkept
    | some snapshot =>
      obtain ⟨hdecision, herase⟩ : (rollback context.request context.currentVersion snapshots).1.decision ≠ .blocked ∧
          _ := rollback_of_some hsnapshot
      refine .moves hdecision (.rollback rfl) fun key => ?_
      rw [herase]
      exact Record.get?_erase _ _ _
  | removePackage =>
    show Decides env _ context snapshots (Packages.removePackage env context snapshots)
    unfold Packages.removePackage
    cases hguard : evaluateRemoveGuards context.request with
    | some reason =>
      exact .blocks rfl fun hkept => .remove htarget rfl hroute (Or.inl hguard) rfl hkept
    | none =>
      split_ifs with hpurge
      · exact .blocks rfl fun hkept => .remove htarget rfl hroute (Or.inr ⟨hguard, rfl, hpurge⟩) rfl hkept
      · exact .passes (by simp [keepVersions, handleSimpleAllowedTransition]) rfl

/-! ## Requests -/

theorem harmless_staged_iff
    (hget : ∀ key, snapshots'.get? key = if key = request.key then after else snapshots.get? key) :
    (∀ key staged, snapshots.get? key = some staged → snapshots'.get? key = some staged) ↔
      ∀ staged, snapshots.get? request.key = some staged → after = some staged := by
  constructor
  · intro h staged hstaged
    have hkept := h request.key staged hstaged
    rwa [hget, if_pos rfl] at hkept
  · intro h key staged hstaged
    rw [hget]
    split_ifs with hkey
    · subst hkey
      exact h staged hstaged
    · exact hstaged

theorem contained_decided_iff (htarget : request.targetTransition = method)
    (hroute : isTransitionAllowed (TransitionContext.mk request (view.read.get? request.key)).fromState method = true) :
    Contained view (emitResult env method ⟨request, view.read.get? request.key⟩
        (resolver method env ⟨request, view.read.get? request.key⟩ view.snapshots).1
        (resolver method env ⟨request, view.read.get? request.key⟩ view.snapshots).2 view.records) ↔
      Harmless env method request view := by
  set context : TransitionContext := ⟨request, view.read.get? request.key⟩ with hcontext
  constructor
  · intro hcontained
    refine ⟨fun {context'} {reason} {state} {packageVersion} hrecords => ?_,
      fun _ _ {after} hmoves hfalls staged hstaged => ?_⟩
    · have hdecided : ∀ snapshots, context' = context ∧ resolver method env context' snapshots =
          (blockedOutcome state reason packageVersion, snapshots) ∧ (state = .quarantined ∨ state = .disabled) :=
        fun _ => resolver_of_recordsBlock hrecords htarget hroute
      obtain ⟨rfl, heq, hkept⟩ := hdecided view.snapshots
      rw [heq] at hcontained
      intro type witnessRef hfirst hwitness stored hstored
      exact (contained_emitResult_of_blocked rfl rfl).mp hcontained hkept type witnessRef hfirst hwitness stored hstored
    · obtain ⟨hdecision, hget⟩ := resolver_of_movesUpdate hmoves hstaged
      exact (harmless_staged_iff hget).mp
        ((contained_emitResult_of_passed rfl rfl hdecision).mp hcontained hfalls) staged hstaged
  · intro hharmless
    have hdecides : Decides env method context view.snapshots (resolver method env context view.snapshots) :=
      decides_resolver htarget hroute
    cases hdecides with
    | blocks heq hrecords =>
      rw [heq]
      refine (contained_emitResult_of_blocked rfl rfl).mpr fun hkept type witnessRef hfirst hwitness stored hstored => ?_
      exact hharmless.recorded (hrecords hkept) hfirst hwitness stored hstored
    | passes hdecision heq =>
      rw [heq]
      exact (contained_emitResult_of_passed rfl rfl hdecision).mpr fun _ key staged h => h
    | moves hdecision hmoves hget =>
      refine (contained_emitResult_of_passed rfl rfl hdecision).mpr fun hfalls => ?_
      exact (harmless_staged_iff hget).mpr (hharmless.staged htarget hroute hmoves hfalls)

/-- **Blocked decisions.** A request is contained, whatever the stores hold when it reads, decides and writes and
whatever the emitter, the vault and the clocks answer, exactly when it is harmless. -/
theorem contained_handle_iff (env : LifecycleEnvironment) (method : PackageLifecycleTransition) (input : LifecycleInput)
    (view : LifecycleView) :
    Contained view (handle env method input view) ↔
      ∀ request, input = .parsed request → Harmless env method request view := by
  cases input with
  | invalid packageId packageVersion originClass =>
    refine iff_of_true (contained_of_eq rfl rfl) ?_
    intro request h
    cases h
  | parsed request =>
    have hone : (∀ request', LifecycleInput.parsed request = .parsed request' → Harmless env method request' view) ↔
        Harmless env method request view := by
      refine ⟨fun h => h request rfl, fun h request' heq => ?_⟩
      obtain rfl := LifecycleInput.parsed.inj heq
      exact h
    rw [hone]
    unfold handle executeTransition
    by_cases htarget : request.targetTransition = method
    swap
    · dsimp only
      rw [if_pos htarget, contained_emitResult_of_blocked rfl rfl]
      constructor
      · intro h
        refine ⟨?_, fun heq => absurd heq htarget⟩
        intro context reason state packageVersion hrecords type witnessRef hfirst hwitness stored hstored
        cases hrecords with
        | target => exact h (Or.inl rfl) type witnessRef hfirst hwitness stored hstored
        | route heq => exact absurd heq htarget
        | guards heq => exact absurd heq htarget
        | remove heq => exact absurd heq htarget
      · intro h _ type witnessRef hfirst hwitness stored hstored
        exact h.recorded (.target htarget) hfirst hwitness stored hstored
    dsimp only
    rw [if_neg (not_not_intro htarget)]
    cases hroute : isTransitionAllowed (TransitionContext.mk request (view.read.get? request.key)).fromState method with
    | true => exact contained_decided_iff htarget hroute
    | false =>
      rw [Bool.not_false, if_pos rfl]
      unfold guardFailed
      rw [contained_emitResult_of_blocked rfl rfl]
      constructor
      · intro h
        refine ⟨?_, fun _ hopen => ?_⟩
        · intro context reason state packageVersion hrecords type witnessRef hfirst hwitness stored hstored
          cases hrecords with
          | target hne => exact absurd htarget hne
          | route _ _ hstate hkept =>
            subst hstate
            exact h hkept type witnessRef hfirst hwitness stored hstored
          | guards _ _ hopen => rw [hroute] at hopen; cases hopen
          | remove _ _ hopen => rw [hroute] at hopen; cases hopen
        · rw [hroute] at hopen
          cases hopen
      · intro h hkept type witnessRef hfirst hwitness stored hstored
        exact h.recorded (.route htarget hroute rfl hkept) hfirst hwitness stored hstored

/-! ## A request for another transition -/

def text (s : List Char) (h : s ≠ [] := by decide) : Text := ⟨s, h⟩

/-- A witness for every decision. -/
def plainEnvironment : LifecycleEnvironment where
  emitted := fun _ => .ok (.runtimeActionDecided, ['w'])
  now := "now"
  stagedAt := "now"

def removedRecord : PackageLifecycleStateRecord where
  projectId := text ['p']
  packageId := text ['a']
  packageVersion := text ['2']
  originClass := .thirdPartyExternal
  currentState := .removed
  previousSafeVersion := some (text ['1'])
  trustScope := .localInstance
  lastReasonCode := none
  lastWitnessRef := ['v']
  version := 7
  version_pos := by decide
  updatedAt := "before"

def removedRecords : LifecycleRecords := Record.empty.set removedRecord.key removedRecord

/-- A request to enable that names the transition `run`. -/
def mismatchedRequest : PackageLifecycleTransitionRequest where
  projectId := text ['p']
  packageId := text ['a']
  packageVersion := text ['3']
  originClass := .thirdPartyExternal
  targetTransition := .run

/-- The blocked request brings the removed package back, in quarantine and with a first version. -/
theorem mismatch_revives_removed :
    ¬∀ env method input view, Contained view (handle env method input view) := by
  intro h
  have hcontained := h plainEnvironment .enable (.parsed mismatchedRequest)
    ⟨removedRecords, Record.empty, removedRecords⟩
  obtain ⟨hrecords, -⟩ := hcontained _ rfl rfl
  have hhere := hrecords mismatchedRequest.key
  have hread : removedRecords.get? mismatchedRequest.key = some removedRecord := by decide +kernel
  have hback : ((handle plainEnvironment .enable (.parsed mismatchedRequest)
      ⟨removedRecords, Record.empty, removedRecords⟩).records.get? mismatchedRequest.key).all
        (fun record => decide (record.currentState ≠ .removed)) = true := by decide +kernel
  rw [hread] at hhere
  cases hafter : (handle plainEnvironment .enable (.parsed mismatchedRequest)
      ⟨removedRecords, Record.empty, removedRecords⟩).records.get? mismatchedRequest.key with
  | none =>
    rw [hafter] at hhere
    exact hhere
  | some after =>
    rw [hafter] at hhere hback
    have hstays : after.currentState = .removed := by
      rcases hhere with rfl | hkept
      · rfl
      · exact hkept.removed rfl
    exact of_decide_eq_true hback hstays

end NousCore.Packages
