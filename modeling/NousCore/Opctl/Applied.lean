import NousCore.Lib.Once
import NousCore.Opctl.Service

/-!
# What an applied command leaves in its log

Whatever the stores and the witness service answer:

* `UsedUp` : the command has used up its id, its nonce and its sequence number (`Mark`, `marks`);
* `AppliedWith`, `traces_taskBody` : all of this has happened before the lock of the scope is released.
-/

namespace NousCore.Opctl

open Async

/-- What a command uses up. -/
inductive Mark where
  | commandId (id : ControlCommandId)
  | nonce (nonce : String)
  | actorSeq (sessionId : String) (seq : Nat)

def marks : OpctlOp → Option Mark
  | .markCommandIdUsed id => some (.commandId id)
  | .markNonceUsed nonce => some (.nonce nonce)
  | .setActorSeq sessionId seq => some (.actorSeq sessionId seq)
  | _ => none

variable (deps : OpctlServiceDeps)

/-- The completion record was written, or the command is an emergency hard stop. -/
def acknowledged (envelope : ControlCommandEnvelope) (l : Log OpctlOp.Answer) : Bool :=
  isEmergencyHardStop deps envelope || l.any fun
    | ⟨.appendCompletion _, answer⟩ => Option.isSome answer
    | _ => false

def lockEntry (p : ProjectId) : Sigma OpctlOp.Answer := ⟨.setStartLock p true, ()⟩

/-- A hard stop of a project has set its start lock. -/
def Locks (envelope : ControlCommandEnvelope) (l : Log OpctlOp.Answer) : Prop :=
  envelope.action = .hardStop → ∀ p ∈ envelope.scope.projectId, lockEntry p ∈ l

variable {deps} {hashes : Hashes} {envelope : ControlCommandEnvelope} {l l' : Log OpctlOp.Answer}

/-! ## One command -/

theorem acknowledged_mono (h : l <+: l') (hl : acknowledged deps envelope l = true) :
    acknowledged deps envelope l' = true := by
  obtain ⟨more, rfl⟩ := h
  unfold acknowledged at hl ⊢
  rw [List.any_append, ← Bool.or_assoc, hl, Bool.true_or]

def UsedUp (envelope : ControlCommandEnvelope) (l : Log OpctlOp.Answer) : Prop :=
  .commandId envelope.controlCommandId ∈ System.marked marks l ∧ .nonce envelope.nonce ∈ System.marked marks l ∧
    .actorSeq envelope.actorSessionId envelope.actorSeq ∈ System.marked marks l

theorem UsedUp.mono (h : l <+: l') (hl : UsedUp envelope l) : UsedUp envelope l' := by
  obtain ⟨more, rfl⟩ := h
  have hmarked : ∀ k ∈ System.marked marks l, k ∈ System.marked marks (l ++ more) := fun k hk => by
    rw [System.marked, List.filterMap_append]
    exact List.mem_append_left _ hk
  exact ⟨hmarked _ hl.1, hmarked _ hl.2.1, hmarked _ hl.2.2⟩

theorem traces_witnessCommand (deps : OpctlServiceDeps) {snapshot : ScopeSnapshot} :
    (witnessCommand envelope snapshot).Traces
      (fun l' y => l <+: l' ∧ (y = .ok true → acknowledged deps envelope l' = true)) l := by
  intro authEvent
  cases authEvent with
  | none => exact ⟨List.prefix_append _ _, fun h => by cases h⟩
  | some id =>
    intro completion
    refine ⟨(List.prefix_append _ _).trans (List.prefix_append _ _), fun h => ?_⟩
    have hsome : completion.isSome = true := Except.ok.inj h
    unfold acknowledged
    rw [List.any_append, List.any_cons]
    simp [hsome]

theorem traces_applyStateChanges :
    (applyStateChanges deps envelope).Traces (fun l' _ => l <+: l' ∧ Locks envelope l') l := by
  have hother : ∀ {l' : Log OpctlOp.Answer}, envelope.action ≠ .hardStop → Locks envelope l' :=
    fun hne haction => absurd haction hne
  unfold applyStateChanges
  cases hproject : envelope.scope.projectId with
  | none => exact ⟨List.prefix_refl _, fun _ p hp => by rw [hproject] at hp; cases hp⟩
  | some projectId =>
    have hlocks : ∀ {l' : Log OpctlOp.Answer}, lockEntry projectId ∈ l' → Locks envelope l' := by
      intro l' hmem _ p hp
      rw [hproject] at hp
      cases hp
      exact hmem
    split_ifs with hstore hstop
    · cases haction : envelope.action with
      | hardStop =>
        intro r r'
        exact ⟨(List.prefix_append _ _).trans (List.prefix_append _ _),
          hlocks (List.mem_append_left _ (List.mem_append_right _ (List.mem_singleton_self _)))⟩
      | pause =>
        intro r
        exact ⟨List.prefix_append _ _, hother (by rw [haction]; decide)⟩
      | resume =>
        intro r r'
        exact ⟨(List.prefix_append _ _).trans (List.prefix_append _ _), hother (by rw [haction]; decide)⟩
      | _ => exact ⟨List.prefix_refl _, hother (by rw [haction]; decide)⟩
    · intro r
      exact ⟨List.prefix_append _ _, hlocks (List.mem_append_right _ (List.mem_singleton_self _))⟩
    · exact ⟨List.prefix_refl _, hother hstop⟩

/-- What has happened when a command was applied. -/
structure Carried (deps : OpctlServiceDeps) (envelope : ControlCommandEnvelope) (l : Log OpctlOp.Answer) : Prop where
  usedUp : UsedUp envelope l
  acknowledged : acknowledged deps envelope l = true
  locks : Locks envelope l

theorem traces_applyCommand {snapshot : ScopeSnapshot} :
    (applyCommand deps envelope snapshot).Traces
      (fun l' y => ∀ result, y = .ok result → result.status = .applied → Carried deps envelope l') l := by
  intro r₁ r₂ r₃
  set l₃ : Log OpctlOp.Answer := l ++ [⟨.markCommandIdUsed envelope.controlCommandId, r₁⟩] ++
    [⟨.markNonceUsed envelope.nonce, r₂⟩] ++ [⟨.setActorSeq envelope.actorSessionId envelope.actorSeq, r₃⟩]
  have hused : UsedUp envelope l₃ := by
    refine ⟨?_, ?_, ?_⟩
    · exact System.mem_marked_of_mem marks (e := ⟨.markCommandIdUsed _, r₁⟩) (by simp [l₃]) rfl
    · exact System.mem_marked_of_mem marks (e := ⟨.markNonceUsed _, r₂⟩) (by simp [l₃]) rfl
    · exact System.mem_marked_of_mem marks (e := ⟨.setActorSeq _ _, r₃⟩) (by simp [l₃]) rfl
  have happlied : ∀ {l' : Log OpctlOp.Answer} {result : OpctlSubmitResult}, l₃ <+: l' →
      acknowledged deps envelope l' = true → (applyStateChanges deps envelope >>= fun _ => pure result).Traces
        (fun l' y => ∀ result, y = .ok result → result.status = .applied → Carried deps envelope l') l' := by
    intro l' result hpre hack
    refine traces_bind.mpr (traces_applyStateChanges.mono fun l'' y h => ?_)
    obtain ⟨hpre', hlocks⟩ := h
    cases y with
    | error e => exact fun _ h => by cases h
    | ok _ => exact fun _ _ _ => ⟨hused.mono (hpre.trans hpre'), acknowledged_mono hpre' hack, hlocks⟩
  split_ifs with hwitness hunavailable
  · show (witnessCommand envelope snapshot >>= _).Traces _ _
    refine traces_bind.mpr ((traces_witnessCommand deps).mono fun l' y h => ?_)
    cases y with
    | error e => exact fun _ h => by cases h
    | ok written =>
      cases written with
      | true => exact happlied h.1 (h.2 rfl)
      | false => exact fun result h => by obtain rfl := Except.ok.inj h; exact fun h => by cases h
  · exact fun result h => by obtain rfl := Except.ok.inj h; exact fun h => by cases h
  · refine happlied (List.prefix_refl _) ?_
    unfold acknowledged
    have hemergency : isEmergencyHardStop deps envelope = true := by
      revert hwitness hunavailable
      cases isEmergencyHardStop deps envelope <;> cases deps.witnessService <;> simp
    rw [hemergency, Bool.true_or]

def submission : OpctlTask → Option ControlCommandEnvelope
  | .submitCommand (.parsed envelope) _ _ _ => some envelope
  | _ => none

/-- The command was applied, and the last operation was the release of the lock of its scope. -/
def AppliedWith (deps : OpctlServiceDeps) (envelope : ControlCommandEnvelope) (l : Log OpctlOp.Answer) : Prop :=
  ∃ l₀ scopeKey, l = l₀ ++ [⟨.release scopeKey, ()⟩] ∧ Carried deps envelope l₀

theorem traces_submitValidated :
    (submitValidated hashes deps envelope).Traces
      (fun l' y => ∀ result, y = .ok result → result.status = .applied → AppliedWith deps envelope l') l := by
  refine traces_bind.mpr ((traces_isPrefix _ _).mono fun l₁ y _ => ?_)
  cases y with
  | error e => exact fun _ h => by cases h
  | ok conflict =>
    cases conflict with
    | some holderAction => exact fun result h => by obtain rfl := Except.ok.inj h; exact fun h => by cases h
    | none =>
      refine traces_bind.mpr (traces_applyCommand.mono fun l₂ y h => ?_)
      cases y with
      | error e => exact fun _ h => by cases h
      | ok result =>
        intro r result' hresult happlied
        cases hresult
        exact ⟨l₂, _, rfl, h result rfl happlied⟩

variable {now : Witness.Timestamp}

theorem traces_validateEnvelope {raw : RawEnvelope} :
    (validateEnvelope raw now).Traces (fun _ y => ∀ envelope, y = .ok (.valid envelope) → raw = .parsed envelope) l := by
  have hinvalid : ∀ (l : Log OpctlOp.Answer) (reason reasonCode : String),
      (pure (.invalid reason reasonCode) : OpctlCall EnvelopeValidation).Traces
        (fun _ y => ∀ envelope, y = .ok (.valid envelope) → raw = .parsed envelope) l :=
    fun l reason reasonCode envelope h => by cases Except.ok.inj h
  cases raw with
  | malformed id => exact hinvalid _ _ _
  | parsed envelope =>
    unfold validateEnvelope
    dsimp only
    split_ifs
    · exact hinvalid _ _ _
    intro used
    cases used with
    | true => exact hinvalid _ _ _
    | false =>
      intro nonceUsed
      cases nonceUsed with
      | true => exact hinvalid _ _ _
      | false =>
        intro lastSeq
        show (if _ then _ else _ : OpctlCall EnvelopeValidation).Traces _ _
        split_ifs
        · exact hinvalid _ _ _
        · intro envelope' h
          obtain rfl := EnvelopeValidation.valid.inj (Except.ok.inj h)
          rfl

variable {proof : Option ConfirmationProof}

theorem status_of_confirmation {result : OpctlSubmitResult}
    (h : confirmation hashes now proof envelope = some result) : result.status = .blocked := by
  unfold confirmation at h
  split_ifs at h
  split at h
  · cases h
    rfl
  · split_ifs at h
    cases h
    rfl

/-- What a task leaves that returns that its command was applied. -/
def Leaves (deps : OpctlServiceDeps) (t : OpctlTask) (l : Log OpctlOp.Answer) (y : Except OpctlError OpctlResult) :
    Prop :=
  ∀ result, y = .ok (.submitted result) → result.status = .applied →
    ∃ envelope, submission t = some envelope ∧ AppliedWith deps envelope l

theorem traces_submitCommand {raw : RawEnvelope} {later : Witness.Timestamp} :
    (taskBody hashes deps (.submitCommand raw proof now later)).Traces
      (Leaves deps (.submitCommand raw proof now later)) l := by
  show (_ <$> submitCommand hashes deps raw proof now later).Traces _ _
  rw [map_eq_bind]
  unfold submitCommand
  rw [bind_assoc']
  refine traces_bind.mpr (traces_validateEnvelope.mono fun l₁ y h => ?_)
  cases y with
  | error e => exact fun _ h => by cases h
  | ok validation =>
    cases validation with
    | invalid reason reasonCode =>
      cases hraw : raw.controlCommandId with
      | none => exact fun _ h => by cases h
      | some id =>
        intro result h happlied
        obtain rfl := OpctlResult.submitted.inj (Except.ok.inj h)
        cases happlied
    | valid envelope =>
      obtain rfl := h envelope rfl
      dsimp only
      cases hconfirmation : confirmation hashes later proof envelope with
      | some result =>
        intro result' hresult happlied
        obtain rfl := OpctlResult.submitted.inj (Except.ok.inj hresult)
        rw [status_of_confirmation hconfirmation] at happlied
        cases happlied
      | none =>
        refine traces_bind.mpr (traces_submitValidated.mono fun l₂ y h => ?_)
        cases y with
        | error e => exact fun _ h => by cases h
        | ok result =>
          intro result' hresult happlied
          obtain rfl := OpctlResult.submitted.inj (Except.ok.inj hresult)
          exact ⟨envelope, rfl, h _ rfl happlied⟩

/-- **What an applied command leaves.** Whatever the stores and the witness service answer. -/
theorem traces_taskBody (t : OpctlTask) : (taskBody hashes deps t).Traces (Leaves deps t) l := by
  cases t with
  | submitCommand raw proof now later => exact traces_submitCommand
  | setStartLock projectId locked actor =>
    show (_ <$> setStartLock deps projectId locked actor).Traces _ _
    rw [map_eq_bind]
    refine traces_bind.mpr ((traces_isPrefix _ _).mono fun l' y _ => ?_)
    cases y with
    | error e => exact fun _ h => by cases h
    | ok _ => exact fun _ h => by cases h

end NousCore.Opctl
