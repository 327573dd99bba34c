import NousCore.Opctl.StartLock

/-!
# What an applied command promises

A call of `submitCommand` that runs alone, from any state of the stores:

* `Validated`, `IssuedFor`, `Authorised` : the command was unexpired, unreplayed and confirmed;
* `Reflects` : the control state of its project is the one that the command asks for.
-/

namespace NousCore.Opctl

open Async
open Witness (Timestamp)

/-- The envelope is unexpired and unreplayed. -/
structure Validated (now : Timestamp) (envelope : ControlCommandEnvelope) (s : OpctlState) : Prop where
  unexpired : ¬envelope.expiresAt < now
  commandId : envelope.controlCommandId ∉ s.usedCommandIds
  nonce : envelope.nonce ∉ s.usedNonces
  actorSeq : ∀ last ∈ s.actorSeqs.get? envelope.actorSessionId, last < envelope.actorSeq

/-- The proof names the action and the scope of the command; whatever request it was issued for named the same. -/
structure IssuedFor (hashes : Hashes) (proof : ConfirmationProof) (envelope : ControlCommandEnvelope) : Prop where
  action : proof.action = envelope.action
  scopeHash : proof.scopeHash = hashScope hashes envelope.scope
  request : hashes.CollisionFree → ∀ proofId issuedAt expiresAt params,
    proof = issueConfirmationProof hashes proofId issuedAt expiresAt params →
      params.action = envelope.action ∧ params.scope = envelope.scope

structure Authorised (hashes : Hashes) (now later : Timestamp) (confirmationProof : Option ConfirmationProof)
    (envelope : ControlCommandEnvelope) (s : OpctlState) : Prop where
  validated : Validated now envelope s
  confirmed : getRequiredTier envelope.action ≠ .T0 → ∃ proof, confirmationProof = some proof ∧
    IssuedFor hashes proof envelope ∧ ¬proof.expiresAt < later ∧
    (getRequiredTier envelope.action).rank ≤ proof.tier.rank

variable (deps : OpctlServiceDeps)

def StateOf (action : ControlAction) (p : ProjectId) (t : OpctlState) : Prop :=
  match action with
  | .hardStop => controlState deps t p = .hardStopped
  | .pause => t.locked p = true ∨ controlState deps t p = .pausedReview
  | .resume => controlState deps t p = .resuming ∧ t.locked p = false
  | _ => True

def Reflects (envelope : ControlCommandEnvelope) (t : OpctlState) : Prop :=
  ∀ p, envelope.scope.projectId = some p → StateOf deps envelope.action p t

/-- The proof has the tier that the action requires; what the command sets of its project has a store. -/
structure Binding (confirmationProof : Option ConfirmationProof) (envelope : ControlCommandEnvelope) (s : OpctlState) :
    Prop where
  tier : getRequiredTier envelope.action ≠ .T0 →
    ∀ proof, confirmationProof = some proof → (getRequiredTier envelope.action).rank ≤ proof.tier.rank
  resume : envelope.action = .resume → envelope.scope.projectId.isSome → deps.projectControlStateStore = true
  pause : envelope.action = .pause → ∀ p, envelope.scope.projectId = some p →
    deps.projectControlStateStore = true ∨ s.locked p = true

variable {deps} {hashes : Hashes} {envelope : ControlCommandEnvelope} {s t u : OpctlState} {l : Log OpctlOp.Answer}
  {p : ProjectId}

/-! ## Validation and confirmation -/

theorem meets_validateEnvelope {raw : RawEnvelope} {now : Timestamp} :
    (validateEnvelope raw now).Meets answers .alone
      (fun _ y t => t = s ∧ ∀ envelope, y = .ok (.valid envelope) → raw = .parsed envelope ∧ Validated now envelope s)
      l s := by
  have hinvalid : ∀ (l : Log OpctlOp.Answer) (reason reasonCode : String),
      (pure (.invalid reason reasonCode) : OpctlCall EnvelopeValidation).Meets answers .alone
        (fun _ y t => t = s ∧ ∀ envelope, y = .ok (.valid envelope) → raw = .parsed envelope ∧ Validated now envelope s)
        l s :=
    fun l reason reasonCode => ⟨rfl, fun envelope h => by cases Except.ok.inj h⟩
  cases raw with
  | malformed id => exact hinvalid _ _ _
  | parsed envelope =>
    unfold validateEnvelope
    dsimp only
    split_ifs with hexpired
    · exact hinvalid _ _ _
    refine meets_alone_call fun x used s₁ h₁ => ?_
    cases h₁
    show (if s.usedCommandIds.contains envelope.controlCommandId = true then _ else _ :
      OpctlCall EnvelopeValidation).Meets _ _ _ _ _
    split_ifs with hid
    · exact hinvalid _ _ _
    refine meets_alone_call fun x used s₂ h₂ => ?_
    cases h₂
    show (if s.usedNonces.contains envelope.nonce = true then _ else _ : OpctlCall EnvelopeValidation).Meets _ _ _ _ _
    split_ifs with hnonce
    · exact hinvalid _ _ _
    refine meets_alone_call fun x used s₃ h₃ => ?_
    cases h₃
    show (if (s.actorSeqs.get? envelope.actorSessionId).any _ = true then _ else _ :
      OpctlCall EnvelopeValidation).Meets _ _ _ _ _
    split_ifs with hseq
    · exact hinvalid _ _ _
    refine ⟨rfl, fun envelope' h => ?_⟩
    obtain rfl := EnvelopeValidation.valid.inj (Except.ok.inj h)
    refine ⟨rfl, hexpired, ?_, ?_, fun last hlast => ?_⟩
    · rwa [List.contains_iff_mem] at hid
    · rwa [List.contains_iff_mem] at hnonce
    · rw [Option.mem_def.mp hlast, Option.any_some, decide_eq_true_eq] at hseq
      omega

variable {confirmationProof : Option ConfirmationProof}

theorem confirmed_of_confirmation {later : Timestamp}
    (h : confirmation hashes later confirmationProof envelope = none) (htier : getRequiredTier envelope.action ≠ .T0) :
    ∃ proof, confirmationProof = some proof ∧ IssuedFor hashes proof envelope ∧ ¬proof.expiresAt < later := by
  unfold confirmation at h
  rw [if_pos htier] at h
  split at h
  · cases h
  · rename_i proof
    split_ifs at h with hvalid
    obtain ⟨hexpires, haction, hscope⟩ := (validateConfirmationProof_iff hashes).mp hvalid
    refine ⟨proof, rfl, ⟨haction, hscope, ?_⟩, hexpires⟩
    rintro hfree proofId issuedAt expiresAt params rfl
    exact issued_of_validateConfirmationProof hashes hfree hvalid

/-! ## What a command changes -/

def SameControls (s t : OpctlState) : Prop := t.lockedProjects = s.lockedProjects ∧ t.stateByProject = s.stateByProject

/-- The operations that leave the start locks and the control states as they are. -/
def leavesControls : OpctlOp → Prop
  | .setStartLock _ _ | .setState _ _ | .clearState _ => False
  | _ => True

theorem sameControls_of_answers (o : OpctlOp) (x : Option String) (s : OpctlState) (r : o.Answer) (t : OpctlState)
    (ho : leavesControls o) (h : answers o x s = some (r, t)) : SameControls s t := by
  cases o with
  | setStartLock | setState | clearState => cases ho
  | acquire scopeKey action commandId =>
    obtain rfl := congrArg Prod.snd (Option.some.inj h)
    dsimp only [OpctlState.acquire]
    split
    · exact ⟨rfl, rfl⟩
    · split_ifs <;> exact ⟨rfl, rfl⟩
  | release scopeKey =>
    cases h
    dsimp only [OpctlState.release]
    split <;> exact ⟨rfl, rfl⟩
  | awaitGrant ticket =>
    dsimp only [answers] at h
    split_ifs at h
    cases h
    exact ⟨rfl, rfl⟩
  | _ =>
    cases h
    exact ⟨rfl, rfl⟩

theorem meets_sameControls {α : Type} {q : OpctlCall α} (hq : q.Every leavesControls) :
    q.Meets answers .alone (fun _ _ t => SameControls s t) l s :=
  meets_alone_of_every (fun _ => ⟨rfl, rfl⟩) (fun _ _ _ h h' => ⟨h'.1.trans h.1, h'.2.trans h.2⟩)
    sameControls_of_answers hq l s

structure Changed (deps : OpctlServiceDeps) (action : ControlAction) (p : ProjectId) (s t : OpctlState) : Prop where
  hardStop : action = .hardStop → t.locked p = true
  pause : action = .pause → t.locked p = s.locked p ∧
    (deps.projectControlStateStore = true → t.stored p = some .pausedReview)
  resume : action = .resume → deps.projectControlStateStore = true → t.locked p = false ∧ t.stored p = some .resuming

theorem SameControls.locked (h : SameControls s t) (p : ProjectId) : t.locked p = s.locked p := by
  unfold OpctlState.locked
  rw [h.1]

theorem SameControls.stored (h : SameControls s t) (p : ProjectId) : t.stored p = s.stored p := by
  unfold OpctlState.stored
  rw [h.2]

variable {action : ControlAction}

theorem Changed.of_sameControls {s' t' : OpctlState} (h : Changed deps action p s t)
    (hs : SameControls s' s) (ht : SameControls t t') : Changed deps action p s' t' where
  hardStop := fun ha => by rw [ht.locked, h.hardStop ha]
  pause := fun ha => by
    rw [ht.locked, ht.stored, ← hs.locked p]
    exact h.pause ha
  resume := fun ha hstore => by
    rw [ht.locked, ht.stored]
    exact h.resume ha hstore

theorem Changed.stateOf_iff (h : Changed deps action p s t) :
    StateOf deps action p t ↔ (action = .resume → deps.projectControlStateStore = true) ∧
      (action = .pause → deps.projectControlStateStore = true ∨ s.locked p = true) := by
  have hread := controlState.eq_def deps t p
  cases action with
  | hardStop =>
    rw [if_pos (h.hardStop rfl)] at hread
    exact iff_of_true hread ⟨nofun, nofun⟩
  | pause =>
    obtain ⟨hlocked, hstored⟩ := h.pause rfl
    rw [hlocked] at hread
    show t.locked p = true ∨ controlState deps t p = .pausedReview ↔ _
    rw [hlocked, hread]
    by_cases hs : s.locked p = true
    · exact iff_of_true (.inl hs) ⟨nofun, fun _ => .inr hs⟩
    · rw [if_neg hs]
      by_cases hstore : deps.projectControlStateStore = true
      · rw [if_pos hstore, hstored hstore]
        exact iff_of_true (.inr rfl) ⟨nofun, fun _ => .inl hstore⟩
      · rw [if_neg hstore]
        refine iff_of_false ?_ fun hcond => ?_
        · rintro (hs' | hrunning)
          · exact hs hs'
          · cases hrunning
        · exact (hcond.2 rfl).elim hstore hs
  | resume =>
    by_cases hstore : deps.projectControlStateStore = true
    · obtain ⟨hlocked, hstored⟩ := h.resume rfl hstore
      rw [hlocked, if_neg (by simp), if_pos hstore, hstored] at hread
      exact iff_of_true ⟨hread, hlocked⟩ ⟨fun _ => hstore, nofun⟩
    · rw [if_neg hstore] at hread
      refine iff_of_false ?_ fun hcond => hstore (hcond.1 rfl)
      rintro ⟨hresuming, -⟩
      rw [hread] at hresuming
      split_ifs at hresuming
  | _ => exact iff_of_true trivial ⟨nofun, nofun⟩

theorem meets_applyStateChanges : (applyStateChanges deps envelope).Meets answers .alone
    (fun _ _ t => ∀ p, envelope.scope.projectId = some p → Changed deps envelope.action p s t) l s := by
  have hset : ∀ (s : OpctlState) (state : ProjectControlState) (p : ProjectId),
      ({ s with stateByProject := s.stateByProject.set p (some state) } : OpctlState).stored p = some state := by
    intro s state p
    unfold OpctlState.stored
    rw [Record.get?_set, if_pos rfl]
    rfl
  have hlock : ∀ (s : OpctlState) (p : ProjectId),
      ({ s with lockedProjects := s.lockedProjects.insert p } : OpctlState).locked p = true :=
    fun s p => List.contains_iff_mem.mpr List.mem_insert_self
  have hunlock : ∀ (s : OpctlState) (p : ProjectId),
      ({ s with lockedProjects := s.lockedProjects.filter (· ≠ p) } : OpctlState).locked p = false :=
    fun s p => by simp [OpctlState.locked]
  unfold applyStateChanges
  cases hproject : envelope.scope.projectId with
  | none => exact fun p hp => by cases hp
  | some projectId =>
    split_ifs with hstore hstop
    · cases haction : envelope.action with
      | pause =>
        refine meets_alone_call fun x r s₁ h₁ => ?_
        cases h₁
        intro p hp
        cases hp
        exact ⟨nofun, fun _ => ⟨rfl, fun _ => hset _ _ _⟩, nofun⟩
      | resume =>
        refine meets_alone_call fun x r s₁ h₁ => meets_alone_call fun x' r' s₂ h₂ => ?_
        cases h₁
        cases h₂
        intro p hp
        cases hp
        exact ⟨nofun, nofun, fun _ _ => ⟨hunlock _ _, hset _ _ _⟩⟩
      | hardStop =>
        refine meets_alone_call fun x r s₁ h₁ => meets_alone_call fun x' r' s₂ h₂ => ?_
        cases h₁
        cases h₂
        intro p hp
        cases hp
        exact ⟨fun _ => hlock _ _, nofun, nofun⟩
      | _ => exact fun p _ => ⟨nofun, nofun, nofun⟩
    · refine meets_alone_call fun x r s₁ h₁ => ?_
      cases h₁
      intro p hp
      cases hp
      rw [hstop]
      exact ⟨fun _ => hlock _ _, nofun, nofun⟩
    · exact fun p _ => ⟨fun ha => absurd ha hstop, fun _ => ⟨rfl, fun h => absurd h hstore⟩,
        fun _ h => absurd h hstore⟩

/-! ## The call -/

theorem SameControls.trans (h : SameControls s t) (h' : SameControls t u) : SameControls s u :=
  ⟨h'.1.trans h.1, h'.2.trans h.2⟩

theorem every_witnessCommand {snapshot : ScopeSnapshot} : (witnessCommand envelope snapshot).Every leavesControls := by
  refine every_bind (every_perform trivial) fun authEvent => ?_
  cases authEvent with
  | none => trivial
  | some id => exact every_bind (every_perform trivial) fun _ => trivial

theorem every_acquire {scopeKey : String} {commandId : ControlCommandId} :
    (acquire scopeKey action commandId).Every leavesControls := by
  refine every_bind (every_perform trivial) fun result => ?_
  cases result with
  | acquired | conflict => trivial
  | waiting ticket => exact every_bind (every_perform trivial) fun _ => trivial

def ChangedWhenApplied (deps : OpctlServiceDeps) (envelope : ControlCommandEnvelope) (s : OpctlState)
    (y : Except OpctlError OpctlSubmitResult) (t : OpctlState) : Prop :=
  ∀ result, y = .ok result → result.status = .applied →
    ∀ p, envelope.scope.projectId = some p → Changed deps envelope.action p s t

theorem changedWhenApplied_blocked {reason reasonCode : String} :
    ChangedWhenApplied deps envelope s (.ok (blocked envelope reason reasonCode)) t := by
  intro result h happlied
  cases h
  cases happlied

theorem meets_applyCommand {snapshot : ScopeSnapshot} : (applyCommand deps envelope snapshot).Meets answers .alone
    (fun _ y t => ChangedWhenApplied deps envelope s y t) l s := by
  refine meets_alone_call fun x₁ r₁ s₁ h₁ => meets_alone_call fun x₂ r₂ s₂ h₂ =>
    meets_alone_call fun x₃ r₃ s₃ h₃ => ?_
  have hmarked : SameControls s s₃ := (sameControls_of_answers (.markCommandIdUsed _) x₁ s r₁ s₁ trivial h₁).trans
    ((sameControls_of_answers (.markNonceUsed _) x₂ s₁ r₂ s₂ trivial h₂).trans
      (sameControls_of_answers (.setActorSeq _ _) x₃ s₂ r₃ s₃ trivial h₃))
  have happlied : ∀ {l' : Log OpctlOp.Answer} {s' : OpctlState} {result : OpctlSubmitResult}, SameControls s s' →
      (applyStateChanges deps envelope >>= fun _ => pure result).Meets answers .alone
        (fun _ y t => ChangedWhenApplied deps envelope s y t) l' s' := by
    intro l' s' result hsame
    refine meets_bind.mpr ((meets_applyStateChanges).mono fun _ y t h => ?_)
    cases y with
    | error e => exact fun _ h => by cases h
    | ok _ => exact fun _ _ _ p hp => (h p hp).of_sameControls hsame ⟨rfl, rfl⟩
  split_ifs with hwitness hunavailable
  · show (witnessCommand envelope snapshot >>= _).Meets _ _ _ _ _
    refine meets_bind.mpr ((meets_sameControls every_witnessCommand).mono fun _ y s₄ h => ?_)
    cases y with
    | error e => exact fun _ h => by cases h
    | ok written =>
      cases written with
      | true => exact happlied (hmarked.trans h)
      | false => exact changedWhenApplied_blocked
  · exact changedWhenApplied_blocked
  · exact happlied hmarked

theorem meets_submitValidated : (submitValidated hashes deps envelope).Meets answers .alone
    (fun _ y t => ChangedWhenApplied deps envelope s y t) l s := by
  refine meets_bind.mpr ((meets_sameControls every_acquire).mono fun _ y s₁ h₁ => ?_)
  cases y with
  | error e => exact fun _ h => by cases h
  | ok conflict =>
    cases conflict with
    | some holderAction => exact changedWhenApplied_blocked
    | none =>
      refine meets_bind.mpr ((meets_applyCommand).mono fun _ y s₂ h₂ => ?_)
      cases y with
      | error e => exact fun _ h => by cases h
      | ok result =>
        refine meets_alone_call fun x r t h => ?_
        intro result' hresult happlied p hp
        cases hresult
        exact (h₂ result rfl happlied p hp).of_sameControls h₁
          (sameControls_of_answers (.release _) x s₂ r t trivial h)

/-- What has happened when a command was applied: it was valid and confirmed, and its project was changed. -/
theorem meets_submitCommand {raw : RawEnvelope}
    {now later : Timestamp} : (submitCommand hashes deps raw confirmationProof now later).Meets answers .alone
      (fun _ y t => ∀ result, y = .ok result → result.status = .applied → ∃ envelope, raw = .parsed envelope ∧
        Validated now envelope s ∧ confirmation hashes later confirmationProof envelope = none ∧
        ∀ p, envelope.scope.projectId = some p → Changed deps envelope.action p s t) l s := by
  refine meets_bind.mpr ((meets_validateEnvelope).mono fun _ y s₁ h => ?_)
  obtain ⟨rfl, hvalid⟩ := h
  cases y with
  | error e => exact fun _ h => by cases h
  | ok validation =>
    cases validation with
    | invalid reason reasonCode =>
      cases hraw : raw.controlCommandId with
      | none => exact fun _ h => by cases h
      | some id =>
        intro result h happlied
        cases h
        cases happlied
    | valid envelope =>
      obtain ⟨rfl, hvalidated⟩ := hvalid envelope rfl
      dsimp only
      cases hconfirmation : confirmation hashes later confirmationProof envelope with
      | some result =>
        intro result' hresult happlied
        cases hresult
        rw [status_of_confirmation hconfirmation] at happlied
        cases happlied
      | none =>
        exact (meets_submitValidated).mono fun _ y t h result hresult happlied =>
          ⟨envelope, rfl, hvalidated, hconfirmation, h result hresult happlied⟩

def stopProject : ControlCommandEnvelope := projectCommand "c1" 1 .principal .hardStop

/-- The proof that is issued for the hard stop when `tier` is asked for. -/
def proofOfTier (tier : ConfirmationTier) : ConfirmationProof :=
  issueConfirmationProof firstTarget "proof" "2026-01-01T00:00:00.000Z" "2026-01-01T00:05:00.000Z"
    ⟨stopProject.scope, .hardStop, tier⟩

def stopWith (tier : ConfirmationTier) : OpctlCall OpctlSubmitResult :=
  submitCommand firstTarget withWitness (.parsed stopProject) (some (proofOfTier tier)) "2026-01-01T00:01:00.000Z"
    "2026-01-01T00:01:00.000Z"

theorem exists_stopWith (tier : ConfirmationTier) : ∃ result l t,
    (stopWith tier).Ends answers (fun _ _ _ _ => True) [] .empty (.ok result) l t ∧ result.status = .applied := by
  obtain ⟨result, l, t, hends, happlied⟩ := (stopWith tier).exists_ends_of_check answers (fun _ _ _ _ => True)
    (List.replicate 12 (some "w")) .empty (fun result _ => decide (result.status = .applied)) (by
      cases tier <;> decide +kernel)
  exact ⟨result, l, t, hends, of_decide_eq_true happlied⟩

end NousCore.Opctl
