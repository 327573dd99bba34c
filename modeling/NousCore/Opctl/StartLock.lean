import NousCore.Opctl.Applied

/-!
# The start lock

* `controlState` : what dispatch reads of a project, `ends_getProjectControlState` its call;
* `Stops` : a call that has stopped a project, `traces_stops` : it has set the lock.
-/

namespace NousCore.Opctl

open Async

variable (hashes : Hashes) (deps : OpctlServiceDeps)

/-! ## Reading the state of a project -/

def controlState (s : OpctlState) (projectId : ProjectId) : ProjectControlState :=
  if s.locked projectId then .hardStopped
  else if deps.projectControlStateStore then
    match s.stored projectId with
    | some .pausedReview => .pausedReview
    | some .resuming => .resuming
    | _ => .running
  else .running

variable {hashes deps} {p : ProjectId} {s t : OpctlState} {l l' : Log OpctlOp.Answer}
  {allowed : Allowance OpctlOp.Answer (Option String) OpctlState}

theorem ends_hasStartLock {y : Except OpctlError Bool} (h : (hasStartLock p).Ends answers allowed l s y l' t) :
    y = .ok (s.locked p) ∧ t = s := by
  have hmeets : (hasStartLock p).Meets answers .alone (fun _ y t => y = .ok (s.locked p) ∧ t = s) l s := by
    refine meets_alone_call fun x r s' hanswers => ?_
    cases hanswers
    exact ⟨rfl, rfl⟩
  exact hmeets.of_alone h

theorem meets_getProjectControlState : (getProjectControlState deps p).Meets answers .alone
    (fun _ y t => y = .ok (controlState deps s p) ∧ t = s) l s := by
  refine meets_alone_call fun x r s' hanswers => ?_
  cases hanswers
  unfold controlState
  show (if s.locked p = true then _ else _ : OpctlCall ProjectControlState).Meets _ _ _ _ _
  split_ifs
  · exact ⟨rfl, rfl⟩
  · refine meets_alone_call fun x r s' hanswers => ?_
    cases hanswers
    generalize s.stored p = stored
    cases stored with
    | none => exact ⟨rfl, rfl⟩
    | some state => cases state <;> exact ⟨rfl, rfl⟩
  · exact ⟨rfl, rfl⟩

theorem ends_getProjectControlState {y : Except OpctlError ProjectControlState}
    (h : (getProjectControlState deps p).Ends answers allowed l s y l' t) : y = .ok (controlState deps s p) ∧ t = s :=
  meets_getProjectControlState.of_alone h

/-- Nobody may start `projectId`, and dispatch reads that it is hard stopped. -/
structure Halted (deps : OpctlServiceDeps) (p : ProjectId) (s : OpctlState) : Prop where
  hasStartLock : ∀ y l t, (hasStartLock p).Ends answers (fun _ _ _ _ => True) [] s y l t → y = .ok true
  controlState : ∀ y l t, (getProjectControlState deps p).Ends answers (fun _ _ _ _ => True) [] s y l t →
    y = .ok .hardStopped

theorem halted_iff_locked : Halted deps p s ↔ s.locked p = true := by
  constructor
  · intro h
    exact Except.ok.inj (h.hasStartLock (.ok (s.locked p)) _ s (.call (x := none) rfl trivial (.pure _ _ _)))
  · intro h
    refine ⟨fun y l t hends => ?_, fun y l t hends => ?_⟩
    · rw [(ends_hasStartLock hends).1, h]
    · rw [(ends_getProjectControlState hends).1, controlState, if_pos h]

/-! ## Setting the lock -/

/-- The call has returned that it stopped `p`. -/
def Stops (p : ProjectId) : OpctlTask → Except OpctlError OpctlResult → Prop
  | .submitCommand (.parsed envelope) _ _ _, .ok (.submitted result) =>
    envelope.action = .hardStop ∧ envelope.scope.projectId = some p ∧ result.status = .applied
  | .setStartLock projectId true _, .ok .done => projectId = p
  | _, _ => False

instance (t : OpctlTask) (y : Except OpctlError OpctlResult) : Decidable (Stops p t y) := by
  cases t with
  | setStartLock projectId locked actor =>
    cases locked with
    | false => exact instDecidableFalse
    | true =>
      rcases y with _ | ⟨_⟩ | _
      · exact instDecidableFalse
      · exact instDecidableFalse
      · exact inferInstanceAs (Decidable (projectId = p))
  | submitCommand raw proof now later =>
    cases raw with
    | malformed id => exact instDecidableFalse
    | parsed envelope =>
      rcases y with _ | ⟨result⟩ | _
      · exact instDecidableFalse
      · exact inferInstanceAs (Decidable (_ ∧ _ ∧ result.status = .applied))
      · exact instDecidableFalse

theorem traces_stops (t : OpctlTask) : (taskBody hashes deps t).Traces (fun l y => Stops p t y → lockEntry p ∈ l) [] := by
  cases t with
  | setStartLock projectId locked actor =>
    cases locked with
    | false => exact (traces_isPrefix _ _).mono fun _ _ _ h => by cases h
    | true =>
      show (_ <$> setStartLock deps projectId true actor).Traces _ _
      unfold setStartLock
      rw [if_neg (by simp)]
      intro r hstops
      obtain rfl : projectId = p := hstops
      exact List.mem_singleton_self _
  | submitCommand raw proof now later =>
    refine (traces_taskBody _).mono fun l y hleaves hstops => ?_
    unfold Stops at hstops
    split at hstops
    · rename_i envelope _ _ _ result heq
      obtain ⟨rfl, rfl, rfl, rfl⟩ := OpctlTask.submitCommand.inj heq
      obtain ⟨haction, hproject, hstatus⟩ := hstops
      obtain ⟨envelope', hsub, l₀, scopeKey, rfl, hcarried⟩ := hleaves result rfl hstatus
      cases hsub
      exact List.mem_append_left _ (hcarried.locks haction p hproject)
    · rename_i heq
      cases heq
    · cases hstops

/-! ## Releasing the lock -/

def actor : OpctlTask → Option ControlActorType
  | .submitCommand (.parsed envelope) _ _ _ => some envelope.actorType
  | .submitCommand (.malformed _) _ _ _ => none
  | .setStartLock _ _ actor => some actor

/-- The project whose lock the operation releases. -/
def releasedBy : OpctlOp → Option ProjectId
  | .setStartLock projectId false => some projectId
  | _ => none

/-- A resume of a locked project is the principal's. -/
def resumedByPrincipal : OpctlTask → Allowance OpctlOp.Answer (Option String) OpctlState
  | .submitCommand (.parsed envelope) _ _ _, _, .setStartLock projectId false, _, s =>
    s.locked projectId = true → envelope.actorType = .principal
  | _, _, _, _, _ => True

instance (t : OpctlTask) (l : Log OpctlOp.Answer) (o : OpctlOp) (x : Option String) (s : OpctlState) :
    Decidable (resumedByPrincipal t l o x s) :=
  decidable_of_iff (∀ envelope ∈ submission t, ∀ projectId ∈ releasedBy o, s.locked projectId = true →
    envelope.actorType = .principal) (by unfold resumedByPrincipal submission releasedBy; grind)

/-- The principal does not release `p`. -/
def unreleased (p : ProjectId) : OpctlTask → Allowance OpctlOp.Answer (Option String) OpctlState
  | t, _, .setStartLock projectId false, _, _ => projectId = p → actor t ≠ some .principal
  | _, _, _, _, _ => True

instance (t : OpctlTask) (l : Log OpctlOp.Answer) (o : OpctlOp) (x : Option String) (s : OpctlState) :
    Decidable (unreleased p t l o x s) :=
  decidable_of_iff (∀ projectId ∈ releasedBy o, projectId = p → actor t ≠ some .principal)
    (by unfold unreleased releasedBy; grind)

/-- Which operations a task may ask for: only a command, or the principal, releases a lock. -/
def mayAsk (t : OpctlTask) : OpctlOp → Prop
  | .setStartLock _ false => (submission t).isSome ∨ actor t = some .principal
  | _ => True

theorem every_taskBody (t : OpctlTask) : (taskBody hashes deps t).Every (mayAsk t) := by
  cases t with
  | submitCommand raw proof now later =>
    cases raw with
    | parsed envelope =>
      refine every_of_forall (fun o => ?_) _
      unfold mayAsk
      split
      · exact .inl rfl
      · trivial
    | malformed id => cases id <;> trivial
  | setStartLock projectId locked actor =>
    show (_ <$> setStartLock deps projectId locked actor).Every _
    unfold setStartLock
    by_cases hguard : actor ≠ .principal ∧ locked = false
    · rw [if_pos hguard]
      trivial
    rw [if_neg hguard]
    refine every_bind (every_bind (every_perform ?_) fun _ => ?_) fun _ => trivial
    · cases locked with
      | true => trivial
      | false =>
        refine .inr (congrArg some ?_)
        by_contra hne
        exact hguard ⟨hne, rfl⟩
    · split_ifs
      · exact every_perform trivial
      · trivial

theorem locked_of_answers {o : OpctlOp} {x : Option String} {r : o.Answer} (h : answers o x s = some (r, t))
    (hlocked : s.locked p = true) (hother : ∀ projectId, o = .setStartLock projectId false → projectId ≠ p) :
    t.locked p = true := by
  cases o with
  | setStartLock projectId locked =>
    cases locked with
    | true =>
      cases h
      exact List.contains_iff_mem.mpr (List.mem_insert_of_mem (List.contains_iff_mem.mp hlocked))
    | false =>
      have hne := hother projectId rfl
      cases h
      refine List.contains_iff_mem.mpr (List.mem_filter.mpr ⟨List.contains_iff_mem.mp hlocked, ?_⟩)
      exact decide_eq_true fun he => hne he.symm
  | acquire scopeKey action commandId =>
    obtain rfl := congrArg Prod.snd (Option.some.inj h)
    dsimp only [OpctlState.acquire]
    split
    · exact hlocked
    · split_ifs <;> exact hlocked
  | release scopeKey =>
    cases h
    dsimp only [OpctlState.release]
    split <;> exact hlocked
  | awaitGrant ticket =>
    dsimp only [answers] at h
    split_ifs at h
    cases h
    exact hlocked
  | _ =>
    cases h
    exact hlocked

/-! ## Hard stopped until the principal releases -/

/-- `p` is locked, or a call that has yet to set the lock of `p` returns that it has stopped `p`. -/
def StoppedAfter (p : ProjectId) (c c' : OpctlConfig) : Prop :=
  c.state.locked p = true ∨ ∃ (i : Nat) (th : OpctlThread) (y : _), (∀ th₀ ∈ c.threads[i]?, lockEntry p ∉ th₀.log) ∧
    c'.threads[i]? = some th ∧ th.program.outcome = some y ∧ Stops p th.task y

theorem ne_of_unreleased {t : OpctlTask} {o : OpctlOp} {x : Option String} {projectId : ProjectId}
    (ho : o = .setStartLock projectId false) (hask : mayAsk t o) (hresumed : resumedByPrincipal t l o x s)
    (hunreleased : unreleased p t l o x s) (hlocked : s.locked p = true) : projectId ≠ p := by
  rintro rfl
  subst ho
  have hne := hunreleased rfl
  rcases hask with hsome | hprincipal
  · unfold submission at hsome
    split at hsome
    · exact hne (congrArg some (hresumed hlocked))
    · cases hsome
  · exact hne hprincipal

variable {c c' c₁ c₂ : OpctlConfig} {ls₁ ls₂ : List (Label OpctlTask (Option String))}

/-- The steps of a run in which the principal does not release `p`. -/
def heldSteps (p : ProjectId) : OpctlConfig → Label OpctlTask (Option String) → Prop :=
  System.Allows (fun _ => True) fun t l o x s => resumedByPrincipal t l o x s ∧ unreleased p t l o x s

variable {ℓ : Label OpctlTask (Option String)}

theorem locked_of_step (h : (service hashes deps).Stepped c ℓ c')
    (hheld : heldSteps p c ℓ) (hask : ∀ th ∈ c.threads, th.program.Every (mayAsk th.task))
    (hlocked : c.state.locked p = true) : c'.state.locked p = true := by
  cases h with
  | begin t => exact hlocked
  | turn hget _ hanswers =>
    obtain ⟨hresumed, hunreleased⟩ := hheld _ hget
    refine locked_of_answers hanswers hlocked fun projectId ho => ?_
    exact ne_of_unreleased ho (hask _ (List.mem_of_getElem? hget)).1 hresumed hunreleased hlocked

theorem locked_of_lockEntry {i : Nat} {th : OpctlThread}
    (h : (service hashes deps).Stepped c ℓ c') (hnone : ∀ th ∈ c.threads[i]?, lockEntry p ∉ th.log)
    (hget : c'.threads[i]? = some th) (hentry : lockEntry p ∈ th.log) : c'.state.locked p = true := by
  rcases h.threads hget with hold | ⟨hnew, -⟩ | ⟨x, o, next, r, log, -, hold, hanswers, hth⟩
  · exact absurd hentry (hnone th hold)
  · rw [hnew] at hentry
    cases hentry
  · rw [hth] at hentry
    rcases List.mem_append.mp hentry with hentry | hentry
    · exact absurd hentry (hnone _ hold)
    obtain ⟨rfl, -⟩ := Sigma.mk.inj (List.mem_singleton.mp hentry)
    have hstate : _ = c'.state := congrArg Prod.snd (Option.some.inj hanswers)
    rw [← hstate]
    exact List.contains_iff_mem.mpr List.mem_insert_self

theorem locked_of_run (hask : ∀ th ∈ c₁.threads, th.program.Every (mayAsk th.task))
    (hrun : Run (Guarded (service hashes deps).Step (heldSteps p)) c₁ ls₂ c₂) (hlocked : c₁.state.locked p = true) :
    c₂.state.locked p = true := by
  induction hrun with
  | nil => exact hlocked
  | snoc hr hs ih =>
    have hask' := System.every_of_run every_taskBody hask hr.forget_guard
    exact locked_of_step (System.stepped_of_step hs.1) hs.2 hask' ih

theorem locked_of_run_lockEntry {i : Nat} {th : OpctlThread}
    (hask : ∀ th ∈ c₁.threads, th.program.Every (mayAsk th.task))
    (hrun : Run (Guarded (service hashes deps).Step (heldSteps p)) c₁ ls₂ c₂)
    (hnone : ∀ th ∈ c₁.threads[i]?, lockEntry p ∉ th.log) (hget : c₂.threads[i]? = some th)
    (hentry : lockEntry p ∈ th.log) : c₂.state.locked p = true := by
  induction hrun generalizing th with
  | nil => exact absurd hentry (hnone th hget)
  | @snoc ls c c' ℓ hr hs ih =>
    have hstepped := System.stepped_of_step hs.1
    by_cases hset : ∀ th ∈ c.threads[i]?, lockEntry p ∉ th.log
    · exact locked_of_lockEntry hstepped hset hget hentry
    push Not at hset
    obtain ⟨th₀, hget₀, hentry₀⟩ := hset
    exact locked_of_step hstepped hs.2 (System.every_of_run every_taskBody hask hr.forget_guard) (ih hget₀ hentry₀)

/-- **A hard stop stands.** When a locked project is resumed only by the principal, a project that was stopped stays
hard stopped until the principal releases it, in any interleaving. -/
theorem halted_of_run
    (hrun₁ : Run (Guarded (service hashes deps).Step (System.Allows (fun _ => True) resumedByPrincipal))
      (System.start s) ls₁ c₁)
    (hrun₂ : Run (Guarded (service hashes deps).Step (heldSteps p)) c₁ ls₂ c₂) (hstopped : StoppedAfter p c₁ c₂) :
    Halted deps p c₂.state := by
  have hask := System.every_of_run every_taskBody (by simp [System.start]) hrun₁.forget_guard
  rw [halted_iff_locked]
  rcases hstopped with hlocked | ⟨i, ⟨t, program, log⟩, y, hbefore, hget, hout, hstops⟩
  · exact locked_of_run hask hrun₂ hlocked
  have htrace := System.traces_of_run (traces_stops (p := p)) (hrun₁.forget_guard.trans hrun₂.forget_guard) _
    (List.mem_of_getElem? hget)
  refine locked_of_run_lockEntry hask hrun₂ hbefore hget ?_
  cases program with
  | pure | throw =>
    cases hout
    exact htrace hstops
  | call o next => cases hout

/-! ## A hard stop, and what follows it -/

def projectCommand (commandId : String) (seq : Nat) (actorType : ControlActorType) (action : ControlAction) :
    ControlCommandEnvelope where
  controlCommandId := commandId
  actorType := actorType
  actorSessionId := "session"
  actorSeq := seq
  nonce := commandId
  expiresAt := "2030-01-01T00:00:00.000Z"
  scope := ⟨.projectRunScope, .projectRun, ["p"], some "p"⟩
  action := action

/-- The command with a confirmation proof of the tier that its action requires. -/
def confirmed (envelope : ControlCommandEnvelope) : OpctlTask :=
  .submitCommand (.parsed envelope)
    (some (issueConfirmationProof firstTarget "proof" "2026-01-01T00:00:00.000Z" "2026-01-01T00:05:00.000Z"
      ⟨envelope.scope, envelope.action, getRequiredTier envelope.action⟩))
    "2026-01-01T00:01:00.000Z" "2026-01-01T00:01:00.000Z"

/-- The principal's hard stop of `p`, then a call of another actor, each from its beginning to its end. -/
def stopThen (t : OpctlTask) (turns : Nat) : List (Label OpctlTask (Option String)) :=
  .begin (confirmed (projectCommand "c1" 1 .principal .hardStop)) :: List.replicate 12 (.turn 0 (some "w")) ++
    .begin t :: List.replicate turns (.turn 1 (some "w"))

/-- The call with which `stopThen` begins has stopped `p`. -/
def stopped (c : OpctlConfig) : Bool :=
  c.threads[0]?.any fun th => th.program.outcome.any fun y => decide (Stops "p" th.task y)

theorem stoppedAfter_of_stopped (h : stopped c = true) : StoppedAfter "p" (System.start s) c := by
  obtain ⟨th, hget, hstops⟩ := (Option.any_eq_true _ _).mp h
  obtain ⟨y, hout, hstops⟩ := (Option.any_eq_true _ _).mp hstops
  exact .inr ⟨0, th, y, by simp [System.start], hget, hout, of_decide_eq_true hstops⟩

theorem stopThenRelease_halted : ∃ c : OpctlConfig, Halted withWitness "p" c.state := by
  obtain ⟨c, hrun, hc⟩ := (service firstTarget withWitness).exists_run_of_check (fun _ => True)
    (fun t l o x s => resumedByPrincipal t l o x s ∧ unreleased "p" t l o x s)
    (stopThen (.setStartLock "p" false .systemAgent) 0) .empty stopped (by decide +kernel)
  exact ⟨c, halted_of_run .nil hrun (stoppedAfter_of_stopped hc)⟩

/-- The orchestration agent resumes what the principal has stopped. -/
theorem stopThenResume_not_halted : ¬∀ (hashes : Hashes) (deps : OpctlServiceDeps) (p : ProjectId)
    (ls₁ ls₂ : List (Label OpctlTask (Option String))) (c₁ c₂ : OpctlConfig),
    Run (service hashes deps).Step (System.start .empty) ls₁ c₁ →
    Run (Guarded (service hashes deps).Step (System.Allows (fun _ => True) (unreleased p))) c₁ ls₂ c₂ →
    StoppedAfter p c₁ c₂ → Halted deps p c₂.state := by
  intro h
  obtain ⟨c, hrun, hc⟩ := (service firstTarget withWitness).exists_run_of_check (fun _ => True) (unreleased "p")
    (stopThen (confirmed (projectCommand "c2" 2 .orchestrationAgent .resume)) 12) .empty
    (fun c => stopped c && !c.state.locked "p") (by decide +kernel)
  obtain ⟨hstopped, hunlocked⟩ := (Bool.and_eq_true _ _).mp hc
  have hlocked := halted_iff_locked.mp (h _ _ _ _ _ _ _ .nil hrun (stoppedAfter_of_stopped hstopped))
  rw [hlocked] at hunlocked
  cases hunlocked

end NousCore.Opctl
