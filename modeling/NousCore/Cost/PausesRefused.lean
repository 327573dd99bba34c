import NousCore.Cost.Enforcement
import NousCore.Lib.Interpret

/-!
# Pauses are refused

A pause needs a confirmation of tier T1, and the enforcement submits none.

* `refused_pause_runs_on` : a running project that reaches its ceiling goes on running.
-/

namespace NousCore.Cost.Enforcement

open Async Opctl
open Witness (Timestamp)

variable {hashes : Hashes} {deps : OpctlServiceDeps} {actorSessionId : String} {isUuid : String → Bool}
  {p : ProjectId} {spend ceiling : ℚ} {draws : Draws}

/-! ## One pause -/

/-- An entry of a call of the operator control, as the enforcement logs it. -/
def entry (e : Sigma OpctlOp.Answer) : Sigma EnforcementOp.Answer := ⟨.opctl e.1, e.2⟩

theorem traces_opctlCall {α : Type} {q : OpctlCall α} {post : Log OpctlOp.Answer → Except OpctlError α → Prop}
    (h : q.Traces post []) (l : Log EnforcementOp.Answer) :
    (opctlCall q).Traces (fun l' y => ∃ l₀, l' = l ++ l₀.map entry ∧ post l₀ y) l := by
  refine h.via (R := fun l₀ l' => l' = l ++ l₀.map entry) ?_ (fun l₀ l' y hl hpost => ⟨l₀, hl, hpost⟩) (by simp)
  rintro o r l₀ l' rfl
  rw [List.map_append, ← List.append_assoc]
  rfl

theorem traces_getProjectControlState : (getProjectControlState deps p).Traces (fun l y =>
    (∃ state, y = .ok state) ∧ (isHalted y = l.any fun e => spares p (entry e)) ∧
      ∀ e ∈ l, e.1 = .getState p → deps.projectControlStateStore = true) [] := by
  intro locked
  cases locked with
  | true => exact ⟨⟨_, rfl⟩, by simp [spares, entry, isHalted], by simp⟩
  | false =>
    split_ifs with hstore
    · intro stored
      rcases stored with _ | ⟨_ | _ | _ | _⟩ <;>
        exact ⟨⟨_, rfl⟩, by simp [spares, entry, isHalted], fun _ _ _ => hstore⟩
    · exact ⟨⟨_, rfl⟩, by simp [spares, entry, isHalted], by simp⟩

variable {envelope : ControlCommandEnvelope}

theorem traces_validateEnvelope {now : Timestamp} :
    (validateEnvelope (.parsed envelope) now).Traces (fun l y => (l.any fun e => spares p (entry e)) = false ∧
      ∃ v, y = .ok v ∧ ∀ envelope', v = .valid envelope' → envelope' = envelope) [] := by
  have hinvalid : ∀ (reason reasonCode : String) (envelope' : ControlCommandEnvelope),
      EnvelopeValidation.invalid reason reasonCode = .valid envelope' → envelope' = envelope :=
    fun _ _ _ h => nomatch h
  show (if envelope.expiresAt < now then _ else _ : OpctlCall EnvelopeValidation).Traces _ _
  split_ifs
  · exact ⟨rfl, _, rfl, hinvalid _ _⟩
  intro used
  cases used with
  | true => exact ⟨rfl, _, rfl, hinvalid _ _⟩
  | false =>
    intro nonceUsed
    cases nonceUsed with
    | true => exact ⟨rfl, _, rfl, hinvalid _ _⟩
    | false =>
      intro lastSeq
      show (if _ then _ else _ : OpctlCall EnvelopeValidation).Traces _ _
      split_ifs
      · exact ⟨rfl, _, rfl, hinvalid _ _⟩
      · exact ⟨rfl, _, rfl, fun envelope' h => (EnvelopeValidation.valid.inj h).symm⟩

theorem traces_submitCommand (haction : envelope.action = .pause) {now later : Timestamp} :
    (submitCommand hashes deps (rawEnvelope isUuid envelope) none now later).Traces (fun l y =>
      (l.any fun e => spares p (entry e)) = false ∧ ∃ result, y = .ok result ∧ result.status ≠ .applied) [] := by
  unfold rawEnvelope
  split_ifs
  · refine traces_bind.mpr ((traces_validateEnvelope (p := p)).mono fun l y h => ?_)
    obtain ⟨hreads, v, rfl, hvalid⟩ := h
    cases v with
    | invalid reason reasonCode => exact ⟨hreads, _, rfl, nofun⟩
    | valid envelope' =>
      obtain rfl := hvalid envelope' rfl
      have hblocked : confirmation hashes later none envelope' =
          some (blocked envelope' "Confirmation proof required" "OPCTL-003") := by
        unfold confirmation
        rw [haction, if_pos (by decide)]
      dsimp only
      rw [hblocked]
      exact ⟨hreads, _, rfl, nofun⟩
  · exact ⟨rfl, _, rfl, nofun⟩

/-- What a pause leaves: it was skipped for what it found, or it was refused and is logged as a success. -/
def Leaves (deps : OpctlServiceDeps) (p : ProjectId) (l : Log EnforcementOp.Answer)
    (y : Except OpctlError EnforcementResult) : Prop :=
  l.any (spares p) = true ∧ (∀ e ∈ l, e.1 = .opctl (.getState p) → deps.projectControlStateStore = true) ∧
      y = .ok (.triggered none) ∨
    l.any (spares p) = false ∧ ∃ result, y = .ok (.triggered (some (.ok result))) ∧ result.status ≠ .applied ∧
      ∃ record, (⟨.push record, ()⟩ : Sigma EnforcementOp.Answer) ∈ l ∧ record.success = true

theorem traces_triggerPause :
    (taskBody hashes deps actorSessionId isUuid (.triggerPause p spend ceiling draws)).Traces (Leaves deps p) [] := by
  show (_ <$> triggerPause hashes deps actorSessionId isUuid p spend ceiling draws).Traces _ _
  rw [map_eq_bind]
  unfold triggerPause
  rw [bind_assoc']
  refine traces_bind.mpr (traces_attempt.mpr ((traces_opctlCall traces_getProjectControlState []).mono ?_))
  rintro l y ⟨l₀, rfl, ⟨state, rfl⟩, hhalted, hstore⟩
  rw [List.nil_append]
  have hany : (l₀.map entry).any (spares p) = isHalted (.ok state) := by rw [List.any_map, hhalted]; rfl
  dsimp only
  cases hskip : isHalted (.ok state) with
  | true =>
    rw [if_pos rfl]
    refine .inl ⟨hany.trans hskip, fun e he hop => ?_, rfl⟩
    obtain ⟨e₀, he₀, rfl⟩ := List.mem_map.mp he
    exact hstore e₀ he₀ (EnforcementOp.opctl.inj hop)
  | false =>
    rw [if_neg Bool.false_ne_true]
    intro actorSeq
    refine traces_bind.mpr (traces_bind.mpr ?_)
    refine traces_bind.mpr (traces_attempt.mpr ?_)
    refine (traces_opctlCall (traces_submitCommand (p := p) rfl) _).mono ?_
    rintro l' y' ⟨l₁, rfl, hreads, result, rfl, hstatus⟩
    intro pushed
    refine .inr ⟨?_, result, rfl, hstatus, _, List.mem_append_right _ (List.mem_singleton_self _), rfl⟩
    have hreads' : (l₁.map entry).any (spares p) = false := by rw [List.any_map]; exact hreads
    simp only [List.any_append, hany, hskip, hreads', List.any_cons, List.any_nil, Bool.or_false, Bool.false_or]
    rfl

/-- What a task leaves; only a pause returns that it was triggered. -/
def TaskLeaves (deps : OpctlServiceDeps) :
    EnforcementTask → Log EnforcementOp.Answer → Except OpctlError EnforcementResult → Prop
  | .triggerPause p _ _ _, l, y => Leaves deps p l y
  | .opctl _, _, y => ∀ submitted, y ≠ .ok (.triggered submitted)

theorem traces_taskBody (t : EnforcementTask) :
    (taskBody hashes deps actorSessionId isUuid t).Traces (TaskLeaves deps t) [] := by
  cases t with
  | triggerPause p spend ceiling draws => exact traces_triggerPause
  | opctl task =>
    show (_ <$> opctlCall (Opctl.taskBody hashes deps task)).Traces _ _
    rw [map_eq_bind]
    refine traces_bind.mpr ((traces_isPrefix _ _).mono fun l y _ => ?_)
    cases y with
    | error e => exact nofun
    | ok result => exact nofun

/-! ## The control state of a project -/

variable {s s' : EnforcementState} {c₁ c c' : EnforcementConfig} {i : Nat}
  {ls : List (Label EnforcementTask (Option String))}

theorem frame_of_answers {o : EnforcementOp} {x : Option String} {r : o.Answer} (h : answers o x s = some (r, s'))
    (hsets : sets p o = false) :
    s'.opctl.locked p = s.opctl.locked p ∧ s'.opctl.stored p = s.opctl.stored p := by
  cases o with
  | nextSeq | push =>
    cases h
    exact ⟨rfl, rfl⟩
  | opctl op =>
    obtain ⟨⟨r', t⟩, hop, heq⟩ := Option.map_eq_some_iff.mp h
    cases heq
    cases op with
    | setStartLock id locked =>
      have hne : p ≠ id := fun he => of_decide_eq_false hsets he.symm
      cases locked <;> obtain ⟨-, rfl⟩ := Prod.mk.inj (Option.some.inj hop) <;>
        exact ⟨by simp [OpctlState.locked, hne], rfl⟩
    | setState id state =>
      have hne : p ≠ id := fun he => of_decide_eq_false hsets he.symm
      cases hop
      exact ⟨rfl, by simp [OpctlState.stored, Record.get?_set, hne]⟩
    | clearState id =>
      have hne : p ≠ id := fun he => of_decide_eq_false hsets he.symm
      cases hop
      exact ⟨rfl, by simp [OpctlState.stored, Record.get?_set, hne]⟩
    | acquire scopeKey action commandId =>
      obtain ⟨-, rfl⟩ := Prod.mk.inj (Option.some.inj hop)
      split
      · exact ⟨rfl, rfl⟩
      · split_ifs <;> exact ⟨rfl, rfl⟩
    | awaitGrant ticket =>
      change (if s.opctl.granted.contains ticket then some ((), s.opctl) else none) = some (r', t) at hop
      split_ifs at hop
      cases hop
      exact ⟨rfl, rfl⟩
    | release scopeKey =>
      cases hop
      unfold OpctlState.release
      dsimp only
      split <;> exact ⟨rfl, rfl⟩
    | _ =>
      cases hop
      exact ⟨rfl, rfl⟩

theorem found_of_spares {o : EnforcementOp} {x : Option String} {r : o.Answer} (h : answers o x s = some (r, s'))
    (hspares : spares p ⟨o, r⟩ = true) :
    s.opctl.locked p = true ∨ o = .opctl (.getState p) ∧ s.opctl.stored p = some .pausedReview := by
  cases o with
  | nextSeq | push => cases hspares
  | opctl op =>
    obtain ⟨⟨r', t⟩, hop, heq⟩ := Option.map_eq_some_iff.mp h
    cases heq
    cases op with
    | hasStartLock id =>
      obtain ⟨hid, hlocked⟩ := (Bool.and_eq_true _ _).mp hspares
      obtain rfl := of_decide_eq_true hid
      cases hop
      exact .inl hlocked
    | getState id =>
      obtain ⟨hid, hstored⟩ := (Bool.and_eq_true _ _).mp hspares
      obtain rfl := of_decide_eq_true hid
      cases hop
      exact .inr ⟨rfl, of_decide_eq_true hstored⟩
    | _ => cases hspares

/-! ## From the beginning of a pause -/

/-- Since `c₁`, where the `i`-th call was to begin, no command has set the state of its project; the project is not
locked, and where that call was told so, it is paused. -/
structure Unset (p : ProjectId) (i : Nat) (c : EnforcementConfig) : Prop where
  unlocked : c.state.opctl.locked p = false
  found : ∀ e ∈ System.logAt c i, spares p e = true →
    e.1 = .opctl (.getState p) ∧ c.state.opctl.stored p = some .pausedReview

theorem setLater_mono (h : SetLater p c₁ c) (hbegins : ∀ j, System.logAt c j <+: System.logAt c' j) :
    SetLater p c₁ c' := by
  obtain ⟨j, e, he, hsets⟩ := h
  exact ⟨j, e, System.mem_loggedSince_of_isPrefix (hbegins j) he, hsets⟩

theorem Unset.step (h : Unset p i c) (hgrown : ∀ j, System.logAt c₁ j <+: System.logAt c j)
    {l : Label EnforcementTask (Option String)}
    (hstep : (service hashes deps actorSessionId isUuid).Step c l c') : SetLater p c₁ c' ∨ Unset p i c' := by
  have hstepped := System.stepped_of_step hstep
  clear hstep
  have hlogs := hstepped.logAt
  cases hstepped with
  | begin t =>
    refine .inr ⟨h.unlocked, fun e he => ?_⟩
    obtain heq | ⟨x, o, r, hl, -⟩ := hlogs i
    · rw [heq] at he
      exact h.found e he
    · cases hl
  | @turn j x t log o next r s' hget hblocked hanswers =>
    by_cases hsets : sets p o = true
    · -- the log of the call that takes its turn has grown by the setting
      refine .inl ⟨j, ⟨o, r⟩, ?_, hsets⟩
      have hold : System.logAt c j = log := by unfold System.logAt; rw [hget]; rfl
      have hgrow := hgrown j
      rw [hold] at hgrow
      unfold System.loggedSince System.logAt
      rw [System.getElem?_self hget]
      show (⟨o, r⟩ : Sigma EnforcementOp.Answer) ∈ List.drop (System.logAt c₁ j).length (log ++ [⟨o, r⟩])
      rw [List.drop_append_of_le_length hgrow.length_le]
      exact List.mem_append_right _ (List.mem_singleton_self _)
    · obtain ⟨hlocked, hstored⟩ := frame_of_answers hanswers (Bool.not_eq_true _ ▸ hsets)
      refine .inr ⟨hlocked.trans h.unlocked, fun e he hspares => ?_⟩
      rw [hstored]
      obtain heq | ⟨x', o', r', -, hanswers', heq⟩ := hlogs i
      · rw [heq] at he
        exact h.found e he hspares
      · rw [heq] at he
        rcases List.mem_append.mp he with hold | hnew
        · exact h.found e hold hspares
        · obtain rfl := List.mem_singleton.mp hnew
          obtain hlock | hfound := found_of_spares hanswers' hspares
          · rw [h.unlocked] at hlock
            cases hlock
          · exact hfound

theorem unset_of_run (h : Unset p i c₁) (hrun : Run (service hashes deps actorSessionId isUuid).Step c₁ ls c) :
    SetLater p c₁ c ∨ Unset p i c := by
  suffices hinvariant : (∀ j, System.logAt c₁ j <+: System.logAt c j) ∧ (SetLater p c₁ c ∨ Unset p i c) from
    hinvariant.2
  refine hrun.invariant (P := fun c => (∀ j, System.logAt c₁ j <+: System.logAt c j) ∧
    (SetLater p c₁ c ∨ Unset p i c)) ?_ ⟨fun j => List.prefix_refl _, .inr h⟩
  rintro c l c' ⟨hgrown, hc⟩ hstep
  have hstepped := System.stepped_of_step hstep
  refine ⟨fun j => (hgrown j).trans (hstepped.logAt_isPrefix j), ?_⟩
  rcases hc with hlater | hunset
  · exact .inl (setLater_mono hlater hstepped.logAt_isPrefix)
  · exact hunset.step hgrown hstep

/-! ## All pauses -/

section

variable (hrun : Run (service hashes deps actorSessionId isUuid).Step (System.start s) ls c)

include hrun

theorem leaves_of_run
    {th : EnforcementThread} (hth : th ∈ c.threads) {y : Except OpctlError EnforcementResult}
    (hout : th.program.outcome = some y) : TaskLeaves deps th.task th.log y :=
  (@System.traces_of_run _ _ _ _ _ _ _ (service hashes deps actorSessionId isUuid) _ _ _ _ traces_taskBody hrun th hth).of_outcome hout

theorem Answered.not_spared
    {th : EnforcementThread} (hth : th ∈ c.threads) {result : OpctlSubmitResult} (h : Answered th result) :
    ∃ p spend ceiling draws, th.task = .triggerPause p spend ceiling draws ∧ ¬∃ e ∈ th.log, spares p e = true := by
  have hleaves := leaves_of_run hrun hth h
  cases htask : th.task with
  | opctl task =>
    rw [htask] at hleaves
    exact absurd rfl (hleaves _)
  | triggerPause p spend ceiling draws =>
    rw [htask] at hleaves
    obtain ⟨-, -, hskipped⟩ | ⟨hany, -⟩ := hleaves
    · cases hskipped
    · refine ⟨p, spend, ceiling, draws, rfl, ?_⟩
      rw [← List.any_eq_true, hany]
      exact Bool.false_ne_true

/-- **Pauses take effect** exactly when every one of them finds its project halted already. -/
theorem pausesTakeEffect_iff
    (hsettled : AllSettled c) : PausesTakeEffect hashes deps actorSessionId isUuid s c ↔ AllSpared c := by
  constructor
  · intro h th hth p spend ceiling draws htask
    obtain ⟨y, hout⟩ := Option.isSome_iff_exists.mp (hsettled th hth)
    have hleaves := leaves_of_run hrun hth hout
    rw [htask] at hleaves
    obtain ⟨hany, -⟩ | ⟨-, result, rfl, hstatus, record, hrecord, hsuccess⟩ := hleaves
    · exact List.any_eq_true.mp hany
    · -- the pause was refused, and its log has it as a success
      rw [h.recorded th hth result hout hstatus record hrecord] at hsuccess
      cases hsuccess
  · intro hspared
    have hnone : ∀ th ∈ c.threads, ∀ result, ¬Answered th result := by
      intro th hth result hanswered
      obtain ⟨p, spend, ceiling, draws, htask, hnot⟩ := hanswered.not_spared hrun hth
      exact hnot (hspared th hth p spend ceiling draws htask)
    refine ⟨?_, fun th hth result h => absurd h (hnone th hth result),
      fun th hth result h => absurd h (hnone th hth result)⟩
    intro ls₁ ls₂ c₁ p spend ceiling draws hrun₁ hrun₂ hunlocked
    have hunset : Unset p c₁.threads.length c₁ := by
      refine ⟨hunlocked, fun e he => ?_⟩
      unfold System.logAt at he
      rw [List.getElem?_eq_none (Nat.le_refl _)] at he
      cases he
    obtain hlater | hunset := unset_of_run hunset hrun₂
    · exact .inr hlater
    refine .inl ?_
    obtain ⟨c₂, hbegin, hrest⟩ := hrun₂.uncons
    obtain ⟨th, hget, htask⟩ : ∃ th, c.threads[c₁.threads.length]? = some th ∧
        th.task = .triggerPause p spend ceiling draws := by
      refine hrest.invariant (P := fun c => ∃ th, c.threads[c₁.threads.length]? = some th ∧
        th.task = .triggerPause p spend ceiling draws) ?_ ?_
      · rintro c l c' ⟨th, hget, htask⟩ hstep
        obtain ⟨th', hget', htask'⟩ := (System.stepped_of_step hstep).task hget
        exact ⟨th', hget', htask'.trans htask⟩
      · cases hbegin
        exact ⟨_, List.getElem?_concat_length, rfl⟩
    have hth := List.mem_of_getElem? hget
    obtain ⟨e, he, hspares⟩ := hspared th hth p spend ceiling draws htask
    obtain ⟨y, hout⟩ := Option.isSome_iff_exists.mp (hsettled th hth)
    have hleaves := leaves_of_run hrun hth hout
    rw [htask] at hleaves
    have hlog : System.logAt c c₁.threads.length = th.log := by unfold System.logAt; rw [hget]; rfl
    obtain ⟨hop, hstored⟩ := hunset.found e (hlog ▸ he) hspares
    obtain ⟨-, hstore, -⟩ | ⟨hany, -⟩ := hleaves
    · unfold controlState
      rw [hunset.unlocked, if_neg Bool.false_ne_true, if_pos (hstore e he hop), hstored]
    · rw [List.any_eq_true.mpr ⟨e, he, hspares⟩] at hany
      cases hany

end

/-! ## Two runs -/

def someDraws (controlCommandId nonce : String) : Draws where
  controlCommandId := controlCommandId
  nonce := nonce
  now := 0
  validated := "1970-01-01T00:00:00.000Z"
  confirmed := "1970-01-01T00:00:00.000Z"
  logged := 0

/-- The service with witness records and all stores. -/
def fullService :
    System EnforcementTask EnforcementOp.Answer (Option String) EnforcementState OpctlError EnforcementResult :=
  service firstTarget withWitness "session" fun _ => true

/-- The project `p` is paused, and `q` is locked. -/
def haltedProjects : EnforcementState where
  opctl := { OpctlState.empty with
    lockedProjects := ["q"]
    stateByProject := Record.empty.set "p" (some .pausedReview) }
  actorSeq := 0
  enforcementLog := []

/-- The check of `AllSpared` for one call. -/
def isSpared (th : EnforcementThread) : Bool :=
  match th.task with
  | .triggerPause p _ _ _ => th.log.any (spares p)
  | .opctl _ => true

theorem haltedProjects_effective : ∃ ls c, Run fullService.Step (System.start haltedProjects) ls c ∧
    c.threads.length = 2 ∧ PausesTakeEffect firstTarget withWitness "session" (fun _ => true) haltedProjects c := by
  obtain ⟨c, hrun, hc⟩ := fullService.exists_run_of_steps
    [.begin (.triggerPause "p" 12 10 (someDraws "c1" "n1")), .begin (.triggerPause "q" 7 5 (someDraws "c2" "n2")),
      .turn 0 none, .turn 1 none, .turn 0 none] haltedProjects
    (fun c => c.threads.all (fun th => th.program.outcome.isSome && isSpared th) && decide (c.threads.length = 2))
    (by decide +kernel)
  obtain ⟨hall, hlength⟩ := (Bool.and_eq_true _ _).mp hc
  have hthreads : ∀ th ∈ c.threads, th.program.outcome.isSome = true ∧ isSpared th = true := fun th hth =>
    (Bool.and_eq_true _ _).mp (List.all_eq_true.mp hall th hth)
  refine ⟨_, c, hrun, of_decide_eq_true hlength,
    (pausesTakeEffect_iff hrun fun th hth => (hthreads th hth).1).mpr fun th hth p spend ceiling draws htask => ?_⟩
  have hspared := (hthreads th hth).2
  unfold isSpared at hspared
  rw [htask] at hspared
  exact List.any_eq_true.mp hspared

/-- A project that reaches its ceiling goes on running: its pause is refused. -/
theorem refused_pause_runs_on : ¬∀ hashes deps actorSessionId isUuid s ls c,
    Run (service hashes deps actorSessionId isUuid).Step (System.start s) ls c → AllSettled c →
      PausesTakeEffect hashes deps actorSessionId isUuid s c := by
  intro h
  obtain ⟨c, hrun, hc⟩ := fullService.exists_run_of_steps
    (.begin (.triggerPause "p" 12 10 (someDraws "c1" "n1")) :: List.replicate 7 (.turn 0 none)) ⟨.empty, 0, []⟩
    (fun c => c.threads.all (fun th => th.program.outcome.isSome && th.log.all fun e => !sets "p" e.1) &&
      decide (controlState withWitness c.state.opctl "p" = .running)) (by decide +kernel)
  obtain ⟨hall, hrunning⟩ := (Bool.and_eq_true _ _).mp hc
  have hthreads : ∀ th ∈ c.threads, th.program.outcome.isSome = true ∧
      (th.log.all fun e => !sets "p" e.1) = true := fun th hth =>
    (Bool.and_eq_true _ _).mp (List.all_eq_true.mp hall th hth)
  have heffect := h _ _ _ _ _ _ c hrun fun th hth => (hthreads th hth).1
  obtain hpaused | ⟨i, e, he, hsets⟩ := heffect.paused [] _ _ "p" 12 10 (someDraws "c1" "n1") .nil hrun rfl
  · rw [of_decide_eq_true hrunning] at hpaused
    cases hpaused
  · have hmem : e ∈ System.logAt c i := List.mem_of_mem_drop he
    unfold System.logAt at hmem
    cases hget : c.threads[i]? with
    | none =>
      rw [hget] at hmem
      cases hmem
    | some th =>
      rw [hget] at hmem
      have hnot := List.all_eq_true.mp (hthreads th (List.mem_of_getElem? hget)).2 e hmem
      rw [hsets] at hnot
      cases hnot

end NousCore.Cost.Enforcement
