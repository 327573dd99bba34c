import NousCore.Workflow.Initial
import NousCore.Workflow.Graph

/-!
# Lists and statuses

* `NodeCore.Sound` : a node has an active attempt exactly while it waits or is blocked;
* `Slot.Agrees stale` : the lists that hold a node agree with its status. Where `stale` holds, a ready node may still
  be listed as waiting or blocked;
* `Consistent` : the agreement of every node, as the invariant of a run without cancellation (`Initial.consistent`,
  `Consistent.step`).
-/

namespace NousCore.Workflow

/-! ## One node -/

structure NodeCore.Sound (core : NodeCore) : Prop where
  notRunning : core.status ≠ .running
  active : core.activeAttempt ≠ none ↔ core.status = .waiting ∨ core.status = .blocked
  attempt : ∀ number, core.activeAttempt = some number → ∃ attempt ∈ core.attempts, attempt.attempt = number

namespace NodeCore.Sound

variable {core : NodeCore}

theorem idle (hactive : core.activeAttempt = none) (hrunning : core.status ≠ .running) (hwaiting : core.status ≠ .waiting)
    (hblocked : core.status ≠ .blocked) : core.Sound :=
  ⟨hrunning, by simp [hactive, hwaiting, hblocked], by simp [hactive]⟩

theorem activeAttempt_eq_none (h : core.Sound) (hwaiting : core.status ≠ .waiting) (hblocked : core.status ≠ .blocked) :
    core.activeAttempt = none := by
  by_contra hne
  exact (h.active.mp hne).elim hwaiting hblocked

end NodeCore.Sound

structure Slot.Agrees (stale : Prop) (sl : Slot) : Prop where
  ready : sl.ready ↔ sl.status = some .ready
  completed : sl.completed ↔ sl.status = some .completed
  waiting : sl.status = some .waiting → sl.waiting
  blocked : sl.status = some .blocked → sl.blocked
  waitingOnly : sl.waiting → sl.status = some .waiting ∨ stale ∧ sl.status = some .ready
  blockedOnly : sl.blocked → sl.status = some .blocked ∨ stale ∧ sl.status = some .ready
  core : ∀ core, sl.core = some core → core.Sound

namespace Slot.Agrees

variable {stale : Prop} {sl sl' : Slot}

theorem status_of_core {core : NodeCore} (h : sl.core = some core) : sl.status = some core.status := by
  rw [Slot.status, h, Option.map_some]

theorem not_waiting (h : sl.Agrees stale) (hw : sl.status ≠ some .waiting) (hr : sl.status ≠ some .ready) : ¬sl.waiting :=
  fun hl => (h.waitingOnly hl).elim hw fun hs => hr hs.2

theorem not_blocked (h : sl.Agrees stale) (hb : sl.status ≠ some .blocked) (hr : sl.status ≠ some .ready) : ¬sl.blocked :=
  fun hl => (h.blockedOnly hl).elim hb fun hs => hr hs.2

theorem unlisted {core : NodeCore} (hcore : sl.core = some core) (hsound : core.Sound) (hr : ¬sl.ready) (hw : ¬sl.waiting)
    (hb : ¬sl.blocked) (hc : ¬sl.completed) (hstatus : core.status ∉ [.ready, .waiting, .blocked, .completed]) :
    sl.Agrees stale := by
  have hs := status_of_core hcore
  simp only [List.mem_cons, List.not_mem_nil, or_false, not_or] at hstatus
  constructor <;> simp [hs, hr, hw, hb, hc, hstatus, hcore, hsound]

theorem skip (h : sl.Agrees stale) (hopen : isResolved sl.status = false) : sl.skip.Agrees stale := by
  have hnot : ¬sl.completed := fun hc => by simp [isResolved, h.completed.mp hc] at hopen
  cases hcore : sl.core with
  | none => constructor <;> simp [Slot.skip, Slot.status, hcore, hnot]
  | some core =>
    have hcore' : sl.skip.core = some (core.reset .skipped) := by simp [Slot.skip, hcore]
    exact unlisted hcore' (.idle rfl (by simp [NodeCore.reset]) (by simp [NodeCore.reset]) (by simp [NodeCore.reset]))
      id id id hnot (by simp [NodeCore.reset])

theorem makeReady (h : sl.Agrees stale) (hcore : sl.core ≠ none) (hw : ¬sl.waiting) (hb : ¬sl.blocked)
    (hc : ¬sl.completed) : sl.makeReady.Agrees stale := by
  obtain ⟨core, hcore⟩ := Option.ne_none_iff_exists'.mp hcore
  have hs := status_of_core hcore
  have hidle : core.activeAttempt = none :=
    (h.core core hcore).activeAttempt_eq_none (fun e => hw (h.waiting (hs.trans (congrArg some e))))
      fun e => hb (h.blocked (hs.trans (congrArg some e)))
  have hcore' : sl.makeReady.core = some { core with status := .ready } := by simp [Slot.makeReady, hcore]
  have hs' : sl.makeReady.status = some .ready := status_of_core hcore'
  refine ⟨iff_of_true trivial hs', iff_of_false hc (by simp [hs']), by simp [hs'], by simp [hs'],
    fun hl => absurd hl hw, fun hl => absurd hl hb, fun core' hc' => ?_⟩
  cases hcore'.symm.trans hc'
  exact .idle hidle (by simp) (by simp) (by simp)

theorem resetBody (h : sl.Agrees stale) : sl.resetBody.Agrees stale := by
  by_cases hdone : sl.status = some .completed
  · obtain ⟨core, hcore, hs⟩ := Option.map_eq_some_iff.mp hdone
    have hcore' : sl.resetBody.core = some (core.reset .pending) := by simp [Slot.resetBody, NodeCore.resetBody, hcore, hs]
    exact unlisted hcore' (.idle rfl (by simp [NodeCore.reset]) (by simp [NodeCore.reset]) (by simp [NodeCore.reset]))
      (by simp [Slot.resetBody, h.ready, hdone]) (h.not_waiting (by simp [hdone]) (by simp [hdone]))
      (h.not_blocked (by simp [hdone]) (by simp [hdone])) id (by simp [NodeCore.reset])
  · have hsame : sl.resetBody = { sl with completed := False } := by
      cases hcore : sl.core with
      | none => simp [Slot.resetBody, hcore]
      | some core =>
        have hs : core.status ≠ .completed := fun e => hdone ((status_of_core hcore).trans (congrArg some e))
        rw [Slot.resetBody, hcore, Option.map_some, NodeCore.resetBody, if_neg hs]
    rw [hsame]
    exact ⟨h.ready, iff_of_false id hdone, h.waiting, h.blocked, h.waitingOnly, h.blockedOnly, h.core⟩

theorem reactivateLoop (hcore : sl.core ≠ none) (hstale : sl.waiting ∨ sl.blocked → stale) :
    sl.reactivateLoop.Agrees stale := by
  obtain ⟨core, hcore⟩ := Option.ne_none_iff_exists'.mp hcore
  have hcore' : sl.reactivateLoop.core = some (core.reset .ready) := by simp [Slot.reactivateLoop, hcore]
  have hs' : sl.reactivateLoop.status = some .ready := status_of_core hcore'
  refine ⟨iff_of_true trivial hs', iff_of_false id (by simp [hs']), by simp [hs'], by simp [hs'],
    fun hl => .inr ⟨hstale (.inl hl), hs'⟩, fun hl => .inr ⟨hstale (.inr hl), hs'⟩, fun core' hc' => ?_⟩
  cases hcore'.symm.trans hc'
  exact .idle rfl (by simp [NodeCore.reset]) (by simp [NodeCore.reset]) (by simp [NodeCore.reset])

theorem reactivateJoin (h : sl.Agrees stale) (hw : sl.status = some .waiting) : sl.reactivateJoin.Agrees stale := by
  obtain ⟨core, hcore, hs⟩ := Option.map_eq_some_iff.mp hw
  have hcore' : sl.reactivateJoin.core = some (core.reset .ready) := by simp [Slot.reactivateJoin, hcore]
  have hs' : sl.reactivateJoin.status = some .ready := status_of_core hcore'
  have hb : ¬sl.blocked := h.not_blocked (by simp [hw]) (by simp [hw])
  refine ⟨iff_of_true trivial hs', iff_of_false (by simp [Slot.reactivateJoin, h.completed, hw]) (by simp [hs']), by simp [hs'],
    by simp [hs'], False.elim, fun hl => absurd hl hb, fun core' hc' => ?_⟩
  cases hcore'.symm.trans hc'
  exact .idle rfl (by simp [NodeCore.reset]) (by simp [NodeCore.reset]) (by simp [NodeCore.reset])

end Slot.Agrees

theorem RunStateOp.Takes.outstanding {core core' : NodeCore} {op : RunStateOp} (h : op.Takes core core')
    (hsound : core.Sound) : core.status = .ready ∨ core.status = .waiting ∨ core.status = .blocked := by
  cases op with
  | record m result => exact .inl h.1
  | resolve m result =>
    obtain ⟨active, timestamp, hactive, -⟩ := h
    exact .inr (hsound.active.mp (by simp [hactive]))
  | complete m transition => exact .inl (h.1.resolve_right hsound.notRunning)
  | pause _ | resume _ | cancel _ => exact h.elim

theorem NodeCore.attempted_sound {core : NodeCore} {number : Nat} (result : WorkflowNodeExecutionResult)
    (hmem : ∃ attempt ∈ core.attempts, attempt.attempt = number) : (core.attempted number result).Sound := by
  refine ⟨?_, ?_, fun number' hnumber => ?_⟩
  · cases hout : result.outcome <;> simp [NodeCore.attempted, NodeCore.withResult, mapOutcomeToStatus, hout]
  · cases hout : result.outcome <;> simp [NodeCore.attempted, NodeCore.withResult, mapOutcomeToStatus, hout]
  · have : number' = number := by
      simp only [NodeCore.attempted] at hnumber
      split_ifs at hnumber
      exact (Option.some.inj hnumber).symm
    exact this ▸ hmem

theorem RunStateOp.Takes.status {core core' : NodeCore} {op : RunStateOp} {n : WorkflowNodeDefinitionId}
    {outcome : WorkflowNodeOutcome} (h : op.Takes core core') (htarget : op.target = some (n, outcome)) :
    core'.status = mapOutcomeToStatus outcome := by
  cases op with
  | record m result =>
    cases htarget
    obtain ⟨-, id, timestamp, rfl⟩ := h
    rfl
  | resolve m result =>
    cases htarget
    obtain ⟨active, timestamp, -, -, rfl⟩ := h
    rfl
  | complete m transition =>
    cases htarget
    obtain ⟨-, rfl⟩ := h
    rfl
  | pause _ | resume _ | cancel _ => cases htarget

theorem RunStateOp.Takes.sound {core core' : NodeCore} {op : RunStateOp} {n : WorkflowNodeDefinitionId}
    {outcome : WorkflowNodeOutcome} (h : op.Takes core core') (htarget : op.target = some (n, outcome))
    (hsound : core.Sound) : core'.Sound ∧ core'.status = mapOutcomeToStatus outcome := by
  refine ⟨?_, h.status htarget⟩
  cases op with
  | record m result =>
    cases htarget
    obtain ⟨-, id, timestamp, rfl⟩ := h
    exact NodeCore.attempted_sound _ ⟨_, List.mem_append_right _ List.mem_cons_self, rfl⟩
  | resolve m result =>
    cases htarget
    obtain ⟨active, timestamp, -, hmem, rfl⟩ := h
    refine NodeCore.attempted_sound _ ?_
    have hnumbers := mem_continueAttempt active (f := (·.continued result timestamp)) (fun _ => rfl)
      core.attempts
    have : active ∈ core.attempts.map (·.attempt) := List.mem_map.mpr hmem
    rw [← hnumbers] at this
    exact List.mem_map.mp this
  | complete m =>
    cases htarget
    obtain ⟨hstatus, rfl⟩ := h
    have hready := hstatus.resolve_right hsound.notRunning
    have hidle := hsound.activeAttempt_eq_none (by simp [hready]) (by simp [hready])
    exact .idle hidle (by simp [NodeCore.completed]) (by simp [NodeCore.completed]) (by simp [NodeCore.completed])
  | pause _ | resume _ | cancel _ => cases htarget

theorem Settled.agrees {stale : Prop} {sl sl' : Slot} {outcome : WorkflowNodeOutcome} {core core' : NodeCore}
    (hsettled : Settled sl sl' outcome core') (h : sl.Agrees stale) (hcore : sl.core = some core)
    (hnot : core.status ≠ .completed) (hsound : core'.Sound) (hstatus : core'.status = mapOutcomeToStatus outcome) :
    sl'.Agrees stale := by
  have hs : sl'.status = some (mapOutcomeToStatus outcome) := hstatus ▸ Slot.Agrees.status_of_core hsettled.core
  have hc : ¬sl.completed := by simpa [h.completed, Slot.Agrees.status_of_core hcore] using hnot
  refine ⟨?_, ?_, ?_, ?_, ?_, ?_, fun c hc' => ?_⟩
  · cases outcome <;> simp [hs, hsettled.ready, mapOutcomeToStatus]
  · cases outcome <;> simp [hs, hsettled.completed, hc, mapOutcomeToStatus]
  · cases outcome <;> simp [hs, hsettled.waiting, mapOutcomeToStatus]
  · cases outcome <;> simp [hs, hsettled.blocked, mapOutcomeToStatus]
  · intro hw
    simp [hs, hsettled.waiting.mp hw, mapOutcomeToStatus]
  · intro hb
    simp [hs, hsettled.blocked.mp hb, mapOutcomeToStatus]
  · cases hsettled.core.symm.trans hc'
    exact hsound

/-! ## A whole step -/

theorem Slot.when_frame (P : Prop) [Decidable P] (f : Slot → Slot) (sl : Slot)
    (hf : ((f sl).core = none ↔ sl.core = none) ∧ (f sl).waiting = sl.waiting ∧ (f sl).blocked = sl.blocked) :
    ((sl.when P f).core = none ↔ sl.core = none) ∧ (sl.when P f).waiting = sl.waiting ∧
      (sl.when P f).blocked = sl.blocked := by
  rw [Slot.when]
  split_ifs
  · exact hf
  · exact ⟨Iff.rfl, rfl, rfl⟩

section

variable {s s' s₁ s₂ s₃ : WorkflowRunState} {graph : DerivedWorkflowGraph} {n : WorkflowNodeDefinitionId}
  {key : Option String} {stale : WorkflowNodeDefinitionId → Prop} {op : RunStateOp} {outcome : WorkflowNodeOutcome}
  {core core' : NodeCore}

theorem RaceCancelled.agrees (h : RaceCancelled s s' graph n) (hs : ∀ j, (s.slot j).Agrees (stale j)) :
    ∀ j, (s'.slot j).Agrees (stale j) := by
  intro j
  by_cases hj : RaceLoser s graph n j
  · rw [h.losers j hj]
    exact (hs j).skip (by rw [WorkflowRunState.status_slot]; exact hj.kept.2)
  · rw [h.others j hj]
    exact hs j

theorem Activated.agrees (h : Activated s s' graph n key) (hs : ∀ j, (s.slot j).Agrees (stale j))
    (hstale : ∀ p, loopToReactivate s graph n = some p → (s.slot p).waiting ∨ (s.slot p).blocked → stale p)
    (hjoin : ∀ j, stale j → graph.nodeType j ≠ some .parallelJoin) : ∀ j, (s'.slot j).Agrees (stale j) := by
  intro j
  rw [h.slot]
  have hready : ((s.slot j).when (j ∈ readiedIds s graph n key) Slot.makeReady).Agrees (stale j) := by
    rw [Slot.when]
    split_ifs with hj
    · obtain ⟨-, -, hw, hb, hc⟩ := mem_readiedIds.mp hj
      exact (hs j).makeReady (h.known j hj) hw hb hc
    · exact hs j
  obtain ⟨hcore₁, hwaiting₁, hblocked₁⟩ := Slot.when_frame (j ∈ readiedIds s graph n key) Slot.makeReady (s.slot j)
    ⟨by simp [Slot.makeReady], rfl, rfl⟩
  generalize (s.slot j).when (j ∈ readiedIds s graph n key) Slot.makeReady = a at *
  have hbody : (a.when (j ∈ resetBodyIds s graph n) Slot.resetBody).Agrees (stale j) := by
    rw [Slot.when]
    split_ifs
    · exact hready.resetBody
    · exact hready
  obtain ⟨hcore₂, hwaiting₂, hblocked₂⟩ := Slot.when_frame (j ∈ resetBodyIds s graph n) Slot.resetBody (a)
    ⟨by simp [Slot.resetBody], rfl, rfl⟩
  generalize a.when (j ∈ resetBodyIds s graph n) Slot.resetBody = b at *
  have hloop : (b.when (loopToReactivate s graph n = some j) Slot.reactivateLoop).Agrees (stale j) := by
    rw [Slot.when]
    split_ifs with hj
    · refine Slot.Agrees.reactivateLoop (fun hnone => ?_) fun hl => hstale j hj ?_
      · have hkey := (loopToReactivate_eq_some.mp hj).2.2
        rw [Slot.branchKey, hcore₁.mp (hcore₂.mp hnone)] at hkey
        cases hkey
      · rwa [hwaiting₂, hwaiting₁, hblocked₂, hblocked₁] at hl
    · exact hbody
  obtain ⟨-, hwaiting₃, -⟩ := Slot.when_frame (loopToReactivate s graph n = some j) Slot.reactivateLoop (b)
    ⟨by simp [Slot.reactivateLoop], rfl, rfl⟩
  generalize b.when (loopToReactivate s graph n = some j) Slot.reactivateLoop = c at *
  rw [Slot.when]
  split_ifs with hj
  · obtain ⟨hw, htype, -⟩ := mem_waitingJoinNodeIds.mp hj
    refine hloop.reactivateJoin ((hloop.waitingOnly ?_).resolve_right fun hst => hjoin j hst.1 htype)
    rwa [hwaiting₃, hwaiting₂, hwaiting₁]
  · exact hloop

theorem branchKey_skip (sl : Slot) : sl.skip.branchKey = sl.branchKey := by
  cases h : sl.core <;> simp [Slot.branchKey, Slot.skip, NodeCore.reset, h]

section

variable (h : NodeStep graph s op s' n outcome core core' s₁ s₂ s₃)

include h

/-- The state in which a completed node activates its successors: other nodes are as they were, or lost a race. -/
theorem NodeStep.raced (hout : outcome = .completed)
    (hs : ∀ j, (s₁.slot j).Agrees (stale j)) : (∀ j, (s₂.slot j).Agrees (stale j)) ∧ (∀ j, s₂.parentOf j = s.parentOf j) ∧
      s₂.slot n = s₁.slot n ∧ ∀ j, j ≠ n → s₂.slot j = s.slot j ∨ s₂.slot j = (s.slot j).skip := by
  have hn : (s₁.slot n).status = some .completed := (hs n).completed.mp (h.listed hout)
  by_cases hraces : op.races = true
  · have hrace := h.race hout hraces
    refine ⟨hrace.agrees hs, fun j => (hrace.parent j).trans (h.moved.parent j), hrace.others n fun hloser => ?_,
      fun j hj => ?_⟩
    · have := hloser.kept.2
      rw [← WorkflowRunState.status_slot, hn] at this
      simp [isResolved] at this
    · rw [← h.moved.others j hj]
      by_cases hloser : RaceLoser s₁ graph n j
      · exact .inr (hrace.losers j hloser)
      · exact .inl (hrace.others j hloser)
  · have hsame := h.noRace hout (by simpa using hraces)
    subst hsame
    exact ⟨hs, h.moved.parent, rfl, fun j hj => .inl (h.moved.others j hj)⟩

theorem NodeStep.agrees₁ (htarget : op.target = some (n, outcome))
    (hs : ∀ j, (s.slot j).Agrees (stale j)) : ∀ j, (s₁.slot j).Agrees (stale j) := by
  have hbefore := (hs n).core core h.before
  obtain ⟨hsound, hstatus⟩ := h.takes.sound htarget hbefore
  have hnot : core.status ≠ .completed := by
    rcases h.takes.outstanding hbefore with hs | hs | hs <;> simp [hs]
  intro j
  by_cases hj : j = n
  · subst hj
    exact h.settled.agrees (hs j) h.before hnot hsound hstatus
  · rw [h.moved.others j hj]
    exact hs j

/-- **Agreement.** A step on a node keeps the lists and the statuses in agreement, when the loop node that it
re-activates neither waits nor is blocked, or may be stale. -/
theorem NodeStep.agrees (htarget : op.target = some (n, outcome))
    (hs : ∀ j, (s.slot j).Agrees (stale j)) (hjoin : ∀ j, stale j → graph.nodeType j ≠ some .parallelJoin)
    (hstale : outcome = .completed → ∀ p, p ≠ n → loopToReactivate s graph n = some p →
      (s.slot p).waiting ∨ (s.slot p).blocked → stale p) : ∀ j, (s'.slot j).Agrees (stale j) := by
  rw [h.finished.slot]
  have hs₁ := h.agrees₁ htarget hs
  by_cases hout : outcome = .completed
  · obtain ⟨hs₂, hparent, hn, hothers⟩ := h.raced hout hs₁
    refine (h.activated hout).agrees hs₂ (fun p hp hl => ?_) hjoin
    obtain ⟨hpar, htype, hkey⟩ := loopToReactivate_eq_some.mp hp
    by_cases hpn : p = n
    · subst hpn
      rw [hn, h.settled.waiting, h.settled.blocked, hout] at hl
      simp at hl
    · rcases hothers p hpn with hsame | hskip
      · rw [hsame] at hl hkey
        exact hstale hout p hpn (loopToReactivate_eq_some.mpr ⟨hparent n ▸ hpar, htype, hkey⟩) hl
      · rw [hskip] at hl
        simp [Slot.skip] at hl
  · rw [h.other hout]
    exact hs₁

theorem NodeStep.lineage : LineageOk s' := by
  apply h.finished.lineage
  by_cases hout : outcome = .completed
  · exact (h.activated hout).lineage
  · rw [h.other hout]
    exact h.moved.lineage

theorem NodeStep.nodup (hn : ListsNodup s) : ListsNodup s' := by
  apply h.finished.nodup
  have hn₁ := h.moved.nodup hn
  by_cases hout : outcome = .completed
  · refine (h.activated hout).nodup ?_
    by_cases hraces : op.races = true
    · exact (h.race hout hraces).nodup hn₁
    · rw [h.noRace hout (by simpa using hraces)]
      exact hn₁
  · rw [h.other hout]
    exact hn₁

theorem NodeStep.listed₂ (hout : outcome = .completed) :
    n ∈ s₂.completedNodeIds := by
  by_cases hraces : op.races = true
  · exact (h.race hout hraces).completed ▸ h.listed hout
  · rw [h.noRace hout (by simpa using hraces)]
    exact h.listed hout

theorem NodeStep.parent₂ (hout : outcome = .completed)
    (j : WorkflowNodeDefinitionId) : s₂.parentOf j = s.parentOf j := by
  by_cases hraces : op.races = true
  · exact ((h.race hout hraces).parent j).trans (h.moved.parent j)
  · rw [h.noRace hout (by simpa using hraces)]
    exact h.moved.parent j

theorem NodeStep.parent
    (hparent : ∀ j, s.parentOf j ≠ some j) : ∀ j, s'.parentOf j ≠ some j := by
  intro j
  rw [h.finished.parent]
  by_cases hout : outcome = .completed
  · rw [(h.activated hout).parent]
    split_ifs with hloop hready
    · simp
    · rintro ⟨⟩
      exact not_mem_readiedIds (h.listed₂ hout) hready
    · rw [h.parent₂ hout]
      exact hparent j
  · rw [h.other hout, h.moved.parent]
    exact hparent j

end

/-! ## Runs -/

/-- The invariant of a run that is not canceled. -/
structure Consistent (stale : WorkflowNodeDefinitionId → Prop) (s : WorkflowRunState) : Prop where
  lineage : LineageOk s
  nodup : ListsNodup s
  parent : ∀ j, s.parentOf j ≠ some j
  agrees : ∀ j, (s.slot j).Agrees (stale j)

theorem Initial.consistent (hgraph : Built graph) (h : Initial graph s) (stale : WorkflowNodeDefinitionId → Prop) :
    Consistent stale s := by
  have hs := h.spec
  refine ⟨hs.lineage, ⟨?_, ?_, ?_, ?_⟩, fun j => by simp [hs.parent], fun j => ?_⟩
  · exact hs.ready ▸ nodup_sortNodeIdsByTopology _ _
  · exact hs.waiting ▸ List.nodup_nil
  · exact hs.blocked ▸ List.nodup_nil
  · exact hs.completed ▸ List.nodup_nil
  · have hready : (s.slot j).ready ↔ j ∈ getInitialReadyNodeIds graph := by rw [WorkflowRunState.slot, hs.ready]
    have hwaiting : ¬(s.slot j).waiting := by simp [WorkflowRunState.slot, hs.waiting]
    have hblocked : ¬(s.slot j).blocked := by simp [WorkflowRunState.slot, hs.blocked]
    have hcompleted : ¬(s.slot j).completed := by simp [WorkflowRunState.slot, hs.completed]
    have hcore := hs.core j
    by_cases hj : j ∈ graph.topologicalOrder
    · rw [if_pos hj] at hcore
      have hstatus := Slot.Agrees.status_of_core hcore
      have hsound : (initialCore (decide (j ∈ getInitialReadyNodeIds graph))).Sound := by
        by_cases hr : j ∈ getInitialReadyNodeIds graph <;> exact .idle rfl (by simp [initialCore, hr])
          (by simp [initialCore, hr]) (by simp [initialCore, hr])
      refine ⟨?_, ?_, ?_, ?_, fun h => absurd h hwaiting, fun h => absurd h hblocked, fun core hc => ?_⟩
      · rw [hready, hstatus]
        by_cases hr : j ∈ getInitialReadyNodeIds graph <;> simp [initialCore, hr]
      · rw [hstatus]
        by_cases hr : j ∈ getInitialReadyNodeIds graph <;> simp [initialCore, hr, hcompleted]
      · rw [hstatus]
        by_cases hr : j ∈ getInitialReadyNodeIds graph <;> simp [initialCore, hr]
      · rw [hstatus]
        by_cases hr : j ∈ getInitialReadyNodeIds graph <;> simp [initialCore, hr]
      · cases hcore.symm.trans hc
        exact hsound
    · rw [if_neg hj] at hcore
      have hstatus : (s.slot j).status = none := by rw [Slot.status, hcore, Option.map_none]
      have hr : ¬(s.slot j).ready := fun h => hj (hgraph.entries j (hready.mp h))
      constructor <;> simp [hstatus, hr, hwaiting, hblocked, hcompleted, hcore]

theorem SameNodes.consistent (h : SameNodes s s') (hs : Consistent stale s) : Consistent stale s' :=
  ⟨h.lineage hs.lineage, h.nodup hs.nodup, fun j => by rw [h.parent]; exact hs.parent j,
    fun j => by rw [h.slot]; exact hs.agrees j⟩

theorem Consistent.step (hs : Consistent stale s) (h : applyRunStateOp graph s op = .ok s')
    (hcancel : ∀ transition, op ≠ .cancel transition) (hjoin : ∀ j, stale j → graph.nodeType j ≠ some .parallelJoin)
    (hstale : ∀ n ∈ op.completes, ∀ p ∈ loopToReactivate s graph n, (s.slot p).waiting ∨ (s.slot p).blocked →
      stale p) : Consistent stale s' := by
  cases htarget : op.target with
  | none =>
    cases op with
    | record _ _ => cases htarget
    | resolve _ _ => cases htarget
    | complete _ _ => cases htarget
    | pause transition => exact (pause_spec h).1.consistent hs
    | resume transition => exact (resume_spec h).1.consistent hs
    | cancel transition => exact absurd rfl (hcancel transition)
  | some target =>
    obtain ⟨n, outcome⟩ := target
    obtain ⟨core, core', s₁, s₂, s₃, hstep⟩ := nodeStep_spec hs.lineage htarget h
    refine ⟨hstep.lineage, hstep.nodup hs.nodup, hstep.parent hs.parent, hstep.agrees htarget hs.agrees hjoin ?_⟩
    rintro rfl p - hp
    exact hstale n (by simp [RunStateOp.completes, htarget]) p hp

end

/-! ## Running a definition -/

/-- Build the graph of a definition, start a run over it and take the steps `ops`, refusing a step that misses the
guard. -/
def runDefinition (G : DerivedWorkflowGraph → WorkflowRunState → RunStateOp → Prop)
    [∀ graph s op, Decidable (G graph s op)] (definition : WorkflowDefinition) (ops : List RunStateOp) :
    Except String (DerivedWorkflowGraph × WorkflowRunState × WorkflowRunState) := do
  let graph ← buildDerivedWorkflowGraph (fun _ => "digest") definition
  let s₀ ← createInitialWorkflowRunState ⟨0, graph, ⟨true, "admitted", [], none⟩, none, 0⟩
  let s ← ops.foldlM (guardStep (applyRunStateOp graph) (G graph)) s₀
  return (graph, s₀, s)

def sampleNode (id : WorkflowNodeDefinitionId) (config : WorkflowNodeConfig) : WorkflowNodeDefinition :=
  ⟨id, "node", config.type, .synchronous, none, none, config⟩

/-- A wait of a small run. -/
def sampleWait : WorkflowNodeWaitState := ⟨.loopBackoff, "backoff", ["evidence"], 0, none, none⟩

/-- The result of one execution in a small run, recorded with the checkpoint idle. -/
def sampleRecord (n : WorkflowNodeDefinitionId) (outcome : WorkflowNodeOutcome) (branchKey : Option String) : RunStateOp :=
  .record n ⟨outcome, ⟨.allowWithFlag, "CGR-ALLOW-WITH-FLAG", false, false, false, ["evidence"], false⟩,
    if outcome = .waiting then some sampleWait else none, none, .none, none, none, branchKey, "executed", ["evidence"]⟩
    ⟨"executed", [], none⟩ none none none

theorem exists_run_of_check (G : DerivedWorkflowGraph → WorkflowRunState → RunStateOp → Prop)
    [∀ graph s op, Decidable (G graph s op)] (definition : WorkflowDefinition) (ops : List RunStateOp)
    (P : DerivedWorkflowGraph → WorkflowRunState → Bool)
    (h : (runDefinition G definition ops).toOption.any (fun r => P r.1 r.2.2) = true) :
    ∃ graph s₀ s, Built graph ∧ Initial graph s₀ ∧ Run (Guarded (RunStateStep graph) (G graph)) s₀ ops s ∧
      P graph s = true := by
  unfold runDefinition at h
  cases hbuild : buildDerivedWorkflowGraph (fun _ => "digest") definition with
  | error e => simp [hbuild, bind, Except.bind, Except.toOption] at h
  | ok graph =>
    cases hinit : createInitialWorkflowRunState ⟨0, graph, ⟨true, "admitted", [], none⟩, none, 0⟩ with
    | error e => simp [hbuild, hinit, bind, Except.bind, Except.toOption] at h
    | ok s₀ =>
      cases hrun : ops.foldlM (guardStep (applyRunStateOp graph) (G graph)) s₀ with
      | error e => simp [hbuild, hinit, hrun, bind, Except.bind, Except.toOption] at h
      | ok s =>
        refine ⟨graph, s₀, s, ⟨_, definition, hbuild⟩, ⟨_, rfl, hinit⟩, run_of_guardStep hrun, ?_⟩
        simpa [hbuild, hinit, hrun, bind, Except.bind, Except.toOption, pure, Except.pure] using h

theorem exists_ok_of_any {α : Type} {x : Except String α} {p : α → Bool} (h : x.toOption.any p = true) :
    ∃ a, x = .ok a ∧ p a = true := by
  cases x with
  | error e => simp [Except.toOption] at h
  | ok a => exact ⟨a, rfl, h⟩

end NousCore.Workflow
