import NousCore.Workflow.Consistency

/-!
# What a step does to the core of every node

* `NodeStep.keeps` : the race losers and the successors of a completion keep their attempts;
* `applyRunStateOp_lineage` : every operation keeps the lineages in order.
-/

namespace NousCore.Workflow

/-- An edit of a core that leaves its attempts, and at most clears what is active. -/
structure NodeCore.Keeps (core core' : NodeCore) : Prop where
  attempts : core'.attempts = core.attempts
  completed : core'.status = .completed → core.status = .completed
  active : core'.activeAttempt = none ∨ core'.activeAttempt = core.activeAttempt
  wait : core'.activeWaitState = none ∨ core'.activeWaitState = core.activeWaitState

namespace NodeCore

variable {core core' core'' : NodeCore}

theorem Keeps.refl (core : NodeCore) : core.Keeps core := ⟨rfl, id, .inr rfl, .inr rfl⟩

theorem Keeps.trans (h : core.Keeps core') (h' : core'.Keeps core'') : core.Keeps core'' where
  attempts := h'.attempts.trans h.attempts
  completed hc := h.completed (h'.completed hc)
  active := h'.active.elim .inl fun he => he ▸ h.active
  wait := h'.wait.elim .inl fun he => he ▸ h.wait

theorem keeps_reset (core : NodeCore) (status : WorkflowNodeRunStatus) (h : status ≠ .completed) :
    core.Keeps (core.reset status) := ⟨rfl, fun hc => absurd hc h, .inl rfl, .inl rfl⟩

theorem keeps_ready (core : NodeCore) : core.Keeps { core with status := .ready } :=
  ⟨rfl, fun hc => by simp at hc, .inr rfl, .inr rfl⟩

theorem keeps_resetBody (core : NodeCore) : core.Keeps core.resetBody := by
  unfold resetBody
  split_ifs
  · exact core.keeps_reset _ (by simp)
  · exact .refl core

end NodeCore

/-- The core of a slot after such an edit. -/
def Slot.Keeps (sl sl' : Slot) : Prop := ∀ core' ∈ sl'.core, ∃ core ∈ sl.core, core.Keeps core'

namespace Slot

variable {sl sl' sl'' : Slot}

theorem Keeps.refl (sl : Slot) : sl.Keeps sl := fun core h => ⟨core, h, .refl core⟩

theorem Keeps.trans (h : sl.Keeps sl') (h' : sl'.Keeps sl'') : sl.Keeps sl'' := fun core'' hcore'' => by
  obtain ⟨core', hcore', hkeeps'⟩ := h' core'' hcore''
  obtain ⟨core, hcore, hkeeps⟩ := h core' hcore'
  exact ⟨core, hcore, hkeeps.trans hkeeps'⟩

theorem keeps_map {f : NodeCore → NodeCore} (hf : ∀ core : NodeCore, core.Keeps (f core)) (h : sl'.core = sl.core.map f) :
    sl.Keeps sl' := fun core' hcore' => by
  rw [Option.mem_def, h, Option.map_eq_some_iff] at hcore'
  obtain ⟨core, hcore, rfl⟩ := hcore'
  exact ⟨core, hcore, hf core⟩

theorem keeps_when (P : Prop) [Decidable P] {f : Slot → Slot} (hf : ∀ sl : Slot, sl.Keeps (f sl)) (sl : Slot) :
    sl.Keeps (sl.when P f) := by
  unfold Slot.when
  split_ifs
  · exact hf sl
  · exact .refl sl

theorem keeps_makeReady (sl : Slot) : sl.Keeps sl.makeReady := keeps_map NodeCore.keeps_ready rfl

theorem keeps_resetBody (sl : Slot) : sl.Keeps sl.resetBody := keeps_map NodeCore.keeps_resetBody rfl

theorem keeps_reactivateLoop (sl : Slot) : sl.Keeps sl.reactivateLoop :=
  keeps_map (fun core => core.keeps_reset .ready (by simp)) rfl

theorem keeps_reactivateJoin (sl : Slot) : sl.Keeps sl.reactivateJoin :=
  keeps_map (fun core => core.keeps_reset .ready (by simp)) rfl

theorem keeps_skip (sl : Slot) : sl.Keeps sl.skip :=
  keeps_map (fun core => core.keeps_reset .skipped (by simp)) rfl

theorem keeps_cancelled (sl : Slot) : sl.Keeps sl.cancelled :=
  keeps_map NodeCore.Keeps.refl (by simp [Slot.cancelled])

theorem keeps_cancelNode (sl : Slot) : sl.Keeps sl.cancelNode :=
  keeps_map (f := fun core => { core with activeAttempt := none, activeWaitState := none })
    (fun _ => ⟨rfl, id, .inl rfl, .inl rfl⟩) rfl

end Slot

section

variable {s s' s₁ s₂ s₃ : WorkflowRunState} {graph : DerivedWorkflowGraph} {n : WorkflowNodeDefinitionId}
  {op : RunStateOp} {outcome : WorkflowNodeOutcome} {core core' : NodeCore} {key : Option String}

theorem Activated.keeps (h : Activated s s' graph n key) (j : WorkflowNodeDefinitionId) :
    (s.slot j).Keeps (s'.slot j) := by
  rw [h.slot]
  exact (((Slot.keeps_when _ Slot.keeps_makeReady _).trans (Slot.keeps_when _ Slot.keeps_resetBody _)).trans
    (Slot.keeps_when _ Slot.keeps_reactivateLoop _)).trans (Slot.keeps_when _ Slot.keeps_reactivateJoin _)

theorem RaceCancelled.keeps (h : RaceCancelled s s' graph n) (j : WorkflowNodeDefinitionId) :
    (s.slot j).Keeps (s'.slot j) := by
  by_cases hj : RaceLoser s graph n j
  · rw [h.losers j hj]
    exact Slot.keeps_skip _
  · rw [h.others j hj]
    exact .refl _

theorem NodeStep.keeps (h : NodeStep graph s op s' n outcome core core' s₁ s₂ s₃) (j : WorkflowNodeDefinitionId) :
    (s₁.slot j).Keeps (s'.slot j) := by
  rw [h.finished.slot]
  by_cases hout : outcome = .completed
  · refine Slot.Keeps.trans ?_ ((h.activated hout).keeps j)
    by_cases hraces : op.races = true
    · exact (h.race hout hraces).keeps j
    · rw [h.noRace hout (by simpa using hraces)]
      exact .refl _
  · rw [h.other hout]
    exact .refl _

/-- **The cores after a step.** The node that the step is about is taken, and every other node keeps its core. -/
theorem core_cases (hok : LineageOk s) (h : applyRunStateOp graph s op = .ok s') {j : WorkflowNodeDefinitionId}
    {core' : NodeCore} (hcore' : (s'.slot j).core = some core') : ∃ core, (s.slot j).core = some core ∧
      (core.Keeps core' ∨ ∃ outcome taken, op.target = some (j, outcome) ∧ op.Takes core taken ∧ taken.Keeps core') := by
  have hkept : (s.slot j).Keeps (s'.slot j) → ∃ core, (s.slot j).core = some core ∧ (core.Keeps core' ∨
      ∃ outcome taken, op.target = some (j, outcome) ∧ op.Takes core taken ∧ taken.Keeps core') := fun hk => by
    obtain ⟨core, hcore, hkeeps⟩ := hk core' hcore'
    exact ⟨core, hcore, .inl hkeeps⟩
  cases htarget : op.target with
  | none =>
    rw [htarget] at hkept
    cases op with
    | record _ _ => cases htarget
    | resolve _ _ => cases htarget
    | complete _ _ => cases htarget
    | pause transition => exact hkept (by rw [(pause_spec h).1.slot]; exact .refl _)
    | resume transition => exact hkept (by rw [(resume_spec h).1.slot]; exact .refl _)
    | cancel transition =>
      obtain ⟨-, -, -, -, -, -, -, hslot⟩ := cancel_spec hok h
      refine hkept ?_
      rw [hslot]
      exact (Slot.keeps_when _ Slot.keeps_cancelNode _).trans (Slot.keeps_cancelled _)
  | some target =>
    obtain ⟨n, outcome⟩ := target
    obtain ⟨core, taken, s₁, s₂, s₃, hstep⟩ := nodeStep_spec hok htarget h
    rw [htarget] at hkept
    by_cases hj : j = n
    · subst hj
      obtain ⟨core₁, hcore₁, hkeeps⟩ := hstep.keeps j core' hcore'
      rw [Option.mem_def, hstep.settled.core, Option.some.injEq] at hcore₁
      subst hcore₁
      exact ⟨core, hstep.before, .inr ⟨outcome, taken, rfl, hstep.takes, hkeeps⟩⟩
    · refine hkept ?_
      rw [← hstep.moved.others j hj]
      exact hstep.keeps j

theorem applyRunStateOp_lineage (hok : LineageOk s) (h : applyRunStateOp graph s op = .ok s') : LineageOk s' := by
  cases htarget : op.target with
  | none =>
    cases op with
    | record _ _ => cases htarget
    | resolve _ _ => cases htarget
    | complete _ _ => cases htarget
    | pause transition => exact (pause_spec h).1.lineage hok
    | resume transition => exact (resume_spec h).1.lineage hok
    | cancel transition => exact (cancel_spec hok h).2.2.1
  | some target =>
    obtain ⟨core, taken, s₁, s₂, s₃, hstep⟩ := nodeStep_spec hok htarget h
    exact hstep.lineage

end

end NousCore.Workflow
