import NousCore.Workflow.Completion

/-!
# Terminal run statuses

* `Ended`, `Canceled` : what a completed and a canceled run have in no node (`Ended.final`, `Canceled.final`);
* `terminal_not_final` : a canceled run executes a ready node, a failed run is taken back to
  running.
-/

namespace NousCore.Workflow

def Terminal (status : WorkflowRunStatus) : Prop := status = .canceled ∨ status = .completed ∨ status = .failed

/-- The completion of `n` takes the node `m` out of its status: it loses the race, is re-activated, or is next. -/
def Revives (graph : DerivedWorkflowGraph) (s : WorkflowRunState) (op : RunStateOp) (n m : WorkflowNodeDefinitionId) :
    Prop :=
  LosesRace graph s op n m ∨ loopToReactivate s graph n = some m ∨ NextReady graph s op n m

/-- The step executes no ready node of a canceled run, and where it completes a node of a failed run, some failed node
is not revived. -/
structure Lasting (graph : DerivedWorkflowGraph) (s : WorkflowRunState) (op : RunStateOp) : Prop where
  canceled : s.status = .canceled → ∀ n outcome, op.target = some (n, outcome) → s.nodeStatus n ≠ some .ready
  failed : s.status = .failed → ∀ n ∈ op.completes,
    ∃ m, s.nodeStatus m = some .failed ∧ ¬Revives graph s op n m

/-! ## Canceled and completed runs -/

/-- No node is ready, and none has an active attempt: no operation on a node is accepted. -/
structure Ended (s : WorkflowRunState) : Prop where
  status : ∀ j, s.nodeStatus j ≠ some .running
  active : ∀ j core, (s.slot j).core = some core → core.activeAttempt = none

section

variable {s s' s₁ s₂ s₃ : WorkflowRunState} {graph : DerivedWorkflowGraph} {n m : WorkflowNodeDefinitionId}
  {op : RunStateOp} {outcome : WorkflowNodeOutcome} {core core' : NodeCore}

theorem Ended.ready_of_nodeStep (h : Ended s) (htarget : op.target = some (n, outcome))
    (hstep : NodeStep graph s op s' n outcome core core' s₁ s₂ s₃) : s.nodeStatus n = some .ready := by
  have hstatus : s.nodeStatus n = some core.status := by
    rw [← WorkflowRunState.status_slot, Slot.Agrees.status_of_core hstep.before]
  have htakes := hstep.takes
  cases op with
  | record m result => rw [hstatus, htakes.1]
  | resolve m result =>
    obtain ⟨active, -, hactive, -⟩ := htakes
    rw [h.active n core hstep.before] at hactive
    cases hactive
  | complete m transition =>
    rcases htakes.1 with hready | hrunning
    · rw [hstatus, hready]
    · exact absurd (hstatus.trans (congrArg some hrunning)) (h.status n)
  | pause _ | resume _ | cancel _ => cases htarget

/-- The invariant of the runs of lasting steps. -/
structure Live (graph : DerivedWorkflowGraph) (s : WorkflowRunState) : Prop where
  consistent : Consistent (fun j => graph.nodeType j = some .loop) s
  notCanceled : s.status ≠ .canceled
  completed : s.status = .completed → ∀ j, ¬(s.slot j).ready ∧ ¬(s.slot j).waiting ∧ ¬(s.slot j).blocked
  failed : s.status = .failed → ∃ m, s.nodeStatus m = some .failed

structure Canceled (s : WorkflowRunState) : Prop where
  lineage : LineageOk s
  status : s.status = .canceled
  ready : s.readyNodeIds = []
  ended : Ended s

theorem Live.ended (h : Live graph s) (hcompleted : s.status = .completed) :
    Ended s ∧ ∀ j, s.nodeStatus j ≠ some .ready := by
  refine ⟨⟨fun j hrunning => ?_, fun j core hcore => ?_⟩, fun j hready => ?_⟩
  · rw [← WorkflowRunState.status_slot] at hrunning
    obtain ⟨core, hcore, hstatus⟩ := Option.map_eq_some_iff.mp hrunning
    exact ((h.consistent.agrees j).core core hcore).notRunning hstatus
  · obtain ⟨-, hwaiting, hblocked⟩ := h.completed hcompleted j
    have hstatus := Slot.Agrees.status_of_core hcore
    refine ((h.consistent.agrees j).core core hcore).activeAttempt_eq_none (fun hw => ?_) fun hb => ?_
    · exact hwaiting ((h.consistent.agrees j).waiting (hstatus.trans (congrArg some hw)))
    · exact hblocked ((h.consistent.agrees j).blocked (hstatus.trans (congrArg some hb)))
  · rw [← WorkflowRunState.status_slot] at hready
    exact (h.completed hcompleted j).1 ((h.consistent.agrees j).ready.mpr hready)

theorem Live.of_resolve (hconsistent : Consistent (fun j => graph.nodeType j = some .loop) s') (hslot : s'.slot = s.slot)
    (hstatus : s'.status = resolveRunStatus s) : Live graph s' := by
  refine ⟨hconsistent, ?_, fun hcompleted j => ?_, fun hfailed => ?_⟩
  · rw [hstatus]
    exact resolveRunStatus_ne_canceled s
  · obtain ⟨hunhindered, hready, -⟩ := resolveRunStatus_eq_completed (hstatus.symm.trans hcompleted)
    rw [hslot]
    exact ⟨fun h => hready ⟨j, h⟩, fun h => hunhindered.waiting ⟨j, h⟩, fun h => hunhindered.blocked ⟨j, h⟩⟩
  · obtain ⟨-, m, hm⟩ := resolveRunStatus_eq_failed.mp (hstatus.symm.trans hfailed)
    exact ⟨m, by rw [← WorkflowRunState.status_slot, hslot, hm]⟩

theorem Initial.live (hgraph : Built graph) (h : Initial graph s) : Live graph s := by
  have hstatus := h.spec.status
  exact ⟨h.consistent hgraph _, by simp [hstatus], by simp [hstatus], by simp [hstatus]⟩

theorem Canceled.not_step (h : Canceled s) (hlasting : Lasting graph s op) (hok : applyRunStateOp graph s op = .ok s') :
    False := by
  cases htarget : op.target with
  | none =>
    cases op with
    | record _ _ => cases htarget
    | resolve _ _ => cases htarget
    | complete _ _ => cases htarget
    | pause transition => exact (pause_spec hok).2.2 (by simp [h.status])
    | resume transition => exact absurd (h.status.symm.trans (resume_spec hok).2.2) (by simp)
    | cancel transition => exact (cancel_spec h.lineage hok).2.1 (by simp [h.status])
  | some target =>
    obtain ⟨n, outcome⟩ := target
    obtain ⟨core, core', s₁, s₂, s₃, hstep⟩ := nodeStep_spec h.lineage htarget hok
    exact hlasting.canceled h.status n outcome htarget (h.ended.ready_of_nodeStep htarget hstep)

theorem Live.cancel (h : Live graph s) {transition : WorkflowTransitionInput}
    (hok : cancelWorkflowRunState s transition = .ok s') : Canceled s' := by
  obtain ⟨hstatus, -, hlineage, -, -, -, hready, hslot⟩ := cancel_spec h.consistent.lineage hok
  refine ⟨hlineage, hstatus, hready, fun j hrunning => ?_, fun j core hcore => ?_⟩
  · rw [← WorkflowRunState.status_slot, hslot] at hrunning
    have hsame : (((s.slot j).when (j ∈ affectedNodeIds s) Slot.cancelNode).cancelled).status = (s.slot j).status := by
      rw [Slot.when]
      split_ifs
      · simp only [Slot.status, Slot.cancelled, Slot.cancelNode, Option.map_map]
        rfl
      · rfl
    obtain ⟨core, hcore, hs⟩ := Option.map_eq_some_iff.mp (hsame.symm.trans hrunning)
    exact ((h.consistent.agrees j).core core hcore).notRunning hs
  · rw [hslot] at hcore
    by_cases hj : j ∈ affectedNodeIds s
    · rw [Slot.when_pos hj] at hcore
      obtain ⟨core, -, rfl⟩ := Option.map_eq_some_iff.mp hcore
      rfl
    · rw [Slot.when_neg hj] at hcore
      rw [mem_affectedNodeIds] at hj
      have hcore : (s.slot j).core = some core := hcore
      have hs := Slot.Agrees.status_of_core hcore
      refine ((h.consistent.agrees j).core core hcore).activeAttempt_eq_none (fun hw => hj ?_) fun hb => hj ?_
      · exact .inr (.inr (.inl ((h.consistent.agrees j).waiting (hs.trans (congrArg some hw)))))
      · exact .inr (.inr (.inr ((h.consistent.agrees j).blocked (hs.trans (congrArg some hb)))))

theorem not_loop_join (j : WorkflowNodeDefinitionId) (h : graph.nodeType j = some .loop) :
    graph.nodeType j ≠ some .parallelJoin := by
  simp [h]

theorem NodeStep.failed (h : NodeStep graph s op s' n outcome core core' s₁ s₂ s₃) (hlive : Live graph s)
    (htarget : op.target = some (n, outcome)) (hm : s.nodeStatus m = some .failed)
    (hrevives : outcome = .completed → ¬Revives graph s op n m) : (s₃.slot m).status = some .failed := by
  have hagrees := hlive.consistent.agrees
  have hbefore := (hagrees n).core core h.before
  rw [← WorkflowRunState.status_slot] at hm
  have hmn : m ≠ n := by
    rintro rfl
    rw [Slot.Agrees.status_of_core h.before, Option.some.injEq] at hm
    rcases h.takes.outstanding hbefore with hs | hs | hs <;> simp [hs] at hm
  by_cases hout : outcome = .completed
  · subst hout
    refine (h.failed_iff htarget hm).mpr ⟨Ne.symm hmn, fun hreopened => hrevives rfl ?_⟩
    rcases hreopened with hlost | hnext | hloop | hjoin
    · exact .inl hlost
    · exact .inr (.inr hnext.1)
    · exact .inr (.inl hloop)
    · have := (hagrees m).waitingOnly (mem_waitingJoinNodeIds.mp hjoin).1
      simp [hm] at this
  · rw [h.other hout, h.moved.others m hmn, hm]

/-- **One lasting step.** No step leaves a completed run, a failed run stays failed, and any other run goes on, or is
canceled. -/
theorem Live.step (h : Live graph s) (hlasting : Lasting graph s op) (hok : applyRunStateOp graph s op = .ok s') :
    (Live graph s' ∨ Canceled s') ∧ s.status ≠ .completed ∧ (s.status = .failed → s'.status = .failed) := by
  cases htarget : op.target with
  | none =>
    cases op with
    | record _ _ => cases htarget
    | resolve _ _ => cases htarget
    | complete _ _ => cases htarget
    | pause transition =>
      obtain ⟨hsame, hstatus, hnot⟩ := pause_spec hok
      refine ⟨.inl ⟨hsame.consistent h.consistent, by simp [hstatus], by simp [hstatus], by simp [hstatus]⟩, fun hc => ?_,
        fun hf => ?_⟩
      · exact hnot (by simp [hc])
      · exact absurd (by simp [hf]) hnot
    | resume transition =>
      obtain ⟨hsame, hstatus, hpaused⟩ := resume_spec hok
      refine ⟨.inl (Live.of_resolve (s := { s with status := .running }) (hsame.consistent h.consistent) hsame.slot hstatus), by simp [hpaused], by simp [hpaused]⟩
    | cancel transition =>
      have hnot := (cancel_spec h.consistent.lineage hok).2.1
      refine ⟨.inr (h.cancel hok), fun hc => hnot (by simp [hc]), fun hf => absurd (by simp [hf]) hnot⟩
  | some target =>
    obtain ⟨n, outcome⟩ := target
    obtain ⟨core, core', s₁, s₂, s₃, hstep⟩ := nodeStep_spec h.consistent.lineage htarget hok
    have hconsistent : Consistent (fun j => graph.nodeType j = some .loop) s' :=
      h.consistent.step hok (fun transition hc => by simp [hc, RunStateOp.target] at htarget) not_loop_join
        fun _ _ p hp _ => (loopToReactivate_eq_some.mp hp).2.1
    refine ⟨.inl (Live.of_resolve hconsistent hstep.finished.slot hstep.finished.status), fun hc => ?_, fun hf => ?_⟩
    · obtain ⟨hended, hready⟩ := h.ended hc
      exact hready n (hended.ready_of_nodeStep htarget hstep)
    · rw [hstep.finished.status, resolveRunStatus_eq_failed, hstep.status₃, hf]
      refine ⟨by simp, ?_⟩
      by_cases hout : outcome = .completed
      · obtain ⟨m, hm, hrevives⟩ := hlasting.failed hf n (by simp [RunStateOp.completes, htarget, hout])
        exact ⟨m, hstep.failed h htarget hm fun _ => hrevives⟩
      · obtain ⟨m, hm⟩ := h.failed hf
        exact ⟨m, hstep.failed h htarget hm fun hc => absurd hc hout⟩

theorem live_or_canceled_of_run {ops : List RunStateOp} (hrun : Run (Guarded (RunStateStep graph) (Lasting graph)) s ops s')
    (h : Live graph s ∨ Canceled s) : Live graph s' ∨ Canceled s' :=
  hrun.invariant (P := fun t => Live graph t ∨ Canceled t) (fun _ _ _ ht hstep => ht.elim (fun hl => (hl.step hstep.2 hstep.1).1)
    fun hc => (hc.not_step hstep.2 hstep.1).elim) h

/-- **Terminal statuses are final.** A run of lasting steps keeps the status that a terminal state has; a canceled or
completed state it does not leave at all, and a canceled run has no ready node. -/
theorem terminal_of_run (hgraph : Built graph) {s₀ : WorkflowRunState} (hinit : Initial graph s₀) {ops ops' : List RunStateOp}
    (hrun : Run (Guarded (RunStateStep graph) (Lasting graph)) s₀ ops s) (hterminal : Terminal s.status)
    (hrun' : Run (Guarded (RunStateStep graph) (Lasting graph)) s ops' s') :
    s'.status = s.status ∧ (s.status ≠ .failed → s' = s) ∧ (s.status = .canceled → s'.readyNodeIds = []) := by
  have hs := live_or_canceled_of_run hrun (.inl (hinit.live hgraph))
  have hkept : (Live graph s' ∨ Canceled s') ∧ s'.status = s.status ∧ (s.status ≠ .failed → s' = s) := by
    refine hrun'.invariant (P := fun t => (Live graph t ∨ Canceled t) ∧ t.status = s.status ∧ (s.status ≠ .failed → t = s))
      (fun t op u ht hstep => ?_) ⟨hs, rfl, fun _ => rfl⟩
    obtain ⟨hl | hc, hstatus, -⟩ := ht
    · obtain ⟨hnext, hcompleted, hfailed⟩ := hl.step hstep.2 hstep.1
      have hfail : s.status = .failed := by
        rcases hterminal with h | h | h
        · exact absurd (hstatus.trans h) hl.notCanceled
        · exact absurd (hstatus.trans h) hcompleted
        · exact h
      exact ⟨hnext, (hfailed (hstatus.trans hfail)).trans hfail.symm, fun hne => absurd hfail hne⟩
    · exact (hc.not_step hstep.2 hstep.1).elim
  refine ⟨hkept.2.1, hkept.2.2, fun hcanceled => ?_⟩
  rcases hkept.1 with hl | hc
  · exact absurd (hkept.2.1.trans hcanceled) hl.notCanceled
  · exact hc.ready

end

/-! ## A diamond -/

/-- `1` leads to `2` and to `3`, and both lead to `4`. -/
def diamondDefinition : WorkflowDefinition where
  id := 0
  projectId := 0
  version := "1.0.0"
  name := "diamond"
  entryNodeIds := [1]
  nodes := [1, 2, 3, 4].map fun n => sampleNode n (.transform "t" "m")
  edges := [⟨1, 1, 2, none, 0⟩, ⟨2, 1, 3, none, 0⟩, ⟨3, 2, 4, none, 0⟩, ⟨4, 3, 4, none, 0⟩]

/-- The last node fails while `3` is still ready: only its edge from `2` is activated. -/
def diamondOps : List RunStateOp :=
  [sampleRecord 1 .completed none, sampleRecord 2 .completed none, sampleRecord 4 .failed none]

/-- The steps of a run that is not canceled, and that completes no node once it has failed. -/
def Quiet (_ : DerivedWorkflowGraph) (s : WorkflowRunState) (op : RunStateOp) : Prop :=
  s.status ≠ .canceled ∧ (s.status = .failed → op.completes = none)

instance (graph : DerivedWorkflowGraph) (s : WorkflowRunState) (op : RunStateOp) : Decidable (Quiet graph s op) :=
  inferInstanceAs (Decidable (s.status ≠ .canceled ∧ (s.status = .failed → op.completes = none)))

theorem Quiet.lasting {graph : DerivedWorkflowGraph} {s : WorkflowRunState} {op : RunStateOp} (h : Quiet graph s op) :
    Lasting graph s op :=
  ⟨fun hc => absurd hc h.1, fun hf n hn => by simp [h.2 hf] at hn⟩

/-- The failed run stays failed while `3` begins to wait. -/
theorem diamondRun_terminal : ∃ graph s₀ s s', Built graph ∧ Initial graph s₀ ∧
    Run (Guarded (RunStateStep graph) (Lasting graph)) s₀ diamondOps s ∧ s.status = .failed ∧
    Run (Guarded (RunStateStep graph) (Lasting graph)) s [sampleRecord 3 .waiting none] s' ∧ s'.status = s.status := by
  obtain ⟨graph, s₀, s, hgraph, hinit, hrun, hcheck⟩ := exists_run_of_check Quiet diamondDefinition diamondOps
    (fun graph s => s.status = .failed ∧ (applyRunStateOp graph s (sampleRecord 3 .waiting none)).toOption.any fun _ => true)
    (by decide +kernel)
  obtain ⟨hfailed, hnext⟩ := of_decide_eq_true hcheck
  obtain ⟨s', hs', -⟩ := exists_ok_of_any hnext
  have hlasting : Run (Guarded (RunStateStep graph) (Lasting graph)) s₀ diamondOps s :=
    hrun.mono fun _ _ _ hstep => ⟨hstep.1, hstep.2.lasting⟩
  have hrun' : Run (Guarded (RunStateStep graph) (Lasting graph)) s [sampleRecord 3 .waiting none] s' := by
    refine .snoc .nil ⟨hs', ⟨fun hc => ?_, fun _ n hn => ?_⟩⟩
    · rw [hfailed] at hc
      cases hc
    · simp [sampleRecord, RunStateOp.completes, RunStateOp.target] at hn
  exact ⟨graph, s₀, s, s', hgraph, hinit, hlasting, hfailed, hrun',
    (terminal_of_run hgraph hinit hlasting (.inr (.inr hfailed)) hrun').1⟩

/-- A canceled run executes the node that was ready, and is running again. A failed run is running again when the
completion of `3` makes the failed node ready. -/
theorem terminal_not_final :
    (∃ graph s₀ ops s op s', Built graph ∧ Initial graph s₀ ∧ Run (RunStateStep graph) s₀ ops s ∧ s.status = .canceled ∧
      applyRunStateOp graph s op = .ok s' ∧ s'.status = .running) ∧
    ∃ graph s₀ ops s op s', Built graph ∧ Initial graph s₀ ∧ Run (RunStateStep graph) s₀ ops s ∧ s.status = .failed ∧
      applyRunStateOp graph s op = .ok s' ∧ s'.status = .running := by
  constructor
  · obtain ⟨graph, s₀, s, hgraph, hinit, hrun, hcheck⟩ := exists_run_of_check (fun _ _ _ => True)
      { diamondDefinition with nodes := [sampleNode 1 (.transform "t" "m")], edges := [] } [.cancel ⟨"stop", [], none⟩]
      (fun graph s => s.status = .canceled ∧
        (applyRunStateOp graph s (sampleRecord 1 .completed none)).toOption.any (·.status = .running)) (by decide +kernel)
    obtain ⟨hcanceled, hnext⟩ := of_decide_eq_true hcheck
    obtain ⟨s', hs', hrunning⟩ := exists_ok_of_any hnext
    exact ⟨graph, s₀, _, s, _, s', hgraph, hinit, hrun.forget_guard, hcanceled, hs', of_decide_eq_true hrunning⟩
  · obtain ⟨graph, s₀, s, hgraph, hinit, hrun, hcheck⟩ := exists_run_of_check (fun _ _ _ => True) diamondDefinition
      diamondOps (fun graph s => s.status = .failed ∧
        (applyRunStateOp graph s (sampleRecord 3 .completed none)).toOption.any (·.status = .running)) (by decide +kernel)
    obtain ⟨hfailed, hnext⟩ := of_decide_eq_true hcheck
    obtain ⟨s', hs', hrunning⟩ := exists_ok_of_any hnext
    exact ⟨graph, s₀, _, s, _, s', hgraph, hinit, hrun.forget_guard, hfailed, hs', of_decide_eq_true hrunning⟩

end NousCore.Workflow
