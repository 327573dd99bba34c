import NousCore.Workflow.Finality
import NousCore.Workflow.ListsAgree

/-!
# Runs that are not stuck

* `NotStuck s` : a run that is ready, running or waiting has a ready or a waiting node;
* `nestedLoopRun_stuck` : a loop that ends leaves a body node pending, and a failed checkpoint preparation leaves a
  completed run waiting.
-/

namespace NousCore.Workflow

structure NotStuck (s : WorkflowRunState) : Prop where
  outstanding : s.status = .ready ∨ s.status = .running ∨ s.status = .waiting →
    ∃ n, n ∈ s.readyNodeIds ∨ n ∈ s.waitingNodeIds
  completed : s.readyNodeIds = [] → s.waitingNodeIds = [] → s.blockedNodeIds = [] →
    (∀ n, s.nodeStatus n ≠ some .failed) → resolveRunStatus s = .completed

/-- Apart from `n` and the losers of its race no node is ready, waiting, blocked or failed, and the completion of `n`
makes none ready. -/
structure LastOutstanding (graph : DerivedWorkflowGraph) (s : WorkflowRunState) (op : RunStateOp)
    (n : WorkflowNodeDefinitionId) : Prop where
  others : ∀ m, m ≠ n → ¬LosesRace graph s op n m →
    s.nodeStatus m ∉ [some .ready, some .waiting, some .blocked, some .failed]
  next : ∀ m, ¬NextReady graph s op n m
  loop : loopToReactivate s graph n = none

/-- The operation is about a node, and where it completes the last outstanding node, every other active node is
completed or skipped and no checkpoint is pending. -/
structure LeavesNothing (graph : DerivedWorkflowGraph) (s : WorkflowRunState) (op : RunStateOp) : Prop where
  onNode : op.target ≠ none
  resolved : ∀ n ∈ op.completes, LastOutstanding graph s op n → ∀ j ∈ s.activeNodeIds, j ≠ n →
    ¬LosesRace graph s op n j → isResolved (s.nodeStatus j) = true
  idle : ∀ n ∈ op.completes, LastOutstanding graph s op n → op.checkpointAfter s = .idle

/-- No node is ready, waiting, blocked or failed. -/
structure Over (s : WorkflowRunState) : Prop where
  ready : ∀ j, ¬(s.slot j).ready
  waiting : ∀ j, ¬(s.slot j).waiting
  blocked : ∀ j, ¬(s.slot j).blocked
  failed : ∀ j, (s.slot j).status ≠ some .failed

/-- The invariant: outstanding nodes are active, and a run that is over has nothing pending. -/
structure Going (graph : DerivedWorkflowGraph) (s : WorkflowRunState) : Prop where
  consistent : Consistent (fun j => graph.nodeType j = some .loop) s
  notPaused : s.status ≠ .paused
  active : ∀ j, (s.slot j).ready ∨ (s.slot j).waiting ∨ (s.slot j).blocked → (s.slot j).active
  settled : Over s → s.checkpointState = .idle ∧ AllResolved s

section

variable {s s' s₁ s₂ s₃ : WorkflowRunState} {graph : DerivedWorkflowGraph} {n m : WorkflowNodeDefinitionId}
  {op : RunStateOp} {outcome : WorkflowNodeOutcome} {core core' : NodeCore}

theorem resolveRunStatus_over (hpaused : s.status ≠ .paused) (hover : Over s) (hidle : s.checkpointState = .idle)
    (hresolved : AllResolved s) : resolveRunStatus s = .completed :=
  (resolveRunStatus_running hpaused (fun ⟨j, hj⟩ => hover.failed j hj) (fun ⟨j, hj⟩ => hover.blocked j hj)
    (fun ⟨j, hj⟩ => hover.waiting j hj) hidle).2.1 (fun ⟨j, hj⟩ => hover.ready j hj) hresolved

theorem exists_outstanding (hpaused : s.status ≠ .paused) (hover : Over s → s.checkpointState = .idle ∧ AllResolved s)
    (hstatus : resolveRunStatus s = .ready ∨ resolveRunStatus s = .running ∨ resolveRunStatus s = .waiting) :
    ∃ n, (s.slot n).ready ∨ (s.slot n).waiting := by
  by_contra hnone
  push Not at hnone
  have hready : ¬∃ n, (s.slot n).ready := fun ⟨j, hj⟩ => (hnone j).1 hj
  have hwaiting : ¬∃ n, (s.slot n).waiting := fun ⟨j, hj⟩ => (hnone j).2 hj
  by_cases hf : ∃ n, (s.slot n).status = some .failed
  · rw [resolveRunStatus_failed hpaused hf] at hstatus
    simp at hstatus
  · by_cases hb : ∃ n, (s.slot n).blocked
    · rw [resolveRunStatus_blocked hpaused hf hb] at hstatus
      simp at hstatus
    · have hend : Over s := ⟨fun j hj => hready ⟨j, hj⟩, fun j hj => hwaiting ⟨j, hj⟩, fun j hj => hb ⟨j, hj⟩,
        fun j hj => hf ⟨j, hj⟩⟩
      obtain ⟨hidle, hresolved⟩ := hover hend
      rw [resolveRunStatus_over hpaused hend hidle hresolved] at hstatus
      simp at hstatus

theorem Initial.going (hgraph : Built graph) (h : Initial graph s) : Going graph s := by
  have hs := h.spec
  obtain ⟨n, hn⟩ := hgraph.initialReady_ne_nil
  refine ⟨h.consistent hgraph _, by simp [hs.status], fun j hj => ?_, fun hover => ?_⟩
  · simpa [WorkflowRunState.slot, hs.ready, hs.waiting, hs.blocked, hs.active] using hj
  · exact absurd (show (s.slot n).ready by simpa [WorkflowRunState.slot, hs.ready] using hn) (hover.ready n)

section

variable (h : NodeStep graph s op s' n outcome core core' s₁ s₂ s₃)

include h

theorem NodeStep.lastOutstanding (hout : outcome = .completed)
    (hn : (s₁.slot n).status = some .completed) (hgoing : Going graph s)
    (hagrees₂ : ∀ j, (s₂.slot j).Agrees (graph.nodeType j = some .loop)) (hover : Over s₃) :
    LastOutstanding graph s op n ∧ ∀ j, ¬Readied s₂ graph n (op.branchKey s) j := by
  have hactivated := h.activated hout
  obtain ⟨hself, hslot⟩ := h.slot₂ hout hn
  have hidle : ∀ j, ¬Readied s₂ graph n (op.branchKey s) j := fun j hj =>
    hover.ready j ((hactivated.ready j).mpr (.inr hj))
  have hready₂ : ∀ j, ¬(s₂.slot j).ready := fun j hj => hover.ready j ((hactivated.ready j).mpr (.inl hj))
  have hwaiting₂ : ∀ j, ¬(s₂.slot j).waiting := fun j hj =>
    hover.waiting j ((hactivated.waiting j).mpr ⟨hj, fun hjoin => hidle j (.inr (.inr hjoin))⟩)
  have hblocked₂ : ∀ j, ¬(s₂.slot j).blocked := fun j hj => hover.blocked j ((hactivated.blocked j).mpr hj)
  refine ⟨⟨fun m hm hlost hmem => ?_, fun m hnext => ?_, ?_⟩, hidle⟩
  · have hsame := (hslot m hm).2 hlost
    rw [← WorkflowRunState.status_slot, ← hsame] at hmem
    simp only [List.mem_cons, List.not_mem_nil, or_false] at hmem
    rcases hmem with hs | hs | hs | hs
    · exact hready₂ m ((hagrees₂ m).ready.mpr hs)
    · exact hwaiting₂ m ((hagrees₂ m).waiting hs)
    · exact hblocked₂ m ((hagrees₂ m).blocked hs)
    · rcases (hactivated.nodeStatus hagrees₂ m).2 (hidle m) with hsame | ⟨-, hdone, -⟩
      · exact hover.failed m (hsame.trans hs)
      · rw [hs] at hdone
        cases hdone
  · refine hidle m (.inl ((h.mem_readiedIds hout).mpr ⟨hnext, hready₂ m, hwaiting₂ m, hblocked₂ m, fun hdone => ?_⟩))
    have hnot : m ∉ n :: s.completedNodeIds := by
      have := (mem_getNextReadyNodeIds.mp hnext).2
      simp only [candidateIsReady, Bool.and_eq_true, decide_eq_true_eq] at this
      exact this.1.1
    exact hnot ((h.completed₂ hout m).mp hdone)
  · rw [← h.loop hout hn hgoing.consistent.parent]
    cases hl : loopToReactivate s₂ graph n with
    | none => rfl
    | some p => exact absurd (.inr (.inl hl)) (hidle p)

theorem NodeStep.active
    (hn : outcome = .completed → (s₁.slot n).status = some .completed) (hactive : (s.slot n).active)
    (hs : ∀ j, (s.slot j).ready ∨ (s.slot j).waiting ∨ (s.slot j).blocked → (s.slot j).active) :
    ∀ j, (s₃.slot j).ready ∨ (s₃.slot j).waiting ∨ (s₃.slot j).blocked → (s₃.slot j).active := by
  by_cases hout : outcome = .completed
  · obtain ⟨hself, hslot⟩ := h.slot₂ hout (hn hout)
    have hs₂ : ∀ j, (s₂.slot j).ready ∨ (s₂.slot j).waiting ∨ (s₂.slot j).blocked → (s₂.slot j).active := by
      intro j hj
      by_cases hjn : j = n
      · rw [hjn, hself, h.settled.active]
        exact hactive
      · by_cases hlost : LosesRace graph s op n j
        · rw [(hslot j hjn).1 hlost] at hj
          simp [Slot.skip] at hj
        · rw [(hslot j hjn).2 hlost] at hj ⊢
          exact hs j hj
    have hactivated := h.activated hout
    intro j hj
    rw [hactivated.ready, hactivated.waiting, hactivated.blocked] at hj
    rw [hactivated.active]
    rcases hj with (hj | hj | hj | hj) | hj | hj
    · exact .inl (hs₂ j (.inl hj))
    · exact .inr (.inl hj)
    · exact .inr (.inr hj)
    · exact .inl (hs₂ j (.inr (.inl (mem_waitingJoinNodeIds.mp hj).1)))
    · exact .inl (hs₂ j (.inr (.inl hj.1)))
    · exact .inl (hs₂ j (.inr (.inr hj)))
  · rw [h.other hout]
    intro j hj
    by_cases hjn : j = n
    · rw [hjn, h.settled.active]
      exact hactive
    · rw [h.moved.others j hjn] at hj ⊢
      exact hs j hj

theorem NodeStep.completed_of_over
    (hstatus : (s₁.slot n).status = some (mapOutcomeToStatus outcome)) (hover : Over s₃) : outcome = .completed := by
  by_contra hout
  rw [h.other hout] at hover
  cases outcome with
  | completed => exact hout rfl
  | waiting => exact hover.waiting n (h.settled.waiting.mpr rfl)
  | blocked => exact hover.blocked n (h.settled.blocked.mpr rfl)
  | failed => exact hover.failed n hstatus

end

theorem Going.step (h : Going graph s) (hleaves : LeavesNothing graph s op) (hok : applyRunStateOp graph s op = .ok s') :
    Going graph s' ∧ ∃ s₃ : WorkflowRunState, s'.slot = s₃.slot ∧ s₃.status ≠ .paused ∧
      (Over s₃ → s₃.checkpointState = .idle ∧ AllResolved s₃) ∧ s'.status = resolveRunStatus s₃ := by
  obtain ⟨⟨n, outcome⟩, htarget⟩ := Option.ne_none_iff_exists'.mp hleaves.onNode
  obtain ⟨core, core', s₁, s₂, s₃, hstep⟩ := nodeStep_spec h.consistent.lineage htarget hok
  have hconsistent : Consistent (fun j => graph.nodeType j = some .loop) s' :=
    h.consistent.step hok (fun transition hc => by simp [hc, RunStateOp.target] at htarget) not_loop_join
      fun _ _ p hp _ => (loopToReactivate_eq_some.mp hp).2.1
  have hfinished := hstep.finished
  have hpaused₃ : s₃.status ≠ .paused := hstep.status₃ ▸ h.notPaused
  have hagrees := h.consistent.agrees
  have hbefore := (hagrees n).core core hstep.before
  have hagrees₁ := hstep.agrees₁ htarget hagrees
  have hstatus₁ : (s₁.slot n).status = some (mapOutcomeToStatus outcome) := by
    rw [Slot.Agrees.status_of_core hstep.settled.core, (hstep.takes.sound htarget hbefore).2]
  have hn : outcome = .completed → (s₁.slot n).status = some .completed := by
    rintro rfl
    exact hstatus₁
  -- the node of the operation was outstanding, so it is active
  have hactive : (s.slot n).active := by
    have hs := Slot.Agrees.status_of_core hstep.before
    refine h.active n ?_
    rcases hstep.takes.outstanding hbefore with hc | hc | hc
    · exact .inl ((hagrees n).ready.mpr (hs.trans (congrArg some hc)))
    · exact .inr (.inl ((hagrees n).waiting (hs.trans (congrArg some hc))))
    · exact .inr (.inr ((hagrees n).blocked (hs.trans (congrArg some hc))))
  have hover₃ : Over s₃ → s₃.checkpointState = .idle ∧ AllResolved s₃ := by
    intro hover
    have hout := hstep.completed_of_over hstatus₁ hover
    have hagrees₂ := (hstep.raced hout hagrees₁).1
    obtain ⟨hlast, hidle⟩ := hstep.lastOutstanding hout (hn hout) h hagrees₂ hover
    have hcompletes : n ∈ op.completes := by simp [RunStateOp.completes, htarget, hout]
    obtain ⟨hself, hslot⟩ := hstep.slot₂ hout (hn hout)
    have hreset : resetBodyIds s₂ graph n = [] := by
      rw [resetBodyIds, hstep.loop hout (hn hout) h.consistent.parent, hlast.loop, Option.elim_none]
    have hsame : ∀ j, (s₃.slot j).status = (s₂.slot j).status := by
      intro j
      rcases ((hstep.activated hout).nodeStatus hagrees₂ j).2 (hidle j) with hsame | ⟨hmem, -⟩
      · exact hsame
      · simp [hreset] at hmem
    have hactive₃ : ∀ j, (s₃.slot j).active ↔ (s₂.slot j).active := by
      intro j
      rw [(hstep.activated hout).active]
      exact ⟨fun hj => hj.resolve_right fun hr => hidle j (hr.imp_right .inl), .inl⟩
    refine ⟨hstep.checkpoint₃.trans (hleaves.idle n hcompletes hlast), ⟨n, ?_⟩, fun j hj => ?_⟩
    · rw [hactive₃, hself, hstep.settled.active]
      exact hactive
    · rw [hactive₃] at hj
      rw [hsame]
      by_cases hjn : j = n
      · rw [hjn, hself, hn hout]
        rfl
      · by_cases hlost : LosesRace graph s op n j
        · rw [(hslot j hjn).1 hlost] at hj
          exact hj.elim
        · rw [(hslot j hjn).2 hlost] at hj ⊢
          rw [WorkflowRunState.status_slot]
          exact hleaves.resolved n hcompletes hlast j hj hjn hlost
  have hactive₃ := hstep.active hn hactive h.active
  refine ⟨⟨hconsistent, ?_, ?_, fun hover => ?_⟩, s₃, hfinished.slot, hpaused₃, hover₃, hfinished.status⟩
  · rw [hfinished.status]
    exact resolveRunStatus_ne_paused hpaused₃
  · rw [hfinished.slot]
    exact hactive₃
  · have hover' : Over s₃ := by
      refine ⟨fun j => ?_, fun j => ?_, fun j => ?_, fun j => ?_⟩
      · exact hfinished.slot ▸ hover.ready j
      · exact hfinished.slot ▸ hover.waiting j
      · exact hfinished.slot ▸ hover.blocked j
      · exact hfinished.slot ▸ hover.failed j
    rw [hfinished.checkpointState, AllResolved, hfinished.slot]
    exact hover₃ hover'

theorem Going.completed (h : Going graph s) : s.readyNodeIds = [] → s.waitingNodeIds = [] → s.blockedNodeIds = [] →
    (∀ n, s.nodeStatus n ≠ some .failed) → resolveRunStatus s = .completed := by
  intro hready hwaiting hblocked hfailed
  have hover : Over s := by
    refine ⟨fun j => ?_, fun j => ?_, fun j => ?_, fun j => ?_⟩
    · simp [WorkflowRunState.slot, hready]
    · simp [WorkflowRunState.slot, hwaiting]
    · simp [WorkflowRunState.slot, hblocked]
    · rw [WorkflowRunState.status_slot]
      exact hfailed j
  obtain ⟨hidle, hresolved⟩ := h.settled hover
  exact resolveRunStatus_over h.notPaused hover hidle hresolved

/-- **No run is stuck.** In every run over a built graph whose steps leave nothing behind, every state that is ready,
running or waiting has a ready or a waiting node, and once nothing is outstanding or failed the run is completed. -/
theorem notStuck_of_run (hgraph : Built graph) {s₀ : WorkflowRunState} (hinit : Initial graph s₀)
    {ops : List RunStateOp} (hrun : Run (Guarded (RunStateStep graph) (LeavesNothing graph)) s₀ ops s) : NotStuck s := by
  have hgoing := hinit.going hgraph
  have hs : Going graph s ∧ (s.status = .ready ∨ s.status = .running ∨ s.status = .waiting →
      ∃ n, (s.slot n).ready ∨ (s.slot n).waiting) := by
    refine hrun.invariant (P := fun t => Going graph t ∧ (t.status = .ready ∨ t.status = .running ∨ t.status = .waiting →
      ∃ n, (t.slot n).ready ∨ (t.slot n).waiting)) (fun t op u ht hstep => ?_) ⟨hgoing, fun _ => ?_⟩
    · obtain ⟨hu, s₃, hslot, hpaused, hover, hstatus⟩ := ht.1.step hstep.2 hstep.1
      refine ⟨hu, fun hs => ?_⟩
      rw [hstatus] at hs
      rw [hslot]
      exact exists_outstanding hpaused hover hs
    · obtain ⟨n, hn⟩ := hgraph.initialReady_ne_nil
      exact ⟨n, .inl (by simpa [WorkflowRunState.slot, hinit.spec.ready] using hn)⟩
  exact ⟨hs.2, hs.1.completed⟩

end

/-! ## Stuck runs -/

/-- A loop node with one body node. -/
def shortLoopDefinition : WorkflowDefinition :=
  { loopDefinition with
    nodes := [sampleNode 1 (.loop 5 "done" none), sampleNode 2 (.transform "t" "m")]
    edges := [⟨1, 1, 2, some "loop", 0⟩] }

/-- The loop goes on once: its body node is completed, and the loop node is ready again. -/
def shortLoopOps : List RunStateOp := [sampleRecord 1 .completed (some "loop"), sampleRecord 2 .completed none]

/-- The steps on a node that find every other active node resolved and keep the checkpoint idle. -/
def Tidy (_ : DerivedWorkflowGraph) (s : WorkflowRunState) (op : RunStateOp) : Prop :=
  op.target ≠ none ∧ op.checkpointAfter s = .idle ∧
    ∀ n ∈ op.completes, ∀ j ∈ s.activeNodeIds, j ≠ n → isResolved (s.nodeStatus j) = true

instance (graph : DerivedWorkflowGraph) (s : WorkflowRunState) (op : RunStateOp) : Decidable (Tidy graph s op) :=
  inferInstanceAs (Decidable (op.target ≠ none ∧ op.checkpointAfter s = .idle ∧
    ∀ n ∈ op.completes, ∀ j ∈ s.activeNodeIds, j ≠ n → isResolved (s.nodeStatus j) = true))

theorem Tidy.leavesNothing {graph : DerivedWorkflowGraph} {s : WorkflowRunState} {op : RunStateOp} (h : Tidy graph s op) :
    LeavesNothing graph s op :=
  ⟨h.1, fun n hn _ j hj hne _ => h.2.2 n hn j hj hne, fun _ _ _ => h.2.1⟩

theorem loopRun_notStuck : ∃ graph s₀ s, Built graph ∧ Initial graph s₀ ∧
    Run (Guarded (RunStateStep graph) (LeavesNothing graph)) s₀ shortLoopOps s ∧ s.readyNodeIds = [1] ∧ NotStuck s := by
  obtain ⟨graph, s₀, s, hgraph, hinit, hrun, hready⟩ := exists_run_of_check Tidy shortLoopDefinition shortLoopOps
    (fun _ s => s.readyNodeIds = [1]) (by decide +kernel)
  have hleaves : Run (Guarded (RunStateStep graph) (LeavesNothing graph)) s₀ shortLoopOps s :=
    hrun.mono fun _ _ _ hstep => ⟨hstep.1, hstep.2.leavesNothing⟩
  exact ⟨graph, s₀, s, hgraph, hinit, hleaves, of_decide_eq_true hready, notStuck_of_run hgraph hinit hleaves⟩

/-- A checkpoint whose preparation failed is recorded with a completed result. -/
def preparePendingRecord (n : WorkflowNodeDefinitionId) : RunStateOp :=
  match sampleRecord n .completed none with
  | .record n result transition _ prepared committed =>
    .record n { result with sideEffectStatus := .idempotent } transition (some .preparePending) prepared committed
  | op => op

/-- A loop `1` over a loop `2`, which has the exit `3` and the body node `5`; the entry `4` leads to `5` as well. -/
def nestedLoopDefinition : WorkflowDefinition :=
  { loopDefinition with
    entryNodeIds := [1, 4]
    nodes := [sampleNode 1 (.loop 5 "done" none), sampleNode 2 (.loop 5 "done" (some 10)), sampleNode 3 (.transform "t" "m"),
      sampleNode 4 (.transform "t" "m"), sampleNode 5 (.transform "t" "m")]
    edges := [⟨1, 1, 2, some "loop", 0⟩, ⟨2, 2, 5, some "loop", 0⟩, ⟨3, 2, 3, some "exit", 0⟩, ⟨4, 4, 5, none, 0⟩] }

/-- The inner loop exits, goes on in the second round of the outer loop, and is re-activated by its exit node before it
exits again: the body node is reset, and nothing leads to it any more. -/
def nestedLoopOps : List RunStateOp :=
  [sampleRecord 1 .completed (some "loop"), sampleRecord 4 .completed none, sampleRecord 5 .completed none,
    sampleRecord 2 .completed (some "exit"), sampleRecord 1 .completed (some "loop"),
    sampleRecord 2 .waiting (some "loop"), sampleRecord 3 .completed none, sampleRecord 2 .completed (some "exit")]

/-- Every node has been executed and the run keeps running, with the body node that was reset pending. A node whose
checkpoint could not be prepared is completed, and the run keeps waiting. -/
theorem nestedLoopRun_stuck :
    (∃ graph s₀ ops s, Built graph ∧ Initial graph s₀ ∧ Run (RunStateStep graph) s₀ ops s ∧ s.status = .running ∧
      s.readyNodeIds = [] ∧ s.waitingNodeIds = [] ∧ ¬NotStuck s) ∧
    ∃ graph s₀ ops s, Built graph ∧ Initial graph s₀ ∧ Run (RunStateStep graph) s₀ ops s ∧ s.status = .waiting ∧
      s.readyNodeIds = [] ∧ s.waitingNodeIds = [] ∧ ¬NotStuck s := by
  have hstuck : ∀ {s : WorkflowRunState}, s.status = .running ∨ s.status = .waiting → s.readyNodeIds = [] →
      s.waitingNodeIds = [] → ¬NotStuck s := by
    intro s hstatus hready hwaiting h
    obtain ⟨n, hn⟩ := h.outstanding (.inr hstatus)
    simp [hready, hwaiting] at hn
  constructor
  · obtain ⟨graph, s₀, s, hgraph, hinit, hrun, hcheck⟩ := exists_run_of_check (fun _ _ _ => True) nestedLoopDefinition
      nestedLoopOps
      (fun _ s => s.status = .running ∧ s.readyNodeIds = [] ∧ s.waitingNodeIds = []) (by decide +kernel)
    obtain ⟨hstatus, hready, hwaiting⟩ := of_decide_eq_true hcheck
    exact ⟨graph, s₀, _, s, hgraph, hinit, hrun.forget_guard, hstatus, hready, hwaiting,
      hstuck (.inl hstatus) hready hwaiting⟩
  · obtain ⟨graph, s₀, s, hgraph, hinit, hrun, hcheck⟩ := exists_run_of_check (fun _ _ _ => True)
      { shortLoopDefinition with nodes := [sampleNode 1 (.toolExecution "tool" "m" (some "schema://out"))], edges := [] }
      [preparePendingRecord 1]
      (fun _ s => s.status = .waiting ∧ s.readyNodeIds = [] ∧ s.waitingNodeIds = []) (by decide +kernel)
    obtain ⟨hstatus, hready, hwaiting⟩ := of_decide_eq_true hcheck
    exact ⟨graph, s₀, _, s, hgraph, hinit, hrun.forget_guard, hstatus, hready, hwaiting,
      hstuck (.inr hstatus) hready hwaiting⟩

end NousCore.Workflow
