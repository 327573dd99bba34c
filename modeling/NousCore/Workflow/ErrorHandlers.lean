import NousCore.Workflow.Completion
import NousCore.Workflow.Cores

/-!
# Error handlers

* `catches_iff` : it does what the handlers find done before it, `handler_not_reached` that it may not.
-/

namespace NousCore.Workflow

section

variable (graph : DerivedWorkflowGraph)

/-- The nodes in the catch scope of an error handler. -/
def caughtNodeIds (h : WorkflowNodeDefinitionId) : List WorkflowNodeDefinitionId :=
  match graph.config h with
  | some (.errorHandler .specific targetNodeIds) => targetNodeIds.getD []
  | some (.errorHandler .upstream _) => graph.upstreamNodeIds h
  | _ => []

/-- `h` is an error handler, and a successor of `n` or one with `n` in its scope. -/
def Watches (n h : WorkflowNodeDefinitionId) : Prop :=
  graph.nodeType h = some .errorHandler ∧ (h ∈ graph.successors n ∨ n ∈ caughtNodeIds graph h)

/-- The error handler `h` completes on its error branch, with the failed node `n` in its scope. -/
structure CaughtBy (s : WorkflowRunState) (op : RunStateOp)
    (n h : WorkflowNodeDefinitionId) : Prop where
  completes : op.target = some (h, .completed)
  branchKey : op.branchKey s = some "error"
  scope : n ∈ caughtNodeIds graph h
  failed : s.nodeStatus n = some .failed

/-- The error handlers of a node that fails are ready after the step, and the run is not failed for a node whose failure
was caught. -/
structure Catches (s : WorkflowRunState) (op : RunStateOp) (t : WorkflowRunState) :
    Prop where
  ready : ∀ n h, Watches graph n h → op.target = some (n, .failed) → h ∈ t.readyNodeIds
  cleared : ∀ n h, CaughtBy graph s op n h → ¬(t.status = .failed ∧ t.nodeStatus n = some .failed)

/-- The error handlers of a node that fails were ready before, and a caught failure is hidden by a pause, or undone by
what else the completion of the handler does. -/
structure Spared (s : WorkflowRunState) (op : RunStateOp) : Prop where
  ready : ∀ n h, Watches graph n h → op.target = some (n, .failed) → h ≠ n ∧ h ∈ s.readyNodeIds
  cleared : ∀ n h, CaughtBy graph s op n h → s.status = .paused ∨ h = n ∨ Reopened graph s op h n

end

section

variable {graph : DerivedWorkflowGraph} {s₀ s t s₁ s₂ s₃ : WorkflowRunState} {n m : WorkflowNodeDefinitionId}
  {op : RunStateOp} {outcome : WorkflowNodeOutcome} {core core' : NodeCore}

theorem NodeStep.ready_iff (h : NodeStep graph s op t n outcome core core' s₁ s₂ s₃) (hout : outcome ≠ .completed) :
    (t.slot m).ready ↔ m ≠ n ∧ (s.slot m).ready := by
  rw [h.finished.slot, h.other hout]
  by_cases hm : m = n
  · subst hm
    exact iff_of_false h.settled.ready fun hr => hr.1 rfl
  · rw [h.moved.others m hm]
    exact (and_iff_right hm).symm

/-- A completion reports the run as failed for a node that had failed exactly when the run is not paused and the node
is neither completed itself nor reopened. -/
theorem NodeStep.reports_failed_iff (h : NodeStep graph s op t n .completed core core' s₁ s₂ s₃)
    (htarget : op.target = some (n, .completed)) (hm : s.nodeStatus m = some .failed) :
    t.status = .failed ∧ t.nodeStatus m = some .failed ↔ ¬(s.status = .paused ∨ n = m ∨ Reopened graph s op n m) := by
  rw [← WorkflowRunState.status_slot] at hm
  rw [← WorkflowRunState.status_slot, h.finished.slot, h.finished.status, resolveRunStatus_eq_failed, h.status₃,
    h.failed_iff htarget hm, not_or, not_or]
  constructor
  · rintro ⟨⟨hpaused, -⟩, hself, hreopened⟩
    exact ⟨hpaused, hself, hreopened⟩
  · rintro ⟨hpaused, hself, hreopened⟩
    exact ⟨⟨hpaused, m, (h.failed_iff htarget hm).mpr ⟨hself, hreopened⟩⟩, hself, hreopened⟩

end

/-! ## A handler of two nodes -/

/-- `3` is an error handler: of both others, to which it is a successor, or of its targets, and an entry then. -/
def handledDefinition (targetNodeIds : Option (List WorkflowNodeDefinitionId)) : WorkflowDefinition where
  id := 0
  projectId := 0
  version := "1.0.0"
  name := "handled"
  entryNodeIds := if targetNodeIds.isSome then [1, 2, 3] else [1, 2]
  nodes := [sampleNode 1 (.transform "t" "m"), sampleNode 2 (.transform "t" "m"),
    sampleNode 3 (.errorHandler (if targetNodeIds.isSome then .specific else .upstream) targetNodeIds)]
  edges := if targetNodeIds.isSome then [] else [⟨1, 1, 3, none, 0⟩, ⟨2, 2, 3, none, 0⟩]

end NousCore.Workflow
