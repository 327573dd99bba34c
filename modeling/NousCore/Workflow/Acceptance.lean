import NousCore.Workflow.Completion

/-!
# Accepted states

* `Valid` : the refinements of a run state, field by field;
* `Initial.valid`, `applyRunStateOp_valid` : every state of a run passes its schema.
-/

namespace NousCore.Workflow

/-! ## Valid states -/

structure Valid (s : WorkflowRunState) : Prop where
  version : nonEmpty s.workflowVersion = true
  admission : s.admission.isValid = true
  reasonCode : optionalNonEmpty s.reasonCode = true
  evidenceRefs : refs s.evidenceRefs = true
  nodes : ∀ j nodeState, s.node? j = some nodeState → nodeState.isValid = true
  lineages : ∀ lineage ∈ s.dispatchLineage, lineage.isValid = true

section

variable {s s' : WorkflowRunState} {graph : DerivedWorkflowGraph} {n m j : WorkflowNodeDefinitionId}
  {transition : WorkflowTransitionInput} {timestamp : Timestamp} {key : Option String} {op : RunStateOp}

theorem isValid_iff : s.isValid = true ↔ Valid s := by
  have hvalues : s.nodeStates.values.all (·.isValid) = true ↔
      ∀ j nodeState, s.node? j = some nodeState → nodeState.isValid = true := by
    rw [List.all_eq_true]
    constructor
    · intro h j nodeState hnode
      exact h nodeState (Record.mem_values.mpr ⟨j, hnode⟩)
    · intro h nodeState hmem
      obtain ⟨j, hnode⟩ := Record.mem_values.mp hmem
      exact h j nodeState hnode
  simp only [WorkflowRunState.isValid, Bool.and_eq_true, hvalues, List.all_eq_true]
  constructor
  · rintro ⟨⟨⟨⟨⟨hversion, hadmission⟩, hreason⟩, hevidence⟩, hnodes⟩, hlineages⟩
    exact ⟨hversion, hadmission, hreason, hevidence, hnodes, hlineages⟩
  · intro h
    exact ⟨⟨⟨⟨⟨h.version, h.admission⟩, h.reasonCode⟩, h.evidenceRefs⟩, h.nodes⟩, h.lineages⟩

theorem parse_valid (h : WorkflowRunStateSchema.parse s = .ok s') : Valid s' := by
  unfold WorkflowRunStateSchema.parse at h
  split_ifs at h with hvalid
  cases h
  exact isValid_iff.mp hvalid

theorem Initial.valid (hinit : Initial graph s) : Valid s := by
  obtain ⟨input, rfl, h⟩ := hinit
  unfold createInitialWorkflowRunState at h
  split_ifs at h
  exact parse_valid h

theorem applyRunStateOp_valid (h : applyRunStateOp graph s op = .ok s') : Valid s' := by
  cases op with
  | record n result transition checkpointState prepared committed =>
    unfold applyRunStateOp recordWorkflowNodeExecution at h
    dsimp only at h
    split at h
    · cases h
    · split_ifs at h
      obtain ⟨_, -, hparse⟩ := bind_eq_ok.mp h
      exact parse_valid hparse
  | resolve n result transition checkpointState prepared committed =>
    unfold applyRunStateOp resolveWorkflowNodeContinuation at h
    dsimp only at h
    split at h
    · cases h
    split at h
    · cases h
    split at h
    · cases h
    obtain ⟨_, -, hparse⟩ := bind_eq_ok.mp h
    exact parse_valid hparse
  | complete n transition =>
    unfold applyRunStateOp completeWorkflowNodeInRunState at h
    dsimp only at h
    split at h
    · cases h
    · split_ifs at h
      obtain ⟨_, -, hparse⟩ := bind_eq_ok.mp h
      exact parse_valid hparse
  | pause transition =>
    unfold applyRunStateOp pauseWorkflowRunState at h
    split_ifs at h
    exact parse_valid h
  | resume transition =>
    unfold applyRunStateOp resumeWorkflowRunState at h
    split_ifs at h
    exact parse_valid h
  | cancel transition =>
    unfold applyRunStateOp cancelWorkflowRunState at h
    split_ifs at h
    exact parse_valid h

end

end NousCore.Workflow
