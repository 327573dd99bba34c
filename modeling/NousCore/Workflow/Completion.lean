import NousCore.Workflow.Consistency

/-!
# What a completion does, read off the state before it

* `Activated.nodeStatus`, `Activated.ready`, `Activated.waiting`, `Activated.active` : status and lists of every node after
  the successors are activated;
* `NodeStep.slot₂`, `NodeStep.mem_readiedIds`, `NodeStep.loop` : the races, the successors and the loop node of a step.
-/

namespace NousCore.Workflow

/-! ## After the successors are activated -/

section

variable {s s' : WorkflowRunState} {graph : DerivedWorkflowGraph} {n : WorkflowNodeDefinitionId} {key : Option String}

/-- The nodes that are made ready: the next ready successors, the loop node and the waiting joins. -/
def Readied (s : WorkflowRunState) (graph : DerivedWorkflowGraph) (n : WorkflowNodeDefinitionId) (key : Option String)
    (j : WorkflowNodeDefinitionId) : Prop :=
  j ∈ readiedIds s graph n key ∨ loopToReactivate s graph n = some j ∨ j ∈ waitingJoinNodeIds s graph n

namespace Activated

section

variable (h : Activated s s' graph n key)

include h

section

variable (j : WorkflowNodeDefinitionId)

theorem ready :
    (s'.slot j).ready ↔ (s.slot j).ready ∨ Readied s graph n key j := by
  rw [h.slot, Readied]
  simp only [Slot.when]
  split_ifs <;> simp_all [Slot.makeReady, Slot.resetBody, Slot.reactivateLoop, Slot.reactivateJoin]

theorem waiting :
    (s'.slot j).waiting ↔ (s.slot j).waiting ∧ j ∉ waitingJoinNodeIds s graph n := by
  rw [h.slot]
  simp only [Slot.when]
  split_ifs <;> simp_all [Slot.makeReady, Slot.resetBody, Slot.reactivateLoop, Slot.reactivateJoin]

theorem blocked :
    (s'.slot j).blocked ↔ (s.slot j).blocked := by
  rw [h.slot]
  simp only [Slot.when]
  split_ifs <;> simp_all [Slot.makeReady, Slot.resetBody, Slot.reactivateLoop, Slot.reactivateJoin]

theorem active :
    (s'.slot j).active ↔ (s.slot j).active ∨ j ∈ readiedIds s graph n key ∨ loopToReactivate s graph n = some j := by
  rw [h.slot]
  simp only [Slot.when]
  split_ifs <;> simp_all [Slot.makeReady, Slot.resetBody, Slot.reactivateLoop, Slot.reactivateJoin]

end

theorem core_ne_none {stale : WorkflowNodeDefinitionId → Prop}
    (hs : ∀ j, (s.slot j).Agrees (stale j)) {j : WorkflowNodeDefinitionId} (hj : Readied s graph n key j) :
    (s.slot j).core ≠ none := by
  intro hnone
  have hstatus : (s.slot j).status = none := by rw [Slot.status, hnone, Option.map_none]
  rcases hj with hj | hj | hj
  · exact h.known j hj hnone
  · have hkey := (loopToReactivate_eq_some.mp hj).2.2
    rw [Slot.branchKey, hnone] at hkey
    cases hkey
  · have := (hs j).waitingOnly (mem_waitingJoinNodeIds.mp hj).1
    simp [hstatus] at this

theorem nodeStatus {stale : WorkflowNodeDefinitionId → Prop}
    (hs : ∀ j, (s.slot j).Agrees (stale j)) (j : WorkflowNodeDefinitionId) :
    (Readied s graph n key j → (s'.slot j).status = some .ready) ∧
      (¬Readied s graph n key j → (s'.slot j).status = (s.slot j).status ∨
        j ∈ resetBodyIds s graph n ∧ (s.slot j).status = some .completed ∧ (s'.slot j).status = some .pending) := by
  have hslot := h.slot j
  constructor
  · intro hj
    obtain ⟨core, hcore⟩ := Option.ne_none_iff_exists'.mp (h.core_ne_none hs hj)
    rw [hslot]
    by_cases hjoin : j ∈ waitingJoinNodeIds s graph n
    · rw [Slot.when_pos hjoin]
      simp only [Slot.when]
      split_ifs <;> simp [Slot.status, Slot.reactivateJoin, Slot.reactivateLoop, Slot.resetBody, Slot.makeReady, hcore,
        NodeCore.reset]
    · rw [Slot.when_neg hjoin]
      by_cases hloop : loopToReactivate s graph n = some j
      · rw [Slot.when_pos hloop]
        simp only [Slot.when]
        split_ifs <;> simp [Slot.status, Slot.reactivateLoop, Slot.resetBody, Slot.makeReady, hcore, NodeCore.reset]
      · have hready : j ∈ readiedIds s graph n key := hj.resolve_right (not_or.mpr ⟨hloop, hjoin⟩)
        rw [Slot.when_neg hloop, Slot.when_pos hready, Slot.when]
        split_ifs <;> simp [Slot.status, Slot.resetBody, Slot.makeReady, hcore, NodeCore.resetBody]
  · intro hj
    rw [Readied, not_or, not_or] at hj
    obtain ⟨hready, hloop, hjoin⟩ := hj
    rw [Slot.when_neg hjoin, Slot.when_neg hloop, Slot.when_neg hready] at hslot
    by_cases hbody : j ∈ resetBodyIds s graph n
    · rw [Slot.when_pos hbody] at hslot
      rw [hslot]
      cases hcore : (s.slot j).core with
      | none => simp [Slot.status, Slot.resetBody, hcore]
      | some core =>
        by_cases hdone : core.status = .completed
        · right
          simp [Slot.status, Slot.resetBody, hcore, NodeCore.resetBody, NodeCore.reset, hdone, hbody]
        · left
          simp [Slot.status, Slot.resetBody, hcore, NodeCore.resetBody, hdone]
    · rw [Slot.when_neg hbody] at hslot
      rw [hslot]
      exact .inl rfl

theorem failed_iff (j : WorkflowNodeDefinitionId) :
    (s'.slot j).status = some .failed ↔ (s.slot j).status = some .failed ∧ ¬Readied s graph n key j := by
  rw [h.slot, Readied]
  cases hcore : (s.slot j).core with
  | none =>
    simp only [Slot.when]
    split_ifs <;> simp [Slot.status, Slot.makeReady, Slot.resetBody, Slot.reactivateLoop, Slot.reactivateJoin, hcore]
  | some core =>
    by_cases hdone : core.status = .completed <;> simp only [Slot.when] <;> split_ifs <;>
      simp_all [Slot.status, Slot.makeReady, Slot.resetBody, Slot.reactivateLoop, Slot.reactivateJoin, NodeCore.reset,
        NodeCore.resetBody]

end

end Activated

end

/-! ## Before the step -/

section

variable (graph : DerivedWorkflowGraph)

/-- `m` is cancelled when the completion of `n` wins its race. -/
def Loses (s : WorkflowRunState) (n m : WorkflowNodeDefinitionId) : Prop :=
  Reached graph.successors (fun j => j ≠ n ∧ Cancellable s j) (raceSiblings s graph n) m

/-- `m` loses the race that the completion of `n` wins. Only `n` itself and what is resolved stop the search. -/
def LosesRace (s : WorkflowRunState) (op : RunStateOp) (n m : WorkflowNodeDefinitionId) :
    Prop :=
  op.races = true ∧ Reached graph.successors (fun j => j ≠ n ∧ Cancellable s j) (raceSiblings s graph n) m

/-- `m` is a successor of `n` whose activated inbound sources are completed, once `n` is. -/
def NextReady (s : WorkflowRunState) (op : RunStateOp) (n m : WorkflowNodeDefinitionId) :
    Prop :=
  m ∈ getNextReadyNodeIds graph (n :: s.completedNodeIds)
    (s.activatedEdgeIds ++ getActivatedOutboundEdgeIds graph n (op.branchKey s) (graph.nodeType n)) (some n)

/-- The completion of `n` takes `m` out of a failure: it loses the race, is a loop that goes on or a join that waits, or
is next. -/
def Reopened (s : WorkflowRunState) (op : RunStateOp) (n m : WorkflowNodeDefinitionId) :
    Prop :=
  LosesRace graph s op n m ∨ (NextReady graph s op n m ∧ m ∉ s.readyNodeIds ∧ m ∉ s.waitingNodeIds ∧
    m ∉ s.blockedNodeIds ∧ m ∉ s.completedNodeIds) ∨ loopToReactivate s graph n = some m ∨
    m ∈ waitingJoinNodeIds s graph n

end

theorem candidateIsReady_congr {graph : DerivedWorkflowGraph} {completed completed' : List WorkflowNodeDefinitionId}
    {activated activated' : List WorkflowEdgeId} (hcompleted : ∀ j, j ∈ completed ↔ j ∈ completed')
    (hactivated : ∀ e, e ∈ activated ↔ e ∈ activated') (m : WorkflowNodeDefinitionId) :
    candidateIsReady graph completed activated m = candidateIsReady graph completed' activated' m := by
  have ha : (fun e => decide (e ∈ activated)) = fun e => decide (e ∈ activated') :=
    funext fun e => decide_eq_decide.mpr (hactivated e)
  simp only [candidateIsReady, ha, hcompleted]

section

variable {s s' s₁ s₂ s₃ : WorkflowRunState} {graph : DerivedWorkflowGraph} {n m : WorkflowNodeDefinitionId}
  {stale : WorkflowNodeDefinitionId → Prop} {op : RunStateOp} {outcome : WorkflowNodeOutcome} {core core' : NodeCore}

theorem raceSiblings_congr (h : s'.parentOf n = s.parentOf n) : raceSiblings s' graph n = raceSiblings s graph n := by
  have : (s'.lastLineage n).bind (·.parentNodeDefinitionId) = (s.lastLineage n).bind (·.parentNodeDefinitionId) := h
  rw [raceSiblings, raceSiblings, this]

theorem Moved.raceLoser_iff (h : Moved s s₁ n) (hn : (s₁.slot n).status = some .completed) :
    RaceLoser s₁ graph n m ↔ Loses graph s n m := by
  have hkeep : ∀ j, Cancellable s₁ j ↔ j ≠ n ∧ Cancellable s j := by
    intro j
    by_cases hj : j = n
    · subst hj
      rw [WorkflowRunState.status_slot] at hn
      simp [Cancellable, hn, isResolved]
    · have hstatus : s₁.nodeStatus j = s.nodeStatus j := by
        rw [← WorkflowRunState.status_slot, ← WorkflowRunState.status_slot, h.others j hj]
      simp [Cancellable, hstatus, hj]
  rw [RaceLoser, Loses, raceSiblings_congr (h.parent n), funext fun j => propext (hkeep j)]

namespace NodeStep

section

variable (h : NodeStep graph s op s' n outcome core core' s₁ s₂ s₃)

include h

theorem raceLoser_iff
    (hn : (s₁.slot n).status = some .completed) : RaceLoser s₁ graph n m ↔
      Reached graph.successors (fun j => j ≠ n ∧ Cancellable s j) (raceSiblings s graph n) m :=
  h.moved.raceLoser_iff hn

section

variable (hout : outcome = .completed)

include hout

theorem slot₂
    (hn : (s₁.slot n).status = some .completed) : s₂.slot n = s₁.slot n ∧ ∀ j, j ≠ n →
      (LosesRace graph s op n j → s₂.slot j = (s.slot j).skip) ∧ (¬LosesRace graph s op n j → s₂.slot j = s.slot j) := by
  by_cases hraces : op.races = true
  · have hrace := h.race hout hraces
    refine ⟨hrace.others n fun hl => ((h.raceLoser_iff hn).mp hl).kept.1 rfl, fun j hj => ⟨fun hl => ?_, fun hl => ?_⟩⟩
    · rw [hrace.losers j ((h.raceLoser_iff hn).mpr hl.2), h.moved.others j hj]
    · rw [hrace.others j fun hr => hl ⟨hraces, (h.raceLoser_iff hn).mp hr⟩, h.moved.others j hj]
  · have hsame := h.noRace hout (by simpa using hraces)
    subst hsame
    exact ⟨rfl, fun j hj => ⟨fun hl => absurd hl.1 hraces, fun _ => h.moved.others j hj⟩⟩

theorem edges₂ :
    s₂.activatedEdgeIds = s.activatedEdgeIds := by
  by_cases hraces : op.races = true
  · rw [(h.race hout hraces).same.activatedEdgeIds, h.moved.edges]
  · rw [h.noRace hout (by simpa using hraces), h.moved.edges]

theorem completed₂
    (j : WorkflowNodeDefinitionId) : j ∈ s₂.completedNodeIds ↔ j ∈ n :: s.completedNodeIds := by
  have hsame : s₂.completedNodeIds = s₁.completedNodeIds := by
    by_cases hraces : op.races = true
    · exact (h.race hout hraces).completed
    · rw [h.noRace hout (by simpa using hraces)]
  rw [hsame, List.mem_cons]
  by_cases hj : j = n
  · simp [hj, h.listed hout]
  · have := congrArg Slot.completed (h.moved.others j hj)
    simp only [WorkflowRunState.slot, eq_iff_iff] at this
    simp [hj, this]

theorem mem_readiedIds :
    m ∈ readiedIds s₂ graph n (op.branchKey s) ↔ NextReady graph s op n m ∧
      ¬(s₂.slot m).ready ∧ ¬(s₂.slot m).waiting ∧ ¬(s₂.slot m).blocked ∧ ¬(s₂.slot m).completed := by
  have hedges : ∀ e, e ∈ (activateEdges graph n (op.branchKey s) s₂).activatedEdgeIds ↔ e ∈ s.activatedEdgeIds ++
      getActivatedOutboundEdgeIds graph n (op.branchKey s) (graph.nodeType n) := by
    intro e
    rw [activateEdges, List.mem_eraseDups, h.edges₂ hout]
  rw [NousCore.Workflow.mem_readiedIds, NextReady, mem_getNextReadyNodeIds, mem_getNextReadyNodeIds,
    candidateIsReady_congr (h.completed₂ hout) hedges]
  simp only [hedges]

theorem loop
    (hn : (s₁.slot n).status = some .completed) (hparent : ∀ j, s.parentOf j ≠ some j) :
    loopToReactivate s₂ graph n = loopToReactivate s graph n := by
  refine loopToReactivate_congr (h.parent₂ hout n) fun p hp => ?_
  have hpn : p ≠ n := by
    rintro rfl
    exact hparent p hp
  obtain ⟨hlost, hkept⟩ := (h.slot₂ hout hn).2 p hpn
  by_cases hl : LosesRace graph s op n p
  · rw [hlost hl, branchKey_skip]
  · rw [hkept hl]

end

theorem status₃ : s₃.status = s.status := by
  by_cases hout : outcome = .completed
  · rw [(h.activated hout).status]
    by_cases hraces : op.races = true
    · rw [(h.race hout hraces).same.status, h.moved.status]
    · rw [h.noRace hout (by simpa using hraces), h.moved.status]
  · rw [h.other hout, h.moved.status]

theorem checkpoint₃ :
    s₃.checkpointState = op.checkpointAfter s := by
  by_cases hout : outcome = .completed
  · rw [(h.activated hout).checkpointState, ← h.checkpoint]
    by_cases hraces : op.races = true
    · exact (h.race hout hraces).same.checkpointState
    · rw [h.noRace hout (by simpa using hraces)]
  · rw [h.other hout, h.checkpoint]

end

theorem failed_iff (h : NodeStep graph s op s' n .completed core core' s₁ s₂ s₃)
    (htarget : op.target = some (n, .completed)) (hm : (s.slot m).status = some .failed) :
    (s₃.slot m).status = some .failed ↔ n ≠ m ∧ ¬Reopened graph s op n m := by
  have hn : (s₁.slot n).status = some .completed := by
    rw [Slot.Agrees.status_of_core h.settled.core, h.takes.status htarget]
    rfl
  obtain ⟨hself, hothers⟩ := h.slot₂ rfl hn
  rw [(h.activated rfl).failed_iff]
  by_cases hmn : m = n
  · subst hmn
    simp [hself, hn]
  obtain ⟨hlost, hkept⟩ := hothers m hmn
  by_cases hl : LosesRace graph s op n m
  · refine iff_of_false (fun hf => ?_) fun hr => hr.2 (.inl hl)
    obtain ⟨core, hcore, -⟩ := Option.map_eq_some_iff.mp hm
    rw [hlost hl] at hf
    simp [Slot.status, Slot.skip, NodeCore.reset, hcore] at hf
  · have hslot := hkept hl
    rw [hslot, Reopened, Readied, or_iff_right hl, h.mem_readiedIds rfl, loopToReactivate_eq_some,
      loopToReactivate_eq_some, mem_waitingJoinNodeIds, mem_waitingJoinNodeIds, h.parent₂ rfl, hslot]
    exact and_congr (iff_of_true hm (Ne.symm hmn)) Iff.rfl

end NodeStep

end

end NousCore.Workflow
