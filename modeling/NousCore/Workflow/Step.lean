import NousCore.Workflow.Activation

/-!
# One operation on a run state

* `Settled`, `Moved` : what the outcome of an attempt does to its own node;
* `nodeStep_spec` : a step on a node moves it, and a completion does the rest;
* `resolveRunStatus_eq_failed`, `resolveRunStatus_eq_completed` : the run status, read node by node.
-/

namespace NousCore.Workflow

inductive RunStateOp where
  | record (nodeDefinitionId : WorkflowNodeDefinitionId) (result : WorkflowNodeExecutionResult)
      (transition : WorkflowTransitionInput) (checkpointState : Option WorkflowCheckpointState)
      (lastPreparedCheckpointId lastCommittedCheckpointId : Option Uuid)
  | resolve (nodeDefinitionId : WorkflowNodeDefinitionId) (result : WorkflowNodeExecutionResult)
      (transition : WorkflowTransitionInput) (checkpointState : Option WorkflowCheckpointState)
      (lastPreparedCheckpointId lastCommittedCheckpointId : Option Uuid)
  | complete (nodeDefinitionId : WorkflowNodeDefinitionId) (transition : WorkflowTransitionInput)
  | pause (transition : WorkflowTransitionInput)
  | resume (transition : WorkflowTransitionInput)
  | cancel (transition : WorkflowTransitionInput)

def applyRunStateOp (graph : DerivedWorkflowGraph) (state : WorkflowRunState) :
    RunStateOp → Except String WorkflowRunState
  | .record n result transition checkpointState prepared committed =>
    recordWorkflowNodeExecution ⟨state, graph, n, result, transition, checkpointState, prepared, committed⟩
  | .resolve n result transition checkpointState prepared committed =>
    resolveWorkflowNodeContinuation ⟨state, graph, n, result, transition, checkpointState, prepared, committed⟩
  | .complete n transition => completeWorkflowNodeInRunState state graph n transition
  | .pause transition => pauseWorkflowRunState state transition
  | .resume transition => resumeWorkflowRunState state transition
  | .cancel transition => cancelWorkflowRunState state transition

abbrev RunStateStep (graph : DerivedWorkflowGraph) : WorkflowRunState → RunStateOp → WorkflowRunState → Prop :=
  Succeeds (applyRunStateOp graph)

namespace RunStateOp

/-- The node an operation is about, with the outcome it reports. -/
def target : RunStateOp → Option (WorkflowNodeDefinitionId × WorkflowNodeOutcome)
  | record n result .. => some (n, result.outcome)
  | resolve n result .. => some (n, result.outcome)
  | complete n _ => some (n, .completed)
  | pause _ | resume _ | cancel _ => none

def completes (op : RunStateOp) : Option WorkflowNodeDefinitionId :=
  match op.target with
  | some (n, .completed) => some n
  | _ => none

def isCancel : RunStateOp → Bool
  | cancel _ => true
  | _ => false

/-- Whether a completion by this operation cancels race losers: the direct one does not. -/
def races : RunStateOp → Bool
  | record .. | resolve .. => true
  | _ => false

/-- The branch key that selects the edges a completion activates. -/
def branchKey (s : WorkflowRunState) : RunStateOp → Option String
  | record _ result .. => result.selectedBranchKey
  | resolve n result .. => result.selectedBranchKey.or
      (((s.node? n).bind fun nodeState =>
        nodeState.attempts.find? fun attempt => some attempt.attempt = nodeState.activeAttempt).bind
          (·.selectedBranchKey))
  | complete n _ => (s.slot n).branchKey
  | pause _ | resume _ | cancel _ => none

def checkpointAfter (s : WorkflowRunState) : RunStateOp → WorkflowCheckpointState
  | record _ _ _ checkpointState .. | resolve _ _ _ checkpointState .. => checkpointState.getD s.checkpointState
  | cancel _ => .idle
  | _ => s.checkpointState

end RunStateOp

/-! ## The node itself -/

def NodeCore.attempted (core : NodeCore) (attempt : Nat) (result : WorkflowNodeExecutionResult) : NodeCore :=
  { core.withResult result with
    activeAttempt := if result.outcome = .waiting ∨ result.outcome = .blocked then some attempt else none
    activeWaitState := if result.outcome = .completed then none else result.waitState }

def NodeCore.opened (core : NodeCore) (attempt : WorkflowNodeAttempt) : NodeCore :=
  { core with attempts := core.attempts ++ [attempt] }

def NodeCore.continued (core : NodeCore) (active : Nat) (result : WorkflowNodeExecutionResult)
    (timestamp : Timestamp) : NodeCore :=
  { core with attempts := continueAttempt active (·.continued result timestamp) core.attempts }

def NodeCore.completed (core : NodeCore) : NodeCore := { core with status := .completed, activeWaitState := none }

/-- The slot of a node before and after it has an outcome, with the core it has then. -/
structure Settled (sl sl' : Slot) (outcome : WorkflowNodeOutcome) (core : NodeCore) : Prop where
  core : sl'.core = some core
  ready : ¬sl'.ready
  waiting : sl'.waiting ↔ outcome = .waiting
  blocked : sl'.blocked ↔ outcome = .blocked
  completed : sl'.completed ↔ sl.completed ∨ outcome = .completed
  active : sl'.active ↔ sl.active

structure Moved (s s' : WorkflowRunState) (n : WorkflowNodeDefinitionId) : Prop where
  others : ∀ j, j ≠ n → s'.slot j = s.slot j
  parent : ∀ j, s'.parentOf j = s.parentOf j
  lineage : LineageOk s'
  status : s'.status = s.status
  edges : s'.activatedEdgeIds = s.activatedEdgeIds
  nodup : ListsNodup s → ListsNodup s'

namespace Moved

variable {s s' s'' : WorkflowRunState} {n : WorkflowNodeDefinitionId}

theorem trans (h : Moved s s' n) (h' : Moved s' s'' n) : Moved s s'' n where
  others j hj := (h'.others j hj).trans (h.others j hj)
  parent j := (h'.parent j).trans (h.parent j)
  lineage := h'.lineage
  status := h'.status.trans h.status
  edges := h'.edges.trans h.edges
  nodup hn := h'.nodup (h.nodup hn)

end Moved

section

variable {s s' : WorkflowRunState} {graph : DerivedWorkflowGraph} {n : WorkflowNodeDefinitionId}
  {attempt : WorkflowNodeAttempt} {result : WorkflowNodeExecutionResult} {transition : WorkflowTransitionInput}

theorem moved_modifyNode (hok : LineageOk s) {f : WorkflowNodeRunState → WorkflowNodeRunState}
    (hf : ∀ x, (f x).lastDispatchLineageId = x.lastDispatchLineageId) : Moved s (s.modifyNode n f) n := by
  have hlineage : LineageOk (s.modifyNode n f) ∧ ∀ j, (s.modifyNode n f).parentOf j = s.parentOf j :=
    hok.keep rfl fun j => lastId_modify hf n j
  refine ⟨fun j hj => ?_, hlineage.2, hlineage.1, rfl, rfl, fun h => ⟨h.ready, h.waiting, h.blocked, h.completed⟩⟩
  simp only [WorkflowRunState.slot, WorkflowRunState.node?, WorkflowRunState.modifyNode]
  rw [Record.get?_modify_of_ne _ _ hj]

theorem moved_of_lists (hok : LineageOk s) (hnodes : s'.nodeStates = s.nodeStates)
    (hdispatch : s'.dispatchLineage = s.dispatchLineage) (hstatus : s'.status = s.status)
    (hedges : s'.activatedEdgeIds = s.activatedEdgeIds) (hslot : ∀ j, j ≠ n → s'.slot j = s.slot j)
    (hnodup : ListsNodup s → ListsNodup s') : Moved s s' n := by
  have hlineage : LineageOk s' ∧ ∀ j, s'.parentOf j = s.parentOf j :=
    hok.keep hdispatch fun j => by rw [WorkflowRunState.lastId, WorkflowRunState.lastId, WorkflowRunState.node?, hnodes]; rfl
  exact ⟨hslot, hlineage.2, hlineage.1, hstatus, hedges, hnodup⟩

theorem moved_leaveLists (n : WorkflowNodeDefinitionId) (hok : LineageOk s) : Moved s (leaveLists s n) n :=
  moved_of_lists hok rfl rfl rfl rfl
    (fun j hj => by simp [WorkflowRunState.slot, WorkflowRunState.node?, leaveLists, hj])
    fun h => ⟨nodup_removeNodeId h.ready, nodup_removeNodeId h.waiting, nodup_removeNodeId h.blocked, h.completed⟩

section

variable (graph : DerivedWorkflowGraph)

theorem moved_listCompleted (hok : LineageOk s) : Moved s (listCompleted graph s n) n :=
  moved_of_lists hok rfl rfl rfl rfl
    (fun j hj => by simp [WorkflowRunState.slot, WorkflowRunState.node?, listCompleted, hj])
    fun h => ⟨h.ready, h.waiting, h.blocked, nodup_addNodeId _ _ _⟩

theorem moved_listWaiting (hok : LineageOk s) : Moved s (listWaiting graph s n) n :=
  moved_of_lists hok rfl rfl rfl rfl
    (fun j hj => by simp [WorkflowRunState.slot, WorkflowRunState.node?, listWaiting, hj])
    fun h => ⟨h.ready, nodup_addNodeId _ _ _, h.blocked, h.completed⟩

theorem moved_listBlocked (hok : LineageOk s) : Moved s (listBlocked graph s n) n :=
  moved_of_lists hok rfl rfl rfl rfl
    (fun j hj => by simp [WorkflowRunState.slot, WorkflowRunState.node?, listBlocked, hj])
    fun h => ⟨h.ready, h.waiting, nodup_addNodeId _ _ _, h.completed⟩

theorem moved_trackJoin (n : WorkflowNodeDefinitionId) (hok : LineageOk s) : Moved s (trackJoin graph s n) n ∧
    (trackJoin graph s n).slot n = s.slot n ∧ (trackJoin graph s n).checkpointState = s.checkpointState := by
  have hrefl : Moved s s n := ⟨fun _ _ => rfl, fun _ => rfl, hok, rfl, rfl, id⟩
  unfold trackJoin
  split
  · exact ⟨hrefl, rfl, rfl⟩
  · split_ifs
    · refine ⟨moved_modifyNode hok fun _ => rfl, ?_, rfl⟩
      rw [slot_modifyNode (g := id), if_pos rfl, Option.map_id]
      · rfl
      · intro x
        rfl
    · exact ⟨hrefl, rfl, rfl⟩

theorem slot_leaveLists (s : WorkflowRunState) (n : WorkflowNodeDefinitionId) :
    (leaveLists s n).slot n = { s.slot n with ready := False, waiting := False, blocked := False } := by
  simp [WorkflowRunState.slot, WorkflowRunState.node?, leaveLists]

theorem slot_listCompleted (s : WorkflowRunState) (n : WorkflowNodeDefinitionId) :
    (listCompleted graph s n).slot n = { s.slot n with completed := True } := by
  simp [WorkflowRunState.slot, WorkflowRunState.node?, listCompleted]

theorem slot_listWaiting (s : WorkflowRunState) (n : WorkflowNodeDefinitionId) :
    (listWaiting graph s n).slot n = { s.slot n with waiting := True } := by
  simp [WorkflowRunState.slot, WorkflowRunState.node?, listWaiting]

theorem slot_listBlocked (s : WorkflowRunState) (n : WorkflowNodeDefinitionId) :
    (listBlocked graph s n).slot n = { s.slot n with blocked := True } := by
  simp [WorkflowRunState.slot, WorkflowRunState.node?, listBlocked]

end

/-- The node is taken from the lists of what is outstanding, given the result, and edited. -/
theorem taken_spec (hok : LineageOk s) {core : NodeCore} (hcore : (s.slot n).core = some core)
    {f : WorkflowNodeRunState → WorkflowNodeRunState} {g : NodeCore → NodeCore}
    (hf : ∀ x, (f x).core = g x.core ∧ (f x).lastDispatchLineageId = x.lastDispatchLineageId)
    (timestamp : Timestamp) {s₁ : WorkflowRunState}
    (hs₁ : ((leaveLists s n).modifyNode n (·.withResult result timestamp)).modifyNode n f = s₁) :
    Moved s s₁ n ∧ s₁.slot n = { s.slot n with
      core := some (g (core.withResult result)), ready := False, waiting := False, blocked := False } ∧
      s₁.checkpointState = s.checkpointState := by
  subst hs₁
  have hleft := moved_leaveLists n hok
  have htaken : Moved s ((leaveLists s n).modifyNode n (·.withResult result timestamp)) n :=
    hleft.trans (moved_modifyNode hleft.lineage fun _ => rfl)
  refine ⟨htaken.trans (moved_modifyNode htaken.lineage fun x => (hf x).2), ?_, rfl⟩
  rw [slot_modifyNode fun x => (hf x).1, if_pos rfl, slot_modifyNode (g := (·.withResult result)) fun _ => rfl,
    if_pos rfl, slot_leaveLists, hcore]
  rfl

/-- **The outcome of an attempt.** The node leaves the lists of what is outstanding for the list of its outcome; when
it is completed, the race losers and the successors follow. -/
theorem applyAttemptOutcome_spec (hok : LineageOk s) {core : NodeCore} (hcore : (s.slot n).core = some core)
    (h : applyAttemptOutcome s graph n attempt result transition = .ok s') :
    ∃ s₁, Moved s s₁ n ∧ Settled (s.slot n) (s₁.slot n) result.outcome (core.attempted attempt.attempt result) ∧
      s₁.checkpointState = s.checkpointState ∧ (result.outcome ≠ .completed → s' = s₁) ∧
      (result.outcome = .completed → n ∈ s₁.completedNodeIds ∧ ∃ s₂, RaceCancelled s₁ s₂ graph n ∧
        Activated s₂ s' graph n (attempt.selectedBranchKey.or result.selectedBranchKey)) := by
  unfold applyAttemptOutcome at h
  dsimp only at h
  cases houtcome : result.outcome with
  | completed =>
    simp only [houtcome] at h
    generalize hs₁ : ((leaveLists s n).modifyNode n _).modifyNode n (fun x => (x.setActive none).clearWait) = s₁ at h
    obtain ⟨hcleared, hslot, hcheckpoint⟩ := taken_spec hok hcore (f := fun x => (x.setActive none).clearWait)
      (g := fun core => { core with activeAttempt := none, activeWaitState := none }) (fun _ => ⟨rfl, rfl⟩) _ hs₁
    have hlisted := hcleared.trans (moved_listCompleted graph hcleared.lineage)
    have hrace := cancelRaceLosers_spec graph n transition hlisted.lineage
    have hn : n ∈ (listCompleted graph s₁ n).completedNodeIds := by simp [listCompleted]
    refine ⟨_, hlisted, ?_, hcheckpoint, by simp, fun _ => ⟨hn, _, hrace,
      activateSuccessors_spec hrace.lineage (hrace.completed ▸ hn) h⟩⟩
    rw [slot_listCompleted, hslot]
    exact ⟨by simp [NodeCore.attempted, houtcome], by simp, by simp, by simp, by simp, Iff.rfl⟩
  | waiting =>
    simp only [houtcome] at h
    cases h
    generalize hs₁ : ((leaveLists s n).modifyNode n _).modifyNode n (·.setActive (some attempt.attempt)) = s₁
    obtain ⟨hactive, hslot, hcheckpoint⟩ := taken_spec hok hcore (f := (·.setActive (some attempt.attempt)))
      (g := fun core => { core with activeAttempt := some attempt.attempt }) (fun _ => ⟨rfl, rfl⟩) _ hs₁
    have hlisted := hactive.trans (moved_listWaiting graph hactive.lineage)
    obtain ⟨hjoin, hjoinSlot, hjoinCheckpoint⟩ := moved_trackJoin graph n hlisted.lineage
    refine ⟨_, hlisted.trans hjoin, ?_, hjoinCheckpoint.trans hcheckpoint, fun _ => rfl, by simp⟩
    rw [hjoinSlot, slot_listWaiting, hslot]
    exact ⟨by simp [NodeCore.attempted, NodeCore.withResult, houtcome], by simp, by simp, by simp, by simp, Iff.rfl⟩
  | blocked =>
    simp only [houtcome] at h
    cases h
    generalize hs₁ : ((leaveLists s n).modifyNode n _).modifyNode n (·.setActive (some attempt.attempt)) = s₁
    obtain ⟨hactive, hslot, hcheckpoint⟩ := taken_spec hok hcore (f := (·.setActive (some attempt.attempt)))
      (g := fun core => { core with activeAttempt := some attempt.attempt }) (fun _ => ⟨rfl, rfl⟩) _ hs₁
    refine ⟨_, hactive.trans (moved_listBlocked graph hactive.lineage), ?_, hcheckpoint, fun _ => rfl, by simp⟩
    rw [slot_listBlocked, hslot]
    exact ⟨by simp [NodeCore.attempted, NodeCore.withResult, houtcome], by simp, by simp, by simp, by simp, Iff.rfl⟩
  | failed =>
    simp only [houtcome] at h
    cases h
    obtain ⟨hactive, hslot, hcheckpoint⟩ := taken_spec hok hcore (f := (·.setActive none))
      (g := fun core => { core with activeAttempt := none }) (fun _ => ⟨rfl, rfl⟩) _ rfl
    refine ⟨_, hactive, ?_, hcheckpoint, fun _ => rfl, by simp⟩
    rw [hslot]
    exact ⟨by simp [NodeCore.attempted, NodeCore.withResult, houtcome], by simp, by simp, by simp, by simp, Iff.rfl⟩

end

/-! ## The whole step -/

/-- The last edits of an operation: what a node says is unchanged, and the run status is read off. -/
structure Finished (s s' : WorkflowRunState) : Prop where
  slot : s'.slot = s.slot
  parent : s'.parentOf = s.parentOf
  status : s'.status = resolveRunStatus s
  checkpointState : s'.checkpointState = s.checkpointState
  edges : s'.activatedEdgeIds = s.activatedEdgeIds
  lineage : LineageOk s → LineageOk s'
  nodup : ListsNodup s → ListsNodup s'

theorem finished_settled (s : WorkflowRunState) (transition : WorkflowTransitionInput) (timestamp : Timestamp) :
    Finished s (s.settled transition timestamp) :=
  ⟨rfl, rfl, rfl, rfl, rfl, fun h => ⟨h.ids, h.last⟩, fun h => ⟨h.ready, h.waiting, h.blocked, h.completed⟩⟩

/-- What an operation asks of the node it is about, and what it makes of it. -/
def RunStateOp.Takes (core core' : NodeCore) : RunStateOp → Prop
  | .record _ result .. => core.status = .ready ∧ ∃ id timestamp,
      core' = (core.opened (newAttempt (core.attempts.length + 1) id result timestamp)).attempted
        (core.attempts.length + 1) result
  | .resolve _ result .. => ∃ active timestamp, core.activeAttempt = some active ∧
      (∃ attempt ∈ core.attempts, attempt.attempt = active) ∧
      core' = (core.continued active result timestamp).attempted active result
  | .complete .. => (core.status = .ready ∨ core.status = .running) ∧ core' = core.completed
  | .pause _ | .resume _ | .cancel _ => False

/-- **A step on a node.** The node `n` is taken to `s₁`; when it is completed, the race losers are skipped in `s₂` and
the successors activated in `s₃`. -/
structure NodeStep (graph : DerivedWorkflowGraph) (s : WorkflowRunState) (op : RunStateOp) (s' : WorkflowRunState)
    (n : WorkflowNodeDefinitionId) (outcome : WorkflowNodeOutcome) (core core' : NodeCore)
    (s₁ s₂ s₃ : WorkflowRunState) : Prop where
  before : (s.slot n).core = some core
  takes : op.Takes core core'
  moved : Moved s s₁ n
  settled : Settled (s.slot n) (s₁.slot n) outcome core'
  checkpoint : s₁.checkpointState = op.checkpointAfter s
  other : outcome ≠ .completed → s₃ = s₁
  listed : outcome = .completed → n ∈ s₁.completedNodeIds
  race : outcome = .completed → op.races = true → RaceCancelled s₁ s₂ graph n
  noRace : outcome = .completed → op.races = false → s₂ = s₁
  activated : outcome = .completed → Activated s₂ s₃ graph n (op.branchKey s)
  finished : Finished s₃ s'

section

variable {s s' : WorkflowRunState} {graph : DerivedWorkflowGraph} {n : WorkflowNodeDefinitionId}
  {outcome : WorkflowNodeOutcome} {op : RunStateOp}

theorem moved_updateCheckpointFields (hok : LineageOk s) (n : WorkflowNodeDefinitionId)
    (checkpointState : Option WorkflowCheckpointState) (prepared committed : Option Uuid) :
    Moved s (updateCheckpointFields s checkpointState prepared committed) n :=
  moved_of_lists hok rfl rfl rfl rfl (fun _ _ => rfl) fun h => ⟨h.ready, h.waiting, h.blocked, h.completed⟩

theorem moved_openAttempt (hok : LineageOk s) (hn : s.node? n ≠ none) (number : Nat)
    (transition : WorkflowTransitionInput) (timestamp : Timestamp) (attempt : WorkflowNodeAttempt) :
    Moved s (openAttempt s n (attemptLineage s n number transition timestamp) attempt) n := by
  have hlineage : LineageOk (openAttempt s n (attemptLineage s n number transition timestamp) attempt) ∧ ∀ j,
      (openAttempt s n (attemptLineage s n number transition timestamp) attempt).parentOf j =
        if j = n then s.parentOf n else s.parentOf j := by
    refine hok.push rfl rfl rfl fun j => ?_
    apply lastId_modify_some hn
    intro x
    rfl
  refine ⟨fun j hj => ?_, fun j => ?_, hlineage.1, rfl, rfl, fun h => ⟨h.ready, h.waiting, h.blocked, h.completed⟩⟩
  · simp only [WorkflowRunState.slot, WorkflowRunState.node?, openAttempt]
    rw [Record.get?_modify_of_ne _ _ hj]
  · rw [hlineage.2]
    split_ifs with hj
    · rw [hj]
    · rfl

theorem slot_openAttempt (s : WorkflowRunState) (n : WorkflowNodeDefinitionId) (lineage : WorkflowDispatchLineage)
    (attempt : WorkflowNodeAttempt) : (openAttempt s n lineage attempt).slot n =
      { s.slot n with core := (s.slot n).core.map (·.opened attempt) } := by
  simp only [WorkflowRunState.slot, WorkflowRunState.node?, openAttempt]
  rw [core_modify (g := (·.opened attempt)), if_pos rfl]
  intro x
  rfl

theorem nodeStep_of_outcome (op : RunStateOp) (hraces : op.races = true) {s₀ s₃ : WorkflowRunState}
    {attempt : WorkflowNodeAttempt} {result : WorkflowNodeExecutionResult} {transition : WorkflowTransitionInput}
    {timestamp : Timestamp} {core core₀ : NodeCore}
    (h : applyAttemptOutcome s₀ graph n attempt result transition = .ok s₃)
    (hbefore : (s.slot n).core = some core) (hmoved : Moved s s₀ n)
    (hslot : s₀.slot n = { s.slot n with core := some core₀ })
    (htakes : op.Takes core (core₀.attempted attempt.attempt result))
    (hcheckpoint : s₀.checkpointState = op.checkpointAfter s)
    (hkey : attempt.selectedBranchKey.or result.selectedBranchKey = op.branchKey s) :
    ∃ core core' s₁ s₂ s₃', NodeStep graph s op (s₃.settled transition timestamp) n result.outcome core core' s₁ s₂ s₃' := by
  obtain ⟨s₁, hmoved₁, hsettled, hcheckpoint₁, hother, hcompleted⟩ :=
    applyAttemptOutcome_spec hmoved.lineage (by rw [hslot]) h
  rw [hslot] at hsettled
  have hsettled' : Settled (s.slot n) (s₁.slot n) result.outcome (core₀.attempted attempt.attempt result) :=
    ⟨hsettled.core, hsettled.ready, hsettled.waiting, hsettled.blocked, hsettled.completed, hsettled.active⟩
  by_cases hout : result.outcome = .completed
  · obtain ⟨hlisted, s₂, hrace, hactivated⟩ := hcompleted hout
    exact ⟨core, _, s₁, s₂, s₃, hbefore, htakes, hmoved.trans hmoved₁, hsettled', hcheckpoint₁.trans hcheckpoint,
      fun hne => absurd hout hne, fun _ => hlisted, fun _ _ => hrace,
      fun _ hno => absurd (hraces.symm.trans hno) (by simp), fun _ => hkey ▸ hactivated,
      finished_settled _ _ _⟩
  · exact ⟨core, _, s₁, s₁, s₃, hbefore, htakes, hmoved.trans hmoved₁, hsettled', hcheckpoint₁.trans hcheckpoint,
      hother, fun h => absurd h hout, fun h => absurd h hout, fun h => absurd h hout, fun h => absurd h hout,
      finished_settled _ _ _⟩

variable {checkpointState : Option WorkflowCheckpointState} {prepared committed : Option Uuid}

theorem record_nodeStep (hok : LineageOk s) {result : WorkflowNodeExecutionResult}
    {transition : WorkflowTransitionInput}
    (h : recordWorkflowNodeExecution ⟨s, graph, n, result, transition, checkpointState, prepared, committed⟩ = .ok s') :
    ∃ core core' s₁ s₂ s₃, NodeStep graph s (.record n result transition checkpointState prepared committed) s' n
      result.outcome core core' s₁ s₂ s₃ := by
  unfold recordWorkflowNodeExecution at h
  dsimp only at h
  split at h
  · cases h
  · next nodeState hnode =>
    split_ifs at h with hready
    rw [not_not] at hready
    obtain ⟨s₃, happly, hparse⟩ := bind_eq_ok.mp h
    have hs' := WorkflowRunStateSchema.parse_ok hparse
    subst hs'
    have hcore : (s.slot n).core = some nodeState.core := by simp [WorkflowRunState.slot, hnode]
    have hopen := moved_openAttempt hok (n := n) (by simp [hnode]) (nodeState.attempts.length + 1) transition
      (occurredAt transition s.updatedAt) (newAttempt (nodeState.attempts.length + 1)
        (attemptLineage s n (nodeState.attempts.length + 1) transition (occurredAt transition s.updatedAt)).id result
        (occurredAt transition s.updatedAt))
    refine nodeStep_of_outcome (.record n result transition checkpointState prepared committed) rfl happly hcore
      (hopen.trans (moved_updateCheckpointFields hopen.lineage n checkpointState prepared committed))
      (by
        change (openAttempt s n _ _).slot n = _
        rw [slot_openAttempt, hcore]
        rfl)
      ⟨hready, _, _, rfl⟩ rfl ?_
    simp [newAttempt, RunStateOp.branchKey]

theorem mem_continueAttempt (number : Nat) {f : WorkflowNodeAttempt → WorkflowNodeAttempt}
    (hf : ∀ a, (f a).attempt = a.attempt) : ∀ attempts : List WorkflowNodeAttempt,
      (continueAttempt number f attempts).map (·.attempt) = attempts.map (·.attempt)
  | [] => rfl
  | a :: attempts => by
    unfold continueAttempt
    split_ifs
    · simp [hf]
    · simp [mem_continueAttempt number hf]

theorem resolve_nodeStep (hok : LineageOk s) {result : WorkflowNodeExecutionResult}
    {transition : WorkflowTransitionInput}
    (h : resolveWorkflowNodeContinuation ⟨s, graph, n, result, transition, checkpointState, prepared, committed⟩ =
      .ok s') :
    ∃ core core' s₁ s₂ s₃, NodeStep graph s (.resolve n result transition checkpointState prepared committed) s' n
      result.outcome core core' s₁ s₂ s₃ := by
  unfold resolveWorkflowNodeContinuation at h
  dsimp only at h
  split at h
  · cases h
  next nodeState hnode =>
  split at h
  · cases h
  next activeAttempt hactive =>
  split at h
  · cases h
  next attempt hfind =>
  obtain ⟨s₃, happly, hparse⟩ := bind_eq_ok.mp h
  have hs' := WorkflowRunStateSchema.parse_ok hparse
  subst hs'
  have hcore : (s.slot n).core = some nodeState.core := by simp [WorkflowRunState.slot, hnode]
  have hedited : Moved s (editActiveAttempt s n activeAttempt result (occurredAt transition s.updatedAt)) n :=
    moved_modifyNode hok fun _ => rfl
  have hnumber : attempt.attempt = activeAttempt := by simpa using List.find?_some hfind
  have hslot : (editActiveAttempt s n activeAttempt result (occurredAt transition s.updatedAt)).slot n =
      { s.slot n with
        core := some (nodeState.core.continued activeAttempt result (occurredAt transition s.updatedAt)) } := by
    rw [editActiveAttempt, slot_modifyNode
      (g := (·.continued activeAttempt result (occurredAt transition s.updatedAt))) fun _ => rfl, if_pos rfl, hcore]
    rfl
  refine nodeStep_of_outcome (.resolve n result transition checkpointState prepared committed) rfl happly hcore
    (hedited.trans (moved_updateCheckpointFields hedited.lineage n checkpointState prepared committed)) hslot
    ⟨activeAttempt, _, hactive, ⟨attempt, List.mem_of_find?_eq_some hfind, hnumber⟩, by rw [← hnumber]; rfl⟩ rfl ?_
  have hsome : nodeState.attempts.find? (fun attempt => some attempt.attempt = nodeState.activeAttempt) = some attempt := by
    rw [hactive]
    simpa using hfind
  have hkey : (RunStateOp.resolve n result transition checkpointState prepared committed).branchKey s =
      result.selectedBranchKey.or attempt.selectedBranchKey := by
    simp [RunStateOp.branchKey, hnode, hsome]
  rw [hkey]
  cases h : result.selectedBranchKey <;> simp [WorkflowNodeAttempt.continued, h]

theorem complete_nodeStep (hok : LineageOk s) {transition : WorkflowTransitionInput}
    (h : completeWorkflowNodeInRunState s graph n transition = .ok s') :
    ∃ core core' s₁ s₂ s₃, NodeStep graph s (.complete n transition) s' n .completed core core' s₁ s₂ s₃ := by
  unfold completeWorkflowNodeInRunState at h
  split at h
  · cases h
  next nodeState hnode =>
  split_ifs at h with hstatus
  obtain ⟨s₃, happly, hparse⟩ := bind_eq_ok.mp h
  have hs' := WorkflowRunStateSchema.parse_ok hparse
  subst hs'
  have hcore : (s.slot n).core = some nodeState.core := by simp [WorkflowRunState.slot, hnode]
  have hleft := moved_leaveLists n hok
  have htaken : Moved s ((leaveLists s n).modifyNode n
      (·.completeWith transition (occurredAt transition s.updatedAt))) n :=
    hleft.trans (moved_modifyNode hleft.lineage fun _ => rfl)
  have hslot : ((leaveLists s n).modifyNode n (·.completeWith transition (occurredAt transition s.updatedAt))).slot n =
      { s.slot n with core := some nodeState.core.completed, ready := False, waiting := False, blocked := False } := by
    rw [slot_modifyNode (g := (·.completed)) fun _ => rfl, if_pos rfl, slot_leaveLists, hcore]
    rfl
  have hcheckpoint : ((leaveLists s n).modifyNode n
    (·.completeWith transition (occurredAt transition s.updatedAt))).checkpointState = s.checkpointState := rfl
  generalize (leaveLists s n).modifyNode n (·.completeWith transition (occurredAt transition s.updatedAt)) = s₀ at *
  have hlisted := htaken.trans (moved_listCompleted graph htaken.lineage)
  have hn : n ∈ (listCompleted graph s₀ n).completedNodeIds := by simp [listCompleted]
  have hkey : nodeState.selectedBranchKey = (RunStateOp.complete n transition).branchKey s := by
    rw [RunStateOp.branchKey, Slot.branchKey, hcore]
    rfl
  refine ⟨nodeState.core, _, _, _, s₃, hcore, ⟨(by simpa using hstatus : nodeState.status = .ready ∨ nodeState.status = .running), rfl⟩, hlisted, ?_, hcheckpoint, by simp,
    fun _ => hn, by simp [RunStateOp.races], fun _ _ => rfl,
    fun _ => hkey ▸ activateSuccessors_spec hlisted.lineage hn happly, finished_settled _ _ _⟩
  rw [slot_listCompleted, hslot]
  exact ⟨rfl, by simp, by simp, by simp, by simp, Iff.rfl⟩

theorem nodeStep_spec (hok : LineageOk s) (htarget : op.target = some (n, outcome))
    (h : applyRunStateOp graph s op = .ok s') : ∃ core core' s₁ s₂ s₃, NodeStep graph s op s' n outcome core core' s₁ s₂ s₃ := by
  cases op with
  | record m result transition checkpointState prepared committed =>
    cases htarget
    exact record_nodeStep hok h
  | resolve m result transition checkpointState prepared committed =>
    cases htarget
    exact resolve_nodeStep hok h
  | complete m transition =>
    cases htarget
    exact complete_nodeStep hok h
  | pause _ | resume _ | cancel _ => cases htarget

end

/-! ## Pause, resume, cancel -/

section

variable {s s' : WorkflowRunState} {transition : WorkflowTransitionInput}

/-- Nothing a node says, and no edge, is changed. -/
structure SameNodes (s s' : WorkflowRunState) : Prop where
  slot : s'.slot = s.slot
  parent : s'.parentOf = s.parentOf
  edges : s'.activatedEdgeIds = s.activatedEdgeIds
  checkpointState : s'.checkpointState = s.checkpointState
  lineage : LineageOk s → LineageOk s'
  nodup : ListsNodup s → ListsNodup s'

theorem pause_spec (h : pauseWorkflowRunState s transition = .ok s') :
    SameNodes s s' ∧ s'.status = .paused ∧
      s.status ∉ [.admissionBlocked, .paused, .completed, .failed, .canceled] := by
  unfold pauseWorkflowRunState at h
  split_ifs at h with hstatus
  cases WorkflowRunStateSchema.parse_ok h
  exact ⟨⟨rfl, rfl, rfl, rfl, fun h => ⟨h.ids, h.last⟩, fun h => ⟨h.ready, h.waiting, h.blocked, h.completed⟩⟩, rfl,
    hstatus⟩

theorem resume_spec (h : resumeWorkflowRunState s transition = .ok s') :
    SameNodes s s' ∧ s'.status = resolveRunStatus { s with status := .running } ∧ s.status = .paused := by
  unfold resumeWorkflowRunState at h
  split_ifs at h with hstatus
  cases WorkflowRunStateSchema.parse_ok h
  exact ⟨⟨rfl, rfl, rfl, rfl, fun h => ⟨h.ids, h.last⟩, fun h => ⟨h.ready, h.waiting, h.blocked, h.completed⟩⟩, rfl,
    not_not.mp hstatus⟩

def Slot.cancelNode (sl : Slot) : Slot :=
  { sl with core := sl.core.map fun core => { core with activeAttempt := none, activeWaitState := none } }

/-- A slot of a canceled run: no list of outstanding nodes holds the node, and its status is what it was. -/
def Slot.cancelled (sl : Slot) : Slot :=
  { sl with ready := False, waiting := False, blocked := False, active := False }

theorem slot_cancelNode (transition : WorkflowTransitionInput) (timestamp : Timestamp) (s : WorkflowRunState) (m j : WorkflowNodeDefinitionId) :
    (cancelNode transition timestamp s m).slot j = if j = m then (s.slot j).cancelNode else s.slot j := by
  rw [cancelNode, slot_modifyNode (g := fun core => { core with activeAttempt := none, activeWaitState := none })
    fun _ => rfl]
  rfl

theorem cancelNodes_frame (transition : WorkflowTransitionInput) (timestamp : Timestamp) : ∀ (l : List WorkflowNodeDefinitionId) (s : WorkflowRunState),
    LineageOk s → LineageOk (l.foldl (cancelNode transition timestamp) s) ∧
      (∀ j, (l.foldl (cancelNode transition timestamp) s).parentOf j = s.parentOf j) ∧
      (l.foldl (cancelNode transition timestamp) s).activatedEdgeIds = s.activatedEdgeIds ∧
      (l.foldl (cancelNode transition timestamp) s).completedNodeIds = s.completedNodeIds
  | [], s, hok => ⟨hok, fun _ => rfl, rfl, rfl⟩
  | m :: l, s, hok => by
    have hmoved : Moved s (cancelNode transition timestamp s m) m := moved_modifyNode hok fun _ => rfl
    obtain ⟨hok', hparent, hedges, hcompleted⟩ := cancelNodes_frame transition timestamp l _ hmoved.lineage
    exact ⟨hok', fun j => (hparent j).trans (hmoved.parent j), hedges, hcompleted⟩

theorem mem_affectedNodeIds {j : WorkflowNodeDefinitionId} : j ∈ affectedNodeIds s ↔
    (s.slot j).active ∨ (s.slot j).ready ∨ (s.slot j).waiting ∨ (s.slot j).blocked := by
  simp [affectedNodeIds, List.mem_eraseDups, WorkflowRunState.slot]

theorem Slot.cancelNode_cancelNode (sl : Slot) : sl.cancelNode.cancelNode = sl.cancelNode := by
  simp only [cancelNode, Option.map_map]
  rfl

theorem cancel_spec (hok : LineageOk s) (h : cancelWorkflowRunState s transition = .ok s') :
    s'.status = .canceled ∧ s.status ∉ [.completed, .failed, .canceled] ∧ LineageOk s' ∧
      (∀ j, s'.parentOf j = s.parentOf j) ∧ s'.activatedEdgeIds = s.activatedEdgeIds ∧ (ListsNodup s → ListsNodup s') ∧
      s'.readyNodeIds = [] ∧ ∀ j, s'.slot j = ((s.slot j).when (j ∈ affectedNodeIds s) Slot.cancelNode).cancelled := by
  unfold cancelWorkflowRunState at h
  split_ifs at h with hstatus
  cases WorkflowRunStateSchema.parse_ok h
  obtain ⟨hok', hparent, hedges, hcompleted⟩ :=
    cancelNodes_frame transition (occurredAt transition s.updatedAt) (affectedNodeIds s) s hok
  have hslot := slot_foldl Slot.cancelNode_cancelNode
    (slot_cancelNode transition (occurredAt transition s.updatedAt)) (affectedNodeIds s) s
  generalize (affectedNodeIds s).foldl (cancelNode transition (occurredAt transition s.updatedAt)) s = s₁ at *
  refine ⟨rfl, hstatus, ⟨hok'.ids, hok'.last⟩, hparent, hedges, ?_, rfl, fun j => ?_⟩
  · intro hn
    exact ⟨List.nodup_nil, List.nodup_nil, List.nodup_nil, hcompleted ▸ hn.completed⟩
  · rw [← hslot]
    simp [WorkflowRunState.slot, WorkflowRunState.node?, WorkflowRunState.withTransition, clearRun, Slot.cancelled]

end

/-! ## The run status -/

section

variable {s : WorkflowRunState}

theorem any_failed : s.nodeStates.values.any (·.status = .failed) = true ↔ ∃ n, (s.slot n).status = some .failed := by
  rw [Record.any_values]
  simp only [WorkflowRunState.status_slot, WorkflowRunState.nodeStatus, WorkflowRunState.node?, decide_eq_true_eq,
    Option.map_eq_some_iff]

/-- Every active node is completed or skipped, and there is one. -/
def AllResolved (s : WorkflowRunState) : Prop :=
  (∃ n, (s.slot n).active) ∧ ∀ n, (s.slot n).active → isResolved (s.slot n).status = true

theorem resolveRunStatus_paused (h : s.status = .paused) : resolveRunStatus s = .paused := if_pos h

theorem resolveRunStatus_failed (hp : s.status ≠ .paused) (hf : ∃ n, (s.slot n).status = some .failed) :
    resolveRunStatus s = .failed := by
  rw [resolveRunStatus, if_neg hp, if_pos (any_failed.mpr hf)]

theorem resolveRunStatus_blocked (hp : s.status ≠ .paused) (hf : ¬∃ n, (s.slot n).status = some .failed)
    (hb : ∃ n, (s.slot n).blocked) : resolveRunStatus s = .blockedReview := by
  rw [resolveRunStatus, if_neg hp, if_neg (any_failed.not.mpr hf), if_pos (List.length_pos_iff_exists_mem.mpr hb)]

theorem resolveRunStatus_waiting (hp : s.status ≠ .paused) (hf : ¬∃ n, (s.slot n).status = some .failed)
    (hb : ¬∃ n, (s.slot n).blocked) (hw : (∃ n, (s.slot n).waiting) ∨ s.checkpointState ≠ .idle) :
    resolveRunStatus s = .waiting := by
  rw [resolveRunStatus, if_neg hp, if_neg (any_failed.not.mpr hf),
    if_neg (List.length_pos_iff_exists_mem.not.mpr hb),
    if_pos (hw.imp_left List.length_pos_iff_exists_mem.mpr)]

theorem length_eq_zero_of_forall {l : List WorkflowNodeDefinitionId} (h : ¬∃ n, n ∈ l) : l.length = 0 := by
  by_contra hne
  exact h (List.length_pos_iff_exists_mem.mp (Nat.pos_of_ne_zero hne))

/-- With nothing failed, blocked, waiting or pending a checkpoint, the status is read off the ready and the active
nodes. -/
theorem resolveRunStatus_running (hp : s.status ≠ .paused) (hf : ¬∃ n, (s.slot n).status = some .failed)
    (hb : ¬∃ n, (s.slot n).blocked) (hw : ¬∃ n, (s.slot n).waiting) (hc : s.checkpointState = .idle) :
    ((∃ n, (s.slot n).ready) → resolveRunStatus s = .ready ∨ resolveRunStatus s = .running) ∧
      ((¬∃ n, (s.slot n).ready) → AllResolved s → resolveRunStatus s = .completed) ∧
      ((¬∃ n, (s.slot n).ready) → ¬AllResolved s → resolveRunStatus s = .running) := by
  have hb' := length_eq_zero_of_forall hb
  have hw' := length_eq_zero_of_forall hw
  rw [resolveRunStatus, if_neg hp, if_neg (any_failed.not.mpr hf), if_neg (by omega), if_neg (by simp [hw', hc])]
  refine ⟨fun hr => ?_, fun hr ha => ?_, fun hr ha => ?_⟩
  · have hr' := List.length_pos_iff_exists_mem.mpr hr
    rw [if_neg (by rintro ⟨-, h, -⟩; omega), if_pos hr']
    split_ifs
    · exact .inl rfl
    · exact .inr rfl
  · have hr' := length_eq_zero_of_forall hr
    have hactive := List.length_pos_iff_exists_mem.mpr ha.1
    refine if_pos ⟨?_, hr', hw', hb'⟩
    rw [if_pos hactive]
    refine ⟨hactive, List.all_eq_true.mpr fun n hn => ?_⟩
    rw [← WorkflowRunState.status_slot]
    exact ha.2 n hn
  · have hr' := length_eq_zero_of_forall hr
    rw [if_neg, if_neg (by omega)]
    rintro ⟨⟨hpos, hall⟩, -⟩
    apply ha
    split_ifs at hpos hall with hactive
    · refine ⟨List.length_pos_iff_exists_mem.mp hactive, fun n hn => ?_⟩
      rw [WorkflowRunState.status_slot]
      exact List.all_eq_true.mp hall n hn
    · omega

/-- Nothing is failed, blocked or waiting, and no checkpoint is pending. -/
structure Unhindered (s : WorkflowRunState) : Prop where
  failed : ¬∃ n, (s.slot n).status = some .failed
  blocked : ¬∃ n, (s.slot n).blocked
  waiting : ¬∃ n, (s.slot n).waiting
  idle : s.checkpointState = .idle

theorem resolveRunStatus_cases (s : WorkflowRunState) :
    s.status = .paused ∧ resolveRunStatus s = .paused ∨ s.status ≠ .paused ∧
      ((∃ n, (s.slot n).status = some .failed) ∧ resolveRunStatus s = .failed ∨
        (¬∃ n, (s.slot n).status = some .failed) ∧ (∃ n, (s.slot n).blocked) ∧ resolveRunStatus s = .blockedReview ∨
        (¬∃ n, (s.slot n).status = some .failed) ∧ (¬∃ n, (s.slot n).blocked) ∧
          ((∃ n, (s.slot n).waiting) ∨ s.checkpointState ≠ .idle) ∧ resolveRunStatus s = .waiting ∨
        Unhindered s ∧ (∃ n, (s.slot n).ready) ∧ (resolveRunStatus s = .ready ∨ resolveRunStatus s = .running) ∨
        Unhindered s ∧ (¬∃ n, (s.slot n).ready) ∧ AllResolved s ∧ resolveRunStatus s = .completed ∨
        Unhindered s ∧ (¬∃ n, (s.slot n).ready) ∧ ¬AllResolved s ∧ resolveRunStatus s = .running) := by
  by_cases hp : s.status = .paused
  · exact .inl ⟨hp, resolveRunStatus_paused hp⟩
  refine .inr ⟨hp, ?_⟩
  by_cases hf : ∃ n, (s.slot n).status = some .failed
  · exact .inl ⟨hf, resolveRunStatus_failed hp hf⟩
  by_cases hb : ∃ n, (s.slot n).blocked
  · exact .inr (.inl ⟨hf, hb, resolveRunStatus_blocked hp hf hb⟩)
  by_cases hw : (∃ n, (s.slot n).waiting) ∨ s.checkpointState ≠ .idle
  · exact .inr (.inr (.inl ⟨hf, hb, hw, resolveRunStatus_waiting hp hf hb hw⟩))
  rw [not_or, not_not] at hw
  have hu : Unhindered s := ⟨hf, hb, hw.1, hw.2⟩
  obtain ⟨hready, hcompleted, hrunning⟩ := resolveRunStatus_running hp hf hb hw.1 hw.2
  by_cases hr : ∃ n, (s.slot n).ready
  · exact .inr (.inr (.inr (.inl ⟨hu, hr, hready hr⟩)))
  by_cases ha : AllResolved s
  · exact .inr (.inr (.inr (.inr (.inl ⟨hu, hr, ha, hcompleted hr ha⟩))))
  · exact .inr (.inr (.inr (.inr (.inr ⟨hu, hr, ha, hrunning hr ha⟩))))

theorem resolveRunStatus_eq_failed : resolveRunStatus s = .failed ↔
    s.status ≠ .paused ∧ ∃ n, (s.slot n).status = some .failed := by
  refine ⟨fun h => ?_, fun ⟨hp, hf⟩ => resolveRunStatus_failed hp hf⟩
  rcases resolveRunStatus_cases s with ⟨_, h'⟩ | ⟨hp, ⟨hf, h'⟩ | ⟨_, _, h'⟩ | ⟨_, _, _, h'⟩ | ⟨_, _, h' | h'⟩ |
    ⟨_, _, _, h'⟩ | ⟨_, _, _, h'⟩⟩ <;> first | exact ⟨hp, hf⟩ | (rw [h'] at h; cases h)

theorem resolveRunStatus_eq_completed (h : resolveRunStatus s = .completed) :
    Unhindered s ∧ (¬∃ n, (s.slot n).ready) ∧ AllResolved s := by
  rcases resolveRunStatus_cases s with ⟨_, h'⟩ | ⟨hp, ⟨hf, h'⟩ | ⟨_, _, h'⟩ | ⟨_, _, _, h'⟩ | ⟨_, _, h' | h'⟩ |
    ⟨hu, hr, ha, h'⟩ | ⟨_, _, _, h'⟩⟩ <;> first | exact ⟨hu, hr, ha⟩ | (rw [h'] at h; cases h)

theorem resolveRunStatus_ne_paused (hp : s.status ≠ .paused) : resolveRunStatus s ≠ .paused := by
  intro h
  rcases resolveRunStatus_cases s with ⟨hpaused, _⟩ | ⟨_, ⟨hf, h'⟩ | ⟨_, _, h'⟩ | ⟨_, _, _, h'⟩ | ⟨_, _, h' | h'⟩ |
    ⟨hu, hr, ha, h'⟩ | ⟨_, _, _, h'⟩⟩ <;> first | exact hp hpaused | (rw [h'] at h; cases h)

theorem resolveRunStatus_ne_canceled (s : WorkflowRunState) : resolveRunStatus s ≠ .canceled := by
  intro h
  rcases resolveRunStatus_cases s with ⟨_, h'⟩ | ⟨hp, ⟨hf, h'⟩ | ⟨_, _, h'⟩ | ⟨_, _, _, h'⟩ | ⟨_, _, h' | h'⟩ |
    ⟨hu, hr, ha, h'⟩ | ⟨_, _, _, h'⟩⟩ <;> (rw [h'] at h; cases h)

end

end NousCore.Workflow
