import NousCore.Workflow.Acceptance
import NousCore.Workflow.Cores
import NousCore.Workflow.EngineRuns

/-!
# Resume tokens

A wait hands out a token, and a continuation may carry one.

* `continuation` : the result that a `continueNode` request resolves its node with;
* `LeavesWait` : a request without the token that leaves the wait as it is.
-/

namespace NousCore.Workflow

open Program (lift awaited)

/-! ## What a request resolves its node with -/

/-- The commit that a continuation tries first, when it waits for one. -/
def awaitedCommit (deps : WorkflowEngineDependencies) (state : WorkflowRunState) (nodeState : WorkflowNodeRunState)
    (attempt : WorkflowNodeAttempt) (request : WorkflowContinueNodeRequest) :
    Except String (Option CommitWorkflowCheckpointResult) :=
  if commitsCheckpoint state nodeState then
    (commitWorkflowCheckpoint deps.checkpointManager state (request.checkpointId.or attempt.checkpointId)
      request.witnessRef).map some
  else .ok none

/-- What `continueNode` computes before it resolves the node. -/
def continuation (graph : DerivedWorkflowGraph) (deps : WorkflowEngineDependencies) (state : WorkflowRunState)
    (request : WorkflowContinueNodeRequest) :
    Except String (Option CommitWorkflowCheckpointResult × WorkflowNodeExecutionResult) := do
  let parsed ← request.parse
  let nodeState ← required (state.node? parsed.nodeDefinitionId)
    s!"Unknown workflow node definition id: {parsed.nodeDefinitionId}"
  let attempt ← required (activeAttempt nodeState)
    s!"Workflow node {parsed.nodeDefinitionId} has no active attempt"
  let commit ← awaitedCommit deps state nodeState attempt parsed
  let result ← continuationResult graph deps state nodeState attempt parsed commit
  return (commit, result)

/-- What a node comes to, why, and with what. -/
def WorkflowNodeExecutionResult.summary (result : WorkflowNodeExecutionResult) :
    WorkflowNodeOutcome × String × Option String × Option String :=
  (result.outcome, result.reasonCode, result.outputRef, result.selectedBranchKey)

/-- The outcome of a request, or the error it is refused with. -/
def continuationOutcome (graph : DerivedWorkflowGraph) (deps : WorkflowEngineDependencies) (state : WorkflowRunState)
    (request : WorkflowContinueNodeRequest) :
    Except String (WorkflowNodeOutcome × String × Option String × Option String) :=
  (continuation graph deps state request).map fun answer => answer.2.summary

section

variable {graph : DerivedWorkflowGraph} {deps : WorkflowEngineDependencies} {s t a : WorkflowRunState}
  {request : WorkflowContinueNodeRequest} {n : WorkflowNodeDefinitionId} {nodeState : WorkflowNodeRunState}
  {attempt : WorkflowNodeAttempt} {commit : Option CommitWorkflowCheckpointResult}
  {result : WorkflowNodeExecutionResult}

/-- The parts of a continuation that succeeds. -/
structure Resolves (graph : DerivedWorkflowGraph) (deps : WorkflowEngineDependencies) (s : WorkflowRunState)
    (request : WorkflowContinueNodeRequest) (nodeState : WorkflowNodeRunState) (attempt : WorkflowNodeAttempt)
    (commit : Option CommitWorkflowCheckpointResult) (result : WorkflowNodeExecutionResult) : Prop where
  parsed : request.parse = .ok request
  node : s.node? request.nodeDefinitionId = some nodeState
  active : activeAttempt nodeState = some attempt
  committed : awaitedCommit deps s nodeState attempt request = .ok commit
  resolved : continuationResult graph deps s nodeState attempt request commit = .ok result

theorem alone_commitAwaited (deps : WorkflowEngineDependencies) (s : WorkflowRunState)
    (nodeState : WorkflowNodeRunState) (attempt : WorkflowNodeAttempt) (request : WorkflowContinueNodeRequest) :
    (commitAwaited deps s nodeState attempt request).alone s = (awaitedCommit deps s nodeState attempt request, s) := by
  unfold commitAwaited awaitedCommit
  split_ifs
  · exact Program.alone_awaited _
  · exact Program.alone_lift _

/-- The node is resolved with the result, and with what the commit has come to. -/
def resolveOp (request : WorkflowContinueNodeRequest) (commit : Option CommitWorkflowCheckpointResult)
    (result : WorkflowNodeExecutionResult) : RunStateOp :=
  .resolve request.nodeDefinitionId
    { result with checkpointId := (commit.bind (·.checkpointId)).or result.checkpointId } request.transition
    (commit.map (·.checkpointState)) (commit.bind (·.lastPreparedCheckpointId))
    (commit.bind (·.lastCommittedCheckpointId))

theorem resolves_of_alone (h : (continueNode graph deps request).alone s = (.ok a, t)) :
    ∃ nodeState attempt commit result, Resolves graph deps s request nodeState attempt commit result ∧
      applyRunStateOp graph s (resolveOp request commit result) = .ok t := by
  rw [Workflow.continueNode, alone_get_bind] at h
  obtain ⟨parsed, hparsed, h⟩ := alone_lift_bind.mp h
  rw [parse_continue hparsed] at h hparsed
  obtain ⟨nodeState, hnode, h⟩ := alone_lift_bind.mp h
  obtain ⟨attempt, hattempt, h⟩ := alone_lift_bind.mp h
  obtain ⟨commit, u, hcommit, h⟩ := Program.alone_bind_eq_ok.mp h
  rw [alone_commitAwaited] at hcommit
  obtain ⟨hcommitted, rfl⟩ := Prod.mk.inj hcommit
  obtain ⟨result, hresult, h⟩ := alone_lift_bind.mp h
  exact ⟨nodeState, attempt, commit, result, ⟨hparsed, required_eq_ok.mp hnode, required_eq_ok.mp hattempt,
    hcommitted, hresult⟩, (alone_stores.mp h).1⟩

theorem alone_error_of_commits {p : EngineProgram} (h : p.Commits) {e : String} (halone : p.alone s = (.error e, t)) :
    t = s := by
  induction h with
  | throw e => exact (Prod.mk.inj halone).2.symm
  | await _ ih => exact ih halone
  | write u b => cases halone

theorem alone_error (h : (continueNode graph deps request).alone s = (.error e, t)) : t = s := by
  obtain ⟨next, hnext, hcommits⟩ := engineCall_transaction graph (.continueNode deps request)
  have hnext : Workflow.continueNode graph deps request = .read next := hnext
  rw [hnext] at h
  exact alone_error_of_commits (hcommits s) h

end

/-! ## What an outcome depends on -/

/-- The checkpoint that a continuation commits: the one it names, the one of the attempt, or the last one of the run. -/
def commitTarget (state : WorkflowRunState) (attempt : WorkflowNodeAttempt) (requested : Option Uuid) : Option Uuid :=
  ((requested.or attempt.checkpointId).or state.lastPreparedCheckpointId).or state.lastCommittedCheckpointId

structure SameWait (s s' : WorkflowRunState) (nodeState nodeState' : WorkflowNodeRunState)
    (attempt attempt' : WorkflowNodeAttempt) (w w' : WorkflowNodeWaitState) : Prop where
  wait : nodeState.activeWaitState = some w
  wait' : nodeState'.activeWaitState = some w'
  kind : w'.kind = w.kind
  resumeToken : w'.resumeToken = w.resumeToken
  number : attempt'.attempt = attempt.attempt
  sideEffectStatus : attempt'.sideEffectStatus = attempt.sideEffectStatus
  outputRef : attempt'.outputRef = attempt.outputRef
  selectedBranchKey : attempt'.selectedBranchKey = attempt.selectedBranchKey
  runId : s'.runId = s.runId
  commits : commitsCheckpoint s' nodeState' ↔ commitsCheckpoint s nodeState
  target : ∀ requested, commitTarget s' attempt' requested = commitTarget s attempt requested

section

variable {graph : DerivedWorkflowGraph} {s s' : WorkflowRunState} {nodeState nodeState' : WorkflowNodeRunState}
  {attempt attempt' : WorkflowNodeAttempt} {w w' : WorkflowNodeWaitState}

/-- Two inputs about such states and the same request; which checkpoint the request names does not matter here. -/
structure SameInput (input input' : ResolveWorkflowContinuationInput) (w w' : WorkflowNodeWaitState) : Prop where
  wait : SameWait input.runState input'.runState input.nodeState input'.nodeState input.activeAttempt
    input'.activeAttempt w w'
  definition : input'.nodeDefinition = input.nodeDefinition
  request : input'.request = { input.request with checkpointId := input'.request.checkpointId }

section

variable {input input' : ResolveWorkflowContinuationInput}

section

variable (h : SameInput input input' w w')

include h

theorem SameInput.rejected : input'.request.rejected ↔ input.request.rejected := by
  rw [h.request]
  exact Iff.rfl

theorem SameInput.requestedOutput :
    input'.requestedOutput = input.requestedOutput := by
  rw [ResolveWorkflowContinuationInput.requestedOutput, h.request]
  rfl

theorem SameInput.byKind : (input'.byKind w').summary = (input.byKind w).summary := by
  have hpayload : input'.request.payload = input.request.payload := by rw [h.request]
  have haction : input'.request.action = input.request.action := by rw [h.request]
  unfold ResolveWorkflowContinuationInput.byKind
  rw [h.wait.kind]
  cases w.kind with
  | humanDecision =>
    dsimp only
    by_cases hrejected : input.request.rejected
    · rw [if_pos hrejected, if_pos (h.rejected.mpr hrejected)]
      rfl
    · rw [if_neg hrejected, if_neg (fun hr => hrejected (h.rejected.mp hr))]
      simp only [WorkflowNodeExecutionResult.summary, ResolveWorkflowContinuationInput.corrected,
        ResolveWorkflowContinuationInput.result, h.requestedOutput, h.wait.outputRef, h.definition]
  | asyncBatch =>
    dsimp only
    rw [h.wait.sideEffectStatus, hpayload]
    split_ifs
    · rfl
    · simp only [WorkflowNodeExecutionResult.summary, ResolveWorkflowContinuationInput.corrected,
        ResolveWorkflowContinuationInput.result, h.requestedOutput, h.wait.outputRef, h.wait.selectedBranchKey,
        h.definition]
  | checkpointCommit =>
    dsimp only
    rw [haction]
    split_ifs
    · simp only [WorkflowNodeExecutionResult.summary, ResolveWorkflowContinuationInput.stillWaiting,
        ResolveWorkflowContinuationInput.result, h.wait.outputRef, h.wait.selectedBranchKey]
    · simp only [WorkflowNodeExecutionResult.summary, ResolveWorkflowContinuationInput.corrected,
        ResolveWorkflowContinuationInput.result, h.requestedOutput, h.wait.outputRef, h.wait.selectedBranchKey]
  | parallelJoin =>
    dsimp only
    rw [hpayload]
    split_ifs
    · rfl
    · rfl
  | loopBackoff | retryBackoff => rfl

theorem SameInput.tokenMismatch :
    input'.request.tokenMismatch w' ↔ input.request.tokenMismatch w := by
  unfold WorkflowContinueNodeRequest.tokenMismatch
  rw [h.wait.resumeToken, h.request]

theorem SameInput.stillWaiting (v v' : WorkflowNodeWaitState) (reasonCode : String) :
    (input'.stillWaiting v' reasonCode).summary = (input.stillWaiting v reasonCode).summary := by
  simp only [WorkflowNodeExecutionResult.summary, ResolveWorkflowContinuationInput.stillWaiting,
    ResolveWorkflowContinuationInput.result, h.wait.outputRef, h.wait.selectedBranchKey]

theorem SameInput.resolve :
    (resolveWorkflowContinuation input').map (·.summary) = (resolveWorkflowContinuation input).map (·.summary) := by
  have hcontrol : input'.request.controlState = input.request.controlState := by rw [h.request]
  unfold resolveWorkflowContinuation
  simp only [h.wait.wait, h.wait.wait', hcontrol]
  by_cases htoken : input.request.tokenMismatch w
  · rw [if_pos htoken, if_pos (h.tokenMismatch.mpr htoken)]
    rfl
  · rw [if_neg htoken, if_neg (fun hm => htoken (h.tokenMismatch.mp hm))]
    cases input.request.controlState with
    | hardStopped => rfl
    | running => exact congrArg Except.ok h.byKind
    | pausedReview | resuming => exact congrArg Except.ok (h.stillWaiting _ _ _)

end

end

theorem SameWait.continuationResult (h : SameWait s s' nodeState nodeState' attempt attempt' w w')
    (graph : DerivedWorkflowGraph) (deps : WorkflowEngineDependencies) (request : WorkflowContinueNodeRequest)
    {commit commit' : Option CommitWorkflowCheckpointResult}
    (hcommit : commit'.map (·.committed) = commit.map (·.committed)) :
    (continuationResult graph deps s' nodeState' attempt' request commit').map (·.summary) =
      (continuationResult graph deps s nodeState attempt request commit).map (·.summary) := by
  unfold Workflow.continuationResult
  have hkind : nodeState'.activeWaitState.map (·.kind) = nodeState.activeWaitState.map (·.kind) := by
    rw [h.wait, h.wait', Option.map_some, Option.map_some, h.kind]
  rw [hkind, hcommit]
  by_cases hpending : nodeState.activeWaitState.map (·.kind) = some .checkpointCommit ∧
      commit.map (·.committed) = some false
  · rw [if_pos hpending, if_pos hpending]
    simp only [Except.map, WorkflowNodeExecutionResult.summary, buildCheckpointPendingResult, h.outputRef,
      h.selectedBranchKey]
  · rw [if_neg hpending, if_neg hpending]
    cases findNodeDefinition graph request.nodeDefinitionId with
    | error e => rfl
    | ok definition =>
      have hinput : SameInput
          ⟨s, definition, nodeState, attempt,
            { request with checkpointId := (commit.bind (·.checkpointId)).or request.checkpointId }, deps.handlers.now⟩
          ⟨s', definition, nodeState', attempt',
            { request with checkpointId := (commit'.bind (·.checkpointId)).or request.checkpointId },
            deps.handlers.now⟩ w w' := ⟨h, rfl, rfl⟩
      exact hinput.resolve

theorem commitWorkflowCheckpoint_committed (checkpointManager : Option ICheckpointManager) (s : WorkflowRunState)
    (attempt : WorkflowNodeAttempt) (requested : Option Uuid) (witnessRef : Option String) :
    (commitWorkflowCheckpoint checkpointManager s (requested.or attempt.checkpointId) witnessRef).map (·.committed) =
      match checkpointManager, commitTarget s attempt requested with
      | some manager, some id => manager.commit id (witnessRef.getD s!"workflow:{s.runId}:resume")
      | _, _ => .ok false := by
  unfold commitWorkflowCheckpoint commitTarget
  cases checkpointManager with
  | none => rfl
  | some manager =>
    cases ((requested.or attempt.checkpointId).or s.lastPreparedCheckpointId).or s.lastCommittedCheckpointId with
    | none => rfl
    | some id =>
      dsimp only
      cases manager.commit id (witnessRef.getD s!"workflow:{s.runId}:resume") with
      | error e => rfl
      | ok committed => cases committed <;> rfl

theorem SameWait.commit (h : SameWait s s' nodeState nodeState' attempt attempt' w w')
    (deps : WorkflowEngineDependencies) (request : WorkflowContinueNodeRequest) :
    (awaitedCommit deps s' nodeState' attempt' request).map (·.map (·.committed)) =
      (awaitedCommit deps s nodeState attempt request).map (·.map (·.committed)) := by
  have hcommitted : (commitWorkflowCheckpoint deps.checkpointManager s' (request.checkpointId.or attempt'.checkpointId)
        request.witnessRef).map (·.committed) =
      (commitWorkflowCheckpoint deps.checkpointManager s (request.checkpointId.or attempt.checkpointId)
        request.witnessRef).map (·.committed) := by
    rw [commitWorkflowCheckpoint_committed, commitWorkflowCheckpoint_committed, h.target, h.runId]
  have hsome : ∀ x : Except String CommitWorkflowCheckpointResult,
      (x.map some).map (·.map (·.committed)) = (x.map (·.committed)).map some := fun x => by cases x <;> rfl
  unfold Workflow.awaitedCommit
  by_cases hcommits : commitsCheckpoint s nodeState
  · rw [if_pos hcommits, if_pos (h.commits.mpr hcommits), hsome, hsome, hcommitted]
  · rw [if_neg hcommits, if_neg (fun hc => hcommits (h.commits.mp hc))]

/-- Two computations agree as far as the values that the rest depends on go, and so do the whole ones. -/
theorem map_bind_congr {ε α β γ δ ζ η : Type} {x : Except ε α} {x' : Except ε β} {f : α → Except ε γ}
    {f' : β → Except ε δ} {p : α → ζ} {p' : β → ζ} {q : γ → η} {q' : δ → η} (h : x.map p = x'.map p')
    (hf : ∀ a b, p a = p' b → (f a).map q = (f' b).map q') :
    (x.bind f).map q = (x'.bind f').map q' := by
  cases x with
  | error e =>
    cases x' with
    | error e' => exact congrArg Except.error (Except.error.inj h)
    | ok b => cases h
  | ok a =>
    cases x' with
    | error e' => cases h
    | ok b => exact hf a b (Except.ok.inj h)

theorem SameWait.continuationOutcome (h : SameWait s s' nodeState nodeState' attempt attempt' w w')
    {n : WorkflowNodeDefinitionId} (hnode : s.node? n = some nodeState) (hnode' : s'.node? n = some nodeState')
    (hactive : activeAttempt nodeState = some attempt) (hactive' : activeAttempt nodeState' = some attempt')
    (deps : WorkflowEngineDependencies) {request : WorkflowContinueNodeRequest} (hn : request.nodeDefinitionId = n) :
    continuationOutcome graph deps s' request = continuationOutcome graph deps s request := by
  unfold Workflow.continuationOutcome Workflow.continuation
  cases hparse : request.parse with
  | error e => rfl
  | ok parsed =>
    rw [parse_continue hparse]
    show ((required (s'.node? request.nodeDefinitionId) _).bind _).map _ =
      ((required (s.node? request.nodeDefinitionId) _).bind _).map _
    rw [hn, hnode, hnode']
    show ((required (activeAttempt nodeState') _).bind _).map _ = ((required (activeAttempt nodeState) _).bind _).map _
    rw [hactive, hactive']
    show ((awaitedCommit deps s' nodeState' attempt' request).bind _).map _ =
      ((awaitedCommit deps s nodeState attempt request).bind _).map _
    refine map_bind_congr (h.commit deps request) fun commit' commit hcommit => ?_
    refine map_bind_congr (h.continuationResult graph deps request hcommit) fun result' result hresult => ?_
    exact congrArg Except.ok hresult

end

/-! ## What a request makes of the wait -/

/-- The request leaves it at that: the project is paused, or nobody asks for the commit to be completed. -/
def WorkflowContinueNodeRequest.GoesOnWaiting (request : WorkflowContinueNodeRequest)
    (w : WorkflowNodeWaitState) : Prop :=
  request.controlState = .pausedReview ∨ request.controlState = .resuming ∨
    request.controlState = .running ∧ w.kind = .checkpointCommit ∧ request.action ≠ .complete ∧
      request.action ≠ .resume

inductive Leaves (deps : WorkflowEngineDependencies) (attempt : WorkflowNodeAttempt) (w : WorkflowNodeWaitState)
    (request : WorkflowContinueNodeRequest) (commit : Option CommitWorkflowCheckpointResult)
    (result : WorkflowNodeExecutionResult) : Prop
  | pending (w' : WorkflowNodeWaitState) : w.kind = .checkpointCommit → commit.map (·.committed) = some false →
      result.outcome = .waiting → result.waitState = some w' → w'.resumeToken = some deps.handlers.randomUUID →
      Leaves deps attempt w request commit result
  /-- The wait is over. -/
  | ended : ¬(w.kind = .checkpointCommit ∧ commit.map (·.committed) = some false) →
      request.tokenMismatch w ∨ ¬request.GoesOnWaiting w → result.outcome = .completed ∨ result.waitState = none →
      Leaves deps attempt w request commit result
  | waiting (w' : WorkflowNodeWaitState) :
      ¬(w.kind = .checkpointCommit ∧ commit.map (·.committed) = some false) → ¬request.tokenMismatch w →
      request.GoesOnWaiting w → result.outcome = .waiting → result.waitState = some w' → w'.kind = w.kind →
      w'.resumeToken = w.resumeToken → result.sideEffectStatus = attempt.sideEffectStatus →
      result.checkpointId = attempt.checkpointId → result.outputRef = attempt.outputRef →
      result.selectedBranchKey = attempt.selectedBranchKey → Leaves deps attempt w request commit result

variable {definition : WorkflowNodeDefinition}

section

variable {graph : DerivedWorkflowGraph} {deps : WorkflowEngineDependencies} {s : WorkflowRunState}
  {nodeState : WorkflowNodeRunState} {attempt : WorkflowNodeAttempt} {w : WorkflowNodeWaitState}
  {request : WorkflowContinueNodeRequest} {commit : Option CommitWorkflowCheckpointResult}
  {result : WorkflowNodeExecutionResult}

theorem leaves_byKind (nodeState : WorkflowNodeRunState) {id : Option Uuid} {now : Timestamp}
    (hpending : ¬(w.kind = .checkpointCommit ∧ commit.map (·.committed) = some false))
    (htoken : ¬request.tokenMismatch w) (hcontrol : request.controlState = .running) :
    Leaves deps attempt w request commit
      (ResolveWorkflowContinuationInput.byKind
        ⟨s, definition, nodeState, attempt, { request with checkpointId := id }, now⟩ w) := by
  have hover : w.kind ≠ .checkpointCommit → ¬request.GoesOnWaiting w := by
    rintro hkind (h | h | h)
    · exact absurd (hcontrol.symm.trans h) (by decide)
    · exact absurd (hcontrol.symm.trans h) (by decide)
    · exact hkind h.2.1
  unfold ResolveWorkflowContinuationInput.byKind
  cases hkind : w.kind with
  | humanDecision | asyncBatch =>
    dsimp only
    split_ifs
    · exact .ended hpending (.inr (hover (by simp [hkind]))) (.inr rfl)
    · exact .ended hpending (.inr (hover (by simp [hkind]))) (.inl rfl)
  | checkpointCommit =>
    dsimp only
    split_ifs with haction
    · exact .waiting w hpending htoken (.inr (.inr ⟨hcontrol, hkind, haction.1, haction.2⟩)) rfl rfl rfl rfl rfl rfl
        rfl rfl
    · refine .ended hpending (.inr ?_) (.inl rfl)
      rintro (h | h | h)
      · exact absurd (hcontrol.symm.trans h) (by decide)
      · exact absurd (hcontrol.symm.trans h) (by decide)
      · exact haction h.2.2
  | parallelJoin =>
    dsimp only
    split_ifs
    · exact .ended hpending (.inr (hover (by simp [hkind]))) (.inl rfl)
    · exact .ended hpending (.inr (hover (by simp [hkind]))) (.inl rfl)
  | loopBackoff => exact .ended hpending (.inr (hover (by simp [hkind]))) (.inl rfl)
  | retryBackoff => exact .ended hpending (.inr (hover (by simp [hkind]))) (.inr rfl)

theorem leaves_of_continuationResult (hwait : nodeState.activeWaitState = some w)
    (h : continuationResult graph deps s nodeState attempt request commit = .ok result) :
    Leaves deps attempt w request commit result := by
  unfold continuationResult at h
  rw [hwait, Option.map_some] at h
  by_cases hpending : w.kind = .checkpointCommit ∧ commit.map (·.committed) = some false
  · rw [if_pos ⟨congrArg some hpending.1, hpending.2⟩] at h
    cases h
    exact .pending _ hpending.1 hpending.2 rfl rfl rfl
  · rw [if_neg fun hp => hpending ⟨Option.some.inj hp.1, hp.2⟩] at h
    obtain ⟨definition, -, h⟩ := bind_eq_ok.mp h
    unfold resolveWorkflowContinuation at h
    simp only [hwait] at h
    by_cases htoken : request.tokenMismatch w
    · rw [if_pos (show WorkflowContinueNodeRequest.tokenMismatch { request with
        checkpointId := (commit.bind (·.checkpointId)).or request.checkpointId } w from htoken)] at h
      cases h
      exact .ended hpending (.inl htoken) (.inr rfl)
    · rw [if_neg (show ¬WorkflowContinueNodeRequest.tokenMismatch { request with
        checkpointId := (commit.bind (·.checkpointId)).or request.checkpointId } w from htoken)] at h
      cases hcontrol : request.controlState with
      | hardStopped =>
        rw [hcontrol] at h
        cases h
        refine .ended hpending (.inr ?_) (.inr rfl)
        rintro (hc | hc | hc)
        · exact absurd (hcontrol.symm.trans hc) (by decide)
        · exact absurd (hcontrol.symm.trans hc) (by decide)
        · exact absurd (hcontrol.symm.trans hc.1) (by decide)
      | pausedReview =>
        rw [hcontrol] at h
        cases h
        exact .waiting _ hpending htoken (.inl hcontrol) rfl rfl rfl rfl rfl rfl rfl rfl
      | resuming =>
        rw [hcontrol] at h
        cases h
        exact .waiting _ hpending htoken (.inr (.inl hcontrol)) rfl rfl rfl rfl rfl rfl rfl rfl
      | running =>
        rw [hcontrol] at h
        cases h
        exact leaves_byKind nodeState hpending htoken hcontrol

end

/-! ## The state after a request -/

section

variable {graph : DerivedWorkflowGraph} {s t : WorkflowRunState} {n : WorkflowNodeDefinitionId}
  {nodeState : WorkflowNodeRunState} {attempt : WorkflowNodeAttempt} {result : WorkflowNodeExecutionResult}
  {transition : WorkflowTransitionInput} {checkpointState : Option WorkflowCheckpointState}
  {prepared committed : Option Uuid}

theorem find?_continueAttempt (number : Nat) {f : WorkflowNodeAttempt → WorkflowNodeAttempt}
    (hf : ∀ a, (f a).attempt = a.attempt) : ∀ attempts : List WorkflowNodeAttempt,
    (continueAttempt number f attempts).find? (·.attempt = number) = (attempts.find? (·.attempt = number)).map f
  | [] => rfl
  | a :: attempts => by
    unfold continueAttempt
    by_cases ha : a.attempt = number
    · rw [if_pos ha, List.find?_cons_of_pos (by simp [hf, ha]), List.find?_cons_of_pos (by simp [ha]), Option.map_some]
    · rw [if_neg ha, List.find?_cons_of_neg (by simp [ha]), List.find?_cons_of_neg (by simp [ha]),
        find?_continueAttempt number hf attempts]

theorem exists_node_of_slot {core : NodeCore} (h : (t.slot n).core = some core) :
    ∃ nodeState', t.node? n = some nodeState' ∧ nodeState'.core = core := Option.map_eq_some_iff.mp h

/-- The fields of the run that a result with a wait writes. -/
structure Checkpointed (s t : WorkflowRunState) (checkpointState : Option WorkflowCheckpointState)
    (prepared committed : Option Uuid) : Prop where
  runId : t.runId = s.runId
  checkpointState : t.checkpointState = checkpointState.getD s.checkpointState
  prepared : t.lastPreparedCheckpointId = prepared.or s.lastPreparedCheckpointId
  committed : t.lastCommittedCheckpointId = committed.or s.lastCommittedCheckpointId

theorem Checkpointed.trackJoin (h : Checkpointed s t checkpointState prepared committed) (timestamp : Timestamp) :
    Checkpointed s ((trackJoin graph t n).settled transition timestamp) checkpointState prepared committed := by
  unfold Workflow.trackJoin
  split
  · exact ⟨h.runId, h.checkpointState, h.prepared, h.committed⟩
  · split_ifs
    · exact ⟨h.runId, h.checkpointState, h.prepared, h.committed⟩
    · exact ⟨h.runId, h.checkpointState, h.prepared, h.committed⟩

theorem checkpointed_of_resolve
    (h : applyRunStateOp graph s (.resolve n result transition checkpointState prepared committed) = .ok t)
    (hout : result.outcome = .waiting) : Checkpointed s t checkpointState prepared committed := by
  unfold applyRunStateOp resolveWorkflowNodeContinuation at h
  dsimp only at h
  split at h
  · cases h
  split at h
  · cases h
  split at h
  · cases h
  obtain ⟨s₃, happly, hparse⟩ := bind_eq_ok.mp h
  obtain rfl := WorkflowRunStateSchema.parse_ok hparse
  unfold applyAttemptOutcome at happly
  simp only [hout] at happly
  cases happly
  refine Checkpointed.trackJoin ?_ _
  constructor <;>
    simp only [listWaiting, WorkflowRunState.modifyNode, leaveLists, updateCheckpointFields, editActiveAttempt]

theorem node_of_waiting (hok : LineageOk s) (hnode : s.node? n = some nodeState)
    (hactive : activeAttempt nodeState = some attempt)
    (h : applyRunStateOp graph s (.resolve n result transition checkpointState prepared committed) = .ok t)
    (hout : result.outcome = .waiting) :
    ∃ nodeState' timestamp, t.node? n = some nodeState' ∧ nodeState'.status = .waiting ∧
      nodeState'.activeWaitState = result.waitState ∧
      activeAttempt nodeState' = some (attempt.continued result timestamp) := by
  obtain ⟨core, core', s₁, s₂, s₃, hstep⟩ := nodeStep_spec hok rfl h
  obtain ⟨active, timestamp, hcoreActive, -, hcore'⟩ := hstep.takes
  have hcore : core = nodeState.core := by
    have hbefore := hstep.before
    rw [WorkflowRunState.slot, hnode] at hbefore
    exact (Option.some.inj hbefore).symm
  have hafter : (t.slot n).core = some core' := by
    rw [hstep.finished.slot, hstep.other (by rw [hout]; decide)]
    exact hstep.settled.core
  obtain ⟨nodeState', hnode', hcoreEq⟩ := exists_node_of_slot hafter
  rw [hcore'] at hcoreEq
  refine ⟨nodeState', timestamp, hnode', ?_, ?_, ?_⟩
  · rw [show nodeState'.status = nodeState'.core.status from rfl, hcoreEq]
    simp [NodeCore.attempted, NodeCore.withResult, hout, mapOutcomeToStatus]
  · rw [show nodeState'.activeWaitState = nodeState'.core.activeWaitState from rfl, hcoreEq]
    simp [NodeCore.attempted, hout]
  · have hnumber : nodeState.activeAttempt = some active := by rw [← hcoreActive, hcore]; rfl
    have hfind : nodeState.attempts.find? (·.attempt = active) = some attempt := by
      rw [activeAttempt, hnumber] at hactive
      exact hactive
    have hactive' : nodeState'.activeAttempt = some active := by
      rw [show nodeState'.activeAttempt = nodeState'.core.activeAttempt from rfl, hcoreEq]
      simp [NodeCore.attempted, hout]
    have hattempts : nodeState'.attempts = continueAttempt active (·.continued result timestamp) nodeState.attempts := by
      rw [show nodeState'.attempts = nodeState'.core.attempts from rfl, hcoreEq, hcore]
      rfl
    rw [activeAttempt, hactive', Option.bind_some, hattempts, find?_continueAttempt active (f := (·.continued result timestamp)) (fun _ => rfl),
      hfind,
      Option.map_some]

theorem no_wait_of_over (hok : LineageOk s)
    (h : applyRunStateOp graph s (.resolve n result transition checkpointState prepared committed) = .ok t)
    (hover : result.outcome = .completed ∨ result.waitState = none)
    {nodeState' : WorkflowNodeRunState} (hnode' : t.node? n = some nodeState') :
    nodeState'.activeWaitState = none := by
  obtain ⟨core, taken, s₁, s₂, s₃, hstep⟩ := nodeStep_spec hok rfl h
  obtain ⟨active, timestamp, -, -, htaken⟩ := hstep.takes
  have hafter : (t.slot n).core = some nodeState'.core := by rw [WorkflowRunState.slot, hnode']; rfl
  obtain ⟨core₁, hcore₁, hkeeps⟩ := hstep.keeps n nodeState'.core hafter
  rw [Option.mem_def, hstep.settled.core, Option.some.injEq] at hcore₁
  subst hcore₁
  have hgone : taken.activeWaitState = none := by
    rw [htaken, NodeCore.attempted]
    rcases hover with hcompleted | hnone
    · simp [hcompleted]
    · simp [hnone]
  exact hkeeps.wait.elim id fun hsame => hsame.trans hgone

end

/-! ## Commits -/

/-- The checkpoint manager commits what the request asks for. -/
def CommitSucceeds (deps : WorkflowEngineDependencies) (s : WorkflowRunState) (attempt : WorkflowNodeAttempt)
    (request : WorkflowContinueNodeRequest) : Prop :=
  ∃ manager ∈ deps.checkpointManager, ∃ id ∈ commitTarget s attempt request.checkpointId,
    manager.commit id (request.witnessRef.getD s!"workflow:{s.runId}:resume") = .ok true

/-- What a commit that was tried says. -/
structure Tried (deps : WorkflowEngineDependencies) (s : WorkflowRunState) (attempt : WorkflowNodeAttempt)
    (request : WorkflowContinueNodeRequest) (commit : CommitWorkflowCheckpointResult) : Prop where
  checkpointId : commit.checkpointId = commitTarget s attempt request.checkpointId
  committed : commit.committed = true ↔ CommitSucceeds deps s attempt request
  idle : commit.committed = true → commit.checkpointState = .idle
  pending : commit.committed = false → s.checkpointState = .commitPending → commit.checkpointState = .commitPending
  unnamed : commit.checkpointId = none → commit.lastPreparedCheckpointId = s.lastPreparedCheckpointId ∧
    commit.lastCommittedCheckpointId = s.lastCommittedCheckpointId

section

variable {graph : DerivedWorkflowGraph} {deps : WorkflowEngineDependencies} {s t : WorkflowRunState}
  {n : WorkflowNodeDefinitionId} {nodeState nodeState' : WorkflowNodeRunState} {attempt : WorkflowNodeAttempt}
  {request : WorkflowContinueNodeRequest} {commit : Option CommitWorkflowCheckpointResult}
  {result : WorkflowNodeExecutionResult} {w w' : WorkflowNodeWaitState} {timestamp : Timestamp}

variable {c : CommitWorkflowCheckpointResult}

theorem tried_of_commit
    (h : commitWorkflowCheckpoint deps.checkpointManager s (request.checkpointId.or attempt.checkpointId)
      request.witnessRef = .ok c) : Tried deps s attempt request c := by
  have htarget : ((request.checkpointId.or attempt.checkpointId).or s.lastPreparedCheckpointId).or
      s.lastCommittedCheckpointId = commitTarget s attempt request.checkpointId := rfl
  unfold commitWorkflowCheckpoint at h
  rw [htarget] at h
  cases hmanager : deps.checkpointManager with
  | none =>
    rw [hmanager] at h
    cases h
    refine ⟨rfl, iff_of_false Bool.false_ne_true ?_, fun hc => absurd hc Bool.false_ne_true, fun _ hs => hs,
      fun _ => ⟨rfl, rfl⟩⟩
    rintro ⟨manager, hm, -⟩
    rw [hmanager] at hm
    cases hm
  | some manager =>
    rw [hmanager] at h
    cases hid : commitTarget s attempt request.checkpointId with
    | none =>
      rw [hid] at h
      cases h
      refine ⟨hid.symm, iff_of_false Bool.false_ne_true ?_, fun hc => absurd hc Bool.false_ne_true, fun _ hs => hs,
        fun _ => ⟨rfl, rfl⟩⟩
      rintro ⟨-, -, id, hmem, -⟩
      rw [hid] at hmem
      cases hmem
    | some id =>
      rw [hid] at h
      obtain ⟨committed, hcommitted, h⟩ := bind_eq_ok.mp h
      cases committed with
      | false =>
        cases h
        refine ⟨hid.symm, iff_of_false Bool.false_ne_true ?_, fun hc => absurd hc Bool.false_ne_true, fun _ _ => rfl,
          fun hc => by cases hc⟩
        rintro ⟨manager', hm, id', hmem, hok⟩
        cases hmanager.symm.trans hm
        cases hid.symm.trans hmem
        exact absurd (Except.ok.inj (hcommitted.symm.trans hok)) Bool.false_ne_true
      | true =>
        cases h
        exact ⟨hid.symm, iff_of_true rfl ⟨manager, hmanager, id, hid, hcommitted⟩, fun _ => rfl,
          fun hc => absurd hc.symm Bool.false_ne_true, fun hc => by cases hc⟩

theorem tried_or_none (h : awaitedCommit deps s nodeState attempt request = .ok commit) :
    ¬commitsCheckpoint s nodeState ∧ commit = none ∨
      commitsCheckpoint s nodeState ∧ ∃ c, commit = some c ∧ Tried deps s attempt request c := by
  unfold awaitedCommit at h
  split_ifs at h with hcommits
  · cases hc : commitWorkflowCheckpoint deps.checkpointManager s (request.checkpointId.or attempt.checkpointId)
        request.witnessRef with
    | error e =>
      rw [hc] at h
      cases h
    | ok c =>
      rw [hc] at h
      exact .inr ⟨hcommits, c, (Except.ok.inj h).symm, tried_of_commit hc⟩
  · exact .inl ⟨hcommits, (Except.ok.inj h).symm⟩

theorem commitTarget_eq_none {requested : Option Uuid} (h : commitTarget s attempt requested = none) :
    requested = none ∧ attempt.checkpointId = none ∧ s.lastPreparedCheckpointId = none ∧
      s.lastCommittedCheckpointId = none := by
  simpa [commitTarget, and_assoc] using h

/-- After a request that left the node waiting, the checkpoint that was to be committed is that of the attempt. -/
theorem commitTarget_after (t : WorkflowRunState) (attempt : WorkflowNodeAttempt)
    (result : WorkflowNodeExecutionResult) (timestamp : Timestamp) {id : Uuid}
    (htried : c.checkpointId = some id) (requested : Option Uuid) :
    commitTarget t (attempt.continued
      { result with checkpointId := ((some c).bind (·.checkpointId)).or result.checkpointId } timestamp) requested =
      requested.or (some id) := by
  cases requested <;> simp [commitTarget, WorkflowNodeAttempt.continued, htried]

theorem commitTarget_continued (timestamp : Timestamp) (hresult : result.checkpointId = attempt.checkpointId)
    (hcommit : awaitedCommit deps s nodeState attempt request = .ok commit)
    (hchecked : Checkpointed s t (commit.map (·.checkpointState)) (commit.bind (·.lastPreparedCheckpointId))
      (commit.bind (·.lastCommittedCheckpointId)))
    (htarget : commitsCheckpoint s nodeState →
      commitTarget s attempt request.checkpointId = commitTarget s attempt none) (requested : Option Uuid) :
    commitTarget t (attempt.continued
      { result with checkpointId := (commit.bind (·.checkpointId)).or result.checkpointId } timestamp) requested =
      commitTarget s attempt requested := by
  rcases tried_or_none hcommit with ⟨-, rfl⟩ | ⟨hcommits, c, rfl, htried⟩
  · have hprepared := hchecked.prepared
    have hcommitted := hchecked.committed
    simp only [Option.bind_none, Option.none_or] at hprepared hcommitted
    simp [commitTarget, WorkflowNodeAttempt.continued, hresult, hprepared, hcommitted]
  · cases hid : c.checkpointId with
    | some id =>
      rw [commitTarget_after t attempt result timestamp hid]
      have hnone : commitTarget s attempt none = some id := by
        rw [← htarget hcommits, ← htried.checkpointId, hid]
      cases requested with
      | some other => rfl
      | none => exact hnone.symm
    | none =>
      have hunnamed := htried.unnamed hid
      rw [htried.checkpointId] at hid
      obtain ⟨hrequested, hattempt, hprepared, hcommitted⟩ := commitTarget_eq_none hid
      have hprepared' := hchecked.prepared
      have hcommitted' := hchecked.committed
      simp only [Option.bind_some, hunnamed.1, hunnamed.2, hprepared, hcommitted, Option.none_or] at hprepared' hcommitted'
      simp [commitTarget, WorkflowNodeAttempt.continued, hresult, hattempt, hprepared, hcommitted, hprepared',
        hcommitted', htried.checkpointId, hrequested]

end

/-! ## Harmless requests -/

/-- What a request without the token should leave behind: the node is not completed, it waits with the token, and every
request that carries the token has the outcome it would have had. -/
structure Harmless (graph : DerivedWorkflowGraph) (n : WorkflowNodeDefinitionId) (token : String)
    (s t : WorkflowRunState) : Prop where
  notCompleted : t.nodeStatus n ≠ some .completed
  waits : ∃ nodeState w, t.node? n = some nodeState ∧ nodeState.activeWaitState = some w ∧ w.resumeToken = some token
  same : ∀ deps request, request.nodeDefinitionId = n → request.continuationToken = some token →
    continuationOutcome graph deps t request = continuationOutcome graph deps s request

structure LeavesWait (deps : WorkflowEngineDependencies) (s : WorkflowRunState) (attempt : WorkflowNodeAttempt)
    (w : WorkflowNodeWaitState) (request : WorkflowContinueNodeRequest) : Prop where
  absent : request.continuationToken = none
  goesOn : request.GoesOnWaiting w
  committed : w.kind = .checkpointCommit → CommitSucceeds deps s attempt request
  uncommitted : w.kind ≠ .checkpointCommit → s.checkpointState = .commitPending →
    ¬CommitSucceeds deps s attempt request
  target : w.kind = .checkpointCommit ∨ s.checkpointState = .commitPending →
    commitTarget s attempt request.checkpointId = commitTarget s attempt none

/-- A request with the token that completes the node, or asks for the commit of a checkpoint. -/
def resumeRequest (n : WorkflowNodeDefinitionId) (token : String) (checkpointId : Option Uuid) :
    WorkflowContinueNodeRequest :=
  ⟨n, .running, .complete, some token, none, ⟨"resume", [], none⟩, checkpointId, none⟩

/-- Surroundings that know only how to commit. -/
def committing (commit : Uuid → Except String Bool) : WorkflowEngineDependencies where
  pfcEngine := none
  handlers := ⟨none, none, 0, "token"⟩
  nodeHandlerOverrides := fun _ => none
  checkpointManager := some ⟨fun _ => .ok none, fun id _ => commit id⟩

section

variable {graph : DerivedWorkflowGraph} {deps : WorkflowEngineDependencies} {s t a : WorkflowRunState}
  {n : WorkflowNodeDefinitionId} {nodeState : WorkflowNodeRunState} {attempt : WorkflowNodeAttempt}
  {request : WorkflowContinueNodeRequest} {commit : Option CommitWorkflowCheckpointResult}
  {result : WorkflowNodeExecutionResult} {w : WorkflowNodeWaitState} {token : String}

theorem commitsCheckpoint_iff (hwait : nodeState.activeWaitState = some w) :
    commitsCheckpoint s nodeState ↔ w.kind = .checkpointCommit ∨ s.checkpointState = .commitPending := by
  rw [commitsCheckpoint, hwait, Option.map_some, Option.some.injEq]

theorem parse_resumeRequest (htoken : nonEmpty token = true) (checkpointId : Option Uuid) :
    (resumeRequest n token checkpointId).parse = .ok (resumeRequest n token checkpointId) := by
  refine if_pos ?_
  simp [resumeRequest, optionalNonEmpty, htoken, WorkflowTransitionInput.isValid, refs]
  decide

theorem continuationOutcome_eq (hparse : request.parse = .ok request)
    (hnode : s.node? request.nodeDefinitionId = some nodeState) (hactive : activeAttempt nodeState = some attempt) :
    continuationOutcome graph deps s request =
      ((awaitedCommit deps s nodeState attempt request).bind fun commit =>
        continuationResult graph deps s nodeState attempt request commit).map (·.summary) := by
  unfold continuationOutcome continuation
  rw [hparse]
  show ((required (s.node? request.nodeDefinitionId) _).bind _).map _ = _
  rw [hnode]
  show ((required (activeAttempt nodeState) _).bind _).map _ = _
  rw [hactive]
  show ((awaitedCommit deps s nodeState attempt request).bind _).map _ = _
  cases awaitedCommit deps s nodeState attempt request with
  | error e => rfl
  | ok commit =>
    show ((continuationResult graph deps s nodeState attempt request commit).bind _).map _ =
      (continuationResult graph deps s nodeState attempt request commit).map _
    cases continuationResult graph deps s nodeState attempt request commit <;> rfl

theorem exists_continuationResult
    (hdefinition : findNodeDefinition graph request.nodeDefinitionId = .ok definition)
    (hwait : nodeState.activeWaitState = some w) (commit : Option CommitWorkflowCheckpointResult) :
    ∃ result, continuationResult graph deps s nodeState attempt request commit = .ok result := by
  unfold continuationResult
  split_ifs
  · exact ⟨_, rfl⟩
  · exact ⟨_, rfl⟩
  · rw [hdefinition]
    unfold resolveWorkflowContinuation
    simp only [hwait]
    split_ifs
    · exact ⟨_, rfl⟩
    · split <;> exact ⟨_, rfl⟩

variable {stop : Uuid → Except String Bool}

theorem outcome_of_commit_error {id : Uuid} {checkpointId : Option Uuid}
    (htoken : nonEmpty token = true) (hnode : s.node? n = some nodeState)
    (hactive : activeAttempt nodeState = some attempt) (hcommits : commitsCheckpoint s nodeState)
    (hid : commitTarget s attempt checkpointId = some id) (hstop : stop id = .error "stop") :
    continuationOutcome graph (committing stop) s (resumeRequest n token checkpointId) = .error "stop" := by
  rw [continuationOutcome_eq (parse_resumeRequest htoken checkpointId) hnode hactive]
  have hcommitted := commitWorkflowCheckpoint_committed (committing stop).checkpointManager s attempt checkpointId
    (resumeRequest n token checkpointId).witnessRef
  simp only [hid, committing, hstop] at hcommitted
  unfold awaitedCommit
  rw [if_pos hcommits]
  cases hc : commitWorkflowCheckpoint (committing stop).checkpointManager s
      ((resumeRequest n token checkpointId).checkpointId.or attempt.checkpointId)
      (resumeRequest n token checkpointId).witnessRef with
  | error e =>
    have he : e = "stop" := Except.error.inj ((congrArg (Except.map (·.committed)) hc).symm.trans hcommitted)
    rw [he]
    rfl
  | ok c => cases (congrArg (Except.map (·.committed)) hc).symm.trans hcommitted

theorem outcome_of_commit_ok {checkpointId : Option Uuid}
    (hdefinition : findNodeDefinition graph n = .ok definition)
    (htoken : nonEmpty token = true) (hnode : s.node? n = some nodeState)
    (hactive : activeAttempt nodeState = some attempt) (hwait : nodeState.activeWaitState = some w)
    (hok : commitsCheckpoint s nodeState → ∀ id ∈ commitTarget s attempt checkpointId, stop id = .ok true) :
    ∃ summary, continuationOutcome graph (committing stop) s (resumeRequest n token checkpointId) = .ok summary := by
  rw [continuationOutcome_eq (parse_resumeRequest htoken checkpointId) hnode hactive]
  obtain ⟨commit, hcommit⟩ : ∃ commit, awaitedCommit (committing stop) s nodeState attempt
      (resumeRequest n token checkpointId) = .ok commit := by
    unfold awaitedCommit
    by_cases hcommits : commitsCheckpoint s nodeState
    · rw [if_pos hcommits]
      have hcommitted := commitWorkflowCheckpoint_committed (committing stop).checkpointManager s attempt checkpointId
        (resumeRequest n token checkpointId).witnessRef
      cases hc : commitWorkflowCheckpoint (committing stop).checkpointManager s
          ((resumeRequest n token checkpointId).checkpointId.or attempt.checkpointId)
          (resumeRequest n token checkpointId).witnessRef with
      | ok c => exact ⟨_, rfl⟩
      | error e =>
        have herror := (congrArg (Except.map (·.committed)) hc).symm.trans hcommitted
        cases hid : commitTarget s attempt checkpointId with
        | none =>
          rw [hid] at herror
          cases herror
        | some id =>
          rw [hid] at herror
          cases herror.trans (hok hcommits id hid)
    · rw [if_neg hcommits]
      exact ⟨_, rfl⟩
  obtain ⟨result, hresult⟩ : ∃ result, continuationResult graph (committing stop) s nodeState attempt
      (resumeRequest n token checkpointId) commit = .ok result := exists_continuationResult hdefinition hwait commit
  rw [hcommit]
  exact ⟨result.summary, congrArg (Except.map (·.summary)) hresult⟩

theorem not_tokenMismatch_iff (htoken : w.resumeToken = some token) (hother : request.continuationToken ≠ some token) :
    ¬request.tokenMismatch w ↔ request.continuationToken = none := by
  unfold WorkflowContinueNodeRequest.tokenMismatch
  cases hc : request.continuationToken with
  | none => simp
  | some other =>
    have hne : other ≠ token := fun heq => hother (hc.trans (congrArg some heq))
    simp [htoken, hne]

theorem exists_definition (hwait : nodeState.activeWaitState = some w)
    (hpending : ¬(w.kind = .checkpointCommit ∧ commit.map (·.committed) = some false))
    (h : continuationResult graph deps s nodeState attempt request commit = .ok result) :
    ∃ definition, findNodeDefinition graph request.nodeDefinitionId = .ok definition := by
  unfold continuationResult at h
  rw [hwait, Option.map_some, if_neg fun hp => hpending ⟨Option.some.inj hp.1, hp.2⟩] at h
  obtain ⟨definition, hdefinition, -⟩ := bind_eq_ok.mp h
  exact ⟨definition, hdefinition⟩

theorem harmless_of_leavesWait (hok : LineageOk s) (hwait : nodeState.activeWaitState = some w)
    (htoken : w.resumeToken = some token) (hother : request.continuationToken ≠ some token)
    (hresolves : Resolves graph deps s request nodeState attempt commit result)
    (happly : applyRunStateOp graph s (resolveOp request commit result) = .ok t)
    (hleaves : LeavesWait deps s attempt w request) : Harmless graph request.nodeDefinitionId token s t := by
  have hmismatch := (not_tokenMismatch_iff htoken hother).mpr hleaves.absent
  have hcommit := tried_or_none hresolves.committed
  have hnotPending : ¬(w.kind = .checkpointCommit ∧ commit.map (·.committed) = some false) := by
    rintro ⟨hkind, hfailed⟩
    rcases hcommit with ⟨hcommits, -⟩ | ⟨-, c, rfl, htried⟩
    · exact hcommits ((commitsCheckpoint_iff hwait).mpr (.inl hkind))
    · have hsucceeded := htried.committed.mpr (hleaves.committed hkind)
      rw [Option.map_some, hsucceeded] at hfailed
      cases hfailed
  cases leaves_of_continuationResult hwait hresolves.resolved with
  | pending w' hkind hfailed => exact absurd ⟨hkind, hfailed⟩ hnotPending
  | ended hp hgone => exact absurd hleaves.goesOn (hgone.resolve_left hmismatch)
  | waiting w' hp hm hg hout hw' hkind hresume hside hid houtput hbranch =>
    obtain ⟨nodeState', timestamp, hnode', hstatus, hwait', hactive'⟩ :=
      node_of_waiting hok hresolves.node hresolves.active happly hout
    have hchecked := checkpointed_of_resolve happly hout
    have hcommits : commitsCheckpoint t nodeState' ↔ commitsCheckpoint s nodeState := by
      rw [commitsCheckpoint_iff (hwait'.trans hw'), commitsCheckpoint_iff hwait, hkind, hchecked.checkpointState]
      by_cases hcc : w.kind = .checkpointCommit
      · simp [hcc]
      · simp only [hcc, false_or]
        rcases hcommit with ⟨-, rfl⟩ | ⟨hcommits, c, rfl, htried⟩
        · rfl
        · have hpendingState := ((commitsCheckpoint_iff hwait).mp hcommits).resolve_left hcc
          have hfailed : c.committed = false := by
            rw [← Bool.not_eq_true, htried.committed]
            exact hleaves.uncommitted hcc hpendingState
          simp [hpendingState, htried.pending hfailed hpendingState]
    have htarget := commitTarget_continued timestamp hid hresolves.committed hchecked fun hc =>
      hleaves.target ((commitsCheckpoint_iff hwait).mp hc)
    obtain ⟨attempt', hattempt'⟩ : ∃ attempt', attempt.continued { result with
        checkpointId := (commit.bind (·.checkpointId)).or result.checkpointId } timestamp = attempt' := ⟨_, rfl⟩
    rw [hattempt'] at hactive' htarget
    have hsame : SameWait s t nodeState nodeState' attempt attempt' w w' :=
      { wait := hwait
        wait' := hwait'.trans hw'
        kind := hkind
        resumeToken := hresume
        number := by rw [← hattempt']; rfl
        sideEffectStatus := by rw [← hattempt']; exact hside
        outputRef := by simp [← hattempt', WorkflowNodeAttempt.continued, houtput]
        selectedBranchKey := by simp [← hattempt', WorkflowNodeAttempt.continued, hbranch]
        runId := hchecked.runId
        commits := hcommits
        target := fun requested => by rw [← htarget requested] }
    refine ⟨?_, ⟨nodeState', w', hnode', hwait'.trans hw', hresume.trans htoken⟩, fun deps' request' hn _ =>
      hsame.continuationOutcome hresolves.node hnode' hresolves.active hactive' deps' hn⟩
    rw [WorkflowRunState.nodeStatus, hnode', Option.map_some, hstatus]
    decide

theorem leavesWait_of_harmless (hok : LineageOk s) (hwait : nodeState.activeWaitState = some w)
    (htoken : w.resumeToken = some token) (hnonEmpty : nonEmpty token = true)
    (hother : request.continuationToken ≠ some token) (hfresh : deps.handlers.randomUUID ≠ token)
    (hresolves : Resolves graph deps s request nodeState attempt commit result)
    (happly : applyRunStateOp graph s (resolveOp request commit result) = .ok t)
    (hharmless : Harmless graph request.nodeDefinitionId token s t) : LeavesWait deps s attempt w request := by
  obtain ⟨kept, v, hkept, hv, hvtoken⟩ := hharmless.waits
  have hcommit := tried_or_none hresolves.committed
  cases leaves_of_continuationResult hwait hresolves.resolved with
  | pending w' hkind hfailed hout hw' hnew =>
    -- the node waits with a new token
    obtain ⟨nodeState', timestamp, hnode', -, hwait', -⟩ :=
      node_of_waiting hok hresolves.node hresolves.active happly hout
    cases hkept.symm.trans hnode'
    cases hv.symm.trans (hwait'.trans hw')
    exact absurd (Option.some.inj (hnew.symm.trans hvtoken)) hfresh
  | ended hp hgone hover =>
    cases hv.symm.trans (no_wait_of_over hok happly hover hkept)
  | waiting w' hp hm hg hout hw' hkind hresume hside hid houtput hbranch =>
    obtain ⟨nodeState', timestamp, hnode', hstatus, hwait', hactive'⟩ :=
      node_of_waiting hok hresolves.node hresolves.active happly hout
    have hchecked := checkpointed_of_resolve happly hout
    have hcommits' := commitsCheckpoint_iff (s := t) (hwait'.trans hw')
    rw [hkind, hchecked.checkpointState] at hcommits'
    obtain ⟨definition, hdefinition⟩ := exists_definition hwait hp hresolves.resolved
    -- a commit that succeeds for a node that does not wait for it keeps later requests from trying it
    have huncommitted : w.kind ≠ .checkpointCommit → s.checkpointState = .commitPending →
        ¬CommitSucceeds deps s attempt request := by
      rintro hcc hpendingState hsucceeds
      have hs : commitsCheckpoint s nodeState := (commitsCheckpoint_iff hwait).mpr (.inr hpendingState)
      rcases hcommit with ⟨hnot, -⟩ | ⟨-, c, rfl, htried⟩
      · exact hnot hs
      have hidle := htried.idle (htried.committed.mpr hsucceeds)
      have hnotCommits : ¬commitsCheckpoint t nodeState' := by
        rw [hcommits', Option.map_some, Option.getD_some, hidle]
        rintro (hc | hc)
        · exact hcc hc
        · cases hc
      obtain ⟨manager, -, id, hmem, -⟩ := hsucceeds
      have herror : continuationOutcome graph (committing fun _ => .error "stop") s
          (resumeRequest request.nodeDefinitionId token (some id)) = .error "stop" :=
        outcome_of_commit_error hnonEmpty hresolves.node hresolves.active hs
          (show commitTarget s attempt (some id) = some id from rfl) rfl
      obtain ⟨summary, hsummary⟩ : ∃ summary, continuationOutcome graph (committing fun _ => .error "stop") t
          (resumeRequest request.nodeDefinitionId token (some id)) = .ok summary :=
        outcome_of_commit_ok hdefinition hnonEmpty hnode' hactive' (hwait'.trans hw') fun hc => absurd hc hnotCommits
      have hsame := hharmless.same (committing fun _ => .error "stop")
        (resumeRequest request.nodeDefinitionId token (some id)) rfl rfl
      rw [hsame, herror] at hsummary
      cases hsummary
    refine ⟨(not_tokenMismatch_iff htoken hother).mp hm, hg, fun hcc => ?_, huncommitted, fun hcommits => ?_⟩
    · rcases hcommit with ⟨hnot, -⟩ | ⟨-, c, rfl, htried⟩
      · exact absurd ((commitsCheckpoint_iff hwait).mpr (.inl hcc)) hnot
      · refine htried.committed.mp (Bool.eq_true_of_not_eq_false fun hfailed => hp ⟨hcc, ?_⟩)
        rw [Option.map_some, hfailed]
    · -- another checkpoint to be committed shows in a commit that only one of them passes
      by_contra hne
      have hs : commitsCheckpoint s nodeState := (commitsCheckpoint_iff hwait).mpr hcommits
      rcases hcommit with ⟨hnot, -⟩ | ⟨-, c, rfl, htried⟩
      · exact hnot hs
      cases htargetId : commitTarget s attempt request.checkpointId with
      | none =>
        obtain ⟨hrequested, -⟩ := commitTarget_eq_none htargetId
        exact hne (by rw [hrequested])
      | some id =>
        rw [htargetId] at hne
        have ht : commitsCheckpoint t nodeState' := by
          rw [hcommits', Option.map_some, Option.getD_some]
          by_cases hcc : w.kind = .checkpointCommit
          · exact .inl hcc
          · have hpendingState := hcommits.resolve_left hcc
            refine .inr (htried.pending ?_ hpendingState)
            rw [← Bool.not_eq_true, htried.committed]
            exact huncommitted hcc hpendingState
        have hafter := commitTarget_after t attempt result timestamp
          (htried.checkpointId.trans htargetId) none
        have herror : continuationOutcome graph (committing fun id' => if id' = id then .error "stop" else .ok true) t
            (resumeRequest request.nodeDefinitionId token none) = .error "stop" :=
          outcome_of_commit_error hnonEmpty hnode' hactive' ht hafter (if_pos rfl)
        obtain ⟨summary, hsummary⟩ : ∃ summary, continuationOutcome graph
            (committing fun id' => if id' = id then .error "stop" else .ok true) s
            (resumeRequest request.nodeDefinitionId token none) = .ok summary := by
          refine outcome_of_commit_ok hdefinition hnonEmpty hresolves.node hresolves.active hwait fun _ id' hmem => ?_
          have hdifferent : id' ≠ id := by
            rintro rfl
            exact hne hmem.symm
          exact if_neg hdifferent
        have hsame := hharmless.same (committing fun id' => if id' = id then .error "stop" else .ok true)
          (resumeRequest request.nodeDefinitionId token none) rfl rfl
        rw [hsame, hsummary] at herror
        cases herror

/-! ## Every reachable state -/

theorem lineageOk_of_run {s₀ : WorkflowRunState} {ops : List RunStateOp} (hinit : Initial graph s₀)
    (hrun : Run (RunStateStep graph) s₀ ops s) : LineageOk s :=
  Run.invariant (P := LineageOk) (fun _ _ _ hok hstep => applyRunStateOp_lineage hok hstep) hrun hinit.spec.lineage

theorem valid_of_run {s₀ : WorkflowRunState} {ops : List RunStateOp} (hinit : Initial graph s₀)
    (hrun : Run (RunStateStep graph) s₀ ops s) : Valid s :=
  Run.invariant (P := Valid) (fun _ _ _ _ hstep => applyRunStateOp_valid hstep) hrun hinit.valid

/-- **Harmless requests.** A node of a reachable run waits with a token, and a request comes without that token. When
the request is refused, it is harmless; when it is answered, it is harmless exactly if it leaves the wait as it is. -/
theorem harmless_iff {s₀ : WorkflowRunState} {ops : List RunStateOp} (hinit : Initial graph s₀)
    (hrun : Run (RunStateStep graph) s₀ ops s) (hnode : s.node? request.nodeDefinitionId = some nodeState)
    (hstatus : nodeState.status = .waiting) (hwait : nodeState.activeWaitState = some w)
    (htoken : w.resumeToken = some token) (hother : request.continuationToken ≠ some token)
    (hfresh : deps.handlers.randomUUID ≠ token) :
    (∀ e, (continueNode graph deps request).alone s = (.error e, t) →
      Harmless graph request.nodeDefinitionId token s t) ∧
    (∀ a, (continueNode graph deps request).alone s = (.ok a, t) →
      (Harmless graph request.nodeDefinitionId token s t ↔
        ∃ attempt ∈ activeAttempt nodeState, LeavesWait deps s attempt w request)) := by
  have hok := lineageOk_of_run hinit hrun
  constructor
  · intro e halone
    obtain rfl := alone_error halone
    refine ⟨?_, ⟨nodeState, w, hnode, hwait, htoken⟩, fun _ _ _ _ => rfl⟩
    rw [WorkflowRunState.nodeStatus, hnode, Option.map_some, hstatus]
    decide
  · intro a halone
    obtain ⟨nodeState', attempt, commit, result, hresolves, happly⟩ := resolves_of_alone halone
    cases hnode.symm.trans hresolves.node
    constructor
    · intro hharmless
      have hvalid := (valid_of_run hinit hrun).nodes _ _ hnode
      have hnonEmpty : nonEmpty token = true := by
        simp only [WorkflowNodeRunState.isValid, hwait, Bool.and_eq_true, Option.all_some,
          WorkflowNodeWaitState.isValid, htoken, optionalNonEmpty] at hvalid
        tauto
      exact ⟨attempt, hresolves.active,
        leavesWait_of_harmless hok hwait htoken hnonEmpty hother hfresh hresolves happly hharmless⟩
    · rintro ⟨attempt', hactive, hleaves⟩
      cases hresolves.active.symm.trans hactive
      exact harmless_of_leavesWait hok hwait htoken hother hresolves happly hleaves

end

/-! ## A decision that is waited for -/

def decisionDefinition : WorkflowDefinition where
  id := 1
  projectId := 1
  version := "1"
  name := "decision"
  entryNodeIds := [1]
  nodes := [sampleNode 1 (.humanDecision "release")]
  edges := []

def decisionWait : WorkflowNodeWaitState :=
  ⟨.humanDecision, "workflow_human_decision_required", ["evidence"], 0, some "first", none⟩

def askDecision : RunStateOp :=
  .record 1 ⟨.waiting, ⟨.allowWithFlag, "CGR-ALLOW-WITH-FLAG", false, false, false, ["evidence"], false⟩,
    some decisionWait, none, .none, none, none, none, "workflow_human_decision_required", ["evidence"]⟩
    ⟨"executed", [], none⟩ none none none

/-- A request without a token while the project is paused. -/
def pausedRequest : WorkflowContinueNodeRequest :=
  ⟨1, .pausedReview, .resume, none, none, ⟨"resume", [], none⟩, none, none⟩

/-- A request with another token. -/
def staleRequest : WorkflowContinueNodeRequest :=
  ⟨1, .running, .complete, some "second", none, ⟨"resume", [], none⟩, none, none⟩

theorem harmless_paused : ∃ graph s₀ s a t, Initial graph s₀ ∧ Run (RunStateStep graph) s₀ [askDecision] s ∧
    (continueNode graph sampleDeps pausedRequest).alone s = (.ok a, t) ∧ Harmless graph 1 "first" s t := by
  obtain ⟨graph, s₀, s, -, hinit, hrun, hcheck⟩ := exists_run_of_check (fun _ _ _ => True) decisionDefinition
    [askDecision] (fun graph s => ((continueNode graph sampleDeps pausedRequest).alone s).1.toOption.isSome &&
      s.checkpointState = .idle && (s.node? 1).any fun nodeState => nodeState.status = .waiting &&
        nodeState.activeWaitState = some decisionWait && (activeAttempt nodeState).isSome) (by decide +kernel)
  simp only [Bool.and_eq_true, decide_eq_true_eq] at hcheck
  obtain ⟨⟨hanswer, hidle⟩, hany⟩ := hcheck
  obtain ⟨nodeState, hnode, hnodeState⟩ := (Option.any_eq_true _ _).mp hany
  simp only [Bool.and_eq_true, decide_eq_true_eq] at hnodeState
  obtain ⟨⟨hstatus, hwait⟩, hactive⟩ := hnodeState
  obtain ⟨attempt, hattempt⟩ := Option.isSome_iff_exists.mp hactive
  obtain ⟨a, ha⟩ := Option.isSome_iff_exists.mp hanswer
  have halone : (continueNode graph sampleDeps pausedRequest).alone s =
      (.ok a, ((continueNode graph sampleDeps pausedRequest).alone s).2) := Prod.ext (eq_ok_of_toOption ha) rfl
  refine ⟨graph, s₀, s, a, _, hinit, hrun.forget_guard, halone, ?_⟩
  refine ((harmless_iff hinit hrun.forget_guard hnode hstatus hwait rfl (by decide) (by decide)).2 a halone).mpr ?_
  refine ⟨attempt, hattempt, rfl, .inl rfl, fun hcc => (by cases hcc), fun _ hs => ?_, fun hcc => ?_⟩
  · rw [hidle] at hs
    cases hs
  · rcases hcc with hcc | hs
    · cases hcc
    · rw [hidle] at hs
      cases hs

/-- The request with another token destroys the wait, so that the right token cannot be used any more. -/
theorem stale_token_destroys_wait : ∃ graph s₀ s a t, Initial graph s₀ ∧
    Run (RunStateStep graph) s₀ [askDecision] s ∧ (s.node? 1).bind (·.activeWaitState) = some decisionWait ∧
    (continueNode graph sampleDeps staleRequest).alone s = (.ok a, t) ∧ ¬Harmless graph 1 "first" s t := by
  obtain ⟨graph, s₀, s, -, hinit, hrun, hcheck⟩ := exists_run_of_check (fun _ _ _ => True) decisionDefinition
    [askDecision] (fun graph s => ((continueNode graph sampleDeps staleRequest).alone s).1.toOption.isSome &&
      (s.node? 1).bind (·.activeWaitState) = some decisionWait &&
      (((continueNode graph sampleDeps staleRequest).alone s).2.node? 1).all (·.activeWaitState = none))
    (by decide +kernel)
  simp only [Bool.and_eq_true, decide_eq_true_eq] at hcheck
  obtain ⟨⟨hanswer, hwait⟩, hall⟩ := hcheck
  obtain ⟨a, ha⟩ := Option.isSome_iff_exists.mp hanswer
  refine ⟨graph, s₀, s, a, _, hinit, hrun.forget_guard, hwait, Prod.ext (eq_ok_of_toOption ha) rfl, fun hharmless => ?_⟩
  obtain ⟨nodeState, w, hnode, hw, -⟩ := hharmless.waits
  rw [hnode] at hall
  cases hw.symm.trans (of_decide_eq_true hall)

end NousCore.Workflow
