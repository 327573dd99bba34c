import NousCore.Workflow.Cores
import NousCore.Workflow.EngineRuns

/-!
# Completed nodes and their handlers

* `ByHandler` : an execution that got as far as the handler of the node;
* `deferred_completed` : a deferred tool execution is completed by an approval, and the tool never ran.
-/

namespace NousCore.Workflow

/-! ## What an execution and a continuation answer -/

/-- Governance let the handler of the node run, and the handler returned the result. -/
def ByHandler (deps : WorkflowEngineDependencies) (input : ExecuteWorkflowNodeInput)
    (result : WorkflowNodeExecutionResult) : Prop :=
  ∃ evaluate decision handler, deps.pfcEngine = some evaluate ∧
    evaluate input.nodeDefinition.id input.controlState = .ok decision ∧ decision.outcome ∉ withheld ∧
    deps.handler input.nodeDefinition.type = some handler ∧ handler (input.context decision) = .ok result

/-- A result that imposes a wait without the handler. -/
structure Deferred (result : WorkflowNodeExecutionResult) : Prop where
  outcome : result.outcome = .waiting
  decision : result.governanceDecision.outcome ∈ withheld
  wait : ∃ w, result.waitState = some w ∧ (w.kind = .humanDecision ∨ w.kind = .retryBackoff)

/-- A result that ends in a block, with nothing to wait for. -/
structure Stopped (result : WorkflowNodeExecutionResult) : Prop where
  outcome : result.outcome = .blocked
  wait : result.waitState = none

variable {w : WorkflowNodeWaitState}

section

variable {graph : DerivedWorkflowGraph} {deps : WorkflowEngineDependencies} {s : WorkflowRunState}
  {result : WorkflowNodeExecutionResult}

variable {decision : ConfidenceGovernanceEvaluationResult}

theorem parse_decision {parsed : ConfidenceGovernanceEvaluationResult}
    (h : ConfidenceGovernanceEvaluationResultSchema.parse decision = .ok parsed) : parsed = decision := by
  unfold ConfidenceGovernanceEvaluationResultSchema.parse at h
  split_ifs at h
  exact (Except.ok.inj h).symm

theorem buildGovernanceOnlyResult_cases
    {definition : WorkflowNodeDefinition} {context : WorkflowNodeExecutionContext} {now : Timestamp}
    (hdecision : context.governanceDecision = decision) (hwithheld : decision.outcome ∈ withheld) :
    Stopped (buildGovernanceOnlyResult decision definition context now) ∨
      Deferred (buildGovernanceOnlyResult decision definition context now) := by
  have hkind : ∀ p : Prop, ∀ _ : Decidable p,
      (if p then WorkflowNodeWaitKind.humanDecision else .retryBackoff) = .humanDecision ∨
        (if p then WorkflowNodeWaitKind.humanDecision else .retryBackoff) = .retryBackoff := by
    intro p _
    split_ifs
    · exact .inl rfl
    · exact .inr rfl
  unfold buildGovernanceOnlyResult
  cases houtcome : decision.outcome with
  | deny => exact .inl ⟨rfl, rfl⟩
  | defer | escalate => exact .inr ⟨rfl, hdecision ▸ hwithheld, _, rfl, hkind _ _⟩
  | allowAutonomy | allowWithFlag => simp [houtcome, withheld] at hwithheld

/-- **An execution** is answered by the handler, or it is stopped or deferred. -/
theorem executeWorkflowNode_cases {input : ExecuteWorkflowNodeInput}
    {evaluate : WorkflowNodeDefinitionId → ProjectControlState → Except String ConfidenceGovernanceEvaluationResult}
    (hevaluate : deps.pfcEngine = some evaluate) (h : executeWorkflowNode deps evaluate input = .ok result) :
    ByHandler deps input result ∨ Stopped result ∨ Deferred result := by
  obtain ⟨decision, hdecision, h⟩ := bind_eq_ok.mp h
  obtain ⟨parsed, hparsed, h⟩ := bind_eq_ok.mp h
  rw [parse_decision hparsed] at h
  split_ifs at h with hwithheld
  · cases h
    exact .inr (buildGovernanceOnlyResult_cases rfl hwithheld)
  · split at h
    · cases h
      exact .inr (.inl ⟨rfl, rfl⟩)
    · next handler hhandler =>
      exact .inl ⟨evaluate, _, handler, hevaluate, hdecision, hwithheld, hhandler, h⟩

variable {capture : CaptureWorkflowCheckpointResult}

theorem capturedResult_stopped (h : Stopped result) : Stopped (capturedResult deps result capture) := by
  rw [capturedResult, if_neg fun hc => by simp [h.outcome] at hc]
  exact ⟨h.outcome, h.wait⟩

theorem capturedResult_deferred (h : Deferred result) : Deferred (capturedResult deps result capture) := by
  rw [capturedResult, if_neg fun hc => by simp [h.outcome] at hc]
  exact ⟨h.outcome, h.decision, h.wait⟩

/-- The request approves a wait for a person: nothing declines it, and the project is running. -/
def WorkflowContinueNodeRequest.approves (request : WorkflowContinueNodeRequest) (w : WorkflowNodeWaitState) : Prop :=
  request.controlState = .running ∧ ¬request.rejected ∧ ¬request.tokenMismatch w

inductive Continued (approved : Prop) (w : WorkflowNodeWaitState) (result : WorkflowNodeExecutionResult) : Prop
  | stopped : Stopped result → Continued approved w result
  | waiting (w' : WorkflowNodeWaitState) : result.outcome = .waiting → result.waitState = some w' →
      w'.kind = w.kind → Continued approved w result
  | completed : result.outcome = .completed → w.kind ≠ .retryBackoff → (w.kind = .humanDecision → approved) →
      Continued approved w result

theorem Continued.congr {approved : Prop} {result' : WorkflowNodeExecutionResult}
    (h : Continued approved w result) (houtcome : result'.outcome = result.outcome)
    (hwait : result'.waitState = result.waitState) : Continued approved w result' := by
  cases h with
  | stopped hr => exact .stopped ⟨houtcome.trans hr.outcome, hwait.trans hr.wait⟩
  | waiting w' hout hw' hkind => exact .waiting w' (houtcome.trans hout) (hwait.trans hw') hkind
  | completed hout hretry hhuman => exact .completed (houtcome.trans hout) hretry hhuman

theorem byKind_continued {input : ResolveWorkflowContinuationInput}
    (hcontrol : input.request.controlState = .running) (htoken : ¬input.request.tokenMismatch w) :
    Continued (input.request.approves w) w (input.byKind w) := by
  unfold ResolveWorkflowContinuationInput.byKind
  cases hkind : w.kind with
  | humanDecision =>
    dsimp only
    split_ifs with hrejected
    · exact .stopped ⟨rfl, rfl⟩
    · exact .completed rfl (by simp [hkind]) fun _ => ⟨hcontrol, hrejected, htoken⟩
  | asyncBatch =>
    dsimp only
    split_ifs
    · exact .stopped ⟨rfl, rfl⟩
    · exact .completed rfl (by simp [hkind]) (by simp [hkind])
  | checkpointCommit =>
    dsimp only
    split_ifs
    · exact .waiting w rfl rfl rfl
    · exact .completed rfl (by simp [hkind]) (by simp [hkind])
  | parallelJoin =>
    dsimp only
    split_ifs
    · exact .completed rfl (by simp [hkind]) (by simp [hkind])
    · exact .completed rfl (by simp [hkind]) (by simp [hkind])
  | loopBackoff => exact .completed rfl (by simp [hkind]) (by simp [hkind])
  | retryBackoff => exact .stopped ⟨rfl, rfl⟩

/-- **A continuation** needs a wait. It stops the node, keeps the wait, or completes the node; a wait for a person it
completes only with an approval, and a back-off never. -/
theorem continuationResult_cases {nodeState : WorkflowNodeRunState} {attempt : WorkflowNodeAttempt}
    {request : WorkflowContinueNodeRequest} {commit : Option CommitWorkflowCheckpointResult}
    (h : continuationResult graph deps s nodeState attempt request commit = .ok result) :
    ∃ w, nodeState.activeWaitState = some w ∧ Continued (request.approves w) w result := by
  unfold continuationResult at h
  by_cases hpending : nodeState.activeWaitState.map (·.kind) = some .checkpointCommit ∧
      commit.map (·.committed) = some false
  · rw [if_pos hpending] at h
    cases h
    obtain ⟨w, hw, hkind⟩ := Option.map_eq_some_iff.mp hpending.1
    exact ⟨w, hw, .waiting _ rfl rfl hkind.symm⟩
  · rw [if_neg hpending] at h
    obtain ⟨definition, -, h⟩ := bind_eq_ok.mp h
    unfold resolveWorkflowContinuation at h
    split at h
    · cases h
    · next w hw =>
      refine ⟨w, hw, ?_⟩
      split_ifs at h with htoken
      · cases h
        exact .stopped ⟨rfl, rfl⟩
      · split at h
        · cases h
          exact .stopped ⟨rfl, rfl⟩
        · cases h
          exact .waiting _ rfl rfl rfl
        · cases h
          exact .waiting _ rfl rfl rfl
        · next hcontrol =>
          cases h
          exact byKind_continued hcontrol htoken

end

/-! ## Attempts and handlers -/

/-- What a node owes to a handler: `handled k` says that the handler ran for attempt `k`. -/
structure NodeCore.Accounted (handled : Nat → Prop) (core : NodeCore) : Prop where
  numbers : ∀ a ∈ core.attempts, a.attempt ≤ core.attempts.length
  active : ∀ k ∈ core.activeAttempt, k = core.attempts.length
  done : core.status = .completed → handled core.attempts.length
  wait : ∀ w ∈ core.activeWaitState, handled core.attempts.length ∨
    (w.kind = .humanDecision ∨ w.kind = .retryBackoff) ∧
      ∀ a ∈ core.attempts, a.attempt = core.attempts.length → a.governanceDecision.outcome ∈ withheld

namespace NodeCore.Accounted

variable {handled handled' : Nat → Prop} {core core' : NodeCore} {result : WorkflowNodeExecutionResult}

theorem mono (h : core.Accounted handled) (hsub : ∀ k, handled k → handled' k) : core.Accounted handled' where
  numbers := h.numbers
  active := h.active
  done hc := hsub _ (h.done hc)
  wait w hw := (h.wait w hw).imp (hsub _) id

theorem keeps (h : core.Accounted handled) (hk : core.Keeps core') : core'.Accounted handled := by
  obtain ⟨hattempts, hcompleted, hactive, hwait⟩ := hk
  refine ⟨by rw [hattempts]; exact h.numbers, fun k hk => ?_, fun hc => ?_, fun w hw => ?_⟩
  · rw [hattempts]
    rcases hactive with he | he
    · simp [he] at hk
    · exact h.active k (he ▸ hk)
  · rw [hattempts]
    exact h.done (hcompleted hc)
  · rw [hattempts]
    rcases hwait with he | he
    · simp [he] at hw
    · exact h.wait w (he ▸ hw)

theorem attempted {k : Nat} (hk : k = core.attempts.length) (hnumbers : ∀ a ∈ core.attempts, a.attempt ≤ k)
    (hdone : result.outcome = .completed → handled k)
    (hwait : ∀ w, result.outcome ≠ .completed → result.waitState = some w → handled k ∨
      (w.kind = .humanDecision ∨ w.kind = .retryBackoff) ∧
        ∀ a ∈ core.attempts, a.attempt = k → a.governanceDecision.outcome ∈ withheld) :
    (core.attempted k result).Accounted handled := by
  subst hk
  refine ⟨hnumbers, fun k hk => ?_, fun hc => ?_, fun w hw => ?_⟩
  · simp only [NodeCore.attempted] at hk
    split_ifs at hk
    · exact (Option.some.inj hk).symm
    · cases hk
  · refine hdone ?_
    cases houtcome : result.outcome <;>
      simp [NodeCore.attempted, withResult, houtcome, mapOutcomeToStatus] at hc
    rfl
  · simp only [NodeCore.attempted] at hw
    split_ifs at hw with hc
    · cases hw
    · exact hwait w hc hw

theorem recorded (h : core.Accounted handled) (id : WorkflowDispatchLineageId) (timestamp : Timestamp)
    (hresult : handled (core.attempts.length + 1) ∨ Stopped result ∨ Deferred result) :
    ((core.opened (newAttempt (core.attempts.length + 1) id result timestamp)).attempted (core.attempts.length + 1)
      result).Accounted handled := by
  have hattempts : ∀ a ∈ (core.opened (newAttempt (core.attempts.length + 1) id result timestamp)).attempts,
      a ∈ core.attempts ∨ a = newAttempt (core.attempts.length + 1) id result timestamp := by
    simp [opened]
  refine attempted (by simp [opened]) (fun a ha => ?_) (fun hc => ?_) fun w _ hw => ?_
  · rcases hattempts a ha with ha | rfl
    · exact (h.numbers a ha).trans (Nat.le_succ _)
    · exact le_rfl
  · rcases hresult with hr | hr | hr
    · exact hr
    · simp [hr.outcome] at hc
    · simp [hr.outcome] at hc
  · rcases hresult with hr | hr | hr
    · exact .inl hr
    · simp [hr.wait] at hw
    · obtain ⟨w', hw', hkind⟩ := hr.wait
      obtain rfl : w' = w := Option.some.inj (hw'.symm.trans hw)
      refine .inr ⟨hkind, fun a ha hnumber => ?_⟩
      rcases hattempts a ha with ha | rfl
      · have := h.numbers a ha
        omega
      · exact hr.decision

theorem continued_attempts (k : Nat) (timestamp : Timestamp) :
    (core.continued k result timestamp).attempts.map (fun a => (a.attempt, a.governanceDecision)) =
      core.attempts.map fun a => (a.attempt, a.governanceDecision) := by
  show (continueAttempt k _ core.attempts).map _ = _
  induction core.attempts with
  | nil => rfl
  | cons a attempts ih =>
    unfold continueAttempt
    split_ifs
    · rfl
    · rw [List.map_cons, ih, List.map_cons]

theorem resolved (h : core.Accounted handled) {k : Nat} (hk : core.activeAttempt = some k) (timestamp : Timestamp)
    {approved : Prop} (hw : core.activeWaitState = some w)
    (hresult : Continued approved w result)
    (happroved : approved → w.kind = .humanDecision →
      ∃ a ∈ core.attempts, a.attempt = k ∧ a.governanceDecision.outcome ∉ withheld) :
    ((core.continued k result timestamp).attempted k result).Accounted handled := by
  have hattempts : (core.continued k result timestamp).attempts.map _ = _ := continued_attempts k timestamp
  have hlength : (core.continued k result timestamp).attempts.length = core.attempts.length := by
    simpa using congrArg List.length hattempts
  have hsame : ∀ a ∈ (core.continued k result timestamp).attempts, ∃ b ∈ core.attempts, b.attempt = a.attempt ∧
      b.governanceDecision = a.governanceDecision := by
    intro a ha
    have := List.mem_map_of_mem (f := fun a => (a.attempt, a.governanceDecision)) ha
    rw [hattempts, List.mem_map] at this
    obtain ⟨b, hb, hab⟩ := this
    exact ⟨b, hb, congrArg Prod.fst hab, congrArg Prod.snd hab⟩
  have hlast : k = core.attempts.length := h.active k hk
  have hwait := hlast ▸ h.wait w hw
  refine attempted (hlast.trans hlength.symm) (fun a ha => ?_) (fun hc => ?_) fun w' hne hw' => ?_
  · obtain ⟨b, hb, hnumber, -⟩ := hsame a ha
    rw [← hnumber, hlast]
    exact h.numbers b hb
  · cases hresult with
    | stopped hr => simp [hr.outcome] at hc
    | waiting w' hout _ _ => simp [hout] at hc
    | completed _ hretry hhuman =>
      rcases hwait with hr | ⟨hkind, hwithheld⟩
      · exact hr
      · have hperson := hkind.resolve_right hretry
        obtain ⟨a, ha, hnumber, hallowed⟩ := happroved (hhuman hperson) hperson
        exact absurd (hwithheld a ha hnumber) hallowed
  · cases hresult with
    | stopped hr => simp [hr.wait] at hw'
    | waiting w'' _ hw'' hkind =>
      obtain rfl : w'' = w' := Option.some.inj (hw''.symm.trans hw')
      refine hwait.imp id fun hwithheld => ⟨hkind ▸ hwithheld.1, fun a ha hnumber => ?_⟩
      obtain ⟨b, hb, hb', hdecision⟩ := hsame a ha
      exact hdecision ▸ hwithheld.2 b hb (hb'.trans hnumber)
    | completed hout => exact absurd hout hne

end NodeCore.Accounted

/-! ## Runs -/

section

variable (graph : DerivedWorkflowGraph)

/-- The call executed node `n` as its attempt `k`, from the state `u`, and the handler ran. -/
def RanHandler (u : WorkflowRunState) (call : EngineCall)
    (n : WorkflowNodeDefinitionId) (k : Nat) : Prop :=
  ∃ deps request definition lineage result nodeState, call = .executeReadyNode deps request ∧
    request.nodeDefinitionId = n ∧ findNodeDefinition graph n = .ok definition ∧ u.node? n = some nodeState ∧
    nodeState.attempts.length + 1 = k ∧
    ByHandler deps ⟨graph, u, definition, lineage, request.controlState, request.payload⟩ result

/-- In a run of engine calls from `s₀`, one of the calls opened attempt `k` of `n` through the handler. -/
def Handled {ι : Type} (calls : ι → EngineCall) (s₀ : WorkflowRunState)
    (l : List (ι × WorkflowRunState)) (n : WorkflowNodeDefinitionId) (k : Nat) : Prop :=
  ∃ l₁ x l₂ u, l = l₁ ++ x :: l₂ ∧ Run (Alone fun i => (calls i).program graph) s₀ l₁ u ∧
    RanHandler graph u (calls x.1) n k

/-- The request approves a wait of a node other than a human decision, and governance had kept the active attempt from
the handler. -/
def ApprovesDeferred (s : WorkflowRunState) (request : WorkflowContinueNodeRequest) :
    Prop :=
  graph.nodeType request.nodeDefinitionId ≠ some .humanDecision ∧
    ∃ nodeState ∈ s.node? request.nodeDefinitionId,
      (∃ w ∈ nodeState.activeWaitState, w.kind = .humanDecision ∧ request.approves w) ∧
        ∃ attempt ∈ activeAttempt nodeState, attempt.governanceDecision.outcome ∈ withheld

/-- The calls that drive a run, without an approval of a deferred node. -/
def Drives (s : WorkflowRunState) : EngineCall → Prop
  | .continueNode _ request => ¬ApprovesDeferred graph s request
  | .completeNode .. => False
  | _ => True

end

section

variable {ι : Type} {graph : DerivedWorkflowGraph} {calls : ι → EngineCall} {s s₀ t a : WorkflowRunState}
  {call : EngineCall} {l : List (ι × WorkflowRunState)} {j : WorkflowNodeDefinitionId} {core core' : NodeCore}

theorem node_of_core (h : (s.slot j).core = some core) : ∃ nodeState, s.node? j = some nodeState ∧ nodeState.core = core :=
  Option.map_eq_some_iff.mp h

/-- **One call.** What is owed to the handlers is owed after the call, the handler that it ran included. -/
theorem accounted_step (hok : LineageOk s) (halone : (call.program graph).alone s = (.ok a, t))
    (hdrives : Drives graph s call) (hj : graph.nodeType j ≠ some .humanDecision) {handled : Nat → Prop}
    (hs : ∀ core, (s.slot j).core = some core → core.Accounted handled) (hcore' : (t.slot j).core = some core') :
    core'.Accounted fun k => handled k ∨ RanHandler graph s call j k := by
  obtain ⟨-, op, hperforms, hop⟩ := alone_performs halone
  obtain ⟨core, hcore, hkeeps | ⟨outcome, taken, htarget, htakes, hkeeps⟩⟩ := core_cases hok hop hcore'
  · exact ((hs core hcore).keeps hkeeps).mono fun _ => .inl
  have haccounted := (hs core hcore).mono fun k hk => Or.inl (b := RanHandler graph s call j k) hk
  refine NodeCore.Accounted.keeps ?_ hkeeps
  obtain ⟨nodeState, hnode, rfl⟩ := node_of_core hcore
  cases hperforms with
  | @execute deps request evaluate lineage definition result capture hevaluate hdefinition hresult =>
    cases htarget
    obtain ⟨-, id, timestamp, rfl⟩ := htakes
    refine haccounted.recorded id timestamp ?_
    rcases executeWorkflowNode_cases hevaluate hresult with hby | hstopped | hdeferred
    · exact .inl (.inr ⟨deps, request, definition, lineage, result, nodeState, rfl, rfl, hdefinition, hnode, rfl, hby⟩)
    · exact .inr (.inl (capturedResult_stopped hstopped))
    · exact .inr (.inr (capturedResult_deferred hdeferred))
  | @«continue» deps request nodeState' attempt commit result hnode' hattempt hresult =>
    cases htarget
    obtain rfl : nodeState = nodeState' := Option.some.inj (hnode.symm.trans hnode')
    obtain ⟨active, timestamp, hactive, -, rfl⟩ := htakes
    obtain ⟨w, hw, hcontinued⟩ := continuationResult_cases hresult
    refine haccounted.resolved hactive timestamp hw (hcontinued.congr rfl rfl) fun happroves hperson => ?_
    have hfind : nodeState.attempts.find? (·.attempt = active) = some attempt := by
      rw [activeAttempt, show nodeState.activeAttempt = some active from hactive] at hattempt
      exact hattempt
    refine ⟨attempt, List.mem_of_find?_eq_some hfind, by simpa using List.find?_some hfind, fun hwithheld => hdrives ?_⟩
    exact ⟨hj, nodeState, hnode, ⟨w, hw, hperson, happroves⟩, attempt, hattempt, hwithheld⟩
  | complete n transition => exact hdrives.elim
  | pause | resume | cancel => cases htarget

theorem Handled.snoc {n : WorkflowNodeDefinitionId} {k : Nat} (h : Handled graph calls s₀ l n k)
    (x : ι × WorkflowRunState) : Handled graph calls s₀ (l ++ [x]) n k := by
  obtain ⟨l₁, y, l₂, u, rfl, hrun, hran⟩ := h
  exact ⟨l₁, y, l₂ ++ [x], u, by simp, hrun, hran⟩

theorem accounted_of_run (hinit : Initial graph s₀)
    (h : Run (Guarded (Alone fun i => (calls i).program graph) fun s x => Drives graph s (calls x.1)) s₀ l t) :
    LineageOk t ∧ ∀ j core, graph.nodeType j ≠ some .humanDecision → (t.slot j).core = some core →
      core.Accounted (Handled graph calls s₀ l j) := by
  induction h with
  | nil =>
    refine ⟨hinit.spec.lineage, fun j core _ hcore => ?_⟩
    rw [hinit.spec.core] at hcore
    split_ifs at hcore
    cases hcore
    refine ⟨by simp [initialCore], by simp [initialCore], fun hc => ?_, by simp [initialCore]⟩
    simp only [initialCore] at hc
    split_ifs at hc
  | @snoc l u t x hrun hstep ih =>
    obtain ⟨hok, hs⟩ := ih
    obtain ⟨halone, hdrives⟩ := hstep
    obtain ⟨-, op, -, hop⟩ := alone_performs halone
    refine ⟨applyRunStateOp_lineage hok hop, fun j core hj hcore => ?_⟩
    refine (accounted_step hok halone hdrives hj (hs j · hj) hcore).mono fun k hk => ?_
    rcases hk with hk | hk
    · exact hk.snoc x
    · exact ⟨l, x, [], u, rfl, hrun.forget_guard, hk⟩

end

/-- **Completed by its handler.** In any interleaving of engine calls that approves no deferred node, the stored run
state is the outcome of some of the calls, in sequence; and when it says that a node other than a human decision is
completed, one of these calls opened the node's current attempt and the node's handler ran in it. -/
theorem completed_handled {ι : Type} [DecidableEq ι] {graph : DerivedWorkflowGraph} {calls : ι → EngineCall}
    {s₀ : WorkflowRunState} {schedule : List ι} {p : Pool ι WorkflowRunState String WorkflowRunState}
    (hinit : Initial graph s₀)
    (h : Run (Guarded Pool.Step (Pool.Begins fun s i => Drives graph s (calls i)))
      (Pool.start (fun i => (calls i).program graph) s₀) schedule p) :
    ∃ l, l ⊆ p.returned ∧ Run (Alone fun i => (calls i).program graph) s₀ l p.store ∧
      ∀ n nodeState, p.store.node? n = some nodeState → graph.nodeType n ≠ some .humanDecision →
        nodeState.status = .completed → Handled graph calls s₀ l n nodeState.attempts.length := by
  obtain ⟨l, hrun, hl⟩ := Pool.derived (fun i => engineCall_transaction graph (calls i)) h
  refine ⟨l, hl, hrun.forget_guard, fun n nodeState hnode hn hcompleted => ?_⟩
  have hcore : (p.store.slot n).core = some nodeState.core := by simp [WorkflowRunState.slot, hnode]
  exact ((accounted_of_run hinit hrun).2 n _ hn hcore).done hcompleted

/-- Two executions on the pair of nodes, one after the other. -/
theorem executeBoth_handled : ∃ graph s₀ p nodeState l, Built graph ∧ Initial graph s₀ ∧
    Run (Guarded Pool.Step (Pool.Begins fun s i => Drives graph s (executeBoth i)))
      (Pool.start (fun i => (executeBoth i).program graph) s₀) [false, false, false, true, true, true] p ∧
    p.store.node? 1 = some nodeState ∧ nodeState.status = .completed ∧
    Handled graph executeBoth s₀ l 1 nodeState.attempts.length := by
  obtain ⟨graph, s₀, s, hgraph, hinit, hrun, hcheck⟩ := exists_run_of_check (fun _ _ _ => True) pairDefinition []
    (fun graph s =>
      let p := [false, false, false, true, true, true].foldl Pool.turn
        (Pool.start (fun i => (executeBoth i).program graph) s)
      graph.nodeType 1 = some .transform ∧ (p.store.node? 1).any (·.status = .completed)) (by decide +kernel)
  have hs := hrun.eq_of_nil
  subst hs
  obtain ⟨htype, hany⟩ := of_decide_eq_true hcheck
  obtain ⟨nodeState, hnode, hcompleted⟩ := (Option.any_eq_true _ _).mp hany
  have hturns := (Pool.run_turns [false, false, false, true, true, true]
    (Pool.start (fun i => (executeBoth i).program graph) s)).mono fun p i q hstep =>
    show Guarded Pool.Step (Pool.Begins fun s i => Drives graph s (executeBoth i)) p i q from
      ⟨hstep, fun _ => by cases i <;> trivial⟩
  obtain ⟨l, -, -, hhandled⟩ := completed_handled hinit hturns
  exact ⟨graph, s, _, nodeState, l, hgraph, hinit, hturns, hnode, of_decide_eq_true hcompleted,
    hhandled 1 nodeState hnode (by simp [htype]) (of_decide_eq_true hcompleted)⟩

/-! ## A deferred execution -/

def singleTool : WorkflowDefinition where
  id := 1
  projectId := 1
  version := "1"
  name := "single"
  entryNodeIds := [1]
  nodes := [{ sampleNode 1 (.toolExecution "delete" "m" none) with outputSchemaRef := some "schema://output" }]
  edges := []

/-- A governance engine that asks for a confirmation of every action. -/
def deferringDeps : WorkflowEngineDependencies where
  pfcEngine := some fun _ _ =>
    .ok ⟨.defer, "CGR-DEFER-HIGH-RISK-CONFIRMATION", false, true, true, ["evidence"], false⟩
  handlers := ⟨none, some fun _ => .ok ⟨true, none⟩, 0, "token"⟩
  nodeHandlerOverrides := fun _ => none
  checkpointManager := none

/-- The execution of the tool node, and the approval of the wait that follows. -/
def executeAndApprove : Bool → EngineCall
  | false => .executeReadyNode deferringDeps ⟨1, .running, none, ⟨"execute", [], none⟩⟩
  | true => .continueNode deferringDeps ⟨1, .running, .complete, none, none, ⟨"approve", [], none⟩, none, none⟩

/-- The confirmation completes the node, although no call ever ran its handler. -/
theorem deferred_completed : ∃ graph s₀ schedule p nodeState, Built graph ∧ Initial graph s₀ ∧
    Run Pool.Step (Pool.start (fun i => (executeAndApprove i).program graph) s₀) schedule p ∧
    p.store.node? 1 = some nodeState ∧ graph.nodeType 1 = some .toolExecution ∧ nodeState.status = .completed ∧
    ∀ i u n k, ¬RanHandler graph u (executeAndApprove i) n k := by
  obtain ⟨graph, s₀, s, hgraph, hinit, hrun, hcheck⟩ := exists_run_of_check (fun _ _ _ => True) singleTool []
    (fun graph s =>
      let p := [false, false, false, true].foldl Pool.turn
        (Pool.start (fun i => (executeAndApprove i).program graph) s)
      graph.nodeType 1 = some .toolExecution ∧ (p.store.node? 1).any (·.status = .completed)) (by decide +kernel)
  have hs := hrun.eq_of_nil
  subst hs
  obtain ⟨htype, hany⟩ := of_decide_eq_true hcheck
  obtain ⟨nodeState, hnode, hcompleted⟩ := (Option.any_eq_true _ _).mp hany
  refine ⟨graph, s, _, _, nodeState, hgraph, hinit, Pool.run_turns _ _, hnode, htype, of_decide_eq_true hcompleted, ?_⟩
  rintro i u n k ⟨deps, request, definition, lineage, result, _, hcall, -, -, -, -, evaluate, decision, handler, hdeps,
    hdecision, hallowed, -⟩
  cases i with
  | false =>
    cases hcall
    cases hdeps
    cases hdecision
    simp [withheld] at hallowed
  | true => cases hcall

end NousCore.Workflow
