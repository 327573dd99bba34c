import NousCore.Workflow.Engine
import NousCore.Workflow.Consistency

/-!
# Runs of the engine

* `Performs` : the operation on the run state that an engine call comes to;
* `overlapping_not_serial` : a cancellation is lost to an execution that began before it.
-/

namespace NousCore.Workflow

open Program (get set lift awaited)

/-! ## The engine and the run-state machine -/

/-- The operation that a call comes to, from the state that it read. -/
inductive Performs (graph : DerivedWorkflowGraph) (s : WorkflowRunState) : EngineCall → RunStateOp → Prop
  | execute {deps : WorkflowEngineDependencies} {request : WorkflowExecuteNodeRequest}
      {evaluate : WorkflowNodeDefinitionId → ProjectControlState → Except String ConfidenceGovernanceEvaluationResult}
      {lineage : WorkflowDispatchLineage} {definition : WorkflowNodeDefinition} {result : WorkflowNodeExecutionResult}
      {capture : CaptureWorkflowCheckpointResult} : deps.pfcEngine = some evaluate →
      findNodeDefinition graph request.nodeDefinitionId = .ok definition →
      executeWorkflowNode deps evaluate
        ⟨graph, s, definition, lineage, request.controlState, request.payload⟩ = .ok result →
      Performs graph s (.executeReadyNode deps request)
        (.record request.nodeDefinitionId (capturedResult deps result capture) request.transition
          (some capture.checkpointState) capture.lastPreparedCheckpointId capture.lastCommittedCheckpointId)
  | continue {deps : WorkflowEngineDependencies} {request : WorkflowContinueNodeRequest}
      {nodeState : WorkflowNodeRunState} {attempt : WorkflowNodeAttempt}
      {commit : Option CommitWorkflowCheckpointResult} {result : WorkflowNodeExecutionResult} :
      s.node? request.nodeDefinitionId = some nodeState → activeAttempt nodeState = some attempt →
      continuationResult graph deps s nodeState attempt request commit = .ok result →
      Performs graph s (.continueNode deps request)
        (.resolve request.nodeDefinitionId
          { result with checkpointId := (commit.bind (·.checkpointId)).or result.checkpointId } request.transition
          (commit.map (·.checkpointState)) (commit.bind (·.lastPreparedCheckpointId))
          (commit.bind (·.lastCommittedCheckpointId)))
  | complete (n : WorkflowNodeDefinitionId) (transition : WorkflowTransitionInput) :
      Performs graph s (.completeNode n transition) (.complete n transition)
  | pause (transition : WorkflowTransitionInput) : Performs graph s (.pause transition) (.pause transition)
  | resume (transition : WorkflowTransitionInput) : Performs graph s (.resume transition) (.resume transition)
  | cancel (transition : WorkflowTransitionInput) : Performs graph s (.cancel transition) (.cancel transition)

section

variable {graph : DerivedWorkflowGraph} {s t a : WorkflowRunState}

theorem required_eq_ok {α : Type} {x : Option α} {message : String} {b : α} :
    required x message = .ok b ↔ x = some b := by
  cases x <;> simp [required]

theorem parse_execute {request parsed : WorkflowExecuteNodeRequest} (h : request.parse = .ok parsed) :
    parsed = request := by
  unfold WorkflowExecuteNodeRequest.parse at h
  split_ifs at h
  exact (Except.ok.inj h).symm

variable {parsed : WorkflowContinueNodeRequest}

theorem parse_continue {request : WorkflowContinueNodeRequest} (h : request.parse = .ok parsed) :
    parsed = request := by
  unfold WorkflowContinueNodeRequest.parse at h
  split_ifs at h
  exact (Except.ok.inj h).symm

theorem alone_get_bind {f : WorkflowRunState → EngineProgram} :
    (get >>= f).alone s = (.ok a, t) ↔ (f s).alone s = (.ok a, t) := Iff.rfl

theorem alone_lift_bind {α : Type} {x : Except String α} {f : α → EngineProgram} :
    (lift x >>= f).alone s = (.ok a, t) ↔ ∃ b, x = .ok b ∧ (f b).alone s = (.ok a, t) := by
  simp only [Program.alone_bind_eq_ok, Program.alone_lift, Prod.mk.injEq]
  constructor
  · rintro ⟨b, _, ⟨hx, rfl⟩, h⟩
    exact ⟨b, hx, h⟩
  · rintro ⟨b, hx, h⟩
    exact ⟨b, s, ⟨hx, rfl⟩, h⟩

theorem alone_awaited_bind {α : Type} {x : Except String α} {f : α → EngineProgram} :
    (awaited x >>= f).alone s = (.ok a, t) ↔ ∃ b, x = .ok b ∧ (f b).alone s = (.ok a, t) :=
  alone_lift_bind

theorem alone_stores {x : Except String WorkflowRunState} :
    (lift x >>= fun next => set next >>= fun _ => pure next : EngineProgram).alone s = (.ok a, t) ↔
      x = .ok t ∧ a = t := by
  rw [alone_lift_bind]
  simp only [Program.alone_bind_eq_ok, Program.alone_set, Program.alone_pure, Prod.mk.injEq, Except.ok.injEq]
  constructor
  · rintro ⟨_, hx, _, _, ⟨-, rfl⟩, rfl, rfl⟩
    exact ⟨hx, rfl⟩
  · rintro ⟨hx, rfl⟩
    exact ⟨a, hx, ⟨⟩, a, ⟨trivial, rfl⟩, rfl, rfl⟩

theorem alone_synchronously {operation : WorkflowRunState → Except String WorkflowRunState} :
    (synchronously operation).alone s = (.ok a, t) ↔ operation s = .ok t ∧ a = t :=
  alone_stores (s := s)

theorem alone_commitAwaited_bind {deps : WorkflowEngineDependencies} {nodeState : WorkflowNodeRunState}
    {attempt : WorkflowNodeAttempt}
    {f : Option CommitWorkflowCheckpointResult → EngineProgram}
    (h : (commitAwaited deps s nodeState attempt parsed >>= f).alone s = (.ok a, t)) :
    ∃ commit, (f commit).alone s = (.ok a, t) := by
  unfold commitAwaited at h
  split_ifs at h
  · obtain ⟨commit, -, h⟩ := alone_awaited_bind.mp h
    exact ⟨commit, h⟩
  · obtain ⟨commit, -, h⟩ := alone_lift_bind.mp h
    exact ⟨commit, h⟩

/-- **Refinement.** A call that returns answers with the state it stored, and that state is an outcome of the
run-state machine. -/
theorem alone_performs {call : EngineCall} (h : (call.program graph).alone s = (.ok a, t)) :
    a = t ∧ ∃ op, Performs graph s call op ∧ applyRunStateOp graph s op = .ok t := by
  cases call with
  | executeReadyNode deps request =>
    rw [EngineCall.program, Workflow.executeReadyNode, alone_get_bind] at h
    obtain ⟨parsed, hparsed, h⟩ := alone_lift_bind.mp h
    rw [parse_execute hparsed] at h
    obtain ⟨evaluate, hevaluate, h⟩ := alone_lift_bind.mp h
    obtain ⟨_, -, h⟩ := alone_lift_bind.mp h
    obtain ⟨lineage, -, h⟩ := alone_lift_bind.mp h
    obtain ⟨definition, hdefinition, h⟩ := alone_lift_bind.mp h
    obtain ⟨result, hresult, h⟩ := alone_awaited_bind.mp h
    obtain ⟨capture, -, h⟩ := alone_awaited_bind.mp h
    obtain ⟨hrecord, rfl⟩ := alone_stores.mp h
    exact ⟨rfl, _, .execute (required_eq_ok.mp hevaluate) hdefinition hresult, hrecord⟩
  | continueNode deps request =>
    rw [EngineCall.program, Workflow.continueNode, alone_get_bind] at h
    obtain ⟨parsed, hparsed, h⟩ := alone_lift_bind.mp h
    rw [parse_continue hparsed] at h
    obtain ⟨nodeState, hnode, h⟩ := alone_lift_bind.mp h
    obtain ⟨attempt, hattempt, h⟩ := alone_lift_bind.mp h
    obtain ⟨commit, h⟩ := alone_commitAwaited_bind h
    obtain ⟨result, hresult, h⟩ := alone_lift_bind.mp h
    obtain ⟨hresolve, rfl⟩ := alone_stores.mp h
    exact ⟨rfl, _, .continue (required_eq_ok.mp hnode) (required_eq_ok.mp hattempt) hresult, hresolve⟩
  | completeNode n transition =>
    obtain ⟨hop, rfl⟩ := alone_synchronously.mp h
    exact ⟨rfl, _, .complete n transition, hop⟩
  | pause transition =>
    obtain ⟨hop, rfl⟩ := alone_synchronously.mp h
    exact ⟨rfl, _, .pause transition, hop⟩
  | resume transition =>
    obtain ⟨hop, rfl⟩ := alone_synchronously.mp h
    exact ⟨rfl, _, .resume transition, hop⟩
  | cancel transition =>
    obtain ⟨hop, rfl⟩ := alone_synchronously.mp h
    exact ⟨rfl, _, .cancel transition, hop⟩

end

/-! ## Concurrent calls -/

/-- **No lost update.** While every call that stores a run state finds the run state that it read, the stored run state
is what the calls that returned make of the first one, one after the other in the order in which they returned. What a
call has acknowledged is the run state that the calls after it go on from. -/
theorem serial_of_run {ι : Type} [DecidableEq ι] {graph : DerivedWorkflowGraph} {calls : ι → EngineCall}
    {s₀ : WorkflowRunState} {schedule : List ι} {p : Pool ι WorkflowRunState String WorkflowRunState}
    (h : Run (Guarded Pool.Step Pool.Fresh) (Pool.start (fun i => (calls i).program graph) s₀) schedule p) :
    (p.returned.map Prod.fst).Nodup ∧ (∀ i a, (i, a) ∈ p.returned ↔ (p.calls i).program = .pure a) ∧
      Run (Alone fun i => (calls i).program graph) s₀ p.returned p.store ∧
      ∀ l₁ i a l₂, p.returned = l₁ ++ (i, a) :: l₂ → Run (Alone fun i => (calls i).program graph) a l₂ p.store := by
  have htransaction : ∀ i, ((calls i).program graph).Transaction := fun i => engineCall_transaction graph (calls i)
  have hstaged := Pool.staged_of_run htransaction h.forget_guard
  have hserial := Pool.serial htransaction h
  refine ⟨hstaged.nodup, Pool.mem_returned_iff hstaged, hserial, fun l₁ i a l₂ hl => ?_⟩
  rw [hl, List.append_cons] at hserial
  obtain ⟨t, hacknowledged, hrest⟩ := hserial.exists_of_append
  obtain ⟨u, -, hlast⟩ := hacknowledged.exists_of_append
  have ha : a = t := by
    generalize hsingle : [(i, a)] = single at hlast
    cases hlast with
    | nil => cases hsingle
    | @snoc ls _ _ l hbefore halone =>
      obtain ⟨-, hl⟩ := List.append_inj' (show [] ++ [(i, a)] = _ ++ [_] from hsingle) rfl
      obtain rfl : (i, a) = l := List.singleton_inj.mp hl
      exact (alone_performs halone).1
  exact ha ▸ hrest

/-! ### Two calls on a small run -/

/-- A governance engine that allows every node, and no other dependency. -/
def sampleDeps : WorkflowEngineDependencies where
  pfcEngine := some fun _ _ => .ok ⟨.allowWithFlag, "CGR-ALLOW-WITH-FLAG", false, false, false, ["evidence"], false⟩
  handlers := ⟨none, none, 0, "token"⟩
  nodeHandlerOverrides := fun _ => none
  checkpointManager := none

def sampleExecute (n : WorkflowNodeDefinitionId) : EngineCall :=
  .executeReadyNode sampleDeps ⟨n, .running, none, ⟨"execute", [], none⟩⟩

/-- Two nodes, both of them entries. -/
def pairDefinition : WorkflowDefinition where
  id := 1
  projectId := 1
  version := "1"
  name := "pair"
  entryNodeIds := [1, 2]
  nodes := [1, 2].map fun n => sampleNode n (.transform "t" "m")
  edges := []

def executeBoth : Bool → EngineCall
  | false => sampleExecute 1
  | true => sampleExecute 2

def executeAndCancel : Bool → EngineCall
  | false => sampleExecute 1
  | true => .cancel ⟨"stop", [], none⟩

/-- The second call begins when the first has returned. -/
theorem executeBoth_serial : ∃ graph s₀ p, Built graph ∧ Initial graph s₀ ∧
    Run (Guarded Pool.Step Pool.Fresh) (Pool.start (fun i => (executeBoth i).program graph) s₀)
      [false, false, false, true, true, true] p ∧ p.store.status = .completed ∧
    Run (Alone fun i => (executeBoth i).program graph) s₀ p.returned p.store := by
  obtain ⟨graph, s₀, s, hgraph, hinit, hrun, hcheck⟩ := exists_run_of_check (fun _ _ _ => True) pairDefinition []
    (fun graph s => ([false, false, false, true, true, true].foldlM
      (guardStep (fun p i => .ok (Pool.turn p i)) Pool.Fresh)
      (Pool.start (fun i => (executeBoth i).program graph) s)).toOption.any fun p => p.store.status = .completed)
    (by decide +kernel)
  obtain ⟨p, hp, hcompleted⟩ := exists_ok_of_any hcheck
  have hs := hrun.eq_of_nil
  have hturns : Run (Guarded Pool.Step Pool.Fresh) (Pool.start (fun i => (executeBoth i).program graph) s₀)
      [false, false, false, true, true, true] p :=
    (run_of_guardStep (hs ▸ hp)).mono fun _ _ _ hstep => ⟨(Except.ok.inj hstep.1).symm, hstep.2⟩
  exact ⟨graph, s₀, p, hgraph, hinit, hturns, of_decide_eq_true hcompleted, (serial_of_run hturns).2.2.1⟩

/-- The run is canceled while an execution is under way: the execution stores the state it read as a completed run, and
no order of the two calls does that. -/
theorem overlapping_not_serial : ∃ graph s₀ schedule p, Built graph ∧ Initial graph s₀ ∧
    Run Pool.Step (Pool.start (fun i => (executeAndCancel i).program graph) s₀) schedule p ∧
    ¬∃ order, (order.map Prod.fst).Perm (p.returned.map Prod.fst) ∧
      Run (Alone fun i => (executeAndCancel i).program graph) s₀ order p.store := by
  obtain ⟨graph, s₀, s, hgraph, hinit, hrun, hcheck⟩ := exists_run_of_check (fun _ _ _ => True) pairDefinition []
    (fun graph s =>
      let p := [false, true, false, false].foldl Pool.turn (Pool.start (fun i => (executeAndCancel i).program graph) s)
      p.returned.map Prod.fst = [true, false] ∧ ∀ order ∈ [[true, false], [false, true]],
        (order.foldlM (fun s i => ((executeAndCancel i).program graph).effect s) s).toOption ≠ some p.store)
    (by decide +kernel)
  have hs := hrun.eq_of_nil
  subst hs
  obtain ⟨hreturned, hlost⟩ := of_decide_eq_true hcheck
  refine ⟨graph, s, [false, true, false, false], _, hgraph, hinit, Pool.run_turns _ _, ?_⟩
  rintro ⟨order, hperm, hserial⟩
  rw [hreturned] at hperm
  obtain ⟨x, y, hxy⟩ := List.length_eq_two.mp hperm.length_eq
  have horders : ∀ x y : Bool, [x, y].Perm [true, false] → [x, y] ∈ [[true, false], [false, true]] := by decide
  refine hlost _ (hxy ▸ horders x y (hxy ▸ hperm)) ?_
  rw [foldlM_effect hserial]
  rfl

end NousCore.Workflow
