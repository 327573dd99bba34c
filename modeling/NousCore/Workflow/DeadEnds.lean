import NousCore.Workflow.Handled

/-!
# Completions that lead on

* `approved_condition_dead_ends` : the approval of a deferred condition leads nowhere.
-/

namespace NousCore.Workflow

/-! ## Branches -/

def DerivedWorkflowGraph.outboundEdges (graph : DerivedWorkflowGraph) (n : WorkflowNodeDefinitionId) :
    List WorkflowEdgeDefinition :=
  (graph.outboundEdgeIds n).filterMap graph.edges.get?

/-- Some branch is chosen: the key is there, and is not empty. -/
def Given (key : Option String) : Prop := ∃ k ∈ key, k ≠ ""

/-- The completion of `n` with the branch key has activated an outbound edge, unless there is none, or none by choice. -/
def LeadsOn (graph : DerivedWorkflowGraph) (t : WorkflowRunState) (n : WorkflowNodeDefinitionId) (key : Option String) :
    Prop :=
  graph.outboundEdges n = [] ∨
    (∃ e ∈ getActivatedOutboundEdgeIds graph n key (graph.nodeType n), e ∈ t.activatedEdgeIds) ∨ Given key

/-- Without a branch, the node is a last one, a parallel split, or one with an edge for every branch. -/
def Unconditional (graph : DerivedWorkflowGraph) (n : WorkflowNodeDefinitionId) : Prop :=
  graph.outboundEdges n = [] ∨ graph.nodeType n = some .parallelSplit ∨ ∃ e ∈ graph.outboundEdges n, e.branchKey = none

/-- What gives the completion of a wait its branch key. -/
inductive Keyed (payload : Option WorkflowNodeExecutionPayload) (w : WorkflowNodeWaitState)
    (attempt : WorkflowNodeAttempt) : Prop
  | loop : w.kind = .loopBackoff → Keyed payload w attempt
  | timedOut : w.kind = .parallelJoin → payload.map (·.timedOut) = some true → Keyed payload w attempt
  | requested : w.kind = .asyncBatch → Given (payload.bind (·.selectedBranchKey)) → Keyed payload w attempt
  | attempted : (w.kind = .asyncBatch → payload.bind (·.selectedBranchKey) = none) →
      Given attempt.selectedBranchKey → Keyed payload w attempt

/-- What gives a completion its branch key: for an execution the result that is recorded, for a continuation the wait,
the request and the attempt, and for a direct one the node. -/
inductive Chosen (s : WorkflowRunState) (op : RunStateOp) : EngineCall → Prop
  | executed {deps : WorkflowEngineDependencies} {request : WorkflowExecuteNodeRequest} :
      Given (op.branchKey s) → Chosen s op (.executeReadyNode deps request)
  | direct {n : WorkflowNodeDefinitionId} {transition : WorkflowTransitionInput} :
      Given (s.slot n).branchKey → Chosen s op (.completeNode n transition)
  | continued {deps : WorkflowEngineDependencies} {request : WorkflowContinueNodeRequest}
      {nodeState : WorkflowNodeRunState} {attempt : WorkflowNodeAttempt} {w : WorkflowNodeWaitState} :
      s.node? request.nodeDefinitionId = some nodeState → activeAttempt nodeState = some attempt →
      nodeState.activeWaitState = some w → Keyed request.payload w attempt → Chosen s op (.continueNode deps request)

section

variable {graph : DerivedWorkflowGraph} {s t a s₀ : WorkflowRunState} {n : WorkflowNodeDefinitionId} {key : Option String}

theorem truthy_eq_none : truthy key = none ↔ ¬Given key := by
  simp [truthy, Given, Option.filter_eq_none_iff]

theorem activates_iff (hkey : ¬Given key) :
    graph.outboundEdges n = [] ∨ getActivatedOutboundEdgeIds graph n key (graph.nodeType n) ≠ [] ↔
      Unconditional graph n := by
  have hnil : sortEdges (graph.outboundEdges n) = [] ↔ graph.outboundEdges n = [] := by
    simp [List.eq_nil_iff_forall_not_mem]
  have hselected : getActivatedOutboundEdgeIds graph n key (graph.nodeType n) =
      if graph.nodeType n = some .parallelSplit ∧ truthy key = none then (sortEdges (graph.outboundEdges n)).map (·.id)
      else ((sortEdges (graph.outboundEdges n)).filter fun edge => edge.branchKey = none).map (·.id) := by
    rw [getActivatedOutboundEdgeIds, truthy_eq_none.mpr hkey]
    rfl
  rw [hselected, Unconditional]
  by_cases hsplit : graph.nodeType n = some .parallelSplit
  · rw [if_pos ⟨hsplit, truthy_eq_none.mpr hkey⟩, ne_eq, List.map_eq_nil_iff, hnil]
    exact iff_of_true (em _) (.inr (.inl hsplit))
  · rw [if_neg fun h => hsplit h.1, ne_eq, List.map_eq_nil_iff, List.filter_eq_nil_iff, or_iff_right hsplit]
    simp

theorem leadsOn_iff (hedges : ∀ e ∈ getActivatedOutboundEdgeIds graph n key (graph.nodeType n), e ∈ t.activatedEdgeIds) :
    LeadsOn graph t n key ↔ Unconditional graph n ∨ Given key := by
  by_cases hkey : Given key
  · exact iff_of_true (.inr (.inr hkey)) (.inr hkey)
  · rw [or_iff_left hkey, ← activates_iff hkey, LeadsOn, or_iff_left hkey]
    refine or_congr_right ⟨fun ⟨e, he, _⟩ h => ?_, fun h => ?_⟩
    · rw [h] at he
      cases he
    · obtain ⟨e, he⟩ := List.exists_mem_of_ne_nil _ h
      exact ⟨e, he, hedges e he⟩

/-! ## Keys of continuations -/

theorem byKind_key {input : ResolveWorkflowContinuationInput} {w : WorkflowNodeWaitState}
    (h : (input.byKind w).outcome = .completed) :
    Given ((input.byKind w).selectedBranchKey.or input.activeAttempt.selectedBranchKey) ↔
      Keyed input.request.payload w input.activeAttempt := by
  -- a kind that says nothing of a branch leaves the key of the attempt
  have hkept (hbatch : w.kind ≠ .asyncBatch) (hloop : w.kind ≠ .loopBackoff)
      (hjoin : w.kind = .parallelJoin → input.request.payload.map (·.timedOut) ≠ some true) :
      Given input.activeAttempt.selectedBranchKey ↔ Keyed input.request.payload w input.activeAttempt := by
    refine ⟨.attempted fun h => absurd h hbatch, ?_⟩
    rintro (h | ⟨h, htimed⟩ | ⟨h, -⟩ | ⟨-, hgiven⟩)
    · exact absurd h hloop
    · exact absurd htimed (hjoin h)
    · exact absurd h hbatch
    · exact hgiven
  unfold ResolveWorkflowContinuationInput.byKind at h ⊢
  cases hkind : w.kind with
  | humanDecision =>
    simp only [hkind] at h ⊢
    split_ifs at h ⊢
    · cases h
    · exact hkept (by simp [hkind]) (by simp [hkind]) (by simp [hkind])
  | asyncBatch =>
    simp only [hkind] at h ⊢
    split_ifs at h ⊢
    · cases h
    · cases hkey : input.request.payload.bind (·.selectedBranchKey) with
      | none =>
        simp only [Option.none_or, Option.or_self]
        refine ⟨.attempted fun _ => hkey, ?_⟩
        rintro (h | ⟨h, -⟩ | ⟨-, k, hk, -⟩ | ⟨-, hgiven⟩)
        · simp [hkind] at h
        · simp [hkind] at h
        · simp [hkey] at hk
        · exact hgiven
      | some k =>
        simp only [Option.some_or]
        refine ⟨fun hgiven => .requested hkind (hkey ▸ hgiven), ?_⟩
        rintro (h | ⟨h, -⟩ | ⟨-, hgiven⟩ | ⟨hnone, -⟩)
        · simp [hkind] at h
        · simp [hkind] at h
        · exact hkey ▸ hgiven
        · simp [hnone hkind] at hkey
  | checkpointCommit =>
    simp only [hkind] at h ⊢
    split_ifs at h ⊢
    · cases h
    · simp only [Option.or_self]
      exact hkept (by simp [hkind]) (by simp [hkind]) (by simp [hkind])
  | parallelJoin =>
    simp only [hkind] at h ⊢
    split_ifs with htimed
    · exact iff_of_true ⟨"timeout", rfl, by decide⟩ (.timedOut hkind htimed)
    · exact hkept (by simp [hkind]) (by simp [hkind]) fun _ => htimed
  | loopBackoff => exact iff_of_true ⟨"loop", rfl, by decide⟩ (.loop hkind)
  | retryBackoff => simp [hkind, ResolveWorkflowContinuationInput.corrected, ResolveWorkflowContinuationInput.result] at h

theorem completed_byKind {deps : WorkflowEngineDependencies} {nodeState : WorkflowNodeRunState}
    {attempt : WorkflowNodeAttempt} {request : WorkflowContinueNodeRequest}
    {commit : Option CommitWorkflowCheckpointResult} {result : WorkflowNodeExecutionResult}
    (h : continuationResult graph deps s nodeState attempt request commit = .ok result)
    (hcompleted : result.outcome = .completed) : ∃ w input, nodeState.activeWaitState = some w ∧
      input.activeAttempt = attempt ∧ input.request.payload = request.payload ∧
        result = ResolveWorkflowContinuationInput.byKind input w := by
  unfold continuationResult at h
  by_cases hpending : nodeState.activeWaitState.map (·.kind) = some .checkpointCommit ∧
      commit.map (·.committed) = some false
  · rw [if_pos hpending] at h
    cases h
    cases hcompleted
  · rw [if_neg hpending] at h
    obtain ⟨definition, -, h⟩ := bind_eq_ok.mp h
    unfold resolveWorkflowContinuation at h
    split at h
    · cases h
    · next w hw =>
      split_ifs at h
      · cases h
        cases hcompleted
      · split at h
        all_goals cases h
        · cases hcompleted
        · cases hcompleted
        · cases hcompleted
        · exact ⟨w, _, hw, rfl, rfl, rfl⟩

theorem chosen_iff {call : EngineCall} {op : RunStateOp} (h : Performs graph s call op)
    (htarget : op.target = some (n, .completed)) : Given (op.branchKey s) ↔ Chosen s op call := by
  cases h with
  | execute =>
    refine ⟨.executed, ?_⟩
    rintro (h | _ | _)
    exact h
  | @«continue» deps request nodeState attempt commit result hnode hattempt hresult =>
    obtain ⟨w, input, hw, hinput, hpayload, hkind⟩ := completed_byKind hresult (congrArg Prod.snd (Option.some.inj htarget))
    have hkey : Given (result.selectedBranchKey.or attempt.selectedBranchKey) ↔ Keyed request.payload w attempt := by
      have houtcome := congrArg Prod.snd (Option.some.inj htarget)
      rw [← hinput, ← hpayload, hkind]
      exact byKind_key (hkind ▸ houtcome)
    have hfind : nodeState.attempts.find? (fun a => some a.attempt = nodeState.activeAttempt) = some attempt := by
      obtain ⟨number, hnumber, hfind⟩ := Option.bind_eq_some_iff.mp hattempt
      rw [hnumber]
      simpa using hfind
    simp only [RunStateOp.branchKey, hnode, Option.bind_some, hfind]
    refine hkey.trans ⟨.continued hnode hattempt hw, ?_⟩
    rintro (_ | _ | ⟨hnode', hattempt', hw', hkeyed⟩)
    cases hnode.symm.trans hnode'
    cases hattempt.symm.trans hattempt'
    cases hw.symm.trans hw'
    exact hkeyed
  | complete n transition =>
    refine ⟨.direct, ?_⟩
    rintro (_ | h | _)
    exact h
  | pause | resume | cancel => cases htarget

end

/-! ## A deferred condition -/

/-- A condition with an edge for each of its branches. -/
def conditionDefinition : WorkflowDefinition where
  id := 1
  projectId := 1
  version := "1"
  name := "condition"
  entryNodeIds := [1]
  nodes := [sampleNode 1 (.condition "p" "yes" "no"), sampleNode 2 (.transform "t" "m"), sampleNode 3 (.transform "t" "m")]
  edges := [⟨1, 1, 2, some "yes", 0⟩, ⟨2, 1, 3, some "no", 0⟩]

def returnsWith (graph : DerivedWorkflowGraph) (call : EngineCall) (P : WorkflowRunState → Bool) (s : WorkflowRunState) :
    Bool :=
  ((call.program graph).alone s).1.toOption.isSome && P ((call.program graph).alone s).2

theorem exists_of_returnsWith {graph : DerivedWorkflowGraph} {call : EngineCall} {s : WorkflowRunState}
    {P : WorkflowRunState → Bool} (h : returnsWith graph call P s = true) :
    ∃ a t, (call.program graph).alone s = (.ok a, t) ∧ P t = true := by
  obtain ⟨hok, hP⟩ := Bool.and_eq_true_iff.mp h
  obtain ⟨a, ha⟩ := Option.isSome_iff_exists.mp hok
  exact ⟨a, _, Prod.ext (eq_ok_of_toOption ha) rfl, hP⟩

end NousCore.Workflow
