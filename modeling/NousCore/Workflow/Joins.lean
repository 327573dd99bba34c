import NousCore.Workflow.Handled
import NousCore.Workflow.Completion

/-!
# Parallel joins

A join is dispatched with the first branch that ends. Its handler counts the branches, and the join waits until the count
is met.

* `JoinMet` : what a join waits for;
* `continued_join_early` : the continuation of a waiting join completes it with a branch still to run.
-/

namespace NousCore.Workflow

/-! ## What a join waits for -/

/-- All upstream nodes are completed or skipped, or one is completed, or as many as are required. -/
def JoinMet (graph : DerivedWorkflowGraph) (s : WorkflowRunState) (n : WorkflowNodeDefinitionId) : Prop :=
  match graph.config n with
  | some (.parallelJoin .all _ _) => ∀ m ∈ graph.upstreamNodeIds n, isResolved (s.nodeStatus m) = true
  | some (.parallelJoin .any _ _) => ∃ m ∈ graph.upstreamNodeIds n, s.nodeStatus m = some .completed
  | some (.parallelJoin .nOfM requiredCount _) =>
    min (requiredCount.getD (graph.upstreamNodeIds n).dedup.length) (graph.upstreamNodeIds n).dedup.length ≤
      (graph.upstreamNodeIds n).dedup.countP fun m => s.nodeStatus m = some .completed
  | _ => False

/-- No upstream node counts twice: a join that requires more than one of its branches has one edge from each. -/
def CountsNodes (graph : DerivedWorkflowGraph) (n : WorkflowNodeDefinitionId) : Prop :=
  ∀ requiredCount timeoutMs, graph.config n = some (.parallelJoin .nOfM (some requiredCount) timeoutMs) →
    1 < requiredCount → (graph.upstreamNodeIds n).Nodup

variable {outcome : WorkflowNodeOutcome}

section

variable {graph : DerivedWorkflowGraph} {s t : WorkflowRunState} {n m : WorkflowNodeDefinitionId}

theorem Built.definition_id (h : Built graph) {node : DerivedWorkflowNode} (hn : graph.nodes.get? n = some node) :
    node.definition.id = n := by
  obtain ⟨_, definition, hok⟩ := h
  obtain ⟨-, hv, rfl⟩ := buildDerivedWorkflowGraph_ok hok
  obtain ⟨definition', -, heq⟩ := List.mem_map.mp (Record.mem_of_get?_ofEntries hn)
  cases heq
  rfl

variable {p : WorkflowNodeDefinitionId → Bool}

theorem forall_of_length_le_filter {l : List WorkflowNodeDefinitionId}
    (h : l.length ≤ (l.filter p).length) : ∀ m ∈ l, p m = true :=
  List.length_filter_eq_length_iff.mp (le_antisymm (List.length_filter_le p l) h)

theorem required_le_countP {l : List WorkflowNodeDefinitionId} {required : Nat}
    (h : required ≤ (l.filter p).length) (hnodup : 1 < required → l.Nodup) :
    min required l.dedup.length ≤ l.dedup.countP p := by
  by_cases hone : 1 < required
  · rw [(hnodup hone).dedup, List.countP_eq_length_filter]
    exact le_trans (min_le_left _ _) h
  · by_cases hpos : 0 < required
    · obtain ⟨m, hm⟩ := List.exists_mem_of_length_pos (lt_of_lt_of_le hpos h)
      obtain ⟨hmem, hp⟩ := List.mem_filter.mp hm
      have := List.countP_pos_iff.mpr ⟨m, List.mem_dedup.mpr hmem, hp⟩
      omega
    · omega

theorem parallelJoinHandler_completed {deps : WorkflowNodeHandlerDependencies} {context : WorkflowNodeExecutionContext}
    {result : WorkflowNodeExecutionResult} (h : parallelJoinHandler deps context = .ok result)
    (hout : result.outcome = .completed)
    (hconfig : context.graph.config context.nodeDefinition.id = some context.nodeDefinition.config)
    (hcounts : CountsNodes context.graph context.nodeDefinition.id) :
    JoinMet context.graph context.runState context.nodeDefinition.id := by
  unfold parallelJoinHandler at h
  unfold CountsNodes at hcounts
  rw [JoinMet]
  rw [hconfig] at hcounts ⊢
  have hupstream : context.upstreamNodeIds = context.graph.upstreamNodeIds context.nodeDefinition.id := rfl
  rw [hupstream] at h
  generalize context.graph.upstreamNodeIds context.nodeDefinition.id = upstream at *
  split at h
  · next joinMode configRequired timeoutMs hc =>
    rw [hc] at hcounts ⊢
    dsimp only at h
    split_ifs at h with hnone
    · cases h
      cases hout
    · split at h
      · cases h
        cases hout
      · next requiredCount hrequired =>
        split_ifs at h with hmet
        · cases joinMode with
          | all =>
            cases hrequired
            rcases hmet with hmet | ⟨-, hmet⟩
            · intro m hm
              have := of_decide_eq_true (forall_of_length_le_filter hmet m hm)
              simp [isResolved, this]
            · intro m hm
              have := of_decide_eq_true (forall_of_length_le_filter hmet.ge m hm)
              simpa [isResolved] using this
          | any =>
            cases hrequired
            have hmet := hmet.resolve_right fun h => by simp at h
            obtain ⟨m, hm⟩ := List.exists_mem_of_length_pos hmet
            obtain ⟨hmem, hp⟩ := List.mem_filter.mp hm
            exact ⟨m, hmem, of_decide_eq_true hp⟩
          | nOfM =>
            have hmet := hmet.resolve_right fun h => by simp at h
            cases configRequired with
            | none =>
              cases hrequired
              have hall := forall_of_length_le_filter hmet
              have : upstream.dedup.countP (fun m => context.runState.nodeStatus m = some .completed) =
                  upstream.dedup.length := List.countP_eq_length.mpr fun m hm => hall m (List.mem_dedup.mp hm)
              simp [this]
            | some count =>
              simp only [joinRequiredCount] at hrequired
              split_ifs at hrequired
              cases hrequired
              exact required_le_countP hmet (hcounts _ timeoutMs rfl)
        · cases h
          cases hout
  · cases h

/-! ## Calls on a join -/

def EngineCall.node : EngineCall → Option WorkflowNodeDefinitionId
  | executeReadyNode _ request => some request.nodeDefinitionId
  | continueNode _ request => some request.nodeDefinitionId
  | completeNode n _ => some n
  | pause _ | resume _ | cancel _ => none

/-- The call continues a join whose wait has timed out. -/
def EngineCall.timesOut : EngineCall → Bool
  | continueNode _ request => (request.payload.map (·.timedOut)).getD false
  | _ => false

/-- The request does not complete a node that waits for `w`: the project is not running, the token is not that of the
wait, a person declines, or the node backs off. -/
def WorkflowContinueNodeRequest.declines (request : WorkflowContinueNodeRequest) (w : WorkflowNodeWaitState) : Prop :=
  request.controlState ≠ .running ∨ request.tokenMismatch w ∨ w.kind = .retryBackoff ∨
    w.kind = .humanDecision ∧ request.rejected

/-- The call executes or continues a node, and leaves the count of a join to its handler: a join is executed by the
built-in handler, and continued only when its wait has timed out, when its count is met, or without being completed. -/
def AwaitsJoin (graph : DerivedWorkflowGraph) (s : WorkflowRunState) : EngineCall → Prop
  | .executeReadyNode deps request => graph.nodeType request.nodeDefinitionId = some .parallelJoin →
      deps.nodeHandlerOverrides .parallelJoin = none ∧ CountsNodes graph request.nodeDefinitionId
  | .continueNode _ request => graph.nodeType request.nodeDefinitionId = some .parallelJoin →
      (request.payload.map (·.timedOut)).getD false = true ∨ JoinMet graph s request.nodeDefinitionId ∨
        ∀ nodeState ∈ s.node? request.nodeDefinitionId, ∀ w ∈ nodeState.activeWaitState, request.declines w
  | .completeNode .. | .cancel _ => False
  | .pause _ | .resume _ => True

def Completes (s t : WorkflowRunState) (n : WorkflowNodeDefinitionId) : Prop :=
  s.nodeStatus n ≠ some .completed ∧ t.nodeStatus n = some .completed

theorem findNodeDefinition_eq_ok {definition : WorkflowNodeDefinition} :
    findNodeDefinition graph n = .ok definition ↔ ∃ node, graph.nodes.get? n = some node ∧ node.definition = definition := by
  unfold findNodeDefinition
  cases graph.nodes.get? n <;> simp

variable {deps : WorkflowEngineDependencies}

theorem continuationResult_completed {nodeState : WorkflowNodeRunState}
    {attempt : WorkflowNodeAttempt} {request : WorkflowContinueNodeRequest}
    {commit : Option CommitWorkflowCheckpointResult} {result : WorkflowNodeExecutionResult}
    (h : continuationResult graph deps s nodeState attempt request commit = .ok result)
    (hout : result.outcome = .completed) : ∃ w ∈ nodeState.activeWaitState, ¬request.declines w := by
  obtain ⟨w, hw, hcontinued⟩ := continuationResult_cases h
  refine ⟨w, hw, fun hdeclines => ?_⟩
  have hkind : w.kind ≠ .retryBackoff ∧ (w.kind = .humanDecision → request.approves w) := by
    cases hcontinued with
    | stopped hstopped => rw [hstopped.outcome] at hout; cases hout
    | waiting _ hwaiting => rw [hwaiting] at hout; cases hout
    | completed _ hretry hhuman => exact ⟨hretry, hhuman⟩
  unfold continuationResult at h
  by_cases hpending : nodeState.activeWaitState.map (·.kind) = some .checkpointCommit ∧
      commit.map (·.committed) = some false
  · rw [if_pos hpending] at h
    cases h
    cases hout
  rw [if_neg hpending] at h
  obtain ⟨definition, -, h⟩ := bind_eq_ok.mp h
  unfold resolveWorkflowContinuation at h
  rw [hw] at h
  dsimp only at h
  split_ifs at h with htoken
  · cases h
    cases hout
  · rcases hdeclines with hcontrol | hmismatch | hretry | ⟨hhuman, hrejected⟩
    · split at h
      · cases h
        cases hout
      · cases h
        cases hout
      · cases h
        cases hout
      · next hrunning => exact hcontrol hrunning
    · exact htoken hmismatch
    · exact hkind.1 hretry
    · exact (hkind.2 hhuman).2.1 hrejected

theorem mapOutcomeToStatus_eq_completed : mapOutcomeToStatus outcome = .completed ↔ outcome = .completed := by
  cases outcome <;> simp [mapOutcomeToStatus]

theorem capturedResult_completed {result : WorkflowNodeExecutionResult}
    {capture : CaptureWorkflowCheckpointResult} (h : (capturedResult deps result capture).outcome = .completed) :
    result.outcome = .completed := by
  unfold capturedResult at h
  split_ifs at h with hc
  · exact hc.1
  · exact h

/-- **Not early.** A call that awaits the joins completes a join whose count is met, unless its wait has timed out. -/
theorem completes_joinMet (hgraph : Built graph) (hok : LineageOk s) {call : EngineCall} {a : WorkflowRunState}
    (halone : (call.program graph).alone s = (.ok a, t)) (hawaits : AwaitsJoin graph s call)
    (hjoin : graph.nodeType n = some .parallelJoin) (hcompletes : Completes s t n) (htimeout : call.timesOut = false) :
    JoinMet graph s n := by
  obtain ⟨-, op, hperforms, hop⟩ := alone_performs halone
  obtain ⟨hbefore, hafter⟩ := hcompletes
  rw [← WorkflowRunState.status_slot] at hbefore hafter
  obtain ⟨core', hcore', hstatus'⟩ := Option.map_eq_some_iff.mp hafter
  obtain ⟨core, hcore, hkeeps | ⟨outcome, taken, htarget, htakes, hkeeps⟩⟩ := core_cases hok hop hcore'
  · exact absurd (by rw [Slot.status, hcore, Option.map_some, hkeeps.completed hstatus']) hbefore
  have htaken := hkeeps.completed hstatus'
  cases hperforms with
  | @execute deps request evaluate lineage definition result capture hevaluate hdefinition hresult =>
    cases htarget
    obtain ⟨hhandler, hcounts⟩ := hawaits hjoin
    obtain ⟨-, id, timestamp, rfl⟩ := htakes
    have hout : result.outcome = .completed :=
      capturedResult_completed (mapOutcomeToStatus_eq_completed.mp htaken)
    rcases executeWorkflowNode_cases hevaluate hresult with hby | hstopped | hdeferred
    · obtain ⟨_, decision, handler, -, -, -, hfound, hran⟩ := hby
      obtain ⟨node, hnode, rfl⟩ := findNodeDefinition_eq_ok.mp hdefinition
      have hid := hgraph.definition_id hnode
      have hconfig : graph.config request.nodeDefinitionId = some node.definition.config := by
        rw [DerivedWorkflowGraph.config, hnode, Option.map_some]
      have htype : node.definition.type = .parallelJoin := by
        rw [DerivedWorkflowGraph.nodeType, hnode, Option.map_some] at hjoin
        exact Option.some.inj hjoin
      rw [WorkflowEngineDependencies.handler, htype, hhandler] at hfound
      cases hfound
      have := parallelJoinHandler_completed hran hout (by rw [← hid] at hconfig; exact hconfig) (by rw [← hid] at hcounts; exact hcounts)
      rw [← hid]
      exact this
    · rw [hstopped.outcome] at hout
      cases hout
    · rw [hdeferred.outcome] at hout
      cases hout
  | @«continue» deps request nodeState attempt commit result hnode hattempt hresult =>
    cases htarget
    obtain ⟨active, timestamp, -, -, rfl⟩ := htakes
    have hout : result.outcome = .completed := mapOutcomeToStatus_eq_completed.mp htaken
    obtain ⟨w, hw, hnot⟩ := continuationResult_completed hresult hout
    rcases hawaits hjoin with htimed | hmet | hdeclines
    · rw [EngineCall.timesOut, htimed] at htimeout
      cases htimeout
    · exact hmet
    · exact absurd (hdeclines nodeState hnode w hw) hnot
  | complete => exact hawaits.elim
  | pause | resume | cancel => cases htarget

end

/-! ## The lineages that a call records -/

def Adds (P : WorkflowDispatchLineage → Prop) (s s' : WorkflowRunState) : Prop :=
  ∃ lineages, s'.dispatchLineage = s.dispatchLineage ++ lineages ∧ ∀ lineage ∈ lineages, P lineage

namespace Adds

variable {P Q : WorkflowDispatchLineage → Prop} {s s' s'' : WorkflowRunState} {graph : DerivedWorkflowGraph}
  {n m : WorkflowNodeDefinitionId} {transition : WorkflowTransitionInput} {timestamp : Timestamp}

theorem keep (h : s'.dispatchLineage = s.dispatchLineage) : Adds P s s' := ⟨[], by simp [h], by simp⟩

theorem push {lineage : WorkflowDispatchLineage} (h : s'.dispatchLineage = s.dispatchLineage ++ [lineage])
    (hp : P lineage) : Adds P s s' := ⟨[lineage], h, by simpa using hp⟩

theorem mono (h : Adds P s s') (hpq : ∀ lineage, P lineage → Q lineage) : Adds Q s s' := by
  obtain ⟨lineages, hl, hp⟩ := h
  exact ⟨lineages, hl, fun lineage hmem => hpq lineage (hp lineage hmem)⟩

theorem trans (h : Adds P s s') (h' : Adds P s' s'') : Adds P s s'' := by
  obtain ⟨lineages, hl, hp⟩ := h
  obtain ⟨lineages', hl', hp'⟩ := h'
  refine ⟨lineages ++ lineages', by rw [hl', hl, List.append_assoc], fun lineage hmem => ?_⟩
  exact (List.mem_append.mp hmem).elim (hp lineage) (hp' lineage)

theorem of_drop (h : Adds P s s') : ∀ lineage ∈ s'.dispatchLineage.drop s.dispatchLineage.length, P lineage := by
  obtain ⟨lineages, hl, hp⟩ := h
  rwa [hl, List.drop_left]

theorem readySuccessor (h : Workflow.readySuccessor graph n transition timestamp s m = .ok s') :
    Adds (·.nodeDefinitionId = m) s s' := by
  unfold Workflow.readySuccessor at h
  split at h
  · cases h
  · cases h
    exact .push rfl rfl

theorem reactivateJoin (h : Workflow.reactivateJoin graph n timestamp s m = .ok s') : Adds P s s' := by
  unfold Workflow.reactivateJoin at h
  split at h
  · cases h
  · cases h
    exact .keep rfl

theorem reactivateParentLoop (graph : DerivedWorkflowGraph) (n : WorkflowNodeDefinitionId)
    (transition : WorkflowTransitionInput) (timestamp : Timestamp) (s : WorkflowRunState) :
    Adds (·.parentNodeDefinitionId = none) s (Workflow.reactivateParentLoop graph n transition timestamp s) := by
  unfold Workflow.reactivateParentLoop
  split
  · next p _ =>
    have hreset : Adds (·.parentNodeDefinitionId = none) s
        ((loopBodyNodeIds graph p).foldl (resetLoopBody timestamp) (uncomplete s p)) :=
      List.foldlRecOn (loopBodyNodeIds graph p) _ (keep rfl) fun t ht m _ => ht.trans (keep rfl)
    exact hreset.trans (.push rfl rfl)
  · exact keep rfl

theorem activateSuccessors {key : Option String}
    (h : Workflow.activateSuccessors s graph n transition key = .ok s') :
    Adds (fun lineage => lineage.parentNodeDefinitionId = none ∨
      lineage.nodeDefinitionId ∈ readiedIds s graph n key) s s' := by
  obtain ⟨s₂, hready, h⟩ := bind_eq_ok.mp h
  have hreadied : Adds (fun lineage => lineage.nodeDefinitionId ∈ readiedIds s graph n key) s s₂ := by
    have hedges : Adds (fun lineage => lineage.nodeDefinitionId ∈ readiedIds s graph n key) s
        (activateEdges graph n key s) := keep rfl
    refine foldlM_invariant (P := Adds _ s) (fun u m v hm hu hv => hu.trans ?_) hedges hready
    exact (readySuccessor hv).mono fun lineage hl => hl ▸ hm
  have hloop := reactivateParentLoop graph n transition (occurredAt transition s.updatedAt) s₂
  refine foldlM_invariant (P := Adds _ s) (fun u m v _ hu hv => hu.trans (reactivateJoin hv)) ?_ h
  exact (hreadied.mono fun _ => .inr).trans (hloop.mono fun _ => .inl)

theorem skipDescendants (graph : DerivedWorkflowGraph) (n : WorkflowNodeDefinitionId) (timestamp : Timestamp)
    (turns : Nat) : ∀ (todo done : List WorkflowNodeDefinitionId) (s : WorkflowRunState),
      Adds P s (Workflow.skipDescendants graph n timestamp turns todo done s) := by
  induction turns with
  | zero => exact fun _ _ _ => keep rfl
  | succ turns ih =>
    intro todo done s
    cases todo with
    | nil => exact keep rfl
    | cons targetId todo =>
      rw [Workflow.skipDescendants]
      split_ifs
      · exact ih _ _ _
      · exact ih _ _ _
      · exact (keep rfl).trans (ih _ _ (skipNode n timestamp s targetId))

end Adds

/-- The completion of `n` dispatches `m`: no list holds `m` once the losers of the race are skipped, and `m` is ready in
the end. -/
def DispatchedUnder (graph : DerivedWorkflowGraph) (s : WorkflowRunState) (n : WorkflowNodeDefinitionId)
    (s' : WorkflowRunState) (m : WorkflowNodeDefinitionId) : Prop :=
  ∃ s₁ s₂ key, Moved s s₁ n ∧ (s₁.slot n).status = some .completed ∧ RaceCancelled s₁ s₂ graph n ∧
    m ∈ readiedIds s₂ graph n key ∧ (s'.slot m).ready

section

variable {graph : DerivedWorkflowGraph} {s s' : WorkflowRunState} {n m : WorkflowNodeDefinitionId}
  {result : WorkflowNodeExecutionResult} {transition : WorkflowTransitionInput} {attempt : WorkflowNodeAttempt}

theorem applyAttemptOutcome_adds (hok : LineageOk s) (hn : s.node? n ≠ none)
    (h : applyAttemptOutcome s graph n attempt result transition = .ok s') :
    Adds (fun lineage => lineage.parentNodeDefinitionId = none ∨
      DispatchedUnder graph s n s' lineage.nodeDefinitionId) s s' := by
  unfold applyAttemptOutcome at h
  cases houtcome : result.outcome with
  | completed =>
    simp only [houtcome] at h
    have hleft := moved_leaveLists n hok
    have htaken : Moved s ((leaveLists s n).modifyNode n (·.withResult result (occurredAt transition s.updatedAt))) n :=
      hleft.trans (moved_modifyNode hleft.lineage fun _ => rfl)
    have hcleared := htaken.trans (moved_modifyNode (n := n) (f := fun x => (x.setActive none).clearWait) htaken.lineage
      fun _ => rfl)
    have hlisted := hcleared.trans (moved_listCompleted graph hcleared.lineage)
    have hstatus : ((listCompleted graph (((leaveLists s n).modifyNode n
        (·.withResult result (occurredAt transition s.updatedAt))).modifyNode n fun x => (x.setActive none).clearWait)
        n).slot n).status = some .completed := by
      rw [slot_listCompleted, slot_modifyNode (g := fun core => { core with activeAttempt := none, activeWaitState := none })
        fun _ => rfl, if_pos rfl, slot_modifyNode (g := (·.withResult result)) fun _ => rfl, if_pos rfl, slot_leaveLists]
      obtain ⟨core, hcore⟩ := Option.ne_none_iff_exists'.mp (core_slot_eq_none.not.mpr hn)
      simp [Slot.status, hcore, NodeCore.withResult, houtcome, mapOutcomeToStatus]
    have hmem : n ∈ (listCompleted graph (((leaveLists s n).modifyNode n
        (·.withResult result (occurredAt transition s.updatedAt))).modifyNode n fun x => (x.setActive none).clearWait)
        n).completedNodeIds := by simp [listCompleted]
    have hlineages : Adds (fun lineage => lineage.parentNodeDefinitionId = none ∨
        DispatchedUnder graph s n s' lineage.nodeDefinitionId) s (listCompleted graph (((leaveLists s n).modifyNode n
          (·.withResult result (occurredAt transition s.updatedAt))).modifyNode n fun x => (x.setActive none).clearWait)
          n) := .keep rfl
    generalize listCompleted graph _ n = s₁ at h hlisted hstatus hmem hlineages
    have hrace := cancelRaceLosers_spec graph n transition hlisted.lineage
    have hactivated := activateSuccessors_spec hrace.lineage (hrace.completed ▸ hmem) h
    refine (hlineages.trans (.skipDescendants graph n _ _ _ _ s₁)).trans ((Adds.activateSuccessors h).mono ?_)
    rintro lineage (hparent | hready)
    · exact .inl hparent
    · exact .inr ⟨s₁, _, _, hlisted, hstatus, hrace, hready, (hactivated.ready _).mpr (.inr (.inl hready))⟩
  | waiting =>
    simp only [houtcome] at h
    cases h
    unfold trackJoin
    split
    · exact .keep rfl
    · split_ifs <;> exact .keep rfl
  | blocked | failed =>
    simp only [houtcome] at h
    cases h
    exact .keep rfl

theorem modify_ne_none {r : Record WorkflowNodeDefinitionId WorkflowNodeRunState}
    {f : WorkflowNodeRunState → WorkflowNodeRunState} (h : r.get? n ≠ none) : (r.modify n f).get? n ≠ none := by
  rw [Record.get?_modify, if_pos rfl]
  simpa using h

theorem DispatchedUnder.of_moved {s₀ : WorkflowRunState} (h : DispatchedUnder graph s₀ n s' m) (hmoved : Moved s s₀ n) :
    DispatchedUnder graph s n s' m := by
  obtain ⟨s₁, s₂, key, hmoved₁, hstatus, hrace, hreadied, hready⟩ := h
  exact ⟨s₁, s₂, key, hmoved.trans hmoved₁, hstatus, hrace, hreadied, hready⟩

/-- **The lineages of an operation** on a node are its own, those of a re-activated loop, and those of the nodes it
dispatches. -/
theorem applyRunStateOp_adds {op : RunStateOp} (hok : LineageOk s)
    (htarget : op.target = some (n, outcome)) (hraces : op.races = true) (h : applyRunStateOp graph s op = .ok s') :
    Adds (fun lineage => lineage.nodeDefinitionId = n ∨ lineage.parentNodeDefinitionId = none ∨
      DispatchedUnder graph s n s' lineage.nodeDefinitionId) s s' := by
  cases op with
  | record m result transition checkpointState prepared committed =>
    cases htarget
    change recordWorkflowNodeExecution _ = _ at h
    unfold recordWorkflowNodeExecution at h
    dsimp only at h
    split at h
    · cases h
    next nodeState hnode =>
    split_ifs at h
    obtain ⟨s₃, happly, hparse⟩ := bind_eq_ok.mp h
    cases WorkflowRunStateSchema.parse_ok hparse
    have hopen := moved_openAttempt hok (n := n) (by simp [hnode]) (nodeState.attempts.length + 1) transition
      (occurredAt transition s.updatedAt) (newAttempt (nodeState.attempts.length + 1)
        (attemptLineage s n (nodeState.attempts.length + 1) transition (occurredAt transition s.updatedAt)).id result
        (occurredAt transition s.updatedAt))
    have hmoved := hopen.trans (moved_updateCheckpointFields hopen.lineage n checkpointState prepared committed)
    have hadds := applyAttemptOutcome_adds hmoved.lineage (modify_ne_none (Option.ne_none_iff_exists'.mpr ⟨nodeState, hnode⟩)) happly
    refine (Adds.push rfl (.inl rfl)).trans ((hadds.mono fun lineage hl => .inr (hl.imp id fun h => ?_)).trans (.keep rfl))
    exact h.of_moved hmoved
  | resolve m result transition checkpointState prepared committed =>
    cases htarget
    change resolveWorkflowNodeContinuation _ = _ at h
    unfold resolveWorkflowNodeContinuation at h
    dsimp only at h
    split at h
    · cases h
    next nodeState hnode =>
    split at h
    · cases h
    next activeAttempt hactive =>
    split at h
    · cases h
    obtain ⟨s₃, happly, hparse⟩ := bind_eq_ok.mp h
    cases WorkflowRunStateSchema.parse_ok hparse
    have hedited : Moved s (editActiveAttempt s n activeAttempt result (occurredAt transition s.updatedAt)) n :=
      moved_modifyNode hok fun _ => rfl
    have hmoved := hedited.trans (moved_updateCheckpointFields hedited.lineage n checkpointState prepared committed)
    have hadds := applyAttemptOutcome_adds hmoved.lineage (modify_ne_none (Option.ne_none_iff_exists'.mpr ⟨nodeState, hnode⟩)) happly
    refine (Adds.keep rfl).trans ((hadds.mono fun lineage hl => .inr (hl.imp id fun h => ?_)).trans (.keep rfl))
    exact h.of_moved hmoved
  | complete => simp [RunStateOp.races] at hraces
  | pause | resume | cancel => cases htarget

end

/-! ## Once -/

/-- No loop re-activation resets the node: it is no loop node, and no loop branch leads to it. -/
def OutsideLoops (graph : DerivedWorkflowGraph) (m : WorkflowNodeDefinitionId) : Prop :=
  graph.nodeType m ≠ some .loop ∧ ∀ p, graph.nodeType p = some .loop → m ∉ loopBodyNodeIds graph p

/-- A step about another node records a lineage of `m` that names a parent. -/
def Dispatched (node : Option WorkflowNodeDefinitionId) (s t : WorkflowRunState) (m : WorkflowNodeDefinitionId) : Prop :=
  node ≠ some m ∧ ∃ lineage ∈ t.dispatchLineage.drop s.dispatchLineage.length,
    lineage.nodeDefinitionId = m ∧ lineage.parentNodeDefinitionId ≠ none

/-- `m` has neither failed nor been skipped, and it loses no race to the node that the call is about. -/
def Standing (graph : DerivedWorkflowGraph) (s : WorkflowRunState) (call : EngineCall) (m : WorkflowNodeDefinitionId) :
    Prop :=
  s.nodeStatus m ≠ some .failed ∧ s.nodeStatus m ≠ some .skipped ∧ ∀ n ∈ call.node, ¬Loses graph s n m

/-- A node that was dispatched: listed, failed or skipped. -/
def Slot.Begun (sl : Slot) : Prop :=
  sl.ready ∨ sl.waiting ∨ sl.blocked ∨ sl.completed ∨ sl.status = some .failed ∨ sl.status = some .skipped

section

variable {graph : DerivedWorkflowGraph} {s t s₁ s₂ : WorkflowRunState} {n m : WorkflowNodeDefinitionId} {op : RunStateOp}
  {key : Option String}

theorem Slot.Begun.skip {sl : Slot} (h : sl.core ≠ none) : sl.skip.Begun := by
  obtain ⟨core, hcore⟩ := Option.ne_none_iff_exists'.mp h
  exact .inr (.inr (.inr (.inr (.inr (by simp [Slot.status, Slot.skip, hcore, NodeCore.reset])))))

/-- The completion of `n` does not reset `m`: it re-activates no loop node that is `m` or leads to it. -/
def Unreset (graph : DerivedWorkflowGraph) (s : WorkflowRunState) (n m : WorkflowNodeDefinitionId) : Prop :=
  ∀ p, loopToReactivate s graph n = some p → p ≠ m ∧ m ∉ loopBodyNodeIds graph p

theorem OutsideLoops.unreset (hm : OutsideLoops graph m) (s : WorkflowRunState) (n : WorkflowNodeDefinitionId) :
    Unreset graph s n m := by
  intro p hp
  have htype := (loopToReactivate_eq_some.mp hp).2.1
  exact ⟨fun e => hm.1 (e ▸ htype), hm.2 p htype⟩

theorem Activated.slot_unreset (h : Activated s t graph n key) (hm : Unreset graph s n m) :
    t.slot m = ((s.slot m).when (m ∈ readiedIds s graph n key) Slot.makeReady).when
      (m ∈ waitingJoinNodeIds s graph n) Slot.reactivateJoin := by
  have hloop : loopToReactivate s graph n ≠ some m := fun hl => (hm m hl).1 rfl
  have hbody : m ∉ resetBodyIds s graph n := by
    intro hbody
    rw [resetBodyIds] at hbody
    cases hl : loopToReactivate s graph n with
    | none => simp [hl] at hbody
    | some p =>
      rw [hl] at hbody
      exact (hm p hl).2 hbody
  rw [h.slot, Slot.when_neg hloop, Slot.when_neg hbody]

theorem Activated.begun (h : Activated s t graph n key) (hm : Unreset graph s n m) (hs : (s.slot m).Begun) :
    (t.slot m).Begun := by
  rw [h.slot_unreset hm]
  simp only [Slot.when]
  split_ifs
  · exact .inl trivial
  · exact .inl trivial
  · exact .inl trivial
  · exact hs

theorem Activated.completed (h : Activated s t graph n key) (hm : Unreset graph s n m) (hs : (s.slot m).completed)
    (hw : ¬(s.slot m).waiting) : t.slot m = s.slot m := by
  rw [h.slot_unreset hm, Slot.when_neg fun hj => hw (mem_waitingJoinNodeIds.mp hj).1,
    Slot.when_neg fun hr => (mem_readiedIds.mp hr).2.2.2.2 hs]

theorem NodeStep.begun {s' s₃ : WorkflowRunState} {core core' : NodeCore}
    (h : NodeStep graph s op s' n outcome core core' s₁ s₂ s₃) (hstatus : core'.status = mapOutcomeToStatus outcome)
    (hm : outcome = .completed → Unreset graph s₂ n m) (hs : (s.slot m).Begun) : (s'.slot m).Begun := by
  rw [h.finished.slot]
  have hstatus₁ : (s₁.slot n).status = some (mapOutcomeToStatus outcome) := by
    rw [Slot.status, h.settled.core, Option.map_some, hstatus]
  have hs₁ : (s₁.slot m).Begun := by
    by_cases hmn : m = n
    · subst hmn
      cases outcome with
      | completed => exact .inr (.inr (.inr (.inl (h.settled.completed.mpr (.inr rfl)))))
      | waiting => exact .inr (.inl (h.settled.waiting.mpr rfl))
      | blocked => exact .inr (.inr (.inl (h.settled.blocked.mpr rfl)))
      | failed => exact .inr (.inr (.inr (.inr (.inl hstatus₁))))
    · rwa [h.moved.others m hmn]
  by_cases hout : outcome = .completed
  · refine (h.activated hout).begun (hm hout) ?_
    obtain ⟨hn, hothers⟩ := h.slot₂ hout (by rw [hstatus₁, hout]; rfl)
    by_cases hmn : m = n
    · subst hmn
      rwa [hn]
    · by_cases hl : LosesRace graph s op n m
      · rw [(hothers m hmn).1 hl]
        refine .skip fun hnone => hl.2.kept.2.1 ?_
        rw [← WorkflowRunState.status_slot, Slot.status, hnone, Option.map_none]
      · rwa [(hothers m hmn).2 hl]
  · rwa [h.other hout]

theorem NodeStep.stays_completed {s' s₃ : WorkflowRunState} {core core' : NodeCore}
    (h : NodeStep graph s op s' n outcome core core' s₁ s₂ s₃) (hstatus : core'.status = mapOutcomeToStatus outcome)
    (hmn : m ≠ n) (hm : outcome = .completed → Unreset graph s₂ n m) (hs : (s.slot m).status = some .completed) (hlisted : (s.slot m).completed)
    (hwaiting : ¬(s.slot m).waiting) : (s'.slot m).status = some .completed := by
  rw [h.finished.slot]
  by_cases hout : outcome = .completed
  · have hstatus₁ : (s₁.slot n).status = some .completed := by
      rw [Slot.status, h.settled.core, Option.map_some, hstatus, hout]
      rfl
    have hl : ¬LosesRace graph s op n m := by
      intro hl
      have := hl.2.kept.2.2
      rw [← WorkflowRunState.status_slot, hs] at this
      simp [isResolved] at this
    have hsame : s₂.slot m = s.slot m := ((h.slot₂ hout hstatus₁).2 m hmn).2 hl
    rw [(h.activated hout).completed (hm hout) (hsame ▸ hlisted) (hsame ▸ hwaiting), hsame]
    exact hs
  · rw [h.other hout, h.moved.others m hmn]
    exact hs

theorem Dispatched.under (hm : Dispatched (some n) s t m) (hok : LineageOk s)
    (htarget : op.target = some (n, outcome)) (hraces : op.races = true) (hop : applyRunStateOp graph s op = .ok t) :
    m ≠ n ∧ DispatchedUnder graph s n t m := by
  obtain ⟨hnode, lineage, hmem, rfl, hparent⟩ := hm
  have hne : lineage.nodeDefinitionId ≠ n := fun e => hnode (e ▸ rfl)
  rcases (applyRunStateOp_adds hok htarget hraces hop).of_drop lineage hmem with hown | hloop | hdispatched
  · exact absurd hown hne
  · exact absurd hloop hparent
  · exact ⟨hne, hdispatched⟩

section

variable {stale : WorkflowNodeDefinitionId → Prop}

theorem Consistent.begun (hs : Consistent stale s) (h : applyRunStateOp graph s op = .ok t) (hcancel : op.isCancel = false)
    (hm : OutsideLoops graph m) (hbegun : (s.slot m).Begun) : (t.slot m).Begun := by
  cases htarget : op.target with
  | none =>
    cases op with
    | record _ _ => cases htarget
    | resolve _ _ => cases htarget
    | complete _ _ => cases htarget
    | pause transition => rwa [(pause_spec h).1.slot]
    | resume transition => rwa [(resume_spec h).1.slot]
    | cancel transition => cases hcancel
  | some target =>
    obtain ⟨core, core', s₁, s₂, s₃, hstep⟩ := nodeStep_spec hs.lineage htarget h
    obtain ⟨-, hstatus⟩ := hstep.takes.sound htarget ((hs.agrees target.1).core core hstep.before)
    exact hstep.begun hstatus (fun _ => hm.unreset _ _) hbegun

theorem Consistent.stays_completed (hs : Consistent stale s) (h : applyRunStateOp graph s op = .ok t)
    (hcancel : op.isCancel = false) (hm : OutsideLoops graph m) (hdone : s.nodeStatus m = some .completed) :
    t.nodeStatus m = some .completed := by
  rw [← WorkflowRunState.status_slot] at hdone ⊢
  cases htarget : op.target with
  | none =>
    cases op with
    | record _ _ => cases htarget
    | resolve _ _ => cases htarget
    | complete _ _ => cases htarget
    | pause transition => rwa [(pause_spec h).1.slot]
    | resume transition => rwa [(resume_spec h).1.slot]
    | cancel transition => cases hcancel
  | some target =>
    obtain ⟨core, core', s₁, s₂, s₃, hstep⟩ := nodeStep_spec hs.lineage htarget h
    have hsound := (hs.agrees target.1).core core hstep.before
    obtain ⟨-, hstatus⟩ := hstep.takes.sound htarget hsound
    have hmn : m ≠ target.1 := by
      rintro rfl
      rw [Slot.status, hstep.before, Option.map_some] at hdone
      rcases hstep.takes.outstanding hsound with ho | ho | ho <;> rw [ho] at hdone <;> cases hdone
    exact hstep.stays_completed hstatus hmn (fun _ => hm.unreset _ _) hdone ((hs.agrees m).completed.mpr hdone)
      ((hs.agrees m).not_waiting (by simp [hdone]) (by simp [hdone]))

end

end

/-! ## Runs of calls -/

/-- One call after another, each of which leaves the count of a join to its handler. -/
abbrev AwaitingStep (graph : DerivedWorkflowGraph) :
    WorkflowRunState → EngineCall × WorkflowRunState → WorkflowRunState → Prop :=
  Guarded (Alone (EngineCall.program graph)) fun s x => AwaitsJoin graph s x.1

section

variable {graph : DerivedWorkflowGraph} {s s₀ t u v : WorkflowRunState} {x y : EngineCall × WorkflowRunState}
  {l l' : List (EngineCall × WorkflowRunState)} {m : WorkflowNodeDefinitionId}

/-- The invariant of these runs: only a loop node may be stale. -/
abbrev LoopConsistent (graph : DerivedWorkflowGraph) (s : WorkflowRunState) : Prop :=
  Consistent (fun j => graph.nodeType j = some .loop) s

theorem AwaitsJoin.isCancel {call : EngineCall} {op : RunStateOp} (h : AwaitsJoin graph s call)
    (hperforms : Performs graph s call op) : op.isCancel = false := by
  cases hperforms with
  | cancel => exact h.elim
  | execute | «continue» | complete | pause | resume => rfl

theorem LoopConsistent.step {op : RunStateOp} (hs : LoopConsistent graph s) (hop : applyRunStateOp graph s op = .ok t)
    (hcancel : op.isCancel = false) : LoopConsistent graph t := by
  refine Consistent.step hs hop (fun transition h => ?_) (fun j hj => by simp [hj]) fun n _ p hp _ =>
    (loopToReactivate_eq_some.mp hp).2.1
  rw [h] at hcancel
  cases hcancel

theorem exists_op_of_step (h : AwaitingStep graph s x t) :
    ∃ op, Performs graph s x.1 op ∧ applyRunStateOp graph s op = .ok t ∧ op.isCancel = false := by
  obtain ⟨-, op, hperforms, hop⟩ := alone_performs h.1
  exact ⟨op, hperforms, hop, h.2.isCancel hperforms⟩

theorem loopConsistent_of_run (hs : LoopConsistent graph s) (h : Run (AwaitingStep graph) s l t) :
    LoopConsistent graph t :=
  h.invariant (P := LoopConsistent graph) (fun _ _ _ hs hstep =>
    have ⟨_, _, hop, hcancel⟩ := exists_op_of_step hstep
    LoopConsistent.step hs hop hcancel) hs

theorem dispatched_under (hok : LineageOk s) (h : AwaitingStep graph s x t) (hm : Dispatched x.1.node s t m) :
    ∃ n, x.1.node = some n ∧ m ≠ n ∧ DispatchedUnder graph s n t m := by
  obtain ⟨op, hperforms, hop, hcancel⟩ := exists_op_of_step h
  have hunder : ∀ n outcome, op.target = some (n, outcome) → op.races = true → x.1.node = some n →
      ∃ n, x.1.node = some n ∧ m ≠ n ∧ DispatchedUnder graph s n t m := by
    intro n outcome htarget hraces hn
    rw [hn] at hm
    exact ⟨n, hn, hm.under hok htarget hraces hop⟩
  obtain ⟨-, lineage, hmem, -⟩ := hm
  obtain ⟨call, a⟩ := x
  cases hperforms with
  | execute => exact hunder _ _ rfl rfl rfl
  | «continue» => exact hunder _ _ rfl rfl rfl
  | complete => exact h.2.elim
  | pause transition =>
    change pauseWorkflowRunState s transition = .ok t at hop
    unfold pauseWorkflowRunState at hop
    split_ifs at hop
    cases WorkflowRunStateSchema.parse_ok hop
    simp [WorkflowRunState.withTransition] at hmem
  | resume transition =>
    change resumeWorkflowRunState s transition = .ok t at hop
    unfold resumeWorkflowRunState at hop
    split_ifs at hop
    cases WorkflowRunStateSchema.parse_ok hop
    simp [WorkflowRunState.settled, WorkflowRunState.withTransition] at hmem
  | cancel => exact h.2.elim

theorem DispatchedUnder.unlisted {n : WorkflowNodeDefinitionId} (h : DispatchedUnder graph s n t m) (hmn : m ≠ n)
    (hl : ¬Loses graph s n m) :
    ¬(s.slot m).ready ∧ ¬(s.slot m).waiting ∧ ¬(s.slot m).blocked ∧ ¬(s.slot m).completed := by
  obtain ⟨s₁, s₂, key, hmoved, hstatus, hrace, hreadied, -⟩ := h
  have hlisted := (mem_readiedIds.mp hreadied).2
  rwa [hrace.others m ((hmoved.raceLoser_iff hstatus).not.mpr hl), hmoved.others m hmn] at hlisted

theorem not_dispatched_of_begun (hok : LineageOk s) (h : AwaitingStep graph s x t) (hbegun : (s.slot m).Begun)
    (hstanding : Standing graph s x.1 m) : ¬Dispatched x.1.node s t m := by
  intro hm
  obtain ⟨n, hn, hmn, hunder⟩ := dispatched_under hok h hm
  obtain ⟨hr, hw, hb, hc⟩ := hunder.unlisted hmn (hstanding.2.2 n hn)
  rcases hbegun with hbegun | hbegun | hbegun | hbegun | hbegun | hbegun
  · exact hr hbegun
  · exact hw hbegun
  · exact hb hbegun
  · exact hc hbegun
  · exact hstanding.1 ((WorkflowRunState.status_slot s m).symm.trans hbegun)
  · exact hstanding.2.1 ((WorkflowRunState.status_slot s m).symm.trans hbegun)

/-- **A join fires once, and not early.** In every run of executions and continuations that leave the count of a join to
its handler: a join is completed only when its count is met or its wait has timed out; and outside loops no join is
completed twice, and no successor of a join is dispatched twice while it stands. -/
theorem joins_fire_once (hgraph : Built graph) (hinit : Initial graph s₀) (hrun : Run (AwaitingStep graph) s₀ l s)
    (hstep : AwaitingStep graph s x t) :
    (∀ n, graph.nodeType n = some .parallelJoin → Completes s t n → x.1.timesOut = false → JoinMet graph s n) ∧
    ∀ l' u y v, Run (AwaitingStep graph) t l' u → AwaitingStep graph u y v →
      ∀ n, graph.nodeType n = some .parallelJoin → OutsideLoops graph n →
        (Completes s t n → ¬Completes u v n) ∧
        ∀ m, graph.Leads n m → OutsideLoops graph m → Dispatched x.1.node s t m → Standing graph u y.1 m →
          ¬Dispatched y.1.node u v m := by
  have hs : LoopConsistent graph s := loopConsistent_of_run (hinit.consistent hgraph _) hrun
  obtain ⟨op, -, hop, hcancel⟩ := exists_op_of_step hstep
  have ht : LoopConsistent graph t := LoopConsistent.step hs hop hcancel
  refine ⟨fun n hjoin hcompletes htimeout => completes_joinMet hgraph hs.lineage hstep.1 hstep.2 hjoin hcompletes htimeout,
    fun l' u y v hrun' hstep' n hjoin hn => ⟨fun hcompletes hagain => ?_, fun m _ hm hdispatched hstanding => ?_⟩⟩
  · have hdone : LoopConsistent graph u ∧ u.nodeStatus n = some .completed :=
      hrun'.invariant (P := fun w => LoopConsistent graph w ∧ w.nodeStatus n = some .completed)
        (fun w y w' hw hw' => by
          obtain ⟨op', -, hop', hcancel'⟩ := exists_op_of_step hw'
          exact ⟨LoopConsistent.step hw.1 hop' hcancel', hw.1.stays_completed hop' hcancel' hn hw.2⟩)
        ⟨ht, hcompletes.2⟩
    exact hagain.1 hdone.2
  · obtain ⟨n', -, -, -, -, -, -, -, -, -, hready⟩ := dispatched_under hs.lineage hstep hdispatched
    have hbegun : LoopConsistent graph u ∧ (u.slot m).Begun :=
      hrun'.invariant (P := fun w => LoopConsistent graph w ∧ (w.slot m).Begun)
        (fun w y w' hw hw' => by
          obtain ⟨op', -, hop', hcancel'⟩ := exists_op_of_step hw'
          exact ⟨LoopConsistent.step hw.1 hop' hcancel', hw.1.begun hop' hcancel' hm hw.2⟩)
        ⟨ht, .inl hready⟩
    exact not_dispatched_of_begun hbegun.1.lineage hstep' hbegun.2 hstanding

end

/-! ## Two joins -/

def singleJoinDefinition : WorkflowDefinition where
  id := 1
  projectId := 1
  version := "1"
  name := "join"
  entryNodeIds := [1]
  nodes := [sampleNode 1 (.transform "t" "m"), sampleNode 2 (.parallelJoin .all none none)]
  edges := [⟨1, 1, 2, none, 0⟩]

/-- The join is executed once its branch is completed. -/
theorem singleJoin_fires : ∃ graph s₀ l s x t, Built graph ∧ Initial graph s₀ ∧ Run (AwaitingStep graph) s₀ l s ∧
    AwaitingStep graph s x t ∧ Completes s t 2 ∧ JoinMet graph s 2 := by
  obtain ⟨graph, s₀, s', hgraph, hinit, hrun, hcheck⟩ := exists_run_of_check (fun _ _ _ => True) singleJoinDefinition []
    (fun graph s₀ => graph.nodeType 1 = some .transform ∧ graph.config 2 = some (.parallelJoin .all none none) ∧
      graph.nodeType 2 = some .parallelJoin ∧ ((sampleExecute 1).program graph |>.effect s₀).toOption.any fun s =>
        ((sampleExecute 2).program graph |>.effect s).toOption.any fun t =>
          s.nodeStatus 2 = some .ready ∧ t.nodeStatus 2 = some .completed) (by decide +kernel)
  obtain ⟨htype, hconfig, hjoin, hcheck⟩ := of_decide_eq_true hcheck
  obtain rfl := hrun.eq_of_nil
  obtain ⟨s, hs, hcheck⟩ := exists_ok_of_any hcheck
  obtain ⟨t, ht, hcheck⟩ := exists_ok_of_any hcheck
  obtain ⟨hready, hdone⟩ := of_decide_eq_true hcheck
  obtain ⟨a, ha⟩ := @alone_of_effect _ _ _ _ (EngineCall.program graph) _ _ _ hs
  obtain ⟨b, hb⟩ := @alone_of_effect _ _ _ _ (EngineCall.program graph) _ _ _ ht
  have hfirst : AwaitingStep graph s' (sampleExecute 1, a) s := ⟨ha, fun h => by simp [htype] at h⟩
  have hsecond : AwaitingStep graph s (sampleExecute 2, b) t :=
    ⟨hb, fun _ => ⟨rfl, fun requiredCount timeoutMs h => by simp [hconfig] at h⟩⟩
  have hcompletes : Completes s t 2 := ⟨by simp [hready], hdone⟩
  exact ⟨graph, s', [(sampleExecute 1, a)], s, _, t, hgraph, hinit, .cons hfirst .nil, hsecond, hcompletes,
    (joins_fire_once hgraph hinit (.cons hfirst .nil) hsecond).1 2 hjoin hcompletes rfl⟩

/-- A split with two branches, and a join of both. -/
def twoBranchDefinition : WorkflowDefinition where
  id := 1
  projectId := 1
  version := "1"
  name := "branches"
  entryNodeIds := [1]
  nodes := [sampleNode 1 (.parallelSplit .all), sampleNode 2 (.transform "t" "m"), sampleNode 3 (.transform "t" "m"),
    sampleNode 4 (.parallelJoin .all none none)]
  edges := [⟨1, 1, 2, none, 0⟩, ⟨2, 1, 3, none, 0⟩, ⟨3, 2, 4, none, 0⟩, ⟨4, 3, 4, none, 0⟩]

/-- A continuation of a node, with nothing but the action. -/
def sampleContinue (n : WorkflowNodeDefinitionId) : EngineCall :=
  .continueNode sampleDeps ⟨n, .running, .complete, none, none, ⟨"continue", [], none⟩, none, none⟩

/-- The join waits for its second branch, and a continuation completes it. -/
theorem continued_join_early : ∃ graph s₀ l s x t, Built graph ∧ Initial graph s₀ ∧
    Run (Alone (EngineCall.program graph)) s₀ l s ∧ Alone (EngineCall.program graph) s x t ∧
    graph.nodeType 4 = some .parallelJoin ∧ Completes s t 4 ∧ x.1.timesOut = false ∧ s.nodeStatus 3 = some .ready ∧
    ¬JoinMet graph s 4 := by
  obtain ⟨graph, s₀, s', hgraph, hinit, hrun, hcheck⟩ := exists_run_of_check (fun _ _ _ => True) twoBranchDefinition []
    (fun graph s₀ => graph.nodeType 4 = some .parallelJoin ∧ graph.config 4 = some (.parallelJoin .all none none) ∧
      3 ∈ graph.upstreamNodeIds 4 ∧ ([sampleExecute 1, sampleExecute 2, sampleExecute 4].foldlM
        (fun s call => (EngineCall.program graph call).effect s) s₀).toOption.any fun s =>
        ((sampleContinue 4).program graph |>.effect s).toOption.any fun t =>
          s.nodeStatus 4 = some .waiting ∧ t.nodeStatus 4 = some .completed ∧ s.nodeStatus 3 = some .ready)
    (by decide +kernel)
  obtain ⟨hjoin, hconfig, hupstream, hcheck⟩ := of_decide_eq_true hcheck
  obtain rfl := hrun.eq_of_nil
  obtain ⟨s, hs, hcheck⟩ := exists_ok_of_any hcheck
  obtain ⟨t, ht, hcheck⟩ := exists_ok_of_any hcheck
  obtain ⟨hwaiting, hdone, hready⟩ := of_decide_eq_true hcheck
  obtain ⟨l, -, hl⟩ := @run_of_foldlM_effect _ _ _ _ (EngineCall.program graph) _ _ _ hs
  obtain ⟨a, ha⟩ := @alone_of_effect _ _ _ _ (EngineCall.program graph) _ _ _ ht
  refine ⟨graph, s', l, s, _, t, hgraph, hinit, hl, ha, hjoin, ⟨by simp [hwaiting], hdone⟩, rfl, hready, fun hmet => ?_⟩
  rw [JoinMet, hconfig] at hmet
  have := hmet 3 hupstream
  simp [hready, isResolved] at this

end NousCore.Workflow
