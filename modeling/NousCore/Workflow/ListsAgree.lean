import NousCore.Workflow.Consistency

/-!
# The id lists of a run

* `ListsAgree s` : the four lists hold the nodes of the four statuses, and the active attempts are those of the waiting
  and the blocked nodes;
* `loopRun_not_listsAgree` : a loop node in backoff is re-activated by its second body node, and stays listed as waiting.
-/

namespace NousCore.Workflow

structure ListsAgree (s : WorkflowRunState) : Prop where
  ready : ∀ n, n ∈ s.readyNodeIds ↔ s.nodeStatus n = some .ready
  waiting : ∀ n, n ∈ s.waitingNodeIds ↔ s.nodeStatus n = some .waiting
  blocked : ∀ n, n ∈ s.blockedNodeIds ↔ s.nodeStatus n = some .blocked
  completed : ∀ n, n ∈ s.completedNodeIds ↔ s.nodeStatus n = some .completed
  nodup : ListsNodup s
  disjoint : [s.readyNodeIds, s.waitingNodeIds, s.blockedNodeIds, s.completedNodeIds].Pairwise List.Disjoint
  active : ∀ n nodeState, s.node? n = some nodeState →
    (nodeState.activeAttempt ≠ none ↔ nodeState.status = .waiting ∨ nodeState.status = .blocked)
  attempt : ∀ n nodeState number, s.node? n = some nodeState → nodeState.activeAttempt = some number →
    ∃ attempt ∈ nodeState.attempts, attempt.attempt = number

theorem Consistent.listsAgree {s : WorkflowRunState} (h : Consistent (fun _ => False) s) : ListsAgree s := by
  have hs : ∀ n, (s.slot n).status = s.nodeStatus n := WorkflowRunState.status_slot s
  have hready : ∀ n, n ∈ s.readyNodeIds ↔ s.nodeStatus n = some .ready := fun n => hs n ▸ (h.agrees n).ready
  have hwaiting : ∀ n, n ∈ s.waitingNodeIds ↔ s.nodeStatus n = some .waiting := fun n => hs n ▸
    ⟨fun hl => ((h.agrees n).waitingOnly hl).resolve_right fun hst => hst.1, (h.agrees n).waiting⟩
  have hblocked : ∀ n, n ∈ s.blockedNodeIds ↔ s.nodeStatus n = some .blocked := fun n => hs n ▸
    ⟨fun hl => ((h.agrees n).blockedOnly hl).resolve_right fun hst => hst.1, (h.agrees n).blocked⟩
  have hcompleted : ∀ n, n ∈ s.completedNodeIds ↔ s.nodeStatus n = some .completed := fun n =>
    hs n ▸ (h.agrees n).completed
  have hcore : ∀ n nodeState, s.node? n = some nodeState → nodeState.core.Sound := fun n nodeState hn =>
    (h.agrees n).core _ (by rw [WorkflowRunState.slot, hn, Option.map_some])
  refine ⟨hready, hwaiting, hblocked, hcompleted, h.nodup, ?_, fun n nodeState hn => (hcore n nodeState hn).active,
    fun n nodeState number hn => (hcore n nodeState hn).attempt number⟩
  -- two lists would give the node two statuses
  have hdisjoint : ∀ {l l' : List WorkflowNodeDefinitionId} {status status' : WorkflowNodeRunStatus},
      status ≠ status' → (∀ n, n ∈ l ↔ s.nodeStatus n = some status) → (∀ n, n ∈ l' ↔ s.nodeStatus n = some status') →
      l.Disjoint l' := by
    intro l l' status status' hne hl hl' n hn hn'
    have := ((hl n).mp hn).symm.trans ((hl' n).mp hn')
    exact hne (Option.some.inj this)
  simp only [List.pairwise_cons, List.mem_cons, List.not_mem_nil, or_false, forall_eq_or_imp, forall_eq,
    IsEmpty.forall_iff, implies_true, List.Pairwise.nil, and_true]
  exact ⟨⟨hdisjoint (by decide) hready hwaiting, hdisjoint (by decide) hready hblocked,
    hdisjoint (by decide) hready hcompleted⟩, ⟨hdisjoint (by decide) hwaiting hblocked,
    hdisjoint (by decide) hwaiting hcompleted⟩, hdisjoint (by decide) hblocked hcompleted⟩

/-- The operation is not a cancellation, and when it completes a node, the loop node that it re-activates is neither
waiting nor blocked. -/
def SparesLoop (graph : DerivedWorkflowGraph) (s : WorkflowRunState) (op : RunStateOp) : Prop :=
  op.isCancel = false ∧ ∀ n ∈ op.completes, ∀ p ∈ loopToReactivate s graph n,
    s.nodeStatus p ≠ some .waiting ∧ s.nodeStatus p ≠ some .blocked

instance (graph : DerivedWorkflowGraph) (s : WorkflowRunState) (op : RunStateOp) : Decidable (SparesLoop graph s op) :=
  inferInstanceAs (Decidable (op.isCancel = false ∧ ∀ n ∈ op.completes, ∀ p ∈ loopToReactivate s graph n,
    s.nodeStatus p ≠ some .waiting ∧ s.nodeStatus p ≠ some .blocked))

/-- **The lists agree.** In every run over a built graph whose completions re-activate no waiting or blocked loop
node, every state reached has its lists and its statuses in agreement. -/
theorem listsAgree_of_run {graph : DerivedWorkflowGraph} (hgraph : Built graph) {s₀ s : WorkflowRunState}
    (hinit : Initial graph s₀) {ops : List RunStateOp}
    (hrun : Run (Guarded (RunStateStep graph) (SparesLoop graph)) s₀ ops s) : ListsAgree s := by
  refine Consistent.listsAgree (hrun.invariant (fun t op u ht hstep => ?_) (hinit.consistent hgraph _))
  obtain ⟨hok, hcancel, hloop⟩ := hstep
  refine ht.step hok (fun transition h => by simp [h, RunStateOp.isCancel] at hcancel) (fun _ h => h.elim)
    fun n hn p hp hlisted => ?_
  obtain ⟨hwaiting, hblocked⟩ := hloop n hn p hp
  rw [← WorkflowRunState.status_slot] at hwaiting hblocked
  rcases hlisted with hl | hl
  · exact hwaiting (((ht.agrees p).waitingOnly hl).resolve_right fun h => h.1)
  · exact hblocked (((ht.agrees p).blockedOnly hl).resolve_right fun h => h.1)

/-! ## A loop node in backoff -/

/-- A loop node with two body nodes. -/
def loopDefinition : WorkflowDefinition where
  id := 0
  projectId := 0
  version := "1.0.0"
  name := "loop"
  entryNodeIds := [1]
  nodes := [sampleNode 1 (.loop 5 "done" (some 10)), sampleNode 2 (.transform "t" "m"), sampleNode 3 (.transform "t" "m")]
  edges := [⟨1, 1, 2, some "loop", 0⟩, ⟨2, 1, 3, some "loop", 0⟩]

/-- The loop goes on, and its first body node is completed, so that the loop node is ready again. -/
def loopOps : List RunStateOp :=
  [sampleRecord 1 .completed (some "loop"), sampleRecord 2 .completed none]

theorem loopRun_listsAgree : ∃ graph s₀ s, Built graph ∧ Initial graph s₀ ∧
    Run (Guarded (RunStateStep graph) (SparesLoop graph)) s₀ loopOps s ∧ s.readyNodeIds = [1, 3] ∧ ListsAgree s := by
  obtain ⟨graph, s₀, s, hgraph, hinit, hrun, hready⟩ := exists_run_of_check SparesLoop loopDefinition loopOps
    (fun _ s => s.readyNodeIds = [1, 3]) (by decide +kernel)
  exact ⟨graph, s₀, s, hgraph, hinit, hrun, of_decide_eq_true hready, listsAgree_of_run hgraph hinit hrun⟩

/-- The loop node waits for its backoff when the second body node re-activates it: it is ready, and still listed as
waiting. -/
theorem loopRun_not_listsAgree : ∃ graph s₀ ops s, Built graph ∧ Initial graph s₀ ∧ Run (RunStateStep graph) s₀ ops s ∧
    (∀ op ∈ ops, op.isCancel = false) ∧ s.readyNodeIds = [1] ∧ s.waitingNodeIds = [1] ∧ ¬ListsAgree s := by
  obtain ⟨graph, s₀, s, hgraph, hinit, hrun, hlists⟩ := exists_run_of_check (fun _ _ _ => True) loopDefinition
    (loopOps ++ [sampleRecord 1 .waiting (some "loop"), sampleRecord 3 .completed none])
    (fun _ s => s.readyNodeIds = [1] ∧ s.waitingNodeIds = [1]) (by decide +kernel)
  obtain ⟨hready, hwaiting⟩ := of_decide_eq_true hlists
  refine ⟨graph, s₀, _, s, hgraph, hinit, hrun.forget_guard, by decide, hready, hwaiting, fun h => ?_⟩
  have h₁ := (h.ready 1).mp (by simp [hready])
  have h₂ := (h.waiting 1).mp (by simp [hwaiting])
  rw [h₁] at h₂
  cases h₂

/-! ## Any run without cancellation -/

/-- What the lists tell of `n` however the loops go on: only a loop node that is ready may be listed as outstanding. -/
structure Listed (graph : DerivedWorkflowGraph) (s : WorkflowRunState) (n : WorkflowNodeDefinitionId) : Prop where
  ready : n ∈ s.readyNodeIds ↔ s.nodeStatus n = some .ready
  completed : n ∈ s.completedNodeIds ↔ s.nodeStatus n = some .completed
  waiting : s.nodeStatus n = some .waiting → n ∈ s.waitingNodeIds
  blocked : s.nodeStatus n = some .blocked → n ∈ s.blockedNodeIds
  waitingOnly : n ∈ s.waitingNodeIds →
    s.nodeStatus n = some .waiting ∨ graph.nodeType n = some .loop ∧ s.nodeStatus n = some .ready
  blockedOnly : n ∈ s.blockedNodeIds →
    s.nodeStatus n = some .blocked ∨ graph.nodeType n = some .loop ∧ s.nodeStatus n = some .ready
  active : ∀ nodeState, s.node? n = some nodeState →
    (nodeState.activeAttempt ≠ none ↔ nodeState.status = .waiting ∨ nodeState.status = .blocked)

/-- **Statuses and lists.** In every run without cancellation the lists tell the status of every node, except that a
loop node that is ready may still be listed as waiting or blocked. -/
theorem listed_of_run {graph : DerivedWorkflowGraph} (hgraph : Built graph) {s₀ s : WorkflowRunState}
    (hinit : Initial graph s₀) {ops : List RunStateOp}
    (hrun : Run (Guarded (RunStateStep graph) fun _ op => op.isCancel = false) s₀ ops s) (n : WorkflowNodeDefinitionId) :
    Listed graph s n := by
  have h : Consistent (fun j => graph.nodeType j = some .loop) s := by
    refine hrun.invariant (fun t op u ht hstep => ?_) (hinit.consistent hgraph _)
    refine ht.step hstep.1 (fun transition h => ?_) (fun j hloop hjoin => ?_)
      fun _ _ p hp _ => (loopToReactivate_eq_some.mp hp).2.1
    · have hcancel := hstep.2
      simp [h, RunStateOp.isCancel] at hcancel
    · cases hloop.symm.trans hjoin
  have hs : (s.slot n).status = s.nodeStatus n := WorkflowRunState.status_slot s n
  obtain ⟨hready, hcompleted, hwaiting, hblocked, hwaitingOnly, hblockedOnly, hcore⟩ := h.agrees n
  rw [hs] at hready hcompleted hwaiting hblocked hwaitingOnly hblockedOnly
  exact ⟨hready, hcompleted, hwaiting, hblocked, hwaitingOnly, hblockedOnly, fun nodeState hn =>
    (hcore _ (by rw [WorkflowRunState.slot, hn, Option.map_some])).active⟩

theorem staleLoop_listed : ∃ graph s₀ ops s, Built graph ∧ Initial graph s₀ ∧
    Run (Guarded (RunStateStep graph) fun _ op => op.isCancel = false) s₀ ops s ∧ 1 ∈ s.waitingNodeIds ∧
      Listed graph s 1 := by
  obtain ⟨graph, s₀, s, hgraph, hinit, hrun, hlisted⟩ := exists_run_of_check (fun _ _ op => op.isCancel = false)
    loopDefinition (loopOps ++ [sampleRecord 1 .waiting (some "loop"), sampleRecord 3 .completed none])
    (fun _ s => 1 ∈ s.waitingNodeIds) (by decide +kernel)
  exact ⟨graph, s₀, _, s, hgraph, hinit, hrun, of_decide_eq_true hlisted, listed_of_run hgraph hinit hrun 1⟩

end NousCore.Workflow
