import Mathlib.Logic.Relation
import NousCore.Lib.Runs
import NousCore.Lib.TopoSort
import NousCore.Workflow.Structure

/-!
# Workflow graphs and their topological order

* `SortState.abstract` : the sort of a definition is a sort by in-degrees, seeded with the declared entries
  (`sortQueue_spec`);
* `validateWorkflowDefinition_valid_iff` : a definition is valid when the repeated entries are as many as the nodes that
  the sort never releases.

`workflows/src/graph-builder.ts`. The digest of a definition is a SHA-256 of its canonical JSON; the graph carries it
along, so the function that computes it is a parameter.

* `buildDerivedWorkflowGraph` : the graph of a valid definition, or the joined messages of its issues;
* `derives_of_build` : the graph represents the definition, with indices that grow along its edges.
-/

namespace NousCore.Workflow

open TopoSort (Sorted Final Released)

/-! ## The sort, abstractly -/

def SortState.abstract (state : SortState) : TopoSort.State WorkflowNodeDefinitionId where
  queue := state.queue.map (·.nodeId)
  remaining n := (state.remainingInbound.get? n).getD 0
  order := state.topologicalOrder

theorem abstract_releaseEdge (state : SortState) (edge : WorkflowEdgeDefinition) :
    (releaseEdge state edge).abstract = TopoSort.release state.abstract edge.to := by
  have hremaining : (fun n => ((state.remainingInbound.set edge.to ((state.remainingInbound.get? edge.to).getD 0 - 1)).get?
      n).getD 0) = Function.update (fun n => (state.remainingInbound.get? n).getD 0) edge.to
        ((state.remainingInbound.get? edge.to).getD 0 - 1) := by
    funext n
    rw [Record.get?_set, Function.update_apply]
    split_ifs <;> rfl
  refine TopoSort.State.ext ?_ hremaining rfl
  change List.map _ (if (state.remainingInbound.get? edge.to).getD 0 - 1 = 0 then _ else _) =
    if (state.remainingInbound.get? edge.to).getD 0 - 1 = 0 then _ else _
  by_cases hzero : (state.remainingInbound.get? edge.to).getD 0 - 1 = 0
  · rw [if_pos hzero, if_pos hzero, List.map_append]
    rfl
  · rw [if_neg hzero, if_neg hzero]
    rfl

theorem abstract_releaseEdges : ∀ (edges : List WorkflowEdgeDefinition) (state : SortState),
    (edges.foldl releaseEdge state).abstract = (edges.map (·.to)).foldl TopoSort.release state.abstract
  | [], _ => rfl
  | edge :: edges, state => by
    rw [List.foldl_cons, List.map_cons, List.foldl_cons, abstract_releaseEdges edges, abstract_releaseEdge]

variable {n : WorkflowNodeDefinitionId}

section

variable {definition : WorkflowDefinition} {index : DefinitionIndex}

/-- **The sort of a definition.** With enough turns it empties the queue. -/
theorem sortQueue_spec (htargets : ∀ n, (sortEdges (index.outgoing n)).map (·.to) = definition.targets n)
    (items : Finset WorkflowNodeDefinitionId) (hentries : ∀ n ∈ definition.entryNodeIds, n ∈ items)
    (hfed : ∀ n, 0 < definition.indegree n → n ∈ items) : ∀ (turns : Nat) (state : SortState),
      Sorted definition.targets definition.indegree definition.entryNodeIds state.abstract →
      definition.entryNodeIds.length + items.card ≤ state.topologicalOrder.length + turns →
      Sorted definition.targets definition.indegree definition.entryNodeIds (sortQueue index turns state).abstract ∧
        (sortQueue index turns state).queue = [] := by
  intro turns
  induction turns with
  | zero =>
    intro state hsorted hturns
    have hlen := hsorted.length_le hentries hfed
    refine ⟨hsorted, ?_⟩
    have : state.queue.length = 0 := by
      simp only [SortState.abstract, List.length_map] at hlen
      omega
    exact List.length_eq_zero_iff.mp this
  | succ turns ih =>
    intro state hsorted hturns
    have hperm := List.perm_insertionSort queueOrder state.queue
    rw [sortQueue]
    split
    · next hnil =>
      rw [hnil] at hperm
      exact ⟨hsorted, hperm.symm.eq_nil⟩
    · next current queue hcons =>
      rw [hcons] at hperm
      have hids : (state.queue.map (·.nodeId)).Perm (current.nodeId :: queue.map (·.nodeId)) :=
        hperm.symm.map fun item => item.nodeId
      have htake : TopoSort.Take definition.targets state.abstract
          ((sortEdges (index.outgoing current.nodeId)).foldl releaseEdge
            { state with queue := queue, topologicalOrder := state.topologicalOrder ++ [current.nodeId] }).abstract := by
        refine ⟨_, _, hids, ?_⟩
        rw [abstract_releaseEdges, htargets]
        rfl
      have hsorted' := htake.sorted hsorted
      refine ih _ hsorted' ?_
      have hlen : ∀ (edges : List WorkflowEdgeDefinition) (st : SortState),
          (edges.foldl releaseEdge st).topologicalOrder = st.topologicalOrder := by
        intro edges
        induction edges with
        | nil => exact fun _ => rfl
        | cons e edges ihe => exact fun st => ihe _
      rw [hlen, List.length_append, List.length_singleton]
      omega

theorem lookup_map_snd {κ α β : Type} [DecidableEq κ] (f : α → β) (k : κ) : ∀ l : List (κ × α),
    (l.map fun e => (e.1, f e.2)).lookup k = (l.lookup k).map f
  | [] => rfl
  | (j, v) :: l => by
    have ih := lookup_map_snd f k l
    rw [List.map_cons, List.lookup_cons, List.lookup_cons]
    cases hk : k == j <;> simp [ih]

theorem indegree_eq_zero_of_unknown (hok : EdgesOk definition.nodeIds definition.edges)
    (hn : n ∉ definition.nodeIds) : definition.indegree n = 0 :=
  WorkflowDefinition.indegree_eq_zero.mpr fun e he hto => hn (hto ▸ (hok.endpoints e he).2)

theorem abstract_initialSort (h : IndexedEdges definition.nodes definition.edges index)
    (hok : EdgesOk definition.nodeIds definition.edges) : (initialSort definition index).abstract =
      ⟨definition.entryNodeIds.insertionSort (· ≤ ·), fun n => (definition.indegree n : Int), []⟩ := by
  simp only [initialSort, SortState.abstract, TopoSort.State.mk.injEq]
  refine ⟨?_, ?_, trivial⟩
  · rw [List.map_map]
    exact List.map_id _
  · funext n
    have hget : (initialSort definition index).remainingInbound.get? n =
        (index.incomingCount.get? n).map (Nat.cast : Nat → Int) := lookup_map_snd _ _ _
    change ((initialSort definition index).remainingInbound.get? n).getD 0 = _
    rw [hget]
    by_cases hn : n ∈ definition.nodeIds
    · rw [h.incoming n hn]
      rfl
    · have hnone : index.incomingCount.get? n = none := Record.get?_eq_none.mpr (h.countKeys ▸ hn)
      rw [hnone, indegree_eq_zero_of_unknown hok hn]
      rfl

end

section

variable {definition : WorkflowDefinition}

/-- **Termination.** The sort of a structurally valid definition ends with an empty queue. -/
theorem topologicalSort_final (hv : StructurallyValid definition) :
    Final definition.targets definition.indegree definition.entryNodeIds
      (topologicalSort definition (indexDefinition definition)) := by
  have h := (indexDefinition_spec definition).2 ⟨hv.nodeIds, hv.edges⟩
  have htargets : ∀ n, (sortEdges ((indexDefinition definition).outgoing n)).map (·.to) = definition.targets n := by
    intro n
    rw [h.outgoing_eq hv.edges]
    rfl
  have hroots : ∀ n ∈ definition.entryNodeIds, definition.indegree n = 0 := fun n hn => (hv.entries n hn).2
  have hcard : definition.nodeIds.toFinset.card ≤ definition.nodes.length :=
    (List.toFinset_card_le _).trans (by simp [WorkflowDefinition.nodeIds])
  obtain ⟨hsorted, hdone⟩ := sortQueue_spec htargets definition.nodeIds.toFinset
    (fun n hn => List.mem_toFinset.mpr (hv.entries n hn).1)
    (fun n hn => List.mem_toFinset.mpr (by
      by_contra hnot
      have := indegree_eq_zero_of_unknown hv.edges hnot
      omega))
    (definition.entryNodeIds.length + definition.nodes.length) (initialSort definition (indexDefinition definition))
    (by
      rw [abstract_initialSort h hv.edges]
      exact Sorted.initial hroots (List.perm_insertionSort _ _))
    (by omega)
  exact hsorted.final hroots (by simp [SortState.abstract, hdone])

/-! ## Valid definitions -/

/-- The number of entries that repeat another. -/
def WorkflowDefinition.entrySurplus (definition : WorkflowDefinition) : Nat :=
  definition.entryNodeIds.length - definition.entryNodeIds.toFinset.card

open Classical in
/-- The nodes that are never released: neither entries, nor fed by released nodes. -/
noncomputable def WorkflowDefinition.unreleased (definition : WorkflowDefinition) : Finset WorkflowNodeDefinitionId :=
  definition.nodeIds.toFinset.filter
    (¬Released definition.targets definition.indegree definition.entryNodeIds ·)

theorem mem_items (hv : StructurallyValid definition) :
    (∀ n ∈ definition.entryNodeIds, n ∈ definition.nodeIds.toFinset) ∧
      ∀ n, 0 < definition.indegree n → n ∈ definition.nodeIds.toFinset := by
  refine ⟨fun n hn => List.mem_toFinset.mpr (hv.entries n hn).1, fun n hn => List.mem_toFinset.mpr ?_⟩
  by_contra hnot
  have := indegree_eq_zero_of_unknown hv.edges hnot
  omega

theorem length_topologicalSort (hv : StructurallyValid definition) :
    (topologicalSort definition (indexDefinition definition)).length = definition.nodes.length ↔
      definition.entrySurplus = definition.unreleased.card := by
  obtain ⟨hentries, hfed⟩ := mem_items hv
  have hlen := (topologicalSort_final hv).length_order hentries hfed
  have hnodes : definition.nodeIds.toFinset.card = definition.nodes.length := by
    rw [List.toFinset_card_of_nodup hv.nodeIds, WorkflowDefinition.nodeIds, List.length_map]
  have hle := List.toFinset_card_le definition.entryNodeIds
  rw [WorkflowDefinition.entrySurplus, WorkflowDefinition.unreleased]
  omega

variable {order : List WorkflowNodeDefinitionId}

theorem validateWorkflowDefinition_valid_iff :
    validateWorkflowDefinition definition = .valid order ↔ definitionSchemaIssues definition = [] ∧
      StructurallyValid definition ∧ definition.entrySurplus = definition.unreleased.card ∧
      order = topologicalSort definition (indexDefinition definition) := by
  rw [← structureIssues_eq_nil]
  unfold validateWorkflowDefinition
  dsimp only
  by_cases hschema : definitionSchemaIssues definition = []
  · by_cases hstructure : structureIssues definition = []
    · have hv := structureIssues_eq_nil.mp hstructure
      have hkeys : (indexDefinition definition).nodesById.keys.length = definition.nodes.length := by
        rw [((indexDefinition_spec definition).2 ⟨hv.nodeIds, hv.edges⟩).keys_eq, WorkflowDefinition.nodeIds, List.length_map]
      rw [if_neg (not_not_intro hschema), if_neg (not_not_intro hstructure), hkeys, ← length_topologicalSort hv]
      by_cases hlen : (topologicalSort definition (indexDefinition definition)).length = definition.nodes.length
      · rw [if_neg (not_not_intro hlen)]
        simp [hschema, hstructure, hlen, eq_comm]
      · rw [if_pos hlen]
        simp [hlen]
    · rw [if_neg (not_not_intro hschema), if_pos hstructure]
      simp [hstructure]
  · rw [if_pos hschema]
    simp [hschema]

/-- The nodes of an order come from the definition, and hold every entry. -/
theorem mem_topologicalSort (hv : StructurallyValid definition) :
    (n ∈ topologicalSort definition (indexDefinition definition) → n ∈ definition.nodeIds) ∧
      (n ∈ definition.entryNodeIds → n ∈ topologicalSort definition (indexDefinition definition)) := by
  obtain ⟨hentries, hfed⟩ := mem_items hv
  have hfinal := topologicalSort_final hv
  refine ⟨fun hn => ?_, fun hn => hfinal.mem_order_iff.mpr (.seed hn)⟩
  cases hfinal.mem_order_iff.mp hn with
  | seed hseed => exact List.mem_toFinset.mp (hentries n hseed)
  | fed _ _ hpos _ => exact List.mem_toFinset.mp (hfed n hpos)

/-! ## Soundness and completeness -/

def WorkflowDefinition.Edge (definition : WorkflowDefinition) (a b : WorkflowNodeDefinitionId) : Prop :=
  ∃ e ∈ definition.edges, e.from = a ∧ e.to = b

def WorkflowDefinition.Cyclic (definition : WorkflowDefinition) : Prop :=
  ∃ n, Relation.TransGen definition.Edge n n

/-- What a valid answer promises, and that no cyclic definition gets one. -/
structure SoundAndComplete (definition : WorkflowDefinition) : Prop where
  perm : ∀ order, validateWorkflowDefinition definition = .valid order → order.Perm definition.nodeIds
  sorted : ∀ order, validateWorkflowDefinition definition = .valid order →
    ∀ e ∈ definition.edges, order.idxOf e.from < order.idxOf e.to
  complete : definition.Cyclic → ∀ order, validateWorkflowDefinition definition ≠ .valid order

theorem count_targets (a b : WorkflowNodeDefinitionId) : (definition.targets a).count b =
    definition.edges.countP fun e => e.from = a ∧ decide (e.to = b) := by
  rw [WorkflowDefinition.targets, List.count_eq_countP, List.countP_map, sortEdges,
    (List.perm_insertionSort _ _).countP_eq, List.countP_filter]
  congr 1
  funext e
  by_cases hto : e.to = b <;> simp [hto]

variable {a b : WorkflowNodeDefinitionId}

theorem inflow_le_indegree {l : List WorkflowNodeDefinitionId} (hn : l.Nodup)
    (ha : a ∉ l) : TopoSort.inflow definition.targets l b + (definition.targets a).count b ≤ definition.indegree b := by
  have hsum := sum_countP_from (fun e => decide (e.to = b)) definition.edges (List.nodup_cons.mpr ⟨ha, hn⟩)
  have hle : definition.edges.countP (fun e => e.from ∈ a :: l ∧ decide (e.to = b)) ≤ definition.indegree b :=
    List.countP_mono_left fun e _ h => by
      simp only [decide_eq_true_eq] at h ⊢
      exact h.2
  rw [List.map_cons, List.sum_cons] at hsum
  simp only [TopoSort.inflow, count_targets]
  omega

theorem idxOf_lt_of_split {l₁ l₂ : List WorkflowNodeDefinitionId}
    (hn : order.Nodup) (h : order = l₁ ++ b :: l₂) (ha : a ∈ l₁) : order.idxOf a < order.idxOf b := by
  subst h
  have hb : b ∉ l₁ := by
    intro hmem
    exact (List.nodup_append.mp hn).2.2 b hmem b List.mem_cons_self rfl
  rw [List.idxOf_append_of_mem ha, List.idxOf_append_of_notMem hb, List.idxOf_cons_self, Nat.add_zero]
  exact List.idxOf_lt_length_of_mem ha

/-- With no entry repeated, a definition that is sorted completely has an order that is a permutation and respects the
edges. -/
theorem sorted_of_nodup (hv : StructurallyValid definition) (hentries : definition.entryNodeIds.Nodup)
    (hall : definition.unreleased.card = 0) :
    (topologicalSort definition (indexDefinition definition)).Perm definition.nodeIds ∧ ∀ e ∈ definition.edges,
      (topologicalSort definition (indexDefinition definition)).idxOf e.from <
        (topologicalSort definition (indexDefinition definition)).idxOf e.to := by
  have hfinal := topologicalSort_final hv
  have hmem := fun n => mem_topologicalSort hv (n := n)
  generalize topologicalSort definition (indexDefinition definition) = order at *
  have hreleased : ∀ n ∈ definition.nodeIds, n ∈ order := by
    intro n hn
    by_contra hnot
    have : n ∈ definition.unreleased := by
      simp [WorkflowDefinition.unreleased, hn, hfinal.mem_order_iff.not.mp hnot]
    rw [Finset.card_eq_zero.mp hall] at this
    simp at this
  have hn : order.Nodup := by
    rw [List.nodup_iff_count_le_one]
    intro n
    by_cases hin : n ∈ order
    · rw [hfinal.count_of_mem hin]
      exact max_le le_rfl (List.nodup_iff_count_le_one.mp hentries n)
    · rw [List.count_eq_zero.mpr hin]
      exact Nat.zero_le _
  refine ⟨(List.perm_ext_iff_of_nodup hn hv.nodeIds).mpr fun n => ⟨(hmem n).1, hreleased n⟩, fun e he => ?_⟩
  obtain ⟨l₁, l₂, hsplit⟩ := List.append_of_mem (hreleased e.to (hv.edges.endpoints e he).2)
  exact idxOf_lt_of_split hn hsplit (hfinal.mem_before hsplit (fun l hl ha => inflow_le_indegree hl ha) hn
    (WorkflowDefinition.mem_targets.mpr ⟨e, he, rfl, rfl⟩))

theorem entrySurplus_eq_zero : definition.entrySurplus = 0 ↔ definition.entryNodeIds.Nodup := by
  have hle := List.toFinset_card_le definition.entryNodeIds
  have hcard : definition.entryNodeIds.toFinset.card = definition.entryNodeIds.length ↔ definition.entryNodeIds.Nodup :=
    Multiset.toFinset_card_eq_card_iff_nodup
  rw [← hcard, WorkflowDefinition.entrySurplus]
  omega

theorem not_cyclic (hsorted : ∀ e ∈ definition.edges,
    (topologicalSort definition (indexDefinition definition)).idxOf e.from <
      (topologicalSort definition (indexDefinition definition)).idxOf e.to) : ¬definition.Cyclic := by
  rintro ⟨n, hn⟩
  have hlt : ∀ {a b}, Relation.TransGen definition.Edge a b →
      (topologicalSort definition (indexDefinition definition)).idxOf a <
        (topologicalSort definition (indexDefinition definition)).idxOf b := by
    intro a b h
    induction h with
    | single hab =>
      obtain ⟨e, he, rfl, rfl⟩ := hab
      exact hsorted e he
    | tail _ hbc ih =>
      obtain ⟨e, he, rfl, rfl⟩ := hbc
      exact ih.trans (hsorted e he)
  exact lt_irrefl _ (hlt hn)

/-- **Sound and complete.** The validator sorts what it accepts and accepts no cycle, except where the repeated entries
of a structurally valid definition are as many as the nodes it never releases. -/
theorem validateWorkflowDefinition_soundAndComplete_iff (definition : WorkflowDefinition) :
    SoundAndComplete definition ↔ ¬(definitionSchemaIssues definition = [] ∧ StructurallyValid definition ∧
      0 < definition.entrySurplus ∧ definition.entrySurplus = definition.unreleased.card) := by
  constructor
  · rintro hsound ⟨hschema, hv, hsurplus, heq⟩
    have hvalid := validateWorkflowDefinition_valid_iff.mpr ⟨hschema, hv, heq, rfl⟩
    have hperm := hsound.perm _ hvalid
    -- a repeated entry is repeated in the order
    have hnot : ¬definition.entryNodeIds.Nodup := fun hn => by
      have := entrySurplus_eq_zero.mpr hn
      omega
    rw [List.nodup_iff_count_le_one] at hnot
    push Not at hnot
    obtain ⟨n, hn⟩ := hnot
    have hcount := (topologicalSort_final hv).count n
    have hle := List.nodup_iff_count_le_one.mp hv.nodeIds n
    rw [hperm.count_eq] at hcount
    omega
  · intro hcond
    have hcase : ∀ order, validateWorkflowDefinition definition = .valid order →
        order.Perm definition.nodeIds ∧ (∀ e ∈ definition.edges, order.idxOf e.from < order.idxOf e.to) ∧
          ¬definition.Cyclic := by
      intro order hvalid
      obtain ⟨hschema, hv, heq, rfl⟩ := validateWorkflowDefinition_valid_iff.mp hvalid
      have hzero : definition.entrySurplus = 0 := by
        by_contra hne
        exact hcond ⟨hschema, hv, Nat.pos_of_ne_zero hne, heq⟩
      obtain ⟨hperm, hsorted⟩ := sorted_of_nodup hv (entrySurplus_eq_zero.mp hzero) (heq ▸ hzero)
      exact ⟨hperm, hsorted, not_cyclic hsorted⟩
    exact ⟨fun order h => (hcase order h).1, fun order h => (hcase order h).2.1,
      fun hcyclic order h => (hcase order h).2.2 hcyclic⟩

/-- An entry listed three times, and a cycle of two nodes behind it: three turns of the sort, for three nodes. -/
def cyclicDefinition : WorkflowDefinition where
  id := 0
  projectId := 0
  version := "1.0.0"
  name := "cycle"
  entryNodeIds := [1, 1, 1]
  nodes := [1, 2, 3].map fun n => ⟨n, "node", .transform, .synchronous, none, none, .transform "t" "m"⟩
  edges := [⟨1, 1, 2, none, 0⟩, ⟨2, 2, 3, none, 0⟩, ⟨3, 3, 2, none, 0⟩, ⟨4, 3, 2, none, 0⟩, ⟨5, 3, 2, none, 0⟩]

theorem cyclicDefinition_not_soundAndComplete : definitionSchemaIssues cyclicDefinition = [] ∧
    validateWorkflowDefinition cyclicDefinition = .valid [1, 1, 1] ∧ cyclicDefinition.Cyclic ∧
      ¬SoundAndComplete cyclicDefinition := by
  have hschema : definitionSchemaIssues cyclicDefinition = [] := by decide +kernel
  have hvalid : validateWorkflowDefinition cyclicDefinition = .valid [1, 1, 1] := by decide +kernel
  have hcyclic : cyclicDefinition.Cyclic := by
    refine ⟨2, .tail (.single (b := 3) ?_) ?_⟩
    · exact ⟨⟨2, 2, 3, none, 0⟩, by decide, rfl, rfl⟩
    · exact ⟨⟨3, 3, 2, none, 0⟩, by decide, rfl, rfl⟩
  exact ⟨hschema, hvalid, hcyclic, fun h => h.complete hcyclic _ hvalid⟩

end

end NousCore.Workflow

namespace NousCore.Workflow

/-! ## Derivation -/

def topologicalIndexMap (topologicalOrder : List WorkflowNodeDefinitionId) : Record WorkflowNodeDefinitionId Nat :=
  Record.ofEntries topologicalOrder.zipIdx

def deriveNode (edges : List WorkflowEdgeDefinition) (topologicalIndex : Record WorkflowNodeDefinitionId Nat)
    (node : WorkflowNodeDefinition) : DerivedWorkflowNode where
  definition := node
  inboundEdgeIds :=
    ((edges.filter (·.to = node.id)).insertionSort fun left right => left.id ≤ right.id).map (·.id)
  outboundEdgeIds := (edges.filter (·.from = node.id)).map (·.id)
  topologicalIndex := (topologicalIndex.get? node.id).getD 0

def derivedGraph (buildGraphDigest : WorkflowDefinition → String) (definition : WorkflowDefinition)
    (topologicalOrder : List WorkflowNodeDefinitionId) : DerivedWorkflowGraph :=
  let edges := sortEdges definition.edges
  { workflowDefinitionId := definition.id
    projectId := definition.projectId
    version := definition.version
    graphDigest := buildGraphDigest definition
    entryNodeIds := definition.entryNodeIds.insertionSort (· ≤ ·)
    topologicalOrder := topologicalOrder
    nodes := Record.ofEntries
      (definition.nodes.map fun node => (node.id, deriveNode edges (topologicalIndexMap topologicalOrder) node))
    edges := Record.ofEntries (edges.map fun edge => (edge.id, edge)) }

def buildDerivedWorkflowGraph (buildGraphDigest : WorkflowDefinition → String) (definition : WorkflowDefinition) :
    Except String DerivedWorkflowGraph :=
  match validateWorkflowDefinition definition with
  | .invalid issues => .error ("; ".intercalate (issues.map (·.message)))
  | .valid topologicalOrder => .ok (derivedGraph buildGraphDigest definition topologicalOrder)

/-! ## What is built -/

/-- The graphs that `buildDerivedWorkflowGraph` produces, whatever the digest. -/
def Built (graph : DerivedWorkflowGraph) : Prop :=
  ∃ buildGraphDigest definition, buildDerivedWorkflowGraph buildGraphDigest definition = .ok graph

theorem buildDerivedWorkflowGraph_ok {buildGraphDigest : WorkflowDefinition → String} {definition : WorkflowDefinition}
    {graph : DerivedWorkflowGraph} (h : buildDerivedWorkflowGraph buildGraphDigest definition = .ok graph) :
    definitionSchemaIssues definition = [] ∧ StructurallyValid definition ∧
      graph = derivedGraph buildGraphDigest definition (topologicalSort definition (indexDefinition definition)) := by
  unfold buildDerivedWorkflowGraph at h
  split at h
  · cases h
  · next order hvalid =>
    obtain ⟨hschema, hv, -, rfl⟩ := validateWorkflowDefinition_valid_iff.mp hvalid
    exact ⟨hschema, hv, (Except.ok.inj h).symm⟩

def DerivedWorkflowGraph.Leads (graph : DerivedWorkflowGraph) (p m : WorkflowNodeDefinitionId) : Prop :=
  ∃ e ∈ graph.outboundEdgeIds p, graph.target e = some m

section

variable {buildGraphDigest : WorkflowDefinition → String} {definition : WorkflowDefinition}
  {order : List WorkflowNodeDefinitionId} {p m : WorkflowNodeDefinitionId} {i : WorkflowEdgeId}

section

variable (hv : StructurallyValid definition)

include hv

theorem get?_edges_derivedGraph {e : WorkflowEdgeDefinition} :
    (derivedGraph buildGraphDigest definition order).edges.get? i = some e ↔ e ∈ definition.edges ∧ e.id = i := by
  have hn : (((sortEdges definition.edges).map fun e => (e.id, e)).map Prod.fst).Nodup := by
    rw [List.map_map]
    exact ((List.perm_insertionSort _ _).map _).nodup_iff.mpr hv.edges.ids
  change (Record.ofEntries ((sortEdges definition.edges).map fun e => (e.id, e))).get? i = some e ↔ _
  rw [Record.get?_ofEntries hn, List.mem_map]
  simp only [mem_sortEdges, Prod.mk.injEq]
  constructor
  · rintro ⟨e, he, rfl, rfl⟩
    exact ⟨he, rfl⟩
  · rintro ⟨he, rfl⟩
    exact ⟨e, he, rfl, rfl⟩

theorem get?_nodes_derivedGraph {node : WorkflowNodeDefinition}
    (hnode : node ∈ definition.nodes) : (derivedGraph buildGraphDigest definition order).nodes.get? node.id =
      some (deriveNode (sortEdges definition.edges) (topologicalIndexMap order) node) := by
  refine (Record.get?_ofEntries ?_).mpr (List.mem_map.mpr ⟨node, hnode, rfl⟩)
  rw [List.map_map]
  exact hv.nodeIds

omit hv in
theorem get?_nodes_derivedGraph_none (hp : p ∉ definition.nodeIds) :
    (derivedGraph buildGraphDigest definition order).nodes.get? p = none := by
  rw [Option.eq_none_iff_forall_ne_some]
  intro node hnode
  obtain ⟨n, hn, he⟩ := List.mem_map.mp (Record.mem_of_get?_ofEntries hnode)
  exact hp (List.mem_map.mpr ⟨n, hn, congrArg Prod.fst he⟩)

theorem mem_outboundEdgeIds_derivedGraph :
    i ∈ (derivedGraph buildGraphDigest definition order).outboundEdgeIds p ↔ ∃ e ∈ definition.edges, e.from = p ∧ e.id = i := by
  by_cases hp : p ∈ definition.nodeIds
  · obtain ⟨node, hnode, rfl⟩ := List.mem_map.mp hp
    rw [DerivedWorkflowGraph.outboundEdgeIds, get?_nodes_derivedGraph hv hnode, Option.map_some, Option.getD_some]
    simp [deriveNode, and_assoc]
  · rw [DerivedWorkflowGraph.outboundEdgeIds, get?_nodes_derivedGraph_none hp]
    refine iff_of_false List.not_mem_nil ?_
    rintro ⟨e, he, rfl, -⟩
    exact hp (hv.edges.endpoints e he).1

theorem mem_inboundEdgeIds_derivedGraph :
    i ∈ (derivedGraph buildGraphDigest definition order).inboundEdgeIds m ↔ ∃ e ∈ definition.edges, e.to = m ∧ e.id = i := by
  by_cases hm : m ∈ definition.nodeIds
  · obtain ⟨node, hnode, rfl⟩ := List.mem_map.mp hm
    rw [DerivedWorkflowGraph.inboundEdgeIds, get?_nodes_derivedGraph hv hnode, Option.map_some, Option.getD_some]
    simp [deriveNode, and_assoc]
  · rw [DerivedWorkflowGraph.inboundEdgeIds, get?_nodes_derivedGraph_none hm]
    refine iff_of_false List.not_mem_nil ?_
    rintro ⟨e, he, rfl, -⟩
    exact hm (hv.edges.endpoints e he).2

end

end

namespace Built

variable {graph : DerivedWorkflowGraph}

theorem leads_iff (h : Built graph) {p m : WorkflowNodeDefinitionId} :
    graph.Leads p m ↔ ∃ e ∈ graph.inboundEdgeIds m, graph.source e = some p := by
  obtain ⟨_, definition, hok⟩ := h
  obtain ⟨-, hv, rfl⟩ := buildDerivedWorkflowGraph_ok hok
  simp only [DerivedWorkflowGraph.Leads, DerivedWorkflowGraph.target, DerivedWorkflowGraph.source,
    mem_outboundEdgeIds_derivedGraph hv, mem_inboundEdgeIds_derivedGraph hv, Option.map_eq_some_iff,
    get?_edges_derivedGraph hv]
  constructor
  · rintro ⟨i, ⟨e, he, rfl, rfl⟩, e', ⟨he', hid⟩, rfl⟩
    have : e' = e := List.inj_on_of_nodup_map hv.edges.ids he' he hid
    exact ⟨e.id, ⟨e, he, this ▸ rfl, rfl⟩, e, ⟨he, rfl⟩, rfl⟩
  · rintro ⟨i, ⟨e, he, rfl, rfl⟩, e', ⟨he', hid⟩, rfl⟩
    have : e' = e := List.inj_on_of_nodup_map hv.edges.ids he' he hid
    exact ⟨e.id, ⟨e, he, this ▸ rfl, rfl⟩, e, ⟨he, rfl⟩, rfl⟩

theorem entries (h : Built graph) : ∀ n ∈ getInitialReadyNodeIds graph, n ∈ graph.topologicalOrder := by
  obtain ⟨_, definition, hok⟩ := h
  obtain ⟨-, hv, rfl⟩ := buildDerivedWorkflowGraph_ok hok
  intro n hn
  rw [getInitialReadyNodeIds, mem_sortNodeIdsByTopology] at hn
  exact (mem_topologicalSort hv).2 ((List.mem_insertionSort _).mp hn)

theorem initialReady_ne_nil (h : Built graph) : ∃ n, n ∈ getInitialReadyNodeIds graph := by
  obtain ⟨_, definition, hok⟩ := h
  obtain ⟨hschema, hv, rfl⟩ := buildDerivedWorkflowGraph_ok hok
  have hne : definition.entryNodeIds ≠ [] := by
    intro hnil
    simp [definitionSchemaIssues, arrayIssues, hnil] at hschema
  obtain ⟨n, hn⟩ := List.exists_mem_of_ne_nil _ hne
  refine ⟨n, ?_⟩
  rw [getInitialReadyNodeIds, mem_sortNodeIdsByTopology]
  exact (List.mem_insertionSort _).mpr hn

theorem entry_not_led (h : Built graph) {p n : WorkflowNodeDefinitionId} (hn : n ∈ getInitialReadyNodeIds graph) :
    ¬graph.Leads p n := by
  rw [h.leads_iff]
  obtain ⟨_, definition, hok⟩ := h
  obtain ⟨-, hv, rfl⟩ := buildDerivedWorkflowGraph_ok hok
  rintro ⟨i, hi, -⟩
  obtain ⟨e, he, hto, -⟩ := (mem_inboundEdgeIds_derivedGraph hv).mp hi
  rw [getInitialReadyNodeIds, mem_sortNodeIdsByTopology] at hn
  have hentry : n ∈ definition.entryNodeIds := (List.mem_insertionSort _).mp hn
  exact WorkflowDefinition.indegree_eq_zero.mp (hv.entries n hentry).2 e he hto

end Built

/-! ## What the graph tells of its definition -/

/-- The graph has the nodes and the edges of the definition, and each node the edges that lead to it and from it; when no
entry is repeated, the topological indices grow along every edge. -/
structure Derives (definition : WorkflowDefinition) (graph : DerivedWorkflowGraph) : Prop where
  nodes : ∀ n derived, graph.nodes.get? n = some derived → derived.definition ∈ definition.nodes ∧ derived.definition.id = n ∧
    (∀ i, i ∈ derived.inboundEdgeIds ↔ ∃ e, graph.edges.get? i = some e ∧ e.to = n) ∧
    (∀ i, i ∈ derived.outboundEdgeIds ↔ ∃ e, graph.edges.get? i = some e ∧ e.from = n)
  all : ∀ node ∈ definition.nodes, ∃ derived, graph.nodes.get? node.id = some derived ∧ derived.definition = node
  edges : ∀ i e, graph.edges.get? i = some e ↔ e ∈ definition.edges ∧ e.id = i
  indices : definition.entryNodeIds.Nodup → ∀ i e p m, graph.edges.get? i = some e → graph.nodes.get? e.from = some p →
    graph.nodes.get? e.to = some m → p.topologicalIndex < m.topologicalIndex

theorem get?_topologicalIndexMap {order : List WorkflowNodeDefinitionId} (hn : order.Nodup)
    {n : WorkflowNodeDefinitionId} (hmem : n ∈ order) : (topologicalIndexMap order).get? n = some (order.idxOf n) := by
  refine (Record.get?_ofEntries (by rwa [List.zipIdx_map_fst])).mpr ?_
  rw [List.mk_mem_zipIdx_iff_getElem?]
  exact List.getElem?_idxOf hmem

/-- **The derived graph.** What is built is the graph of the definition. -/
theorem derives_of_build {buildGraphDigest : WorkflowDefinition → String} {definition : WorkflowDefinition}
    {graph : DerivedWorkflowGraph} (h : buildDerivedWorkflowGraph buildGraphDigest definition = .ok graph) :
    Derives definition graph := by
  unfold buildDerivedWorkflowGraph at h
  split at h
  · cases h
  next order hvalid =>
  cases h
  obtain ⟨-, hv, hsurplus, rfl⟩ := validateWorkflowDefinition_valid_iff.mp hvalid
  have hget : ∀ n derived, (derivedGraph buildGraphDigest definition
      (topologicalSort definition (indexDefinition definition))).nodes.get? n = some derived → ∃ node ∈ definition.nodes,
      node.id = n ∧ derived = deriveNode (sortEdges definition.edges)
        (topologicalIndexMap (topologicalSort definition (indexDefinition definition))) node := by
    intro n derived hn
    obtain ⟨node, hnode, heq⟩ := List.mem_map.mp (Record.mem_of_get?_ofEntries hn)
    cases heq
    exact ⟨node, hnode, rfl, rfl⟩
  refine ⟨fun n derived hn => ?_, fun node hnode => ⟨_, get?_nodes_derivedGraph hv hnode, rfl⟩,
    fun i e => get?_edges_derivedGraph hv, fun hentries i e p m he hp hm => ?_⟩
  · obtain ⟨node, hnode, rfl, rfl⟩ := hget n derived hn
    refine ⟨hnode, rfl, fun i => ?_, fun i => ?_⟩
    · simp only [get?_edges_derivedGraph hv]
      simp only [deriveNode, List.mem_map, List.mem_insertionSort, List.mem_filter, mem_sortEdges, decide_eq_true_eq]
      exact exists_congr fun e => and_right_comm
    · simp only [get?_edges_derivedGraph hv]
      simp only [deriveNode, List.mem_map, List.mem_filter, mem_sortEdges, decide_eq_true_eq]
      exact exists_congr fun e => and_right_comm
  · obtain ⟨hperm, hsorted⟩ := sorted_of_nodup hv hentries
      (hsurplus.symm.trans (entrySurplus_eq_zero.mpr hentries))
    obtain ⟨he, -⟩ := (get?_edges_derivedGraph hv).mp he
    obtain ⟨node, hnode, hid, rfl⟩ := hget _ _ hp
    obtain ⟨node', hnode', hid', rfl⟩ := hget _ _ hm
    have hn := hperm.nodup_iff.mpr hv.nodeIds
    have hfrom := get?_topologicalIndexMap hn (hperm.mem_iff.mpr (hv.edges.endpoints e he).1)
    have hto := get?_topologicalIndexMap hn (hperm.mem_iff.mpr (hv.edges.endpoints e he).2)
    simp only [deriveNode, hid, hid', hfrom, hto, Option.getD_some]
    exact hsorted e he

theorem chain_derives : ∃ definition graph, definition.entryNodeIds = [1] ∧ definition.edges.length = 2 ∧
    buildDerivedWorkflowGraph (fun _ => "digest") definition = .ok graph ∧ Derives definition graph := by
  obtain ⟨graph, hgraph⟩ := Option.isSome_iff_exists.mp (show (buildDerivedWorkflowGraph (fun _ => "digest")
    { cyclicDefinition with
      entryNodeIds := [1], edges := [⟨1, 1, 2, none, 0⟩, ⟨2, 2, 3, none, 0⟩] }).toOption.isSome from by decide +kernel)
  exact ⟨_, graph, rfl, rfl, eq_ok_of_toOption hgraph, derives_of_build (eq_ok_of_toOption hgraph)⟩

end NousCore.Workflow
