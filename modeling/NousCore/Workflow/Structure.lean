import NousCore.Workflow.GraphValidator
import NousCore.Lib.Worklist

/-!
# What the structure checks accept

* `structureIssues_eq_nil` : no issue is pushed exactly for the structurally valid definitions.
-/

namespace NousCore.Workflow

def WorkflowDefinition.nodeIds (definition : WorkflowDefinition) : List WorkflowNodeDefinitionId :=
  definition.nodes.map (·.id)

/-! ## Indexing -/

variable {node : WorkflowNodeDefinition}

theorem indexNode_issues {index : DefinitionIndex} (h : index.issues ≠ []) :
    (indexNode index node).issues ≠ [] := by
  unfold indexNode
  split_ifs
  · simp [DefinitionIndex.pushIssue]
  · exact h

variable {edge : WorkflowEdgeDefinition}

theorem indexEdge_issues {index : DefinitionIndex} (h : index.issues ≠ []) :
    (indexEdge index edge).issues ≠ [] := by
  unfold indexEdge
  dsimp only
  split_ifs <;> simp [DefinitionIndex.pushIssue, h]

theorem foldl_issues {α : Type} {f : DefinitionIndex → α → DefinitionIndex}
    (hf : ∀ index a, index.issues ≠ [] → (f index a).issues ≠ []) :
    ∀ (l : List α) (index : DefinitionIndex), index.issues ≠ [] → (l.foldl f index).issues ≠ []
  | [], _, h => h
  | a :: l, index, h => foldl_issues hf l (f index a) (hf index a h)

/-- The maps after the nodes, when no node raised an issue. -/
structure IndexedNodes (nodes : List WorkflowNodeDefinition) (index : DefinitionIndex) : Prop where
  issues : index.issues = []
  edgeIds : index.edgeIds = []
  nodesById : index.nodesById.entries = nodes.map fun node => (node.id, node)
  incomingCount : index.incomingCount.entries = nodes.map fun node => (node.id, 0)
  outgoingEdges : index.outgoingEdges.entries = nodes.map fun node => (node.id, [])

variable {nodes : List WorkflowNodeDefinition}

theorem IndexedNodes.keys {index : DefinitionIndex}
    (h : IndexedNodes nodes index) : index.nodesById.keys = nodes.map (·.id) := by
  rw [Record.keys, h.nodesById, List.map_map]
  rfl

theorem entries_set_of_not_mem {κ α : Type} [DecidableEq κ] {r : Record κ α} {k : κ} (h : k ∉ r.keys) (v : α) :
    (r.set k v).entries = r.entries ++ [(k, v)] := by
  rw [Record.set, dif_neg h]

theorem IndexedNodes.snoc {nodes : List WorkflowNodeDefinition} {index : DefinitionIndex}
    (h : IndexedNodes nodes index) (hnew : node.id ∉ nodes.map (·.id)) :
    IndexedNodes (nodes ++ [node]) (indexNode index node) := by
  have hkeys : node.id ∉ index.nodesById.keys := h.keys ▸ hnew
  have hin : node.id ∉ index.incomingCount.keys := by
    rw [Record.keys, h.incomingCount, List.map_map]
    exact hnew
  have hout : node.id ∉ index.outgoingEdges.keys := by
    rw [Record.keys, h.outgoingEdges, List.map_map]
    exact hnew
  rw [indexNode, if_neg hkeys]
  refine ⟨h.issues, h.edgeIds, ?_, ?_, ?_⟩
  · rw [entries_set_of_not_mem hkeys, h.nodesById, List.map_append, List.map_singleton]
  · rw [entries_set_of_not_mem hin, h.incomingCount, List.map_append, List.map_singleton]
  · rw [entries_set_of_not_mem hout, h.outgoingEdges, List.map_append, List.map_singleton]

theorem indexNodes_spec : ∀ (nodes before : List WorkflowNodeDefinition) (index : DefinitionIndex),
    IndexedNodes before index → (before.map (·.id)).Nodup →
      ((nodes.foldl indexNode index).issues = [] ↔ ((before ++ nodes).map (·.id)).Nodup) ∧
        (((before ++ nodes).map (·.id)).Nodup → IndexedNodes (before ++ nodes) (nodes.foldl indexNode index))
  | [], before, index, h, hn => by
    rw [List.append_nil]
    exact ⟨iff_of_true h.issues hn, fun _ => h⟩
  | node :: nodes, before, index, h, hn => by
    rw [List.foldl_cons]
    by_cases hnew : node.id ∈ before.map (·.id)
    · have hdup : ¬((before ++ node :: nodes).map (·.id)).Nodup := by
        rw [List.map_append, List.nodup_append]
        rintro ⟨-, -, hne⟩
        exact hne _ hnew _ (by simp) rfl
      have hissue : (indexNode index node).issues ≠ [] := by
        rw [indexNode, if_pos (h.keys ▸ hnew)]
        simp [DefinitionIndex.pushIssue]
      exact ⟨iff_of_false (foldl_issues (fun _ _ => indexNode_issues) nodes _ hissue) hdup, fun hd => absurd hd hdup⟩
    · have hn' : ((before ++ [node]).map (·.id)).Nodup := by
        rw [List.map_append, List.nodup_append]
        refine ⟨hn, by simp, fun a ha b hb => ?_⟩
        rw [List.map_singleton, List.mem_singleton] at hb
        rintro rfl
        exact hnew (hb ▸ ha)
      have ih := indexNodes_spec nodes (before ++ [node]) _ (h.snoc hnew) hn'
      rwa [List.append_assoc, List.singleton_append] at ih

/-- What the checks on edges ask. -/
structure EdgesOk (nodeIds : List WorkflowNodeDefinitionId) (edges : List WorkflowEdgeDefinition) : Prop where
  ids : (edges.map (·.id)).Nodup
  endpoints : ∀ e ∈ edges, e.from ∈ nodeIds ∧ e.to ∈ nodeIds
  noSelfLoop : ∀ e ∈ edges, e.from ≠ e.to

/-- The maps after the edges, when no edge raised an issue. -/
structure IndexedEdges (nodes : List WorkflowNodeDefinition) (edges : List WorkflowEdgeDefinition)
    (index : DefinitionIndex) : Prop where
  issues : index.issues = []
  nodesById : index.nodesById.entries = nodes.map fun node => (node.id, node)
  edgeIds : index.edgeIds = edges.map (·.id)
  countKeys : index.incomingCount.keys = nodes.map (·.id)
  edgeKeys : index.outgoingEdges.keys = nodes.map (·.id)
  incoming : ∀ n ∈ nodes.map (·.id), index.incomingCount.get? n = some (edges.countP (·.to = n))
  outgoing : ∀ n ∈ nodes.map (·.id), index.outgoingEdges.get? n = some (edges.filter (·.from = n))

theorem IndexedNodes.edges {index : DefinitionIndex}
    (h : IndexedNodes nodes index) : IndexedEdges nodes [] index := by
  refine ⟨h.issues, h.nodesById, h.edgeIds, ?_, ?_, fun n hn => ?_, fun n hn => ?_⟩
  · rw [Record.keys, h.incomingCount, List.map_map]
    rfl
  · rw [Record.keys, h.outgoingEdges, List.map_map]
    rfl
  · obtain ⟨node, hnode, rfl⟩ := List.mem_map.mp hn
    exact Record.get?_eq_some.mpr (h.incomingCount ▸ List.mem_map.mpr ⟨node, hnode, rfl⟩)
  · obtain ⟨node, hnode, rfl⟩ := List.mem_map.mp hn
    exact Record.get?_eq_some.mpr (h.outgoingEdges ▸ List.mem_map.mpr ⟨node, hnode, rfl⟩)

variable {edges : List WorkflowEdgeDefinition}

theorem IndexedEdges.keys
    {index : DefinitionIndex} (h : IndexedEdges nodes edges index) : index.nodesById.keys = nodes.map (·.id) := by
  rw [Record.keys, h.nodesById, List.map_map]
  rfl

theorem keys_set_of_mem {κ α : Type} [DecidableEq κ] {r : Record κ α} {k : κ} (h : k ∈ r.keys) (v : α) :
    (r.set k v).keys = r.keys := by
  rw [Record.set, dif_pos h, Record.keys_modify]

theorem IndexedEdges.snoc {nodes : List WorkflowNodeDefinition}
    {index : DefinitionIndex} (h : IndexedEdges nodes edges index)
    (hnew : edge.id ∉ edges.map (·.id)) (hends : edge.from ∈ nodes.map (·.id) ∧ edge.to ∈ nodes.map (·.id))
    (hloop : edge.from ≠ edge.to) : IndexedEdges nodes (edges ++ [edge]) (indexEdge index edge) := by
  have hids : edge.id ∉ index.edgeIds := h.edgeIds ▸ hnew
  have hknown : ¬(edge.from ∉ index.nodesById.keys ∨ edge.to ∉ index.nodesById.keys) := by
    rw [h.keys]
    simp only [hends, not_true_eq_false, or_self, not_false_eq_true]
  rw [indexEdge, if_neg hids]
  rw [if_neg hknown, if_neg hloop]
  refine ⟨h.issues, h.nodesById, by simp [h.edgeIds], ?_, ?_, fun n hn => ?_, fun n hn => ?_⟩
  · exact (keys_set_of_mem (h.countKeys ▸ hends.2) _).trans h.countKeys
  · exact (Record.keys_modify _ _ _).trans h.edgeKeys
  · rw [Record.get?_set, h.incoming _ hends.2, List.countP_append, List.countP_singleton]
    by_cases hto : n = edge.to
    · simp [hto]
    · rw [if_neg hto, h.incoming n hn, if_neg (by simpa using Ne.symm hto)]
      rfl
  · rw [Record.get?_modify, h.outgoing n hn, List.filter_append]
    by_cases hfrom : n = edge.from
    · simp [hfrom]
    · have hother : decide (edge.from = n) = false := by simpa using Ne.symm hfrom
      rw [if_neg hfrom, List.filter_singleton, hother, cond_false, List.append_nil]

theorem indexEdge_issue {index : DefinitionIndex} (h : IndexedEdges nodes edges index)
    (hbad : ¬(edge.id ∉ edges.map (·.id) ∧ (edge.from ∈ nodes.map (·.id) ∧ edge.to ∈ nodes.map (·.id)) ∧
      edge.from ≠ edge.to)) : (indexEdge index edge).issues ≠ [] := by
  rw [indexEdge, h.edgeIds]
  dsimp only
  rw [h.keys]
  split_ifs with hid hknown hloop
  · simp [DefinitionIndex.pushIssue]
  · simp [DefinitionIndex.pushIssue]
  · simp [DefinitionIndex.pushIssue]
  · rw [not_or, not_not, not_not] at hknown
    exact absurd ⟨hid, hknown, hloop⟩ hbad

theorem indexEdges_spec :
    ∀ (edges before : List WorkflowEdgeDefinition) (index : DefinitionIndex),
    IndexedEdges nodes before index → EdgesOk (nodes.map (·.id)) before →
      ((edges.foldl indexEdge index).issues = [] ↔ EdgesOk (nodes.map (·.id)) (before ++ edges)) ∧
        (EdgesOk (nodes.map (·.id)) (before ++ edges) → IndexedEdges nodes (before ++ edges) (edges.foldl indexEdge index))
  | [], before, index, h, hok => by
    rw [List.append_nil]
    exact ⟨iff_of_true h.issues hok, fun _ => h⟩
  | edge :: edges, before, index, h, hok => by
    rw [List.foldl_cons]
    by_cases hgood : edge.id ∉ before.map (·.id) ∧
        (edge.from ∈ nodes.map (·.id) ∧ edge.to ∈ nodes.map (·.id)) ∧ edge.from ≠ edge.to
    · obtain ⟨hnew, hends, hloop⟩ := hgood
      have hok' : EdgesOk (nodes.map (·.id)) (before ++ [edge]) := by
        refine ⟨?_, fun e he => ?_, fun e he => ?_⟩
        · rw [List.map_append, List.nodup_append]
          refine ⟨hok.ids, by simp, fun a ha b hb => ?_⟩
          rw [List.map_singleton, List.mem_singleton] at hb
          rintro rfl
          exact hnew (hb ▸ ha)
        · rcases List.mem_append.mp he with he | he
          · exact hok.endpoints e he
          · exact List.mem_singleton.mp he ▸ hends
        · rcases List.mem_append.mp he with he | he
          · exact hok.noSelfLoop e he
          · exact List.mem_singleton.mp he ▸ hloop
      have ih := indexEdges_spec edges (before ++ [edge]) _ (h.snoc hnew hends hloop) hok'
      rwa [List.append_assoc, List.singleton_append] at ih
    · have hbad : ¬EdgesOk (nodes.map (·.id)) (before ++ edge :: edges) := by
        intro hall
        refine hgood ⟨fun hmem => ?_, hall.endpoints edge (by simp), hall.noSelfLoop edge (by simp)⟩
        have hids := hall.ids
        rw [List.map_append, List.nodup_append] at hids
        exact hids.2.2 _ hmem _ (by simp) rfl
      have hissue := foldl_issues (f := indexEdge) (fun _ _ => indexEdge_issues) edges _ (indexEdge_issue h hgood)
      exact ⟨iff_of_false hissue hbad, fun hall => absurd hall hbad⟩

/-- The index of a definition raises no issue exactly when its ids are distinct and its edges are well formed. -/
theorem indexDefinition_spec (definition : WorkflowDefinition) :
    ((indexDefinition definition).issues = [] ↔ definition.nodeIds.Nodup ∧ EdgesOk definition.nodeIds definition.edges) ∧
      (definition.nodeIds.Nodup ∧ EdgesOk definition.nodeIds definition.edges →
        IndexedEdges definition.nodes definition.edges (indexDefinition definition)) := by
  obtain ⟨hissues, hindexed⟩ := indexNodes_spec definition.nodes [] .empty ⟨rfl, rfl, rfl, rfl, rfl⟩ List.nodup_nil
  rw [List.nil_append] at hissues hindexed
  by_cases hn : definition.nodeIds.Nodup
  · obtain ⟨hissues', hindexed'⟩ := indexEdges_spec definition.edges [] _ (hindexed hn).edges ⟨List.nodup_nil, by simp, by simp⟩
    rw [List.nil_append] at hissues' hindexed'
    exact ⟨⟨fun h => ⟨hn, hissues'.mp h⟩, fun h => hissues'.mpr h.2⟩, fun h => hindexed' h.2⟩
  · have hissue := foldl_issues (f := indexEdge) (fun _ _ => indexEdge_issues) definition.edges _ (hissues.not.mpr hn)
    exact ⟨iff_of_false hissue fun h => hn h.1, fun h => absurd h.1 hn⟩

/-! ## The edges of a definition -/

variable {n : WorkflowNodeDefinitionId}

namespace WorkflowDefinition

/-- The number of edges into a node. -/
def indegree (definition : WorkflowDefinition) (n : WorkflowNodeDefinitionId) : Nat :=
  definition.edges.countP (·.to = n)

/-- The targets of a node's edges, by priority. -/
def targets (definition : WorkflowDefinition) (n : WorkflowNodeDefinitionId) : List WorkflowNodeDefinitionId :=
  (sortEdges (definition.edges.filter (·.from = n))).map (·.to)

theorem mem_targets {definition : WorkflowDefinition} {m : WorkflowNodeDefinitionId} :
    m ∈ definition.targets n ↔ ∃ e ∈ definition.edges, e.from = n ∧ e.to = m := by
  simp [targets, and_assoc]

theorem indegree_eq_zero {definition : WorkflowDefinition} :
    definition.indegree n = 0 ↔ ∀ e ∈ definition.edges, e.to ≠ n := by
  simp [indegree, List.countP_eq_zero]

end WorkflowDefinition

theorem countP_from_cons {c : WorkflowNodeDefinitionId} {l : List WorkflowNodeDefinitionId} (hc : c ∉ l)
    (p : WorkflowEdgeDefinition → Bool) : ∀ edges : List WorkflowEdgeDefinition,
      edges.countP (fun e => e.from ∈ c :: l ∧ p e) =
        edges.countP (fun e => e.from = c ∧ p e) + edges.countP (fun e => e.from ∈ l ∧ p e)
  | [] => rfl
  | e :: edges => by
    have ih := countP_from_cons hc p edges
    rw [List.countP_cons, List.countP_cons, List.countP_cons, ih]
    by_cases hp : p e = true
    · by_cases hec : e.from = c
      · have hel : e.from ∉ l := hec ▸ hc
        simp [hp, hec, hc]
        omega
      · simp [hp, hec]
        omega
    · simp [hp]

theorem sum_countP_from (p : WorkflowEdgeDefinition → Bool) (edges : List WorkflowEdgeDefinition) :
    ∀ {l : List WorkflowNodeDefinitionId}, l.Nodup →
      (l.map fun c => edges.countP fun e => e.from = c ∧ p e).sum = edges.countP fun e => e.from ∈ l ∧ p e
  | [], _ => by simp
  | c :: l, hn => by
    obtain ⟨hc, hn⟩ := List.nodup_cons.mp hn
    rw [List.map_cons, List.sum_cons, sum_countP_from p edges hn, countP_from_cons hc]

/-! ## Reachability -/

section

variable {definition : WorkflowDefinition} {index : DefinitionIndex}

section

variable (h : IndexedEdges definition.nodes definition.edges index)

include h

theorem IndexedEdges.keys_eq :
    index.nodesById.keys = definition.nodeIds :=
  h.keys

theorem IndexedEdges.outgoing_eq
    (hok : EdgesOk definition.nodeIds definition.edges) (n : WorkflowNodeDefinitionId) :
    index.outgoing n = definition.edges.filter (·.from = n) := by
  by_cases hn : n ∈ definition.nodeIds
  · rw [DefinitionIndex.outgoing, h.outgoing n hn, Option.getD_some]
  · have hnone : index.outgoingEdges.get? n = none := Record.get?_eq_none.mpr (h.edgeKeys ▸ hn)
    rw [DefinitionIndex.outgoing, hnone, Option.getD_none, eq_comm, List.filter_eq_nil_iff]
    intro e he hfrom
    exact hn (of_decide_eq_true hfrom ▸ (hok.endpoints e he).1)

omit h in
/-- A node that the entries lead to along the edges. -/
def WorkflowDefinition.Reaches (definition : WorkflowDefinition) : WorkflowNodeDefinitionId → Prop :=
  Reached definition.targets (· ∈ definition.nodeIds) definition.entryNodeIds

theorem reachableFrom_spec
    (hok : EdgesOk definition.nodeIds definition.edges) (hn : definition.nodeIds.Nodup) :
    ∀ (turns : Nat) (stack reachable done : List WorkflowNodeDefinitionId),
      (∀ b, b ∈ reachable ↔ b ∈ done) → cost definition.targets definition.nodeIds stack done ≤ turns →
      ∃ fin, Explores definition.targets (· ∈ definition.nodeIds) stack done fin ∧
        ∀ b, b ∈ reachableFrom index turns stack reachable ↔ b ∈ fin := by
  intro turns
  induction turns with
  | zero =>
    intro stack reachable done hdone hcost
    have hstack : stack = [] := List.length_eq_zero_iff.mp (by simp only [cost] at hcost; omega)
    subst hstack
    exact ⟨done, .nil, hdone⟩
  | succ turns ih =>
    intro stack reachable done hdone hcost
    cases stack with
    | nil => exact ⟨done, .nil, hdone⟩
    | cons n stack =>
      have hdrop := cost_drop definition.targets definition.nodeIds n stack done
      rw [reachableFrom, h.keys_eq]
      by_cases hskip : n ∈ done ∨ n ∉ definition.nodeIds
      · rw [if_pos (hskip.imp_left (hdone n).mpr)]
        obtain ⟨fin, hfin, hmem⟩ := ih stack reachable done hdone (by omega)
        exact ⟨fin, .drop hskip hfin, hmem⟩
      · rw [if_neg fun hc => hskip (hc.imp_left (hdone n).mp)]
        rw [not_or, not_not] at hskip
        have htargets : (sortEdges (index.outgoing n)).map (·.to) = definition.targets n := by
          rw [h.outgoing_eq hok]
          rfl
        have hvisit := cost_visit definition.targets definition.nodeIds hn stack hskip.1 hskip.2
        have hlen : cost definition.targets definition.nodeIds ((definition.targets n).reverse ++ stack) (n :: done) =
            cost definition.targets definition.nodeIds (stack ++ definition.targets n) (n :: done) := by
          simp only [cost, List.length_append, List.length_reverse]
          omega
        rw [htargets]
        obtain ⟨fin, hfin, hmem⟩ := ih ((definition.targets n).reverse ++ stack) (reachable ++ [n]) (n :: done)
          (fun b => by rw [List.mem_append, List.mem_singleton, hdone, List.mem_cons, or_comm]) (by omega)
        exact ⟨fin, .visit hskip.1 hskip.2 (fun b => by simp [or_comm]) hfin, hmem⟩

/-- **Reachability.** The search has enough turns, and marks what the entries lead to. -/
theorem mem_reachableNodeIds
    (hok : EdgesOk definition.nodeIds definition.edges) (hn : definition.nodeIds.Nodup) :
    n ∈ reachableNodeIds definition index ↔ definition.Reaches n := by
  have hsum : (definition.nodeIds.map fun c => (definition.targets c).length).sum ≤ definition.edges.length := by
    have hcount := sum_countP_from (fun _ => true) definition.edges hn
    have hle := List.countP_le_length (p := fun e => decide (e.from ∈ definition.nodeIds ∧ True)) (l := definition.edges)
    have hlen : ∀ c, (definition.targets c).length = definition.edges.countP fun e => e.from = c ∧ True := by
      intro c
      rw [WorkflowDefinition.targets, List.length_map, sortEdges, List.length_insertionSort, ← List.countP_eq_length_filter]
      simp
    simp only [hlen]
    simp only [and_true] at hcount hle ⊢
    omega
  obtain ⟨fin, hfin, hmem⟩ := reachableFrom_spec h hok hn (definition.entryNodeIds.length + definition.edges.length)
    definition.entryNodeIds.reverse [] [] (fun _ => Iff.rfl) (by simp [cost]; omega)
  rw [reachableNodeIds, hmem, hfin.mem_iff]
  constructor
  · intro hr
    induction hr with
    | start ha hk => exact .start (List.mem_reverse.mp ha) hk
    | next _ hb hk ih => exact .next ih hb hk
  · intro hr
    induction hr with
    | start ha hk => exact .start (List.mem_reverse.mpr ha) hk
    | next _ hb hk ih => exact .next ih hb hk

end

end

/-! ## Structural validity -/

/-- What the structure checks ask, read off the definition. The last field is the check of each node's schema
references and branch keys. -/
structure StructurallyValid (definition : WorkflowDefinition) : Prop where
  nodeIds : definition.nodeIds.Nodup
  edges : EdgesOk definition.nodeIds definition.edges
  entries : ∀ n ∈ definition.entryNodeIds, n ∈ definition.nodeIds ∧ definition.indegree n = 0
  roots : ∀ n ∈ definition.nodeIds, definition.indegree n = 0 → n ∈ definition.entryNodeIds
  reachable : ∀ n ∈ definition.nodeIds, definition.Reaches n
  nodes : ∀ node ∈ definition.nodes, nodeIssues (indexDefinition definition) node = []

theorem entryIssues_eq_nil {definition : WorkflowDefinition} {index : DefinitionIndex}
    (h : IndexedEdges definition.nodes definition.edges index) :
    entryIssues index n = [] ↔ n ∈ definition.nodeIds ∧ definition.indegree n = 0 := by
  unfold entryIssues
  rw [h.keys_eq]
  by_cases hn : n ∈ definition.nodeIds
  · have hin := h.incoming n hn
    have hcount : (index.incomingCount.get? n).getD 0 = definition.indegree n := by
      rw [hin, Option.getD_some]
      rfl
    rw [if_neg (not_not_intro hn), hcount]
    split_ifs with hpos
    · simp
      omega
    · simp [hn]
      omega
  · rw [if_pos hn]
    simp [hn]

/-- **The structure checks.** They push no issue exactly for the structurally valid definitions. -/
theorem structureIssues_eq_nil {definition : WorkflowDefinition} :
    structureIssues definition = [] ↔ StructurallyValid definition := by
  obtain ⟨hissues, hindexed⟩ := indexDefinition_spec definition
  by_cases hok : definition.nodeIds.Nodup ∧ EdgesOk definition.nodeIds definition.edges
  · have h := hindexed hok
    have hroot : ∀ n ∈ definition.nodeIds, ∀ entries : List WorkflowNodeDefinitionId,
        rootIssues entries (n, definition.indegree n) = [] ↔ (definition.indegree n = 0 → n ∈ entries) := by
      intro n hn entries
      rw [rootIssues]
      split_ifs with hif
      · exact iff_of_false (by simp) fun hall => hif.2 (hall hif.1)
      · exact iff_of_true rfl fun hzero => by_contra fun hnot => hif ⟨hzero, hnot⟩
    have hunreach : ∀ n, unreachableIssues (reachableNodeIds definition (indexDefinition definition)) n = [] ↔
        definition.Reaches n := by
      intro n
      rw [unreachableIssues, ← mem_reachableNodeIds h hok.2 hok.1]
      split_ifs with hif
      · exact iff_of_true rfl hif
      · exact iff_of_false (by simp) hif
    have hcounts : ∀ e ∈ (indexDefinition definition).incomingCount.entries,
        e.1 ∈ definition.nodeIds ∧ e.2 = definition.indegree e.1 := by
      intro e he
      have hget : (indexDefinition definition).incomingCount.get? e.1 = some e.2 := Record.get?_eq_some.mpr he
      have hn : e.1 ∈ definition.nodeIds := by
        rw [WorkflowDefinition.nodeIds, ← h.countKeys]
        exact List.mem_map.mpr ⟨e, he, rfl⟩
      rw [h.incoming _ hn, Option.some.injEq] at hget
      exact ⟨hn, hget.symm⟩
    simp only [structureIssues, List.append_eq_nil_iff, List.flatMap_eq_nil_iff, hissues.mpr hok, h.keys_eq, hunreach,
      entryIssues_eq_nil h]
    constructor
    · rintro ⟨⟨⟨⟨-, hentries⟩, hroots⟩, hreach⟩, hnodes⟩
      refine ⟨hok.1, hok.2, hentries, fun n hn hzero => ?_, hreach, hnodes⟩
      have hmem := Record.get?_eq_some.mp (h.incoming n hn)
      exact (hroot n hn _).mp (hroots _ hmem) hzero
    · intro hv
      refine ⟨⟨⟨⟨trivial, hv.entries⟩, fun e he => ?_⟩, hv.reachable⟩, hv.nodes⟩
      obtain ⟨hn, hcount⟩ := hcounts e he
      rw [← Prod.mk.eta (p := e), hcount]
      exact (hroot _ hn _).mpr (hv.roots _ hn)
  · have hbad : structureIssues definition ≠ [] := by
      intro hnil
      simp only [structureIssues, List.append_eq_nil_iff] at hnil
      exact hok (hissues.mp hnil.1.1.1.1)
    exact iff_of_false hbad fun hv => hok ⟨hv.nodeIds, hv.edges⟩

end NousCore.Workflow
