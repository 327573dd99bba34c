import NousCore.Workflow.Types

/-!
# Definition validation

`workflows/src/graph-validator.ts`.

* `definitionSchemaIssues` : `WorkflowDefinitionSchema.safeParse`, its refinements on the modelled fields;
* `indexNode`, `indexEdge` : the maps over the definition, with the issues found while they are filled;
* `nodeIssues` : schema references and branch keys of one node;
* `validateWorkflowDefinition`.
-/

namespace NousCore.Workflow

structure WorkflowValidationIssue where
  code : String
  message : String
  evidenceRefs : List String
  deriving DecidableEq

inductive WorkflowValidationResult where
  | valid (topologicalOrder : List WorkflowNodeDefinitionId)
  | invalid (issues : List WorkflowValidationIssue)
  deriving DecidableEq

/-! ## The schema -/

def schemaIssue (path message : String) : WorkflowValidationIssue :=
  ⟨"workflow_definition_schema_invalid", message, [s!"path={path}"]⟩

def textIssues (path text : String) : List WorkflowValidationIssue :=
  if text = "" then [schemaIssue path "String must contain at least 1 character(s)"] else []

def optionalTextIssues (path : String) (text : Option String) : List WorkflowValidationIssue :=
  text.elim [] (textIssues path)

def positiveIssues (path : String) (value : Nat) : List WorkflowValidationIssue :=
  if value = 0 then [schemaIssue path "Number must be greater than 0"] else []

def arrayIssues {α : Type} (path : String) (values : List α) : List WorkflowValidationIssue :=
  if values.isEmpty then [schemaIssue path "Array must contain at least 1 element(s)"] else []

def WorkflowNodeKind.text : WorkflowNodeKind → String
  | modelCall => "model-call"
  | toolExecution => "tool-execution"
  | qualityGate => "quality-gate"
  | humanDecision => "human-decision"
  | condition => "condition"
  | transform => "transform"
  | parallelSplit => "parallel-split"
  | parallelJoin => "parallel-join"
  | loop => "loop"
  | errorHandler => "error-handler"
  | subworkflow => "subworkflow"

def configSchemaIssues (path : String) : WorkflowNodeConfig → List WorkflowValidationIssue
  | .modelCall _ promptRef outputSchemaRef =>
    textIssues s!"{path}.promptRef" promptRef ++ optionalTextIssues s!"{path}.outputSchemaRef" outputSchemaRef
  | .toolExecution toolName inputMappingRef resultSchemaRef =>
    textIssues s!"{path}.toolName" toolName ++ textIssues s!"{path}.inputMappingRef" inputMappingRef ++
      optionalTextIssues s!"{path}.resultSchemaRef" resultSchemaRef
  | .condition predicateRef trueBranchKey falseBranchKey =>
    textIssues s!"{path}.predicateRef" predicateRef ++ textIssues s!"{path}.trueBranchKey" trueBranchKey ++
      textIssues s!"{path}.falseBranchKey" falseBranchKey
  | .transform transformRef inputMappingRef =>
    textIssues s!"{path}.transformRef" transformRef ++ textIssues s!"{path}.inputMappingRef" inputMappingRef
  | .qualityGate evaluatorRef passThresholdRef _ =>
    textIssues s!"{path}.evaluatorRef" evaluatorRef ++ textIssues s!"{path}.passThresholdRef" passThresholdRef
  | .humanDecision decisionRef => textIssues s!"{path}.decisionRef" decisionRef
  | .parallelSplit _ => []
  | .parallelJoin _ requiredCount timeoutMs =>
    requiredCount.elim [] (positiveIssues s!"{path}.requiredCount") ++
      timeoutMs.elim [] (positiveIssues s!"{path}.timeoutMs")
  | .loop maxIterations exitConditionRef _ =>
    positiveIssues s!"{path}.maxIterations" maxIterations ++ textIssues s!"{path}.exitConditionRef" exitConditionRef
  | .errorHandler _ _ => []
  | .subworkflow => []

def nodeRefinementIssues (path : String) (node : WorkflowNodeDefinition) : List WorkflowValidationIssue :=
  (if node.type ≠ node.config.type then
    [schemaIssue s!"{path}.config.type"
      s!"workflow node config.type ({node.config.type.text}) must match node type ({node.type.text})"]
  else []) ++
  match node.config with
  | .condition _ trueBranchKey falseBranchKey =>
    if trueBranchKey = falseBranchKey then
      [schemaIssue s!"{path}.config.falseBranchKey" "condition branch keys must be distinct"]
    else []
  | _ => []

def nodeSchemaIssues (position : Nat) (node : WorkflowNodeDefinition) : List WorkflowValidationIssue :=
  let path := s!"nodes.{position}"
  textIssues s!"{path}.name" node.name ++ optionalTextIssues s!"{path}.inputSchemaRef" node.inputSchemaRef ++
    optionalTextIssues s!"{path}.outputSchemaRef" node.outputSchemaRef ++
    configSchemaIssues s!"{path}.config" node.config ++ nodeRefinementIssues path node

def edgeSchemaIssues (position : Nat) (edge : WorkflowEdgeDefinition) : List WorkflowValidationIssue :=
  optionalTextIssues s!"edges.{position}.branchKey" edge.branchKey

/-- `WorkflowDefinitionSchema.safeParse(definition)`: the issues, none when the definition is schema-valid. -/
def definitionSchemaIssues (definition : WorkflowDefinition) : List WorkflowValidationIssue :=
  textIssues "version" definition.version ++ textIssues "name" definition.name ++
    arrayIssues "entryNodeIds" definition.entryNodeIds ++ arrayIssues "nodes" definition.nodes ++
    (definition.nodes.mapIdx nodeSchemaIssues).flatten ++ (definition.edges.mapIdx edgeSchemaIssues).flatten

/-! ## Index maps -/

structure DefinitionIndex where
  nodesById : Record WorkflowNodeDefinitionId WorkflowNodeDefinition
  incomingCount : Record WorkflowNodeDefinitionId Nat
  outgoingEdges : Record WorkflowNodeDefinitionId (List WorkflowEdgeDefinition)
  edgeIds : List WorkflowEdgeId
  issues : List WorkflowValidationIssue

namespace DefinitionIndex

def empty : DefinitionIndex := ⟨.empty, .empty, .empty, [], []⟩

def pushIssue (index : DefinitionIndex) (code message : String) (evidenceRefs : List String) : DefinitionIndex :=
  { index with issues := index.issues ++ [⟨code, message, evidenceRefs⟩] }

end DefinitionIndex

def indexNode (index : DefinitionIndex) (node : WorkflowNodeDefinition) : DefinitionIndex :=
  if node.id ∈ index.nodesById.keys then
    index.pushIssue "workflow_duplicate_node_id" s!"Duplicate workflow node definition id: {node.id}"
      [s!"node_id={node.id}"]
  else
    { index with
      nodesById := index.nodesById.set node.id node
      incomingCount := index.incomingCount.set node.id 0
      outgoingEdges := index.outgoingEdges.set node.id [] }

def indexEdge (index : DefinitionIndex) (edge : WorkflowEdgeDefinition) : DefinitionIndex :=
  if edge.id ∈ index.edgeIds then
    index.pushIssue "workflow_duplicate_edge_id" s!"Duplicate workflow edge id: {edge.id}" [s!"edge_id={edge.id}"]
  else
    let index := { index with edgeIds := index.edgeIds ++ [edge.id] }
    if edge.from ∉ index.nodesById.keys ∨ edge.to ∉ index.nodesById.keys then
      index.pushIssue "workflow_dangling_edge" s!"Edge {edge.id} references an unknown node"
        [s!"edge_id={edge.id}", s!"from={edge.from}", s!"to={edge.to}"]
    else if edge.from = edge.to then
      index.pushIssue "workflow_self_loop" s!"Edge {edge.id} forms a self-loop"
        [s!"edge_id={edge.id}", s!"node_id={edge.from}"]
    else
      { index with
        incomingCount := index.incomingCount.set edge.to (((index.incomingCount.get? edge.to).getD 0) + 1)
        outgoingEdges := index.outgoingEdges.modify edge.from (· ++ [edge]) }

def indexDefinition (definition : WorkflowDefinition) : DefinitionIndex :=
  definition.edges.foldl indexEdge (definition.nodes.foldl indexNode .empty)

/-- `outgoingEdges.get(nodeId) ?? []`. -/
def DefinitionIndex.outgoing (index : DefinitionIndex) (nodeId : WorkflowNodeDefinitionId) :
    List WorkflowEdgeDefinition :=
  (index.outgoingEdges.get? nodeId).getD []

/-! ## Entries and reachability -/

def entryIssues (index : DefinitionIndex) (entryNodeId : WorkflowNodeDefinitionId) : List WorkflowValidationIssue :=
  if entryNodeId ∉ index.nodesById.keys then
    [⟨"workflow_entry_node_missing", s!"Entry node {entryNodeId} does not exist", [s!"entry_node_id={entryNodeId}"]⟩]
  else if 0 < (index.incomingCount.get? entryNodeId).getD 0 then
    [⟨"workflow_entry_node_has_inbound_edges", s!"Entry node {entryNodeId} has inbound edges",
      [s!"entry_node_id={entryNodeId}"]⟩]
  else []

def rootIssues (entryNodeIds : List WorkflowNodeDefinitionId) (count : WorkflowNodeDefinitionId × Nat) :
    List WorkflowValidationIssue :=
  if count.2 = 0 ∧ count.1 ∉ entryNodeIds then
    [⟨"workflow_missing_entry_for_root_node", s!"Root node {count.1} is not declared as an entry node",
      [s!"node_id={count.1}"]⟩]
  else []

/-- `while (stack.length > 0)`, with the number of turns it may take. The head of the list is the top. -/
def reachableFrom (index : DefinitionIndex) :
    Nat → List WorkflowNodeDefinitionId → List WorkflowNodeDefinitionId → List WorkflowNodeDefinitionId
  | 0, _, reachable => reachable
  | _ + 1, [], reachable => reachable
  | turns + 1, nodeId :: stack, reachable =>
    if nodeId ∈ reachable ∨ nodeId ∉ index.nodesById.keys then reachableFrom index turns stack reachable
    else
      reachableFrom index turns (((sortEdges (index.outgoing nodeId)).map (·.to)).reverse ++ stack)
        (reachable ++ [nodeId])

/-- A node pushes its edges' targets once. -/
def reachableNodeIds (definition : WorkflowDefinition) (index : DefinitionIndex) : List WorkflowNodeDefinitionId :=
  reachableFrom index (definition.entryNodeIds.length + definition.edges.length) definition.entryNodeIds.reverse []

def unreachableIssues (reachable : List WorkflowNodeDefinitionId) (nodeId : WorkflowNodeDefinitionId) :
    List WorkflowValidationIssue :=
  if nodeId ∈ reachable then []
  else [⟨"workflow_unreachable_node", s!"Node {nodeId} is unreachable from the declared entry nodes",
    [s!"node_id={nodeId}"]⟩]

/-! ## Nodes -/

def isResolvableSchemaRef (ref : String) : Bool := "schema://".toList.isPrefixOf ref.toList

section

variable (node : WorkflowNodeDefinition)

def outputSchemaRefOf : Option String :=
  node.outputSchemaRef.or <| match node.config with
    | .modelCall _ _ outputSchemaRef => outputSchemaRef
    | .toolExecution _ _ resultSchemaRef => resultSchemaRef
    | _ => none

def unresolvableIssues (direction : String) (ref : Option String) :
    List WorkflowValidationIssue :=
  match ref with
  | none => []
  | some ref =>
    if ref ≠ "" ∧ isResolvableSchemaRef ref = false then
      [⟨"workflow_schema_ref_unresolvable",
        s!"Node {node.id} declares an unresolvable {direction} schema ref {ref}",
        [s!"node_id={node.id}", s!"{direction}_schema_ref={ref}"]⟩]
    else []

def outputMissingIssues : List WorkflowValidationIssue :=
  if (node.type = .modelCall ∨ node.type = .toolExecution) ∧ truthy (outputSchemaRefOf node) = none then
    [⟨"workflow_node_output_schema_missing", s!"Gateway-managed node {node.id} must declare an output schema ref",
      [s!"node_id={node.id}"]⟩]
  else []

def conditionIssues (outbound : List WorkflowEdgeDefinition) :
    List WorkflowValidationIssue :=
  match node.config with
  | .condition _ trueBranchKey falseBranchKey =>
    let expectedBranchKeys := [trueBranchKey, falseBranchKey].eraseDups
    (outbound.filter fun edge => truthy edge.branchKey = none).map (fun edge =>
      ⟨"workflow_condition_edge_missing_branch_key",
        s!"Condition node {node.id} has an outbound edge without a branch key",
        [s!"node_id={node.id}", s!"edge_id={edge.id}"]⟩) ++
    (outbound.filterMap fun edge => edge.branchKey.bind fun key =>
      if key ∈ expectedBranchKeys then none
      else some ⟨"workflow_condition_branch_key_unexpected",
        s!"Condition node {node.id} has an outbound edge for unexpected branch key {key}",
        [s!"node_id={node.id}", s!"edge_id={edge.id}", s!"branch_key={key}"]⟩) ++
    (expectedBranchKeys.filter fun key => outbound.all (·.branchKey ≠ some key)).map (fun key =>
      ⟨"workflow_condition_branch_key_missing",
        s!"Condition node {node.id} is missing an outbound edge for branch key {key}",
        [s!"node_id={node.id}", s!"branch_key={key}"]⟩)
  | _ =>
    [⟨"workflow_condition_config_type_mismatch", s!"Condition node {node.id} must carry a condition config",
      [s!"node_id={node.id}"]⟩]

def branchKeyIssues (outbound : List WorkflowEdgeDefinition) :
    List WorkflowValidationIssue :=
  outbound.filterMap fun edge => edge.branchKey.map fun key =>
    ⟨"workflow_branch_key_requires_condition_node",
      s!"Node {node.id} cannot declare branched outbound edges because it is not a condition node",
      [s!"node_id={node.id}", s!"edge_id={edge.id}", s!"branch_key={key}"]⟩

end

def compatibilityIssues (index : DefinitionIndex) (node : WorkflowNodeDefinition) (edge : WorkflowEdgeDefinition) :
    List WorkflowValidationIssue :=
  match index.nodesById.get? edge.to with
  | none => []
  | some targetNode =>
    match truthy (outputSchemaRefOf node), truthy targetNode.inputSchemaRef with
    | some output, some input =>
      if output ≠ input then
        [⟨"workflow_edge_schema_incompatible",
          s!"Edge {edge.id} connects incompatible node schemas ({output} -> {input})",
          [s!"edge_id={edge.id}", s!"from={node.id}", s!"to={targetNode.id}"]⟩]
      else []
    | _, _ => []

def nodeIssues (index : DefinitionIndex) (node : WorkflowNodeDefinition) : List WorkflowValidationIssue :=
  let outbound := sortEdges (index.outgoing node.id)
  unresolvableIssues node "input" node.inputSchemaRef ++ unresolvableIssues node "output" (outputSchemaRefOf node) ++
    outputMissingIssues node ++
    match node.type with
    | .condition => conditionIssues node outbound
    -- these kinds may declare branched outbound edges
    | .parallelSplit | .loop | .errorHandler => []
    | _ => branchKeyIssues node outbound ++ outbound.flatMap (compatibilityIssues index node)

/-- Every issue the structure checks push, in their order. -/
def structureIssues (definition : WorkflowDefinition) : List WorkflowValidationIssue :=
  let index := indexDefinition definition
  let reachable := reachableNodeIds definition index
  index.issues ++ definition.entryNodeIds.flatMap (entryIssues index) ++
    index.incomingCount.entries.flatMap (rootIssues definition.entryNodeIds) ++
    index.nodesById.keys.flatMap (unreachableIssues reachable) ++ definition.nodes.flatMap (nodeIssues index)

/-! ## Topological sort -/

structure QueueItem where
  nodeId : WorkflowNodeDefinitionId
  sourceOrder : Int
  edgePriority : Nat
  edgeId : WorkflowEdgeId

def queueOrder (left right : QueueItem) : Prop :=
  left.sourceOrder < right.sourceOrder ∨ left.sourceOrder = right.sourceOrder ∧
    (left.edgePriority < right.edgePriority ∨ left.edgePriority = right.edgePriority ∧
      (left.edgeId < right.edgeId ∨ left.edgeId = right.edgeId ∧ left.nodeId ≤ right.nodeId))

instance : DecidableRel queueOrder := fun left right =>
  inferInstanceAs (Decidable (left.sourceOrder < right.sourceOrder ∨ left.sourceOrder = right.sourceOrder ∧
    (left.edgePriority < right.edgePriority ∨ left.edgePriority = right.edgePriority ∧
      (left.edgeId < right.edgeId ∨ left.edgeId = right.edgeId ∧ left.nodeId ≤ right.nodeId))))

structure SortState where
  queue : List QueueItem
  remainingInbound : Record WorkflowNodeDefinitionId Int
  topologicalOrder : List WorkflowNodeDefinitionId

/-- The body of the loop over the outgoing edges of a node taken from the queue. -/
def releaseEdge (state : SortState) (edge : WorkflowEdgeDefinition) : SortState :=
  let nextInbound := (state.remainingInbound.get? edge.to).getD 0 - 1
  { state with
    remainingInbound := state.remainingInbound.set edge.to nextInbound
    queue := if nextInbound = 0 then
        state.queue ++ [⟨edge.to, state.topologicalOrder.length, edge.priority, edge.id⟩]
      else state.queue }

/-- `while (queue.length > 0)`, with the number of turns it may take. -/
def sortQueue (index : DefinitionIndex) : Nat → SortState → SortState
  | 0, state => state
  | turns + 1, state =>
    match state.queue.insertionSort queueOrder with
    | [] => state
    | current :: queue =>
      sortQueue index turns ((sortEdges (index.outgoing current.nodeId)).foldl releaseEdge
        { state with queue := queue, topologicalOrder := state.topologicalOrder ++ [current.nodeId] })

def entryItem (nodeId : WorkflowNodeDefinitionId) : QueueItem := ⟨nodeId, -1, 0, nodeId⟩

def initialSort (definition : WorkflowDefinition) (index : DefinitionIndex) : SortState where
  queue := (definition.entryNodeIds.insertionSort (· ≤ ·)).map entryItem
  remainingInbound := ⟨index.incomingCount.entries.map fun e => (e.1, (e.2 : Int)), by
    rw [List.map_map]; exact index.incomingCount.nodup⟩
  topologicalOrder := []

/-- A node is put in the queue once for each time it is an entry, and once when its last inbound edge goes. -/
def topologicalSort (definition : WorkflowDefinition) (index : DefinitionIndex) : List WorkflowNodeDefinitionId :=
  (sortQueue index (definition.entryNodeIds.length + definition.nodes.length)
    (initialSort definition index)).topologicalOrder

def validateWorkflowDefinition (definition : WorkflowDefinition) : WorkflowValidationResult :=
  let schemaIssues := definitionSchemaIssues definition
  if schemaIssues ≠ [] then .invalid schemaIssues
  else
    let issues := structureIssues definition
    if issues ≠ [] then .invalid issues
    else
      let index := indexDefinition definition
      let topologicalOrder := topologicalSort definition index
      if topologicalOrder.length ≠ index.nodesById.keys.length then
        .invalid [⟨"workflow_cycle_detected", "Workflow definition contains a cycle",
          [s!"workflow_definition_id={definition.id}"]⟩]
      else .valid topologicalOrder

end NousCore.Workflow
