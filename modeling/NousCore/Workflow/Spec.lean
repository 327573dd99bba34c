import NousCore.Lib.JsNumber

/-!
# Workflow specs

* `serializeWorkflowSpec`, `parseWorkflowSpec` : to a YAML text and back, with the library as a parameter;
* `projectInbound` : the nodes and edges that the builder shows of a spec;
* `projectOutbound` : the spec that is saved for them.
-/

namespace NousCore.Workflow

/-! ## Documents -/

/-- What a YAML document holds. -/
inductive YamlValue where
  | null
  | bool (b : Bool)
  | number (x : JsNumber)
  | string (s : String)
  | sequence (items : List YamlValue)
  | mapping (entries : List (String × YamlValue))

namespace YamlValue

def string? : YamlValue → Option String
  | .string s => some s
  | _ => none

def mapping? : YamlValue → Option (List (String × YamlValue))
  | .mapping entries => some entries
  | _ => none

def sequence? : YamlValue → Option (List YamlValue)
  | .sequence items => some items
  | _ => none

/-- `z.tuple([z.number(), z.number()])` -/
def pair? : YamlValue → Option (JsNumber × JsNumber)
  | .sequence [.number x, .number y] => if x = .nan ∨ y = .nan then none else some (x, y)
  | _ => none

/-- `z.number().int().positive()` -/
def positive? : YamlValue → Option Nat
  | .number (.finite q) => if q.den = 1 ∧ 0 < q then some q.num.toNat else none
  | _ => none

end YamlValue

/-- The YAML library; what is thrown has a message. -/
structure YamlLibrary where
  stringify : Nat → YamlValue → String
  parse : String → Except String YamlValue

/-! ## Specs -/

structure WorkflowNode where
  id : String
  name : String
  type : String
  position : JsNumber × JsNumber
  parameters : List (String × YamlValue)

inductive ConnectionOutput where
  | bool (b : Bool)
  | string (s : String)

structure WorkflowConnection where
  fromId : String
  toId : String
  output : Option ConnectionOutput

structure WorkflowSpec where
  name : String
  version : Nat
  nodes : List WorkflowNode
  connections : List WorkflowConnection

/-- `/^[a-z0-9]+(-[a-z0-9]+)*$/` -/
def isKebabCase (id : String) : Bool :=
  (id.toList.splitOn '-').all fun part => !part.isEmpty && part.all fun c => c.isLower || c.isDigit

def nousNodeCategories : List String := ["trigger", "agent", "condition", "app", "tool", "memory", "governance"]

/-- `/^nous\.(trigger|agent|condition|app|tool|memory|governance)\..+$/`; a dot matches no line terminator. -/
def isNousNodeType (type : String) : Bool :=
  nousNodeCategories.any fun category =>
    let stem := s!"nous.{category}.".toList
    let action := type.toList.drop stem.length
    stem.isPrefixOf type.toList && !action.isEmpty && action.all fun c => c.val ∉ [0xa, 0xd, 0x2028, 0x2029]

/-- The values that `WorkflowNodeSchema` returns. -/
def WorkflowNode.accepted (node : WorkflowNode) : Bool :=
  isKebabCase node.id && node.name ≠ "" && isNousNodeType node.type && node.position.1 ≠ .nan &&
    node.position.2 ≠ .nan && node.parameters.all (·.1 ≠ "__proto__")

def WorkflowConnection.accepted (conn : WorkflowConnection) : Bool := conn.fromId ≠ "" && conn.toId ≠ ""

/-- The values that `WorkflowSpecSchema` returns. -/
def WorkflowSpec.accepted (spec : WorkflowSpec) : Bool :=
  spec.name ≠ "" && 0 < spec.version && !spec.nodes.isEmpty && spec.nodes.all (·.accepted) &&
    spec.connections.all (·.accepted)

/-! ## The schema -/

/-- `z.record(z.string(), z.unknown())` drops one key. -/
def recordEntries (entries : List (String × YamlValue)) : List (String × YamlValue) :=
  entries.filter (·.1 ≠ "__proto__")

def WorkflowNodeSchema (value : YamlValue) : Option WorkflowNode := do
  let entries ← value.mapping?
  let node : WorkflowNode :=
    ⟨← (entries.lookup "id").bind (·.string?), ← (entries.lookup "name").bind (·.string?),
      ← (entries.lookup "type").bind (·.string?), ← (entries.lookup "position").bind (·.pair?),
      ← (entries.lookup "parameters").elim (some []) fun parameters => recordEntries <$> parameters.mapping?⟩
  if node.accepted then return node else none

/-- `z.union([z.boolean(), z.string()])` -/
def outputSchema : YamlValue → Option ConnectionOutput
  | .bool b => some (.bool b)
  | .string s => some (.string s)
  | _ => none

def WorkflowConnectionSchema (value : YamlValue) : Option WorkflowConnection := do
  let entries ← value.mapping?
  let conn : WorkflowConnection :=
    ⟨← (entries.lookup "from").bind (·.string?), ← (entries.lookup "to").bind (·.string?),
      ← (entries.lookup "output").elim (some none) fun output => some <$> outputSchema output⟩
  if conn.accepted then return conn else none

def WorkflowSpecSchema (value : YamlValue) : Option WorkflowSpec := do
  let entries ← value.mapping?
  let nodes ← (entries.lookup "nodes").bind (·.sequence?)
  let connections ← (entries.lookup "connections").elim (some []) (·.sequence?)
  let spec : WorkflowSpec :=
    ⟨← (entries.lookup "name").bind (·.string?), ← (entries.lookup "version").bind (·.positive?),
      ← nodes.mapM WorkflowNodeSchema, ← connections.mapM WorkflowConnectionSchema⟩
  if spec.accepted then return spec else none

/-! ## Checks of a spec as a whole -/

structure WorkflowSpecValidationError where
  path : String
  message : String

def duplicateErrors : List (WorkflowNode × Nat) → List String → List WorkflowSpecValidationError
  | [], _ => []
  | (node, i) :: rest, nodeIds =>
    (if node.id ∈ nodeIds then [⟨s!"nodes.{i}.id", s!"Duplicate node id: {node.id}"⟩] else []) ++
      duplicateErrors rest (node.id :: nodeIds)

def connectionErrors (nodeIds : List String) (conn : WorkflowConnection) (i : Nat) : List WorkflowSpecValidationError :=
  (if conn.fromId ∈ nodeIds then []
    else [⟨s!"connections.{i}.from", s!"Connection references non-existent source node: {conn.fromId}"⟩]) ++
  (if conn.toId ∈ nodeIds then []
    else [⟨s!"connections.{i}.to", s!"Connection references non-existent target node: {conn.toId}"⟩]) ++
  if conn.fromId = conn.toId then [⟨s!"connections.{i}", s!"Self-loop connection: {conn.fromId} -> {conn.toId}"⟩] else []

def structuralErrors (spec : WorkflowSpec) : List WorkflowSpecValidationError :=
  duplicateErrors spec.nodes.zipIdx [] ++
  (spec.connections.zipIdx.flatMap fun e => connectionErrors (spec.nodes.map (·.id)) e.1 e.2) ++
  if spec.version = 1 then []
  else [⟨"version", s!"Unsupported spec version: {spec.version}. Only version 1 is currently supported."⟩]

/-- The validation without its deep part; `issues` is what the schema reports of a value that it refuses. -/
def validateWorkflowSpec (issues : YamlValue → List WorkflowSpecValidationError) (input : YamlValue) :
    Except (List WorkflowSpecValidationError) WorkflowSpec :=
  match WorkflowSpecSchema input with
  | none => .error (issues input)
  | some spec => if (structuralErrors spec).isEmpty then .ok spec else .error (structuralErrors spec)

/-! ## To a text and back -/

def nodeDocument (node : WorkflowNode) : YamlValue :=
  .mapping ([("id", .string node.id), ("name", .string node.name), ("type", .string node.type),
    ("position", .sequence [.number node.position.1, .number node.position.2])] ++
      if 0 < node.parameters.length then [("parameters", .mapping node.parameters)] else [])

def outputDocument : ConnectionOutput → YamlValue
  | .bool b => .bool b
  | .string s => .string s

def connectionDocument (conn : WorkflowConnection) : YamlValue :=
  .mapping ([("from", .string conn.fromId), ("to", .string conn.toId)] ++
    conn.output.toList.map fun output => ("output", outputDocument output))

def specDocument (spec : WorkflowSpec) : YamlValue :=
  .mapping [("name", .string spec.name), ("version", .number (.ofNat spec.version)),
    ("nodes", .sequence (spec.nodes.map nodeDocument)), ("connections", .sequence (spec.connections.map connectionDocument))]

def serializeWorkflowSpec (yaml : YamlLibrary) (spec : WorkflowSpec) (indent : Option Nat) : String :=
  yaml.stringify (indent.getD 2) (specDocument spec)

def parseWorkflowSpec (yaml : YamlLibrary) (issues : YamlValue → List WorkflowSpecValidationError) (yamlString : String) :
    Except (List WorkflowSpecValidationError) WorkflowSpec :=
  match yaml.parse yamlString with
  | .error message => .error [⟨"root", s!"YAML parse error: {message}"⟩]
  | .ok parsed => validateWorkflowSpec issues parsed

/-! ## What the schema makes of a document that is written -/

theorem schema_nodeDocument {node : WorkflowNode} (h : node.accepted = true) :
    WorkflowNodeSchema (nodeDocument node) = some node := by
  have hnan : node.position.1 ≠ .nan ∧ node.position.2 ≠ .nan := by
    simp only [WorkflowNode.accepted, Bool.and_eq_true, decide_eq_true_eq] at h
    exact ⟨h.1.1.2, h.1.2⟩
  have hparameters : recordEntries node.parameters = node.parameters := by
    simp only [WorkflowNode.accepted, Bool.and_eq_true] at h
    exact List.filter_eq_self.mpr (List.all_eq_true.mp h.2)
  obtain ⟨id, name, type, position, parameters⟩ := node
  unfold WorkflowNodeSchema nodeDocument
  cases parameters with
  | nil => simp [YamlValue.mapping?, YamlValue.string?, YamlValue.pair?, List.lookup_cons, hnan, h]
  | cons entry rest =>
    simp [YamlValue.mapping?, YamlValue.string?, YamlValue.pair?, List.lookup_cons, hnan, hparameters, h]

theorem schema_connectionDocument {conn : WorkflowConnection} (h : conn.accepted = true) :
    WorkflowConnectionSchema (connectionDocument conn) = some conn := by
  obtain ⟨fromId, toId, output⟩ := conn
  unfold WorkflowConnectionSchema connectionDocument
  rcases output with _ | b | s <;>
    simp [YamlValue.mapping?, YamlValue.string?, List.lookup_cons, outputSchema, outputDocument, h]

theorem mapM_map_eq_some {α β : Type} {f : α → β} {g : β → Option α} {l : List α} (h : ∀ x ∈ l, g (f x) = some x) :
    (l.map f).mapM g = some l := by
  induction l with
  | nil => rfl
  | cons x l ih =>
    rw [List.map_cons, List.mapM_cons, h x List.mem_cons_self, ih fun y hy => h y (List.mem_cons_of_mem x hy)]
    rfl

theorem positive?_ofNat {n : Nat} (h : 0 < n) : (YamlValue.number (.ofNat n)).positive? = some n := by
  have hpos : (0 : ℚ) < n := Nat.cast_pos.mpr h
  simp [YamlValue.positive?, JsNumber.ofNat, hpos]

variable {spec : WorkflowSpec}

theorem schema_specDocument (h : spec.accepted = true) :
    WorkflowSpecSchema (specDocument spec) = some spec := by
  have hparts := h
  simp only [WorkflowSpec.accepted, Bool.and_eq_true, decide_eq_true_eq] at hparts
  obtain ⟨⟨⟨⟨-, hversion⟩, -⟩, hnodes⟩, hconnections⟩ := hparts
  have hnodes := mapM_map_eq_some fun node hnode => schema_nodeDocument (List.all_eq_true.mp hnodes node hnode)
  have hconnections := mapM_map_eq_some fun conn hconn =>
    schema_connectionDocument (List.all_eq_true.mp hconnections conn hconn)
  obtain ⟨name, version, nodes, connections⟩ := spec
  unfold WorkflowSpecSchema specDocument
  simp [YamlValue.mapping?, YamlValue.string?, YamlValue.sequence?, List.lookup_cons, positive?_ofNat hversion, hnodes,
    hconnections, h]

/-! ## Which specs survive -/

/-- No two nodes have one id, and every connection joins two of them. -/
structure WorkflowSpec.WellFormed (spec : WorkflowSpec) : Prop where
  distinct : (spec.nodes.map (·.id)).Nodup
  joined : ∀ conn ∈ spec.connections,
    conn.fromId ∈ spec.nodes.map (·.id) ∧ conn.toId ∈ spec.nodes.map (·.id) ∧ conn.fromId ≠ conn.toId
  supported : spec.version = 1

theorem duplicateErrors_eq_nil {nodes : List WorkflowNode} {i : Nat} {nodeIds : List String} :
    duplicateErrors (nodes.zipIdx i) nodeIds = [] ↔
      (nodes.map (·.id)).Nodup ∧ ∀ node ∈ nodes, node.id ∉ nodeIds := by
  induction nodes generalizing i nodeIds with
  | nil => simp [duplicateErrors]
  | cons node rest ih =>
    rw [List.zipIdx_cons, duplicateErrors, List.append_eq_nil_iff, ih, List.map_cons, List.nodup_cons]
    constructor
    · rintro ⟨hnode, hdistinct, hrest⟩
      split_ifs at hnode with hmem
      refine ⟨⟨fun h => ?_, hdistinct⟩, List.forall_mem_cons.mpr
        ⟨hmem, fun other hother h => hrest other hother (List.mem_cons_of_mem _ h)⟩⟩
      obtain ⟨other, hother, heq⟩ := List.mem_map.mp h
      exact hrest other hother (heq ▸ List.mem_cons_self)
    · rintro ⟨⟨hnode, hdistinct⟩, hnew⟩
      refine ⟨if_neg (hnew node List.mem_cons_self), hdistinct, fun other hother h => ?_⟩
      rcases List.mem_cons.mp h with heq | h
      · exact hnode (heq ▸ List.mem_map_of_mem hother)
      · exact hnew other (List.mem_cons_of_mem _ hother) h

theorem connectionErrors_eq_nil {nodeIds : List String} {conn : WorkflowConnection} {i : Nat} :
    connectionErrors nodeIds conn i = [] ↔ conn.fromId ∈ nodeIds ∧ conn.toId ∈ nodeIds ∧ conn.fromId ≠ conn.toId := by
  unfold connectionErrors
  split_ifs with hfrom hto heq <;> simp_all

theorem structuralErrors_eq_nil : structuralErrors spec = [] ↔ spec.WellFormed := by
  have hversion : (if spec.version = 1 then ([] : List WorkflowSpecValidationError)
      else [⟨"version", s!"Unsupported spec version: {spec.version}. Only version 1 is currently supported."⟩]) = [] ↔
        spec.version = 1 := by split_ifs <;> simp_all
  unfold structuralErrors
  rw [List.append_eq_nil_iff, List.append_eq_nil_iff, duplicateErrors_eq_nil, List.flatMap_eq_nil_iff, hversion]
  constructor
  · rintro ⟨⟨⟨hdistinct, -⟩, hjoined⟩, hsupported⟩
    refine ⟨hdistinct, fun conn hconn => ?_, hsupported⟩
    obtain ⟨i, hi⟩ := List.mem_iff_getElem?.mp hconn
    exact connectionErrors_eq_nil.mp (hjoined (conn, i) (List.mk_mem_zipIdx_iff_getElem?.mpr hi))
  · rintro ⟨hdistinct, hjoined, hsupported⟩
    refine ⟨⟨⟨hdistinct, fun _ _ => List.not_mem_nil⟩, fun e he => ?_⟩, hsupported⟩
    exact connectionErrors_eq_nil.mpr (hjoined e.1 (List.fst_mem_of_mem_zipIdx he))

theorem parse_serialize {yaml : YamlLibrary} {issues : YamlValue → List WorkflowSpecValidationError}
    {indent : Option Nat} (h : spec.accepted = true)
    (hyaml : yaml.parse (serializeWorkflowSpec yaml spec indent) = .ok (specDocument spec)) :
    parseWorkflowSpec yaml issues (serializeWorkflowSpec yaml spec indent) =
      if (structuralErrors spec).isEmpty then .ok spec else .error (structuralErrors spec) := by
  unfold parseWorkflowSpec
  rw [hyaml]
  dsimp only
  unfold validateWorkflowSpec
  rw [schema_specDocument h]

/-- **Specs survive.** Where the YAML library parses back what it has written, a spec that the schema returns is parsed
back exactly when it is well-formed; and what is parsed back is written as the same text. -/
theorem parse_serialize_iff (yaml : YamlLibrary) (issues : YamlValue → List WorkflowSpecValidationError)
    (spec : WorkflowSpec) (indent : Option Nat) (haccepted : spec.accepted = true)
    (hyaml : yaml.parse (serializeWorkflowSpec yaml spec indent) = .ok (specDocument spec)) :
    (parseWorkflowSpec yaml issues (serializeWorkflowSpec yaml spec indent) = .ok spec ↔ spec.WellFormed) ∧
      ∀ spec', parseWorkflowSpec yaml issues (serializeWorkflowSpec yaml spec indent) = .ok spec' →
        serializeWorkflowSpec yaml spec' indent = serializeWorkflowSpec yaml spec indent := by
  rw [parse_serialize haccepted hyaml, ← structuralErrors_eq_nil]
  by_cases herrors : structuralErrors spec = []
  · rw [herrors]
    exact ⟨⟨fun _ => rfl, fun _ => rfl⟩, fun spec' h => by rw [Except.ok.inj h]⟩
  · rw [if_neg fun hempty => herrors (List.isEmpty_iff.mp hempty)]
    exact ⟨⟨nofun, fun h => absurd h herrors⟩, nofun⟩

def dailySpec (version : Nat) : WorkflowSpec :=
  ⟨"daily", version, [⟨"start", "Start", "nous.trigger.manual", (.ofNat 0, .ofNat 0), []⟩], []⟩

def dailyYaml (version : Nat) : YamlLibrary where
  stringify _ _ := s!"name: daily\nversion: {version}\nnodes:\n  - id: start\n    name: Start\n    " ++
    "type: nous.trigger.manual\n    position:\n      - 0\n      - 0\nconnections: []\n"
  parse _ := .ok (specDocument (dailySpec version))

theorem dailySpec_survives : parseWorkflowSpec (dailyYaml 1) (fun _ => [])
    (serializeWorkflowSpec (dailyYaml 1) (dailySpec 1) none) = .ok (dailySpec 1) :=
  (parse_serialize_iff (dailyYaml 1) (fun _ => []) (dailySpec 1) none (by decide +kernel) rfl).1.mpr
    (structuralErrors_eq_nil.mp rfl)

theorem second_version_lost : (dailySpec 2).accepted = true ∧
    (dailyYaml 2).parse (serializeWorkflowSpec (dailyYaml 2) (dailySpec 2) none) = .ok (specDocument (dailySpec 2)) ∧
      ∀ spec, parseWorkflowSpec (dailyYaml 2) (fun _ => []) (serializeWorkflowSpec (dailyYaml 2) (dailySpec 2) none) ≠
        .ok spec := by
  have haccepted : (dailySpec 2).accepted = true := by decide +kernel
  refine ⟨haccepted, rfl, fun spec => ?_⟩
  rw [parse_serialize haccepted rfl, if_neg (by decide +kernel)]
  exact nofun

end NousCore.Workflow

namespace NousCore.Workflow

/-! ## Specs in the workflow builder -/

def RESERVED_NODE_DATA_KEYS : List String := ["label", "category", "description", "nousType"]

/-- What a builder node holds; `rest` are the entries under other keys than the three. -/
structure WorkflowBuilderNodeData where
  label : String
  category : String
  nousType : String
  rest : List (String × YamlValue)

def WorkflowBuilderNodeData.entries (data : WorkflowBuilderNodeData) : List (String × YamlValue) :=
  [("label", .string data.label), ("category", .string data.category), ("nousType", .string data.nousType)] ++ data.rest

structure WorkflowBuilderNode where
  id : String
  type : String
  position : JsNumber × JsNumber
  data : WorkflowBuilderNodeData

structure WorkflowBuilderEdge where
  id : String
  source : String
  target : String
  type : String
  edgeType : String
  label : Option String

/-! ## The projections -/

def extractCategory (nousType : String) : String := ((nousType.splitOn ".")[1]?).getD "tool"

def ConnectionOutput.toLabel : ConnectionOutput → String
  | .bool b => if b then "true" else "false"
  | .string s => s

def inboundNode (specNode : WorkflowNode) : WorkflowBuilderNode where
  id := specNode.id
  type := "builderNode"
  position := specNode.position
  data :=
    { label := specNode.name
      category := extractCategory specNode.type
      nousType := specNode.type
      rest := specNode.parameters.filter (·.1 ∉ RESERVED_NODE_DATA_KEYS) }

def inboundEdge (conn : WorkflowConnection) : WorkflowBuilderEdge where
  id := s!"edge-{conn.fromId}-{conn.toId}"
  source := conn.fromId
  target := conn.toId
  type := "execution"
  edgeType := "execution"
  label := conn.output.map (·.toLabel)

def projectInbound (spec : WorkflowSpec) : List WorkflowBuilderNode × List WorkflowBuilderEdge :=
  (spec.nodes.map inboundNode, spec.connections.map inboundEdge)

def outboundNode (node : WorkflowBuilderNode) : WorkflowNode where
  id := node.id
  name := node.data.label
  type := node.data.nousType
  position := node.position
  parameters := node.data.entries.filter (·.1 ∉ RESERVED_NODE_DATA_KEYS)

def parseLabel (label : String) : ConnectionOutput :=
  if label = "true" then .bool true else if label = "false" then .bool false else .string label

def outboundEdge (edge : WorkflowBuilderEdge) : WorkflowConnection where
  fromId := edge.source
  toId := edge.target
  output := edge.label.map parseLabel

def projectOutbound (nodes : List WorkflowBuilderNode) (edges : List WorkflowBuilderEdge) (name : String)
    (version : Nat) : WorkflowSpec :=
  ⟨name, version, nodes.map outboundNode, edges.map outboundEdge⟩

/-! ## What comes back -/

theorem map_eq_self_iff {α : Type} {f : α → α} {l : List α} : l.map f = l ↔ ∀ x ∈ l, f x = x := by
  conv_lhs => rw [← List.map_id l, List.map_map]
  exact List.map_inj_left

theorem outboundNode_inboundNode (node : WorkflowNode) : outboundNode (inboundNode node) =
    { node with parameters := node.parameters.filter (·.1 ∉ RESERVED_NODE_DATA_KEYS) } := by
  simp [outboundNode, inboundNode, WorkflowBuilderNodeData.entries, List.filter_filter, RESERVED_NODE_DATA_KEYS]

theorem outboundNode_eq_iff {node : WorkflowNode} :
    outboundNode (inboundNode node) = node ↔ ∀ entry ∈ node.parameters, entry.1 ∉ RESERVED_NODE_DATA_KEYS := by
  have hself : ∀ entry : String × YamlValue,
      decide (entry.1 ∉ RESERVED_NODE_DATA_KEYS) = true ↔ entry.1 ∉ RESERVED_NODE_DATA_KEYS :=
    fun entry => decide_eq_true_iff
  rw [outboundNode_inboundNode]
  constructor
  · intro h entry hentry
    exact (hself entry).mp (List.filter_eq_self.mp (congrArg WorkflowNode.parameters h) entry hentry)
  · intro h
    rw [List.filter_eq_self.mpr fun entry hentry => (hself entry).mpr (h entry hentry)]

theorem parseLabel_toLabel_iff {output : ConnectionOutput} :
    parseLabel output.toLabel = output ↔ output ≠ .string "true" ∧ output ≠ .string "false" := by
  cases output with
  | bool b => cases b <;> simp [parseLabel, ConnectionOutput.toLabel]
  | string s =>
    simp only [parseLabel, ConnectionOutput.toLabel, ne_eq, ConnectionOutput.string.injEq]
    by_cases htrue : s = "true"
    · simp [htrue]
    · by_cases hfalse : s = "false" <;> simp [htrue, hfalse]

theorem outboundEdge_eq_iff {conn : WorkflowConnection} : outboundEdge (inboundEdge conn) = conn ↔
    conn.output ≠ some (.string "true") ∧ conn.output ≠ some (.string "false") := by
  obtain ⟨fromId, toId, output⟩ := conn
  cases output with
  | none => simp [outboundEdge, inboundEdge]
  | some output =>
    simp only [outboundEdge, inboundEdge, Option.map_some, WorkflowConnection.mk.injEq, true_and, ne_eq,
      Option.some.injEq]
    exact parseLabel_toLabel_iff

/-- **Saving a loaded spec.** It is preserved exactly when no parameter has the name of a reserved key and no output is
the string of a boolean. -/
theorem projectOutbound_projectInbound_iff (spec : WorkflowSpec) :
    projectOutbound (projectInbound spec).1 (projectInbound spec).2 spec.name spec.version = spec ↔
      (∀ node ∈ spec.nodes, ∀ entry ∈ node.parameters, entry.1 ∉ RESERVED_NODE_DATA_KEYS) ∧
        ∀ conn ∈ spec.connections, conn.output ≠ some (.string "true") ∧ conn.output ≠ some (.string "false") := by
  have hparts : projectOutbound (projectInbound spec).1 (projectInbound spec).2 spec.name spec.version = spec ↔
      (spec.nodes.map fun node => outboundNode (inboundNode node)) = spec.nodes ∧
        (spec.connections.map fun conn => outboundEdge (inboundEdge conn)) = spec.connections := by
    obtain ⟨name, version, nodes, connections⟩ := spec
    simp only [projectOutbound, projectInbound, List.map_map, Function.comp_def, WorkflowSpec.mk.injEq, true_and]
  rw [hparts, map_eq_self_iff, map_eq_self_iff]
  exact and_congr (forall₂_congr fun _ _ => outboundNode_eq_iff) (forall₂_congr fun _ _ => outboundEdge_eq_iff)

def labelledSpec : WorkflowSpec :=
  ⟨"review", 1, [⟨"check", "Check", "nous.governance.witness-checkpoint", (.ofNat 0, .ofNat 0),
    [("label", .string "before release")]⟩], []⟩

/-- The label of a checkpoint is lost, though the spec passes the validation. -/
theorem checkpoint_label_lost : ∃ input : YamlValue,
    validateWorkflowSpec (fun _ => []) input = .ok labelledSpec ∧
      projectOutbound (projectInbound labelledSpec).1 (projectInbound labelledSpec).2 labelledSpec.name
        labelledSpec.version ≠ labelledSpec := by
  refine ⟨specDocument labelledSpec, ?_, fun h => ?_⟩
  · unfold validateWorkflowSpec
    rw [schema_specDocument (by decide +kernel)]
    exact if_pos (by decide +kernel)
  · have hparameters := congrArg (fun spec : WorkflowSpec => spec.nodes.map fun node => node.parameters.length) h
    exact absurd hparameters (by decide +kernel)

end NousCore.Workflow
