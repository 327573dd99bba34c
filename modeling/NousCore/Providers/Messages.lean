import NousCore.Agent.Types
import NousCore.Memory.Types
import Mathlib.Data.List.Chain

/-!
# Messages for the provider

* `formatMessages` : the messages of a context, those of one role in a row merged into one;
* `formatMessages_spec` : the messages alternate, carry every frame, and keep calls and results together.
-/

namespace NousCore.Providers

open Agent (GatewayContextRole)

/-! ## Messages -/

/-- An entry of `metadata.tool_calls`; an input that is null counts as none. -/
structure MetadataToolCall where
  id : Option String
  name : String
  input : Option Json

/-- What is read of a frame; the metadata have the types that the source casts them to. -/
structure ContextFrame where
  role : GatewayContextRole
  content : String
  toolCallId : Option String
  toolCalls : Option (List MetadataToolCall)

inductive MessageRole where
  | user | assistant
  deriving DecidableEq

inductive ContentBlock where
  | text (text : String)
  | toolUse (id name : String) (input : Json)
  | toolResult (toolUseId content : String)

inductive MessageContent where
  | text (text : String)
  | blocks (blocks : List ContentBlock)

structure AnthropicMessage where
  role : MessageRole
  content : MessageContent

/-- `Array.isArray(content) ? content : [{ type: 'text', text: content }]` -/
def AnthropicMessage.blocks (msg : AnthropicMessage) : List ContentBlock :=
  match msg.content with
  | .text text => [.text text]
  | .blocks blocks => blocks

/-- `!content.trim()` -/
def isBlank (content : String) : Bool := content.toList.all Memory.isJsSpace

def given (id : Option String) : Option String := id.filter (· ≠ "")

def MetadataToolCall.block (call : MetadataToolCall) : Option ContentBlock :=
  (given call.id).map fun id => .toolUse id call.name (call.input.getD (.object []))

def messageRole : GatewayContextRole → MessageRole
  | .assistant => .assistant
  | .tool | .system | .user => .user

namespace ContextFrame

variable (frame : ContextFrame)

/-- `contentBlocks` -/
def contentBlocks (toolCalls : List MetadataToolCall) : List ContentBlock :=
  (if isBlank frame.content then [] else [.text frame.content]) ++ toolCalls.filterMap (·.block)

/-- The element of `raw` for the frame. -/
def raw : AnthropicMessage :=
  match frame.role, given frame.toolCallId, frame.toolCalls with
  | .tool, some id, _ => ⟨.user, .blocks [.toolResult id frame.content]⟩
  | .assistant, _, some toolCalls =>
    if 0 < (frame.contentBlocks toolCalls).length then ⟨.assistant, .blocks (frame.contentBlocks toolCalls)⟩
    else ⟨.assistant, .text frame.content⟩
  | role, _, _ => ⟨messageRole role, .text frame.content⟩

end ContextFrame

/-- The messages so far, the last one first. -/
def mergeInto (merged : List AnthropicMessage) (msg : AnthropicMessage) : List AnthropicMessage :=
  match merged with
  | [] => [msg]
  | prev :: rest =>
    if prev.role = msg.role then ⟨prev.role, .blocks (prev.blocks ++ msg.blocks)⟩ :: rest else msg :: prev :: rest

def formatMessages (context : List ContextFrame) : List AnthropicMessage :=
  ((context.map (·.raw)).foldl mergeInto []).reverse

/-! ## What is asked of the messages -/

namespace ContextFrame

variable (frame : ContextFrame)

def callIds : List String := (frame.toolCalls.getD []).filterMap (given ·.id)

/-- The result of a tool call; else the content, unless it is blank, and the tool calls that have an id. -/
def carries : List ContentBlock :=
  match frame.role, given frame.toolCallId with
  | .tool, some id => [.toolResult id frame.content]
  | .assistant, _ => frame.contentBlocks (frame.toolCalls.getD [])
  | _, _ => frame.contentBlocks []

/-- The calls of the last assistant frame, after this one. -/
def callsAfter (ids : List String) : List String :=
  match frame.role with
  | .assistant => frame.callIds
  | _ => ids

end ContextFrame

/-- Every result of a tool call comes after an assistant frame with the call, and no other assistant frame is in
between; `ids` are the calls of the last one before the frames. -/
def Answered : List String → List ContextFrame → Prop
  | _, [] => True
  | ids, frame :: rest =>
    (frame.role = .tool → ∀ id ∈ given frame.toolCallId, id ∈ ids) ∧ Answered (frame.callsAfter ids) rest

/-- Not a text that is blank. -/
def ContentBlock.counts : ContentBlock → Bool
  | .text content => !isBlank content
  | _ => true

namespace AnthropicMessage

def Uses (msg : AnthropicMessage) (id : String) : Prop := ∃ name input, .toolUse id name input ∈ msg.blocks

/-- Results are those of calls of the assistant message right before. -/
def Paired (before : Option AnthropicMessage) (msg : AnthropicMessage) : Prop :=
  ∀ id content, .toolResult id content ∈ msg.blocks →
    msg.role = .user ∧ ∃ prev ∈ before, prev.role = .assistant ∧ prev.Uses id

/-- What is left empty is one frame, with nothing to carry. -/
def Filled (context : List ContextFrame) (msg : AnthropicMessage) : Prop :=
  msg.blocks ≠ [] ∧ (msg.content = .text "" → ∃ frame ∈ context, msg = frame.raw ∧ frame.carries = [])

end AnthropicMessage

/-- **Well-formed messages** of a context. -/
structure WellFormedMessages (context : List ContextFrame) (messages : List AnthropicMessage) : Prop where
  alternate : messages.IsChain fun msg next => next.role ≠ msg.role
  carried : (messages.flatMap (·.blocks)).filter (·.counts) = context.flatMap (·.carries)
  paired : ∀ before msg after, messages = before ++ msg :: after → msg.Paired before.getLast?
  filled : ∀ msg ∈ messages, msg.Filled context

/-! ## One frame -/

namespace ContextFrame

variable (frame : ContextFrame)

/-- A frame is a result, an assistant frame with blocks, or its content; then no call of it has an id. -/
theorem raw_cases :
    (∃ id, frame.role = .tool ∧ given frame.toolCallId = some id ∧
      frame.raw = ⟨.user, .blocks [.toolResult id frame.content]⟩ ∧ frame.carries = [.toolResult id frame.content]) ∨
    (∃ toolCalls, frame.role = .assistant ∧ frame.toolCalls = some toolCalls ∧ frame.contentBlocks toolCalls ≠ [] ∧
      frame.raw = ⟨.assistant, .blocks (frame.contentBlocks toolCalls)⟩ ∧
      frame.carries = frame.contentBlocks toolCalls) ∨
    ((frame.role = .assistant → frame.callIds = []) ∧ frame.raw = ⟨messageRole frame.role, .text frame.content⟩ ∧
      frame.carries = frame.contentBlocks []) := by
  obtain ⟨role, content, toolCallId, toolCalls⟩ := frame
  cases role with
  | system | user => exact .inr (.inr ⟨nofun, rfl, rfl⟩)
  | tool =>
    cases hid : given toolCallId with
    | none => exact .inr (.inr ⟨nofun, by simp only [raw, hid], by simp only [carries, hid]⟩)
    | some id => exact .inl ⟨id, rfl, rfl, by simp only [raw, hid], by simp only [carries, hid]⟩
  | assistant =>
    cases toolCalls with
    | none => exact .inr (.inr ⟨fun _ => rfl, rfl, rfl⟩)
    | some toolCalls =>
      by_cases hblocks : contentBlocks ⟨.assistant, content, toolCallId, some toolCalls⟩ toolCalls = []
      · refine .inr (.inr ⟨fun _ => ?_, by simp only [raw, hblocks]; rfl, ?_⟩)
        · have hcalls := (List.append_eq_nil_iff.mp hblocks).2
          simp only [List.filterMap_eq_nil_iff, MetadataToolCall.block, Option.map_eq_none_iff] at hcalls
          exact List.filterMap_eq_nil_iff.mpr hcalls
        · have hcalls := (List.append_eq_nil_iff.mp hblocks).2
          have htext := (List.append_eq_nil_iff.mp hblocks).1
          show contentBlocks _ _ = _
          rw [Option.getD_some, hblocks, contentBlocks, htext]
          rfl
      · exact .inr (.inl ⟨toolCalls, rfl, rfl, hblocks,
          by simp only [raw, List.length_pos_iff.mpr hblocks, if_true], rfl⟩)

theorem raw_role : frame.raw.role = messageRole frame.role := by
  obtain ⟨id, hrole, -, hraw, -⟩ | ⟨toolCalls, hrole, -, -, hraw, -⟩ | ⟨-, hraw, -⟩ := frame.raw_cases <;> rw [hraw]
  · rw [hrole]; rfl
  · rw [hrole]; rfl

theorem filter_contentBlocks (toolCalls : List MetadataToolCall) :
    (frame.contentBlocks toolCalls).filter (·.counts) = frame.contentBlocks toolCalls := by
  refine List.filter_eq_self.mpr fun block hblock => ?_
  obtain htext | hcall := List.mem_append.mp hblock
  · split_ifs at htext with hblank
    · cases htext
    · cases List.mem_singleton.mp htext
      simpa [ContentBlock.counts] using hblank
  · obtain ⟨call, -, hcall⟩ := List.mem_filterMap.mp hcall
    obtain ⟨id, -, rfl⟩ := Option.map_eq_some_iff.mp hcall
    rfl

theorem raw_carries : frame.raw.blocks.filter (·.counts) = frame.carries := by
  obtain ⟨id, -, -, hraw, hcarries⟩ | ⟨toolCalls, -, -, -, hraw, hcarries⟩ | ⟨-, hraw, hcarries⟩ := frame.raw_cases <;>
    rw [hraw, hcarries]
  · rfl
  · exact filter_contentBlocks _ _
  · by_cases hblank : isBlank frame.content = true <;>
      simp [AnthropicMessage.blocks, contentBlocks, ContentBlock.counts, hblank]

theorem raw_filled {context : List ContextFrame} (h : frame ∈ context) : frame.raw.Filled context := by
  obtain ⟨id, -, -, hraw, -⟩ | ⟨toolCalls, -, -, hblocks, hraw, -⟩ | ⟨-, hraw, hcarries⟩ := frame.raw_cases
  · rw [hraw]; exact ⟨List.cons_ne_nil _ _, nofun⟩
  · rw [hraw]; exact ⟨hblocks, nofun⟩
  · refine ⟨by rw [hraw]; exact List.cons_ne_nil _ _, fun hempty => ⟨frame, h, rfl, ?_⟩⟩
    rw [hraw] at hempty
    rw [hcarries, contentBlocks, MessageContent.text.inj hempty]
    rfl

/-- A block that is a result comes from the result of a tool call. -/
theorem of_result {id content : String} (h : .toolResult id content ∈ frame.raw.blocks) :
    frame.role = .tool ∧ id ∈ given frame.toolCallId := by
  obtain ⟨id', hrole, hid, hraw, -⟩ | ⟨toolCalls, -, -, -, hraw, -⟩ | ⟨-, hraw, -⟩ := frame.raw_cases <;> rw [hraw] at h
  · cases List.mem_singleton.mp h
    exact ⟨hrole, hid⟩
  · obtain htext | hcall := List.mem_append.mp h
    · split_ifs at htext
      · cases htext
      · cases List.mem_singleton.mp htext
    · obtain ⟨call, -, hcall⟩ := List.mem_filterMap.mp hcall
      obtain ⟨_, -, heq⟩ := Option.map_eq_some_iff.mp hcall
      cases heq
  · cases List.mem_singleton.mp h

theorem raw_uses (hrole : frame.role = .assistant) {id : String} (h : id ∈ frame.callIds) : frame.raw.Uses id := by
  obtain ⟨_, htool, -⟩ | ⟨toolCalls, -, htoolCalls, -, hraw, -⟩ | ⟨hnone, -⟩ := frame.raw_cases
  · rw [hrole] at htool; cases htool
  · rw [callIds, htoolCalls] at h
    obtain ⟨call, hcall, hid⟩ := List.mem_filterMap.mp h
    refine ⟨call.name, call.input.getD (.object []), ?_⟩
    rw [hraw]
    exact List.mem_append_right _ (List.mem_filterMap.mpr ⟨call, hcall, by rw [MetadataToolCall.block, hid]; rfl⟩)
  · rw [hnone hrole] at h; cases h

end ContextFrame

/-! ## All frames -/

/-- The messages after the frames, the last one first; `ids` are the calls of the last assistant frame. -/
structure Formatted (done : List ContextFrame) (ids : List String) (merged : List AnthropicMessage) : Prop where
  alternate : merged.IsChain fun next msg => next.role ≠ msg.role
  carried : (merged.reverse.flatMap (·.blocks)).filter (·.counts) = done.flatMap (·.carries)
  paired : ∀ after msg before, merged = after ++ msg :: before → msg.Paired before.head?
  filled : ∀ msg ∈ merged, msg.Filled done
  calls : ∀ id ∈ ids, ∃ msg ∈ merged.find? (·.role = .assistant), msg.Uses id

variable {done : List ContextFrame} {ids ids' : List String} {merged : List AnthropicMessage} {frame : ContextFrame}
  {msg : AnthropicMessage}

theorem messageRole_eq_assistant (role : GatewayContextRole) : messageRole role = .assistant ↔ role = .assistant := by
  cases role <;> simp [messageRole]

/-- Right before a user message, the last assistant message is the last message. -/
theorem find?_eq_head? (h : ∀ prev ∈ merged.head?, prev.role ≠ .user) :
    merged.find? (·.role = .assistant) = merged.head? := by
  cases merged with
  | nil => rfl
  | cons prev rest =>
    cases hprev : prev.role with
    | user => exact absurd hprev (h prev rfl)
    | assistant => exact List.find?_cons_of_pos (by simp [hprev])

namespace Formatted

/-- The calls that can be answered are those of the last assistant message. -/
theorem paired_raw (h : Formatted done ids merged)
    (hanswered : frame.role = .tool → ∀ id ∈ given frame.toolCallId, id ∈ ids) :
    frame.raw.Paired (merged.find? (·.role = .assistant)) := by
  intro id content hresult
  obtain ⟨htool, hid⟩ := frame.of_result hresult
  obtain ⟨msg, hmsg, huses⟩ := h.calls id (hanswered htool id hid)
  refine ⟨by rw [frame.raw_role, htool]; rfl, msg, hmsg, ?_, huses⟩
  simpa using List.find?_some hmsg

theorem filled_snoc (h : Formatted done ids merged) (hmsg : msg ∈ merged) : msg.Filled (done ++ [frame]) :=
  ⟨(h.filled msg hmsg).1, fun hempty =>
    ((h.filled msg hmsg).2 hempty).imp fun _ hf => ⟨List.mem_append_left _ hf.1, hf.2⟩⟩

/-- The calls after the frame, when its message is the last one, or a part of it. -/
theorem calls_snoc {rest : List AnthropicMessage} (h : Formatted done ids merged)
    (hrole : msg.role = frame.raw.role) (huses : ∀ id, frame.raw.Uses id → msg.Uses id)
    (hrest : msg.role = .user → rest.find? (·.role = .assistant) = merged.find? (·.role = .assistant)) :
    ∀ id ∈ frame.callsAfter ids,
      ∃ prev ∈ (msg :: rest).find? (·.role = .assistant), prev.Uses id := by
  intro id hid
  cases hmsg : msg.role with
  | assistant =>
    have hframe := (messageRole_eq_assistant _).mp (frame.raw_role.symm.trans (hrole.symm.trans hmsg))
    rw [ContextFrame.callsAfter, hframe] at hid
    exact ⟨msg, List.find?_cons_of_pos (by simp [hmsg]), huses id (frame.raw_uses hframe hid)⟩
  | user =>
    have hframe : frame.role ≠ .assistant := fun heq => by
      rw [frame.raw_role, heq, hmsg] at hrole; cases hrole
    rw [List.find?_cons_of_neg (by simp [hmsg]), hrest hmsg]
    refine h.calls id ?_
    unfold ContextFrame.callsAfter at hid
    split at hid
    · exact absurd ‹_› hframe
    · exact hid

theorem push (h : Formatted done ids merged) (hpaired : frame.raw.Paired (merged.find? (·.role = .assistant)))
    (hrole : ∀ prev ∈ merged.head?, frame.raw.role ≠ prev.role) :
    Formatted (done ++ [frame]) (frame.callsAfter ids)
      (frame.raw :: merged) := by
  refine ⟨List.isChain_cons.mpr ⟨hrole, h.alternate⟩, ?_, fun after msg before heq => ?_, fun msg hmsg => ?_,
    h.calls_snoc rfl (fun _ huses => huses) fun _ => rfl⟩
  · rw [List.reverse_cons, List.flatMap_append, List.filter_append, h.carried, List.flatMap_append,
      List.flatMap_singleton, List.flatMap_singleton, frame.raw_carries]
  · cases after with
    | cons _ after => exact h.paired after msg before (List.cons.inj heq).2
    | nil =>
      obtain ⟨rfl, rfl⟩ := List.cons.inj heq
      intro id content hresult
      have huser := (hpaired id content hresult).1
      rw [← find?_eq_head? fun prev hprev huser' => hrole prev hprev (huser.trans huser'.symm)]
      exact hpaired id content hresult
  · obtain rfl | hmsg := List.mem_cons.mp hmsg
    · exact frame.raw_filled (List.mem_append_right _ (List.mem_singleton.mpr rfl))
    · exact h.filled_snoc hmsg

theorem merge {prev : AnthropicMessage} {rest : List AnthropicMessage} (h : Formatted done ids (prev :: rest))
    (hpaired : frame.raw.Paired ((prev :: rest).find? (·.role = .assistant))) (hrole : prev.role = frame.raw.role) :
    Formatted (done ++ [frame]) (frame.callsAfter ids)
      (⟨prev.role, .blocks (prev.blocks ++ frame.raw.blocks)⟩ :: rest) := by
  obtain ⟨halternate, hchain⟩ := List.isChain_cons.mp h.alternate
  have hfind : prev.role = .user → rest.find? (·.role = .assistant) = (prev :: rest).find? (·.role = .assistant) :=
    fun huser => (List.find?_cons_of_neg (by simp [huser])).symm
  refine ⟨List.isChain_cons.mpr ⟨halternate, hchain⟩, ?_, fun after msg before heq => ?_, fun msg hmsg => ?_,
    h.calls_snoc hrole (fun _ ⟨name, input, huses⟩ => ⟨name, input, List.mem_append_right _ huses⟩) hfind⟩
  · have hcarried := h.carried
    rw [List.reverse_cons, List.flatMap_append, List.flatMap_singleton] at hcarried ⊢
    rw [List.flatMap_append, List.flatMap_singleton, ← hcarried, ← frame.raw_carries, ← List.filter_append,
      List.append_assoc]
    rfl
  · cases after with
    | cons _ after => exact h.paired (prev :: after) msg before (congrArg _ (List.cons.inj heq).2)
    | nil =>
      obtain ⟨rfl, rfl⟩ := List.cons.inj heq
      intro id content hresult
      obtain hresult | hresult := List.mem_append.mp hresult
      · exact h.paired [] prev rest rfl id content hresult
      · have huser := hrole.trans (hpaired id content hresult).1
        refine ⟨huser, ?_⟩
        rw [← find?_eq_head? fun next hnext huser' => halternate next hnext (huser.trans huser'.symm), hfind huser]
        exact (hpaired id content hresult).2
  · obtain rfl | hmsg := List.mem_cons.mp hmsg
    · exact ⟨List.append_ne_nil_of_left_ne_nil (h.filled prev (List.mem_cons_self ..)).1 _, nofun⟩
    · exact h.filled_snoc (List.mem_cons_of_mem _ hmsg)

theorem step (h : Formatted done ids merged)
    (hanswered : frame.role = .tool → ∀ id ∈ given frame.toolCallId, id ∈ ids) :
    Formatted (done ++ [frame]) (frame.callsAfter ids)
      (mergeInto merged frame.raw) := by
  cases merged with
  | nil => exact h.push (h.paired_raw hanswered) nofun
  | cons prev rest =>
    by_cases hrole : prev.role = frame.raw.role
    · rw [mergeInto, if_pos hrole]
      exact h.merge (h.paired_raw hanswered) hrole
    · rw [mergeInto, if_neg hrole]
      refine h.push (h.paired_raw hanswered) fun prev' hprev heq => hrole ?_
      cases Option.mem_some_iff.mp hprev
      exact heq.symm

end Formatted

theorem formatted_of_answered : ∀ {context done : List ContextFrame} {ids : List String}
    {merged : List AnthropicMessage}, Formatted done ids merged → Answered ids context →
    ∃ ids, Formatted (done ++ context) ids ((context.map (·.raw)).foldl mergeInto merged)
  | [], done, ids, merged, h, _ => ⟨ids, by rw [List.append_nil]; exact h⟩
  | frame :: rest, done, ids, merged, h, hanswered => by
    obtain ⟨ids', hrest⟩ := formatted_of_answered (h.step hanswered.1) hanswered.2
    rw [List.append_assoc] at hrest
    exact ⟨ids', hrest⟩

/-- **Well-formed messages.** Where results follow their calls, the messages alternate and carry everything but the
calls without an id, results come right after their calls, and only a frame with nothing to carry is left empty. -/
theorem formatMessages_spec {context : List ContextFrame} (h : Answered [] context) :
    WellFormedMessages context (formatMessages context) := by
  obtain ⟨ids, hformatted⟩ := @formatted_of_answered context [] [] []
    ⟨.nil, rfl, fun after msg before heq => by simp at heq, nofun, nofun⟩ h
  refine ⟨List.isChain_reverse.mpr hformatted.alternate, hformatted.carried, fun before msg after heq => ?_,
    fun msg hmsg => hformatted.filled msg (List.mem_reverse.mp hmsg)⟩
  have hpaired := hformatted.paired after.reverse msg before.reverse
    (by rw [← List.reverse_reverse (List.foldl _ _ _)]; exact (congrArg List.reverse heq).trans (by simp))
  rwa [List.head?_reverse] at hpaired

theorem formatMessages_answered_call :
    let context : List ContextFrame := [⟨.assistant, "", none, some [⟨some "a", "f", none⟩]⟩, ⟨.tool, "1", some "a", none⟩]
    Answered [] context ∧ WellFormedMessages context (formatMessages context) := by
  intro context
  have h : Answered [] context :=
    ⟨nofun, fun _ _ hid => Option.mem_some_iff.mp hid ▸ List.mem_singleton.mpr rfl, trivial⟩
  exact ⟨h, formatMessages_spec h⟩

/-- A call without an id is dropped, and a frame without content is a message without content. -/
theorem formatMessages_leaves_out :
    let unnamed : List ContextFrame := [⟨.assistant, "x", none, some [⟨none, "f", none⟩]⟩]
    let blank : List ContextFrame := [⟨.user, "", none, none⟩]
    Answered [] unnamed ∧ formatMessages unnamed = [⟨.assistant, .blocks [.text "x"]⟩] ∧
      Answered [] blank ∧ formatMessages blank = [⟨.user, .text ""⟩] :=
  ⟨⟨nofun, trivial⟩, rfl, ⟨nofun, trivial⟩, rfl⟩

end NousCore.Providers
