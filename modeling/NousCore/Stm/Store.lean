import NousCore.Lib.Collection
import NousCore.Lib.Json
import NousCore.Lib.System

/-!
# Short-term memory

* `parseStmEntry` : what the schema of an entry checks;
* `buildContext` : the context of some entries and a summary, with its token count;
* `planCompaction` : which entries a compaction takes out of the context, and what it leaves;
* `append`, `compact` : the context is read, computed, and written back;
* `stmSystem` : any number of calls in progress.
-/

namespace NousCore.Stm

/-! ## Texts -/

/-- A text as its UTF-16 code units. -/
abbrev Text := List UInt16

/-- The code units of a text of the source, all of whose characters are ASCII. -/
def ascii (s : String) : Text := s.toList.map fun ch => UInt16.ofNat ch.toNat

inductive StmRole where
  | user | assistant | system | tool
  deriving DecidableEq

def StmRole.text : StmRole → String
  | .user => "user"
  | .assistant => "assistant"
  | .system => "system"
  | .tool => "tool"

def StmRole.ofText? : String → Option StmRole
  | "user" => some .user
  | "assistant" => some .assistant
  | "system" => some .system
  | "tool" => some .tool
  | _ => none

/-! ## Entries -/

/-- An entry as a caller gives it. -/
structure StmEntryInput where
  role : String
  content : Text
  timestamp : String
  metadata : Option Json

structure StmEntry where
  role : StmRole
  content : Text
  timestamp : String
  metadata : Option (List (String × Json))
  deriving DecidableEq

inductive StmError where
  | validation (message : String) (paths : List String)
  | store

/-- What is not in the repository: the date check of the schema library, and the hash of a content. -/
structure StmEnv where
  isDatetime : String → Bool
  sha256 : Text → String

def metadataOf : Option Json → Option (Option (List (String × Json)))
  | none => some none
  | some (.object entries) => some (some entries)
  | some _ => none

/-- The fields that the schema of an entry refuses. -/
def invalidPaths (env : StmEnv) (entry : StmEntryInput) : List String :=
  (if StmRole.ofText? entry.role = none then ["role"] else []) ++
    (if env.isDatetime entry.timestamp then [] else ["timestamp"]) ++
    (if metadataOf entry.metadata = none then ["metadata"] else [])

def parseStmEntry (env : StmEnv) (entry : StmEntryInput) : Except StmError StmEntry :=
  match StmRole.ofText? entry.role, env.isDatetime entry.timestamp, metadataOf entry.metadata with
  | some role, true, some metadata => .ok ⟨role, entry.content, entry.timestamp, metadata⟩
  | _, _, _ => .error (.validation "Invalid STM entry" (invalidPaths env entry))

/-! ## Contexts -/

structure StmCompactionPolicy where
  maxContextTokens : Nat
  targetContextTokens : Nat
  minEntriesBeforeCompaction : Nat
  retainedRecentEntries : Nat
  target_pos : 0 < targetContextTokens
  retained_pos : 0 < retainedRecentEntries
  target_lt_max : targetContextTokens < maxContextTokens
  retained_lt_min : retainedRecentEntries < minEntriesBeforeCompaction

def defaultStmCompactionPolicy : StmCompactionPolicy where
  maxContextTokens := 1024
  targetContextTokens := 640
  minEntriesBeforeCompaction := 8
  retainedRecentEntries := 4
  target_pos := by decide
  retained_pos := by decide
  target_lt_max := by decide
  retained_lt_min := by decide

inductive StmCompactionTrigger where
  | none | tokenThreshold | manual
  deriving DecidableEq

structure StmCompactionState where
  requiresCompaction : Bool
  trigger : StmCompactionTrigger
  currentTokenCount : Nat
  maxContextTokens : Nat
  targetContextTokens : Nat
  deriving DecidableEq

structure StmContext where
  entries : List StmEntry
  summary : Option Text
  tokenCount : Nat
  compactionState : Option StmCompactionState
  deriving DecidableEq

def estimateTokenCount (content : Text) : Nat := (content.length + 3) / 4

def sumEntryTokens (entries : List StmEntry) : Nat :=
  entries.foldl (fun total entry => total + estimateTokenCount entry.content) 0

def calculateContextTokenCount (entries : List StmEntry) (summary : Option Text) : Nat :=
  estimateTokenCount (summary.getD []) + sumEntryTokens entries

/-- An empty summary is none. -/
def normalizeSummary (summary : Option Text) : Option Text := summary.filter (· ≠ [])

def buildContext (policy : StmCompactionPolicy) (entries : List StmEntry) (summary : Option Text) : StmContext :=
  let summary := normalizeSummary summary
  let tokenCount := calculateContextTokenCount entries summary
  let requiresCompaction := policy.maxContextTokens < tokenCount ∧ policy.minEntriesBeforeCompaction ≤ entries.length
  { entries
    summary
    tokenCount
    compactionState := some
      { requiresCompaction
        trigger := if requiresCompaction then .tokenThreshold else .none
        currentTokenCount := tokenCount
        maxContextTokens := policy.maxContextTokens
        targetContextTokens := policy.targetContextTokens } }

@[simp] theorem buildContext_entries (policy : StmCompactionPolicy) (entries : List StmEntry) (summary : Option Text) :
    (buildContext policy entries summary).entries = entries := rfl

/-- The document of a project: one that the schema accepts, or another. -/
inductive StmDocument where
  | context (context : StmContext)
  | malformed
  deriving DecidableEq

/-- What is made of the stored document; a missing or a malformed one is an empty context. -/
def readContext (policy : StmCompactionPolicy) : Option StmDocument → StmContext
  | some (.context context) => buildContext policy context.entries context.summary
  | some .malformed | none => buildContext policy [] none

/-! ## Compaction -/

structure StmCompactionSourceRef where
  timestamp : String
  role : StmRole
  contentHash : String

/-- The reference to an entry that a summary lists. -/
def StmEntry.ref (env : StmEnv) (entry : StmEntry) : StmCompactionSourceRef :=
  ⟨entry.timestamp, entry.role, env.sha256 entry.content⟩

/-- A summary before it has an id and a time. -/
structure StmCompactionSummaryDraft where
  summary : Text
  sourceEntryRefs : List StmCompactionSourceRef
  sourceEntryCount : Nat
  trigger : StmCompactionTrigger
  preCompactionTokenCount : Nat
  postCompactionTokenCount : Nat
  retainedEntryCount : Nat

structure StmCompactionSummary extends StmCompactionSummaryDraft where
  id : String
  generatedAt : String

def summaryKey (summary : StmCompactionSummary) : String := summary.id

def mergeSummaries (existingSummary : Option Text) (nextSummary : Text) : Text :=
  match existingSummary.filter (· ≠ []) with
  | none => nextSummary
  | some existing => if nextSummary = [] then existing else existing ++ ascii "\n\n" ++ nextSummary

/-- The end of a summary that fits into the budget. -/
def trimSummaryToBudget (summary : Text) (tokenBudget : Nat) : Option Text :=
  if summary = [] ∨ tokenBudget = 0 then none
  else
    let maxChars := tokenBudget * 4
    if summary.length ≤ maxChars then some summary else some (summary.drop (summary.length - maxChars))

def rawSummaryText (entries : List StmEntry) : Text :=
  (ascii "\n").intercalate (entries.map fun entry => ascii entry.role.text ++ ascii ": " ++ entry.content)

structure Compaction where
  compactedEntries : List StmEntry
  retainedEntries : List StmEntry
  draft : StmCompactionSummaryDraft
  updated : StmContext

def planCompaction (env : StmEnv) (policy : StmCompactionPolicy) (context : StmContext) : Option Compaction :=
  if context.entries.length < policy.minEntriesBeforeCompaction then none
  else
    let kept := context.entries.length - policy.retainedRecentEntries
    let retainedEntries := context.entries.drop kept
    let compactedEntries := context.entries.take kept
    if compactedEntries = [] then none
    else
      let summaryBudgetTokens := policy.targetContextTokens - sumEntryTokens retainedEntries
      let text := rawSummaryText compactedEntries
      let storedSummary := trimSummaryToBudget text summaryBudgetTokens
      let mergedSummary := trimSummaryToBudget (mergeSummaries context.summary text) summaryBudgetTokens
      let updated := buildContext policy retainedEntries mergedSummary
      some
        { compactedEntries
          retainedEntries
          draft :=
            { summary := storedSummary.getD []
              sourceEntryRefs := compactedEntries.map (StmEntry.ref env)
              sourceEntryCount := compactedEntries.length
              trigger := if context.compactionState.any (·.requiresCompaction) then .tokenThreshold else .manual
              preCompactionTokenCount := context.tokenCount
              postCompactionTokenCount := updated.tokenCount
              retainedEntryCount := retainedEntries.length }
          updated }

theorem planCompaction_spec {env : StmEnv} {policy : StmCompactionPolicy} {context : StmContext} {plan : Compaction}
    (h : planCompaction env policy context = some plan) :
    context.entries = plan.compactedEntries ++ plan.updated.entries ∧
      plan.draft.sourceEntryRefs = plan.compactedEntries.map (StmEntry.ref env) := by
  obtain ⟨-, h⟩ := Option.ite_none_left_eq_some.mp h
  obtain ⟨-, h⟩ := Option.ite_none_left_eq_some.mp h
  cases h
  exact ⟨(List.take_append_drop _ _).symm, rfl⟩


open Async

/-! ## The store of one project -/

structure StmState where
  document : Option StmDocument
  summaries : Collection summaryKey

def StmState.empty : StmState := ⟨none, .empty⟩

inductive StmOp where
  | getContext
  | putSummary (draft : StmCompactionSummaryDraft)
  | putContext (context : StmContext)

@[reducible] def StmOp.Answer : StmOp → Type
  | .getContext => Except StmError (Option StmDocument)
  | .putSummary _ | .putContext _ => Except StmError Unit

/-- The store may reject an operation; a summary has an id that no summary has, and the time. -/
structure StmChoice where
  rejects : Bool
  id : String
  generatedAt : String

def newSummary (draft : StmCompactionSummaryDraft) (x : StmChoice) : StmCompactionSummary :=
  { draft with
    id := x.id
    generatedAt := x.generatedAt }

def stmAnswers : Answers StmOp.Answer StmChoice StmState
  | .getContext, x, s => some (if x.rejects then .error .store else .ok s.document, s)
  | .putSummary draft, x, s =>
    if x.rejects then some (.error .store, s)
    else if (s.summaries.find? x.id).isSome then none
    else some (.ok (), { s with summaries := s.summaries.put (newSummary draft x) })
  | .putContext context, x, s =>
    if x.rejects then some (.error .store, s) else some (.ok (), { s with document := some (.context context) })

/-! ## Calls -/

abbrev StmCall := Async StmOp.Answer StmError

section Calls

variable (env : StmEnv) (policy : StmCompactionPolicy)

def getContext : StmCall StmContext := do
  let answer ← perform StmOp.getContext
  let raw ← unwrap answer
  return readContext policy raw

def append (entry : StmEntryInput) : StmCall Unit := do
  let validated ← unwrap (parseStmEntry env entry)
  let context ← getContext policy
  let updated := buildContext policy (context.entries ++ [validated]) context.summary
  let answer ← perform (StmOp.putContext updated)
  unwrap answer

def compact : StmCall Unit := do
  let context ← getContext policy
  match planCompaction env policy context with
  | none => return ()
  | some plan =>
    let answer ← perform (StmOp.putSummary plan.draft)
    unwrap answer
    let answer ← perform (StmOp.putContext plan.updated)
    unwrap answer

inductive StmTask where
  | append (entry : StmEntryInput)
  | compact

def StmTask.body : StmTask → StmCall Unit
  | .append entry => Stm.append env policy entry
  | .compact => Stm.compact env policy

def stmSystem : System StmTask StmOp.Answer StmChoice StmState StmError Unit where
  body := StmTask.body env policy
  answers := stmAnswers
  spawned := fun _ => []
  exclusive := fun _ => false

end Calls

abbrev StmConfig := Config StmTask StmOp.Answer StmState StmError Unit

abbrev StmLabel := Label StmTask StmChoice

abbrev StmThread := Thread StmTask StmOp.Answer StmError Unit

/-! ## What a call asks for, operation by operation -/

section Shape

variable (env : StmEnv) (policy : StmCompactionPolicy)

theorem getContext_bind {α : Type} (f : StmContext → StmCall α) : getContext policy >>= f =
    .call StmOp.getContext fun answer => unwrap answer >>= fun raw => f (readContext policy raw) := by
  unfold getContext
  simp only [perform_bind, call_bind, bind_assoc', pure_bind']

/-- The write of an append. -/
def putEntry (entry : StmEntry) (context : StmContext) : StmCall Unit :=
  .call (.putContext (buildContext policy (context.entries ++ [entry]) context.summary)) fun answer => unwrap answer

/-- The second write of a compaction. -/
def putRetained (plan : Compaction) : StmCall Unit := .call (.putContext plan.updated) fun answer => unwrap answer

def putCompaction (plan : Compaction) : StmCall Unit :=
  .call (.putSummary plan.draft) fun answer => unwrap answer >>= fun _ => putRetained plan

theorem append_of_parsed {input : StmEntryInput} {entry : StmEntry} (h : parseStmEntry env input = .ok entry) :
    append env policy input = .call StmOp.getContext fun answer =>
      unwrap answer >>= fun raw => putEntry policy entry (readContext policy raw) := by
  unfold append
  rw [h]
  exact getContext_bind policy _

theorem append_of_refused {input : StmEntryInput} {e : StmError} (h : parseStmEntry env input = .error e) :
    append env policy input = .throw e := by
  unfold append
  rw [h]
  rfl

theorem compact_eq : compact env policy = .call StmOp.getContext fun answer => unwrap answer >>= fun raw =>
    (planCompaction env policy (readContext policy raw)).elim (.pure ()) putCompaction := by
  unfold compact
  rw [getContext_bind]
  congr 1
  funext answer
  congr 1
  funext raw
  cases planCompaction env policy (readContext policy raw) <;> rfl

end Shape

end NousCore.Stm
