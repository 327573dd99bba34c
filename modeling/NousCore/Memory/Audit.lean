import NousCore.Lib.HashChain
import NousCore.Lib.Interpret
import NousCore.Memory.Write

/-!
# The audit of the long-term memory

* `AuditOp`, `auditAnswers` : the operations of the runtime, with an audit record numbered and put in two steps;
* `appendInSteps`, `auditSystem` : `appendAuditRecord`, and any number of writes and mutations in progress;
* `Quiet`, `AuditedOnce` : what appends no record, and a call that has appended one exactly when it returns.
-/

namespace NousCore.Memory

open Async NousCore.System

/-! ## Appending in two steps -/

/-- An audit record is not appended in one step: the store is queried, and then a record is put. -/
inductive AuditOp where
  | other (o : WriteOp)
  | queryAudit
  | putAudit (record : MemoryMutationAuditRecord)

@[reducible] def AuditOp.Answer : AuditOp → Type
  | .other o => o.Answer
  | .queryAudit => Except String (List MemoryMutationAuditRecord)
  | .putAudit _ => Except String Unit

def auditAnswers : Answers AuditOp.Answer WriteEnv LtmState
  | .other (.ltm (.appendAuditRecord _)), _, _ => none
  | .other o, env, s => writeAnswers o env s
  | .queryAudit, env, s =>
    match env.ltm.rejected with
    | some message => some (.error message, s)
    | none => some (.ok s.audit, s)
  | .putAudit record, env, s =>
    match env.ltm.rejected with
    | some message => some (.error message, s)
    | none => some (.ok (), { s with audit := putAudit s.audit record })

abbrev AuditCall := Async AuditOp.Answer String

def appendInSteps (record : AppendAuditRecordInput) : AuditCall (Except String Unit) := do
  match ← perform AuditOp.queryAudit with
  | .error message => return .error message
  | .ok records => perform (AuditOp.putAudit (record.numbered (nextAuditSequence records)))

def inSteps : (o : WriteOp) → AuditCall o.Answer
  | .ltm (.appendAuditRecord record) => appendInSteps record
  | o => perform (AuditOp.other o)

inductive AuditTask where
  | write (policy : Option GovernedTypedLtmPolicyOptions) (input : GovernedTypedLtmWriteInput)
  | mutate (request : MemoryMutationRequest) (projectId : Option String)

def AuditTask.call (runtime : LtmRuntime) : AuditTask → WriteCall GovernedTypedLtmMutationResult
  | .write policy input => do
    let written ← writeGoverned runtime policy input
    return written.result
  | .mutate request projectId => ltm (Memory.mutate runtime request projectId)

/-- Any number of writes and mutations in progress. -/
def auditSystem (runtime : LtmRuntime) :
    System AuditTask AuditOp.Answer WriteEnv LtmState String GovernedTypedLtmMutationResult where
  body t := (t.call runtime).interpret inSteps
  answers := auditAnswers
  spawned _ := []
  exclusive _ := false

/-! ## One record for each call -/

/-- An operation that appends no audit record. -/
def QuietLtm : LtmOp → Prop
  | .appendAuditRecord _ => False
  | _ => True

def Quiet : WriteOp → Prop
  | .ltm o => QuietLtm o
  | _ => True

def appendedByLtm : Sigma LtmOp.Answer → Option AppendAuditRecordInput
  | ⟨.appendAuditRecord record, .ok _⟩ => some record
  | _ => none

def appendedBy : Sigma WriteOp.Answer → Option AppendAuditRecordInput
  | ⟨.ltm o, r⟩ => appendedByLtm ⟨o, r⟩
  | _ => none

def putBy : Sigma AuditOp.Answer → Option MemoryMutationAuditRecord
  | ⟨.putAudit record, .ok _⟩ => some record
  | _ => none

/-- A call that returns has appended one record, under the id of its mutation, and one that throws none. -/
def AuditedOnce (records : List AppendAuditRecordInput) : Except String GovernedTypedLtmMutationResult → Prop
  | .ok r => ∃ record, records = [record] ∧ record.id = r.mutationId ∧ (record.outcome = .applied ↔ r.applied = true)
  | .error _ => records = []

theorem appendedByLtm_of_quiet (e : Sigma LtmOp.Answer) (h : QuietLtm e.1) : appendedByLtm e = none := by
  obtain ⟨o, r⟩ := e
  cases o with
  | appendAuditRecord record => exact h.elim
  | _ => rfl

theorem appendedBy_of_quiet (e : Sigma WriteOp.Answer) (h : Quiet e.1) : appendedBy e = none := by
  obtain ⟨o, r⟩ := e
  cases o with
  | ltm o => exact appendedByLtm_of_quiet ⟨o, r⟩ h
  | _ => rfl

/-! ## What appends nothing -/

section Quiet

variable {runtime : LtmRuntime}

theorem quiet_request {α : Type} {o : LtmOp} (answer : o.Answer → Except String α) (h : QuietLtm o) :
    (perform o >>= fun r => unwrap (answer r) : LtmCall α).Every QuietLtm :=
  every_bind (every_perform h) fun r => every_unwrap (answer r)

theorem quiet_makeId : makeId.Every QuietLtm := every_perform trivial

theorem quiet_now : now.Every QuietLtm := every_perform trivial

section

variable (request : MemoryMutationRequest)

theorem quiet_guard : (guard request).Every QuietLtm := quiet_request _ trivial

theorem quiet_read (id : String) : (read id).Every QuietLtm := quiet_request _ trivial

theorem quiet_write (entry : MemoryEntry) : (write entry).Every QuietLtm := quiet_request _ trivial

theorem quiet_readEntryOrThrow (id : String) : (readEntryOrThrow id).Every QuietLtm := by
  refine every_bind (quiet_read id) fun entry => ?_
  cases entry <;> trivial

theorem quiet_requireTarget : (requireTarget request).Every QuietLtm := by
  unfold requireTarget
  split <;> trivial

theorem quiet_requireCandidate : (requireCandidate request).Every QuietLtm := by
  unfold requireCandidate
  split <;> trivial

theorem quiet_embedText (dimensions : Nat) (text : String) : (embedText runtime dimensions text).Every QuietLtm := by
  unfold embedText
  dsimp only
  split_ifs
  · trivial
  · refine every_bind (quiet_request _ trivial) fun vector => ?_
    split_ifs
    · trivial
    · exact every_bind quiet_makeId fun _ => every_bind quiet_now fun _ => trivial

theorem quiet_prepareVectorIndexing (entry : MemoryEntry) :
    (prepareVectorIndexing runtime entry).Every QuietLtm := by
  unfold prepareVectorIndexing
  split
  · trivial
  · exact every_bind (quiet_embedText _ _) fun _ => every_bind (quiet_request _ trivial) fun _ => trivial

theorem quiet_writePrepared (entry : MemoryEntry) : (writePrepared runtime entry).Every QuietLtm := by
  refine every_bind (every_attempt (quiet_write entry)) fun written => ?_
  cases written with
  | ok _ => trivial
  | error e =>
    refine every_bind ?_ fun _ => trivial
    unfold rollbackVectorIndex
    split
    · trivial
    · exact every_bind (every_attempt (quiet_request _ trivial)) fun _ => trivial

theorem quiet_persistCandidate (candidate : MemoryWriteCandidate) (projectId : Option String) (mutationId : String)
    (now : IsoTime) : (persistCandidate runtime candidate projectId mutationId now).Every QuietLtm :=
  every_bind (every_unwrap _) fun _ => every_bind quiet_makeId fun _ =>
    every_bind (quiet_prepareVectorIndexing _) fun _ => every_bind (quiet_writePrepared _) fun _ => trivial

theorem quiet_applyMutation (mutationId : String) (now : IsoTime) :
    (applyMutation runtime request mutationId now).Every QuietLtm := by
  have hmove : (move request mutationId now).Every QuietLtm :=
    every_bind (quiet_requireTarget _) fun _ => every_bind (quiet_readEntryOrThrow _) fun _ =>
      every_bind (quiet_write _) fun _ => trivial
  unfold applyMutation
  cases request.action with
  | create =>
    exact every_bind (quiet_requireCandidate _) fun _ => every_bind (quiet_persistCandidate _ _ _ _) fun _ => trivial
  | supersede =>
    refine every_bind (quiet_requireTarget _) fun _ => every_bind (quiet_requireCandidate _) fun _ =>
      every_bind (quiet_readEntryOrThrow _) fun previous => ?_
    split_ifs
    · trivial
    · trivial
    · exact every_bind (quiet_persistCandidate _ _ _ _) fun _ => every_bind (quiet_write _) fun _ => trivial
  | softDelete =>
    exact every_bind (quiet_requireTarget _) fun _ => every_bind (quiet_readEntryOrThrow _) fun _ =>
      every_bind (quiet_write _) fun _ => trivial
  | hardDelete =>
    refine every_bind (quiet_requireTarget _) fun _ => every_bind (quiet_readEntryOrThrow _) fun existing => ?_
    split_ifs
    · trivial
    · exact every_bind quiet_makeId fun _ => every_bind (quiet_request _ trivial) fun _ =>
        every_bind (quiet_write _) fun _ => trivial
  | promoteGlobal => exact hmove
  | demoteProject => exact hmove
  | compactStm => trivial

theorem quiet_normalizeRequest : (normalizeRequest request).Every QuietLtm := by
  unfold normalizeRequest
  split
  · exact every_bind (quiet_read _) fun _ => trivial
  · trivial

end

theorem quiet_ltm {α : Type} {call : LtmCall α} (h : call.Every QuietLtm) : (ltm call).Every Quiet := by
  exact h.via (Q := Quiet) fun _ h => h

theorem quiet_getProject (id : Access.ProjectId) : (getProject id).Every Quiet :=
  every_bind (every_perform trivial) fun _ => every_unwrap _

theorem quiet_evaluateWritePolicy (policy : Option GovernedTypedLtmPolicyOptions) (candidate : MemoryWriteCandidate)
    (actingProjectId : Option Access.ProjectId) (traceId : Option String) :
    (evaluateWritePolicy policy candidate actingProjectId traceId).Every Quiet := by
  unfold evaluateWritePolicy
  split
  · trivial
  · trivial
  · refine every_bind (quiet_getProject _) fun _ => every_bind ?_ fun _ => every_bind ?_ fun _ => ?_
    · unfold getTargetConfig
      split
      · exact quiet_getProject _
      · trivial
    · unfold getControlState
      split_ifs
      · exact every_bind (every_perform trivial) fun _ => every_unwrap _
      · trivial
    · split
      · exact every_bind (every_bind (every_perform trivial) fun _ => every_unwrap _) fun _ => trivial
      · refine every_bind ?_ fun _ => trivial
        exact every_bind (quiet_ltm quiet_makeId) fun _ => every_bind (quiet_ltm quiet_now) fun _ => trivial

end Quiet

/-! ## Each call and its record -/

section Calls

variable {runtime : LtmRuntime}

theorem traces_appendAuditRecord {α : Type} {record : AppendAuditRecordInput} {f : Unit → LtmCall α}
    {post : Log LtmOp.Answer → Except String α → Prop} {l : Log LtmOp.Answer}
    (hok : ∀ l', l'.filterMap appendedByLtm = l.filterMap appendedByLtm ++ [record] → (f ()).Traces post l')
    (herror : ∀ e l', l'.filterMap appendedByLtm = l.filterMap appendedByLtm → post l' (.error e)) :
    (appendAuditRecord record >>= f).Traces post l := by
  intro answer
  cases answer with
  | ok _ => exact hok _ (by rw [List.filterMap_append]; rfl)
  | error message => exact herror message _ (by rw [List.filterMap_append]; exact List.append_nil _)

theorem traces_decideAndApply {request : MemoryMutationRequest} {mutationId : String} {time : IsoTime}
    {l : Log LtmOp.Answer} (hl : l.filterMap appendedByLtm = []) :
    (decideAndApply runtime request mutationId time).Traces (fun l y => AuditedOnce (l.filterMap appendedByLtm) y) l := by
  refine traces_bind_of_every appendedByLtm_of_quiet (quiet_guard _) (fun decision l₁ hl₁ => ?_)
    fun e l₁ hl₁ => hl₁.trans hl
  split_ifs
  · refine traces_appendAuditRecord (fun l₂ hl₂ => ?_) fun e l₂ hl₂ => (hl₂.trans hl₁).trans hl
    refine ⟨_, hl₂.trans (by rw [hl₁, hl]; rfl), rfl, iff_of_false (by rintro ⟨⟩) (by rintro ⟨⟩)⟩
  · rw [traces_bind, traces_attempt]
    refine traces_bind_of_every appendedByLtm_of_quiet (quiet_applyMutation _ _ _) (fun applied l₂ hl₂ => ?_)
      fun e l₂ hl₂ => ?_
    · refine traces_appendAuditRecord (fun l₃ hl₃ => ?_) fun e l₃ hl₃ => ?_
      · exact ⟨_, hl₃.trans (by rw [hl₂, hl₁, hl]; rfl), rfl, iff_of_true rfl rfl⟩
      · refine traces_appendAuditRecord (fun l₄ hl₄ => ?_) fun e l₄ hl₄ => ?_
        · exact ⟨_, hl₄.trans (by rw [hl₃, hl₂, hl₁, hl]; rfl), rfl, iff_of_false (by rintro ⟨⟩) (by rintro ⟨⟩)⟩
        · exact hl₄.trans (hl₃.trans (hl₂.trans (hl₁.trans hl)))
    · refine traces_appendAuditRecord (fun l₃ hl₃ => ?_) fun e l₃ hl₃ => ?_
      · exact ⟨_, hl₃.trans (by rw [hl₂, hl₁, hl]; rfl), rfl, iff_of_false (by rintro ⟨⟩) (by rintro ⟨⟩)⟩
      · exact hl₃.trans (hl₂.trans (hl₁.trans hl))

theorem traces_mutate (request : MemoryMutationRequest) (projectId : Option String) :
    (mutate runtime request projectId).Traces (fun l y => AuditedOnce (l.filterMap appendedByLtm) y) [] := by
  refine traces_bind_of_every appendedByLtm_of_quiet (quiet_normalizeRequest _) (fun normalized l₁ hl₁ => ?_)
    fun e l₁ hl₁ => hl₁
  have htime : ∀ mutationId l₂, l₂.filterMap appendedByLtm = [] →
      (now >>= fun time => decideAndApply runtime normalized mutationId time).Traces
        (fun l y => AuditedOnce (l.filterMap appendedByLtm) y) l₂ := fun mutationId l₂ hl₂ time =>
    traces_decideAndApply (by rw [List.filterMap_append, hl₂]; rfl)
  dsimp only
  split
  · rw [pure_bind']
    split
    · exact traces_decideAndApply hl₁
    · exact htime _ l₁ hl₁
  · intro mutationId
    have hid : (l₁ ++ [⟨LtmOp.makeId, mutationId⟩] : Log LtmOp.Answer).filterMap appendedByLtm = [] := by
      rw [List.filterMap_append, hl₁]
      rfl
    split
    · exact traces_decideAndApply hid
    · exact htime mutationId _ hid

theorem traces_ltm_appendAuditRecord {α : Type} {record : AppendAuditRecordInput} {f : Unit → WriteCall α}
    {post : Log WriteOp.Answer → Except String α → Prop} {l : Log WriteOp.Answer}
    (hok : ∀ l', l'.filterMap appendedBy = l.filterMap appendedBy ++ [record] → (f ()).Traces post l')
    (herror : ∀ e l', l'.filterMap appendedBy = l.filterMap appendedBy → post l' (.error e)) :
    (ltm (appendAuditRecord record) >>= f).Traces post l := by
  intro answer
  cases answer with
  | ok _ => exact hok _ (by rw [List.filterMap_append]; rfl)
  | error message => exact herror message _ (by rw [List.filterMap_append]; exact List.append_nil _)

theorem traces_writeGoverned (policy : Option GovernedTypedLtmPolicyOptions) (input : GovernedTypedLtmWriteInput) :
    (writeGoverned runtime policy input).Traces
      (fun l y => AuditedOnce (l.filterMap appendedBy) (y.map (·.result))) [] := by
  refine traces_bind_of_every appendedBy_of_quiet (every_unwrap _) (fun candidate l₁ hl₁ => ?_) fun e l₁ hl₁ => hl₁
  refine traces_bind_of_every appendedBy_of_quiet (quiet_ltm quiet_makeId) (fun mutationId l₂ hl₂ => ?_)
    fun e l₂ hl₂ => hl₂.trans hl₁
  refine traces_bind_of_every appendedBy_of_quiet (quiet_ltm quiet_now) (fun time l₃ hl₃ => ?_)
    fun e l₃ hl₃ => hl₃.trans (hl₂.trans hl₁)
  refine traces_bind_of_every appendedBy_of_quiet (quiet_evaluateWritePolicy _ _ _ _) (fun policyResult l₄ hl₄ => ?_)
    fun e l₄ hl₄ => hl₄.trans (hl₃.trans (hl₂.trans hl₁))
  have hl : l₄.filterMap appendedBy = [] := hl₄.trans (hl₃.trans (hl₂.trans hl₁))
  dsimp only
  split
  · refine traces_ltm_appendAuditRecord (fun l₅ hl₅ => ?_) fun e l₅ hl₅ => hl₅.trans hl
    exact ⟨_, hl₅.trans (by rw [hl]; rfl), rfl, iff_of_false (by rintro ⟨⟩) (by rintro ⟨⟩)⟩
  · split_ifs
    · refine traces_ltm_appendAuditRecord (fun l₅ hl₅ => ?_) fun e l₅ hl₅ => hl₅.trans hl
      exact ⟨_, hl₅.trans (by rw [hl]; rfl), rfl, iff_of_false (by rintro ⟨⟩) (by rintro ⟨⟩)⟩
    · refine traces_bind_of_every appendedBy_of_quiet (quiet_ltm quiet_makeId) (fun id l₅ hl₅ => ?_)
        fun e l₅ hl₅ => hl₅.trans hl
      refine traces_bind_of_every appendedBy_of_quiet (quiet_ltm (quiet_prepareVectorIndexing _))
        (fun preparedEntry l₆ hl₆ => ?_) fun e l₆ hl₆ => hl₆.trans (hl₅.trans hl)
      refine traces_bind_of_every appendedBy_of_quiet (quiet_ltm (quiet_writePrepared _)) (fun _ l₇ hl₇ => ?_)
        fun e l₇ hl₇ => hl₇.trans (hl₆.trans (hl₅.trans hl))
      refine traces_ltm_appendAuditRecord (fun l₈ hl₈ => ?_) fun e l₈ hl₈ => ?_
      · exact ⟨_, hl₈.trans (by rw [hl₇, hl₆, hl₅, hl]; rfl), rfl, iff_of_true rfl rfl⟩
      · exact hl₈.trans (hl₇.trans (hl₆.trans (hl₅.trans hl)))

theorem traces_call (t : AuditTask) :
    (t.call runtime).Traces (fun l y => AuditedOnce (l.filterMap appendedBy) y) [] := by
  cases t with
  | write policy input =>
    refine traces_bind.mpr ((traces_writeGoverned policy input).mono fun l y h => ?_)
    cases y <;> exact h
  | mutate request projectId =>
    refine (traces_mutate request projectId).via (R := fun l l' => l.filterMap appendedByLtm = l'.filterMap appendedBy)
      (fun o r l l' h => ?_) (fun l l' y h hy => h ▸ hy) rfl
    rw [List.filterMap_append, List.filterMap_append, h]
    rfl

end Calls

/-! ## Records and their numbers -/

def MemoryMutationAuditRecord.input (record : MemoryMutationAuditRecord) : AppendAuditRecordInput where
  id := record.id
  action := record.action
  actor := record.actor
  outcome := record.outcome
  reasonCode := record.reasonCode
  reason := record.reason
  projectId := record.projectId
  targetEntryId := record.targetEntryId
  resultingEntryId := record.resultingEntryId
  tombstoneId := record.tombstoneId
  traceId := record.traceId
  evidenceRefs := record.evidenceRefs
  occurredAt := record.occurredAt

def recorded (l : Log AuditOp.Answer) : List MemoryMutationAuditRecord := l.filterMap putBy

def lastRead (l : Log AuditOp.Answer) : Option (List MemoryMutationAuditRecord) :=
  match l.getLast? with
  | some ⟨.queryAudit, .ok records⟩ => some records
  | _ => none

/-- Every record that was put has the number after those that were read just before. -/
def NumberedPuts (l : Log AuditOp.Answer) : Prop :=
  ∀ l₁ record r l₂, l = l₁ ++ ⟨.putAudit record, r⟩ :: l₂ →
    ∃ records, lastRead l₁ = some records ∧ record.sequence = nextAuditSequence records

variable {l : Log AuditOp.Answer}

theorem numberedPuts_of_snoc {e : Sigma AuditOp.Answer} (h : NumberedPuts (l ++ [e])) :
    NumberedPuts l := by
  intro l₁ record r l₂ hl
  exact h l₁ record r (l₂ ++ [e]) (by rw [hl]; simp)

theorem numberedPuts_snoc {e : Sigma AuditOp.Answer} (h : NumberedPuts l)
    (he : ∀ record r, e = ⟨.putAudit record, r⟩ →
      ∃ records, lastRead l = some records ∧ record.sequence = nextAuditSequence records) :
    NumberedPuts (l ++ [e]) := by
  intro l₁ record r l₂ hl
  rcases List.eq_nil_or_concat l₂ with rfl | ⟨l₂, e', rfl⟩
  · obtain ⟨rfl, hlast⟩ := List.append_inj' hl rfl
    exact he record r (List.singleton_inj.mp hlast)
  · rw [List.concat_eq_append, ← List.cons_append, ← List.append_assoc] at hl
    exact h l₁ record r l₂ (List.append_inj' hl rfl).1

variable {runtime : LtmRuntime}

/-- What a call has appended in its own terms, it has recorded in those of the document store. -/
structure Recounts (l : Log WriteOp.Answer) (l' : Log AuditOp.Answer) : Prop where
  records : l.filterMap appendedBy = (recorded l').map (·.input)
  numbered : NumberedPuts l'

theorem recorded_snoc (l : Log AuditOp.Answer) (e : Sigma AuditOp.Answer) :
    recorded (l ++ [e]) = recorded l ++ (putBy e).toList := by
  unfold recorded
  rw [List.filterMap_append]
  cases h : putBy e <;> simp [h]

theorem appended_snoc (l : Log WriteOp.Answer) (e : Sigma WriteOp.Answer) :
    (l ++ [e]).filterMap appendedBy = l.filterMap appendedBy ++ (appendedBy e).toList := by
  rw [List.filterMap_append]
  cases h : appendedBy e <;> simp [h]

theorem Recounts.other {l : Log WriteOp.Answer} {l' : Log AuditOp.Answer} (h : Recounts l l') (o : WriteOp)
    (r : o.Answer) (ho : Quiet o) : Recounts (l ++ [⟨o, r⟩]) (l' ++ [⟨.other o, r⟩]) where
  records := by
    rw [appended_snoc, recorded_snoc, appendedBy_of_quiet ⟨o, r⟩ ho, h.records]
    simp [putBy]
  numbered := numberedPuts_snoc h.numbered (by rintro record r' ⟨⟩)

theorem recounts_inSteps (o : WriteOp) (l : Log WriteOp.Answer) (l' : Log AuditOp.Answer) (h : Recounts l l') :
    (inSteps o).Traces (fun l'' y => ∃ r, y = .ok r ∧ Recounts (l ++ [⟨o, r⟩]) l'') l' := by
  have hother : Quiet o → (perform (AuditOp.other o) : AuditCall o.Answer).Traces
      (fun l'' y => ∃ r, y = .ok r ∧ Recounts (l ++ [⟨o, r⟩]) l'') l' := fun ho r => ⟨r, rfl, h.other o r ho⟩
  cases o with
  | getProject id => exact hother trivial
  | getProjectControlState id => exact hother trivial
  | evaluate ctx => exact hother trivial
  | ltm o =>
    cases o with
    | appendAuditRecord record =>
      intro records
      have hquery : NumberedPuts (l' ++ [⟨.queryAudit, records⟩]) :=
        numberedPuts_snoc h.numbered (by rintro record r' ⟨⟩)
      cases records with
      | error message =>
        refine ⟨.error message, rfl, ?_, hquery⟩
        rw [appended_snoc, recorded_snoc, h.records]
        simp [appendedBy, appendedByLtm, putBy]
      | ok records =>
        intro r
        refine ⟨r, rfl, ?_, numberedPuts_snoc hquery ?_⟩
        · rw [appended_snoc, recorded_snoc, recorded_snoc, h.records]
          cases r with
          | error message => simp [appendedBy, appendedByLtm, putBy]
          | ok _ => simp [appendedBy, appendedByLtm, putBy, MemoryMutationAuditRecord.input,
              AppendAuditRecordInput.numbered]
        · rintro record' r' ⟨⟩
          exact ⟨records, by simp [lastRead], rfl⟩
    | _ => exact hother trivial

theorem traces_body (t : AuditTask) : ((auditSystem runtime).body t).Traces
    (fun l y => AuditedOnce ((recorded l).map (·.input)) y ∧ NumberedPuts l) [] := by
  have hnone : NumberedPuts [] := fun l₁ record r l₂ hl => by simp at hl
  exact (traces_call t).interpret recounts_inSteps (fun l l' y h hy => ⟨h.records ▸ hy, h.numbered⟩) ⟨rfl, hnone⟩

/-! ## Runs -/

/-- When a call puts its record, the audit is still what it has read just before, and no record has its id. -/
def AuditUnchanged : AuditTask → Allowance AuditOp.Answer WriteEnv LtmState
  | _, l, .putAudit record, env, s =>
    env.ltm.rejected = none → lastRead l = some s.audit ∧ ∀ r ∈ s.audit, r.id ≠ record.id
  | _, _, _, _, _ => True

instance (t : AuditTask) (l : Log AuditOp.Answer) (o : AuditOp) (env : WriteEnv) (s : LtmState) :
    Decidable (AuditUnchanged t l o env s) :=
  match o with
  | .putAudit record => inferInstanceAs (Decidable
      (env.ltm.rejected = none → lastRead l = some s.audit ∧ ∀ r ∈ s.audit, r.id ≠ record.id))
  | .other _ | .queryAudit => instDecidableTrue

/-- The records are numbered from one on, and no two have the same id. -/
structure Gapless (audit : List MemoryMutationAuditRecord) : Prop where
  numbered : Numbered (·.sequence) 1 audit
  distinct : (audit.map (·.id)).Nodup

theorem gapless_nil : Gapless [] := ⟨trivial, List.nodup_nil⟩

variable {audit : List MemoryMutationAuditRecord}

theorem nextAuditSequence_of_numbered
    (h : Numbered (·.sequence) 1 audit) : nextAuditSequence audit = 1 + audit.length := by
  unfold nextAuditSequence
  rw [h.pairwise.insertionSort_eq]
  cases hlast : audit.getLast? with
  | none =>
    rw [List.getLast?_eq_none_iff.mp hlast]
    rfl
  | some last =>
    have hlength : 0 < audit.length := List.length_pos_iff.mpr (by rintro rfl; cases hlast)
    rw [List.getLast?_eq_getElem?] at hlast
    have hsequence := numbered_iff.mp h _ last hlast
    dsimp only at hsequence ⊢
    omega

theorem Gapless.append (h : Gapless audit)
    {record : MemoryMutationAuditRecord} (hsequence : record.sequence = nextAuditSequence audit)
    (hid : ∀ r ∈ audit, r.id ≠ record.id) : Gapless (audit ++ [record]) where
  numbered := numbered_append.mpr ⟨h.numbered, hsequence.trans (nextAuditSequence_of_numbered h.numbered), trivial⟩
  distinct := by
    rw [List.map_append, List.nodup_append]
    refine ⟨h.distinct, by simp, fun id hmem id' hmem' => ?_⟩
    obtain ⟨r, hr, rfl⟩ := List.mem_map.mp hmem
    obtain rfl : id' = record.id := by simpa using hmem'
    exact hid r hr

variable {s s' : LtmState}

theorem audit_of_quiet {o : LtmOp} {env : LtmEnv} {r : o.Answer} (ho : QuietLtm o)
    (h : answers o env s = some (r, s')) : s'.audit = s.audit := by
  cases o with
  | makeId => cases h; rfl
  | now => cases h; rfl
  | appendAuditRecord record => exact ho.elim
  | _ =>
    dsimp only [answers] at h
    split at h <;> obtain ⟨-, rfl⟩ := Prod.mk.inj (Option.some.inj h) <;> rfl

theorem auditAnswers_ltm {o : LtmOp} (ho : QuietLtm o) (env : WriteEnv) (s : LtmState) :
    auditAnswers (.other (.ltm o)) env s = answers o env.ltm s := by
  cases o with
  | appendAuditRecord record => exact ho.elim
  | _ => rfl

variable {env : WriteEnv}

theorem audit_of_other {o : WriteOp} {r : o.Answer}
    (h : auditAnswers (.other o) env s = some (r, s')) : s'.audit = s.audit := by
  cases o with
  | getProject id => cases h; rfl
  | getProjectControlState id => cases h; rfl
  | evaluate ctx => cases h; rfl
  | ltm o =>
    have hquiet : QuietLtm o := by
      cases o with
      | appendAuditRecord record => cases h
      | _ => trivial
    exact audit_of_quiet hquiet ((auditAnswers_ltm hquiet env s).symm.trans h)

theorem putAudit_of_new {record : MemoryMutationAuditRecord}
    (h : ∀ r ∈ audit, r.id ≠ record.id) : putAudit audit record = audit ++ [record] := by
  unfold putAudit
  rw [List.filter_eq_self.mpr fun r hr => decide_eq_true (h r hr)]

theorem audit_grows {t : AuditTask} {o : AuditOp}
    {r : o.Answer} (hallowed : AuditUnchanged t l o env s) (h : auditAnswers o env s = some (r, s')) :
    s'.audit = s.audit ++ (putBy ⟨o, r⟩).toList := by
  cases o with
  | other o => exact (audit_of_other h).trans (List.append_nil _).symm
  | queryAudit =>
    unfold auditAnswers at h
    dsimp only at h
    split at h <;> cases h <;> exact (List.append_nil _).symm
  | putAudit record =>
    unfold auditAnswers at h
    dsimp only at h
    split at h
    · cases h
      exact (List.append_nil _).symm
    · rename_i hrejected
      cases h
      exact putAudit_of_new (hallowed hrejected).2

theorem nonempty_answer (o : AuditOp) : Nonempty o.Answer := by
  cases o with
  | queryAudit => exact ⟨.ok []⟩
  | putAudit record => exact ⟨.ok ()⟩
  | other o =>
    cases o with
    | ltm o =>
      cases o with
      | makeId => exact ⟨""⟩
      | now => exact ⟨⟨"", 0⟩⟩
      | _ => exact ⟨.error ""⟩
    | _ => exact ⟨.error ""⟩

theorem gapless_turn {t : AuditTask} {o : AuditOp}
    {r : o.Answer} {next : o.Answer → AuditCall GovernedTypedLtmMutationResult} (hgapless : Gapless s.audit)
    (htraces : (Async.call o next).Traces (fun l y => AuditedOnce ((recorded l).map (·.input)) y ∧ NumberedPuts l) l)
    (hallowed : AuditUnchanged t l o env s) (hanswers : auditAnswers o env s = some (r, s')) : Gapless s'.audit := by
  have hgrows := audit_grows hallowed hanswers
  have hsame : putBy ⟨o, r⟩ = none → Gapless s'.audit := by
    intro hnone
    rw [hgrows, hnone]
    exact (List.append_nil s.audit).symm ▸ hgapless
  cases o with
  | other o => exact hsame rfl
  | queryAudit => exact hsame rfl
  | putAudit record =>
    cases r with
    | error message => exact hsame rfl
    | ok _ =>
      rw [hgrows]
      have hnumbered := ((htraces (.ok ())).mono fun _ _ h => h.2).of_isPrefix nonempty_answer
        fun _ _ => numberedPuts_of_snoc
      obtain ⟨records, hread, hsequence⟩ := hnumbered l record (.ok ()) [] rfl
      have haccepted : env.ltm.rejected = none := by
        unfold auditAnswers at hanswers
        dsimp only at hanswers
        split at hanswers
        · cases hanswers
        · assumption
      obtain ⟨hunchanged, hid⟩ := hallowed haccepted
      cases hread.symm.trans hunchanged
      exact hgapless.append hsequence hid

/-- What holds of the audit in a run: the records are numbered without a gap; those that were there before have been
followed by those that the calls have put; and every call has put one record exactly when it has returned. -/
structure AuditKept (s : LtmState)
    (c : Config AuditTask AuditOp.Answer LtmState String GovernedTypedLtmMutationResult) : Prop where
  gapless : Gapless c.state.audit
  followed : ∃ added, c.state.audit = s.audit ++ added ∧ added.Perm (journal putBy c)
  once : ∀ th ∈ c.threads, (recorded th.log).length ≤ 1
  settled : ∀ th ∈ c.threads, ∀ y, th.program.outcome = some y → AuditedOnce ((recorded th.log).map (·.input)) y

/-- **The audit is gapless.** When every call that puts its record finds the audit as it has read it, and no record
under its id, the records are numbered without a gap, none is overwritten, and each call that returns has one. -/
theorem gapless_of_run {s : LtmState} (hs : Gapless s.audit) {ls : List (Label AuditTask WriteEnv)}
    {c : Config AuditTask AuditOp.Answer LtmState String GovernedTypedLtmMutationResult}
    (hrun : Run (Guarded (auditSystem runtime).Step (Allows (fun _ => True) AuditUnchanged)) (start s) ls c) :
    AuditKept s c := by
  have htraces := traces_of_run traces_body hrun.forget_guard
  have hgrows : ∀ (t : AuditTask) l o x (s : LtmState) r s', AuditUnchanged t l o x s →
      (auditSystem runtime).answers o x s = some (r, s') → s'.audit = s.audit ++ (putBy ⟨o, r⟩).toList :=
    fun t l o x s r s' => audit_grows
  refine ⟨?_, journal_of_run hgrows hrun, fun th hth => ?_, fun th hth y hy => ?_⟩
  · refine (hrun.invariant (P := fun c => (∀ th ∈ c.threads, th.program.Traces
      (fun l y => AuditedOnce ((recorded l).map (·.input)) y ∧ NumberedPuts l) th.log) ∧ Gapless c.state.audit) ?_
      ⟨by simp [start], hs⟩).2
    rintro c l c' ⟨hc, hgapless⟩ ⟨hstep, hallows⟩
    refine ⟨traces_of_step traces_body hc hstep, ?_⟩
    have hstepped := stepped_of_step hstep
    clear hstep
    cases hstepped with
    | begin t => exact hgapless
    | @turn i x t log o next r s' hget hblocked hanswers =>
      have hallowed := hallows _ hget
      exact gapless_turn hgapless (hc _ (List.mem_of_getElem? hget)) hallowed hanswers
  · have hone : th.program.Traces (fun l _ => (recorded l).length ≤ 1) th.log := by
      refine (htraces th hth).mono fun l y h => ?_
      obtain ⟨honce, -⟩ := h
      cases y with
      | ok r =>
        obtain ⟨record, hrecord, -⟩ := honce
        rw [← List.length_map, hrecord]
        exact Nat.le_refl 1
      | error e =>
        rw [List.map_eq_nil_iff.mp honce]
        exact Nat.zero_le 1
    refine hone.of_isPrefix nonempty_answer fun l e h => ?_
    rw [recorded_snoc, List.length_append] at h
    omega
  · have hended := htraces th hth
    cases hprogram : th.program with
    | pure a =>
      rw [hprogram] at hy hended
      exact Option.some.inj hy ▸ hended.1
    | throw e =>
      rw [hprogram] at hy hended
      exact Option.some.inj hy ▸ hended.1
    | call o next =>
      rw [hprogram] at hy
      cases hy

/-! ## Two deletions -/

def deleteOne : AuditTask :=
  .mutate (requestOne .softDelete "00000000-0000-4000-8000-000000000003" "00000000-0000-4000-8000-000000000002") none

def deleteAgain : AuditTask :=
  .mutate (requestOne .softDelete "00000000-0000-4000-8000-000000000005" "00000000-0000-4000-8000-000000000002") none

def auditEnv : WriteEnv := ⟨envOne none "", .ok none, .ok none, .error "not evaluated"⟩

def turns (i n : Nat) : List (Label AuditTask WriteEnv) := List.replicate n (.turn i auditEnv)

/-- One deletion after the other. -/
theorem deletions_gapless : ∃ c, Run (Guarded (auditSystem withoutIndex).Step (Allows (fun _ => True) AuditUnchanged))
      (start storedOne) (.begin deleteOne :: turns 0 5 ++ .begin deleteAgain :: turns 1 5) c ∧
    c.returned.map (·.2.isOk) = [true, true] ∧ AuditKept storedOne c := by
  obtain ⟨c, hrun, hreturned⟩ := (auditSystem withoutIndex).exists_run_of_check (fun _ => True) AuditUnchanged
    (.begin deleteOne :: turns 0 5 ++ .begin deleteAgain :: turns 1 5) storedOne
    (fun c => c.returned.map (·.2.isOk) = [true, true]) (by decide +kernel)
  exact ⟨c, hrun, of_decide_eq_true hreturned, gapless_of_run gapless_nil hrun⟩

/-- Two deletions that query the audit before either puts its record; and one that reuses the id of another. -/
theorem deletions_not_gapless :
    (∃ c, Run (auditSystem withoutIndex).Step (start storedOne)
        (.begin deleteOne :: .begin deleteAgain :: turns 0 4 ++ turns 1 4 ++ turns 0 1 ++ turns 1 1) c ∧
      c.returned.map (·.2.isOk) = [true, true] ∧ c.state.audit.map (·.sequence) = [1, 1]) ∧
    ∃ c, Run (auditSystem withoutIndex).Step (start storedOne)
        (.begin deleteOne :: turns 0 5 ++ .begin deleteOne :: turns 1 5) c ∧
      c.returned.map (·.2.isOk) = [true, true] ∧ c.state.audit.map (·.sequence) = [2] := by
  constructor
  · obtain ⟨c, hrun, hc⟩ := (auditSystem withoutIndex).exists_run_of_checkedStep (fun _ _ => True)
      (.begin deleteOne :: .begin deleteAgain :: turns 0 4 ++ turns 1 4 ++ turns 0 1 ++ turns 1 1) storedOne
      (fun c => c.returned.map (·.2.isOk) = [true, true] ∧ c.state.audit.map (·.sequence) = [1, 1]) (by decide +kernel)
    exact ⟨c, hrun.forget_guard, of_decide_eq_true hc⟩
  · obtain ⟨c, hrun, hc⟩ := (auditSystem withoutIndex).exists_run_of_checkedStep (fun _ _ => True)
      (.begin deleteOne :: turns 0 5 ++ .begin deleteOne :: turns 1 5) storedOne
      (fun c => c.returned.map (·.2.isOk) = [true, true] ∧ c.state.audit.map (·.sequence) = [2]) (by decide +kernel)
    exact ⟨c, hrun.forget_guard, of_decide_eq_true hc⟩

end NousCore.Memory
