import NousCore.Memory.Projects
import NousCore.Memory.Write

/-!
# Writes and the policy that allows them

* `evaluations` : the contexts that a write has had evaluated, with the answers;
* `governed_iff` : an applied write is governed exactly when the project it is placed in is the one that was checked.
-/

namespace NousCore.Memory

open Async
open Access (ProjectId PolicyAccessContext PolicyEvaluationResult)

variable {runtime : LtmRuntime} {l l' : Log WriteOp.Answer} {s t : LtmState}

/-- The evaluation that an operation has asked for. -/
def evaluatedBy : Sigma WriteOp.Answer → Option (PolicyAccessContext × PolicyEvaluationResult)
  | ⟨.evaluate ctx, .ok result⟩ => some (ctx, result)
  | _ => none

def evaluations (l : Log WriteOp.Answer) : List (PolicyAccessContext × PolicyEvaluationResult) :=
  l.filterMap evaluatedBy

structure AsksFor (actingProjectId : ProjectId) (e : MemoryEntry) (ctx : PolicyAccessContext) : Prop where
  action : ctx.action = .write
  acting : ctx.fromProjectId = actingProjectId
  globalScope : e.scope = .global → ctx.includeGlobal = true ∧ ctx.targetProjectId = none
  project : e.scope = .project → ctx.targetProjectId.map Subtype.val = e.projectId

/-- An entry that is global, or of a project other than the acting one, was allowed to be written there. -/
def Governed (actingProjectId : ProjectId) (l : Log WriteOp.Answer) (e : MemoryEntry) : Prop :=
  (e.scope = .global ∨ ∃ project, e.projectId = some project ∧ project ≠ actingProjectId.val) →
    ∃ c ∈ evaluations l, c.2.allowed = true ∧ AsksFor actingProjectId e c.1

/-! ## Calls of the runtime -/

abbrev governing : Contract WriteOp.Answer WriteEnv LtmState := .within NewWriteIds

/-- An operation that evaluates no policy. -/
def Unevaluated : WriteOp → Prop
  | .evaluate _ => False
  | _ => True

theorem evaluations_snoc (l : Log WriteOp.Answer) (e : Sigma WriteOp.Answer) :
    evaluations (l ++ [e]) = evaluations l ++ (evaluatedBy e).toList := by
  unfold evaluations
  rw [List.filterMap_append]
  congr 1

variable {α : Type}

variable {post : Except String α → LtmState → Prop}

theorem meets_unevaluated {p : WriteCall α}
    (h : p.Meets writeAnswers governing (fun _ y t => post y t) l s) (hp : p.Every Unevaluated) :
    p.Meets writeAnswers governing (fun l' y t => post y t ∧ evaluations l' = evaluations l) l s := by
  have hlog : ∃ l₁, l = l ++ l₁ ∧ ∀ e ∈ l₁, Unevaluated e.1 := ⟨[], (List.append_nil l).symm, by simp⟩
  refine (h.and_every hp hlog).mono ?_
  rintro l' y t ⟨hpost, l₁, rfl, hl₁⟩
  have hnil : l₁.filterMap evaluatedBy = [] := List.filterMap_eq_nil_iff.mpr fun ⟨o, r⟩ he => by
    cases o <;> first | rfl | exact (hl₁ _ he).elim
  refine ⟨hpost, ?_⟩
  unfold evaluations
  rw [List.filterMap_append, hnil, List.append_nil]

theorem newIds_of_nil {l : Log LtmOp.Answer} {o : LtmOp} {env : LtmEnv} (h : NewIds [] o env s) :
    NewIds l o env s := by
  cases o <;> exact h

theorem meets_via_ltm {call : LtmCall α} {l₀ : Log LtmOp.Answer}
    (h : call.Meets answers calm (fun _ y t => post y t) l₀ s) :
    (ltm call).Meets writeAnswers governing (fun _ y t => post y t) l s := by
  induction call generalizing l l₀ s with
  | pure a => exact h
  | throw e => exact h
  | call o next ih =>
    refine meets_within_call fun x r s' hanswers hallowed => ?_
    obtain ⟨-, hnext⟩ := h x.ltm r s' hanswers (newIds_of_nil hallowed)
    exact ih r (hnext s' rfl)

theorem meets_ltm {call : LtmCall α} {P : Except String α → LtmState → Prop}
    (h : call.Meets answers calm (fun _ y t => P y t) [] s) :
    (ltm call).Meets writeAnswers governing (fun l' y t => P y t ∧ evaluations l' = evaluations l) l s :=
  meets_unevaluated (meets_via_ltm h) (every_via (fun _ => trivial) call)

theorem evaluations_ltm (call : LtmCall α) :
    (ltm call).Meets writeAnswers governing (fun l' _ _ => evaluations l' = evaluations l) l s :=
  (meets_ltm (P := fun _ _ => True) (meets_within_of_forall (fun _ _ _ => trivial) _ _ _)).mono fun _ _ _ h => h.2

/-! ## The policy check -/

/-- What the check leaves in the log: nothing where no project is crossed, and one evaluation where it allows. -/
def Decided (candidate : MemoryWriteCandidate) (actingProjectId : ProjectId) (l l' : Log WriteOp.Answer) :
    Option PolicyEvaluationResult → Prop
  | none => isCrossProjectMemoryWrite candidate actingProjectId = false ∧ evaluations l' = evaluations l
  | some result => isCrossProjectMemoryWrite candidate actingProjectId = true ∧ (result.allowed = true →
      ∃ ctx, evaluations l' = evaluations l ++ [(ctx, result)] ∧ ctx.action = .write ∧
        ctx.fromProjectId = actingProjectId ∧
        (candidate.scope = .global → ctx.includeGlobal = true ∧ ctx.targetProjectId = none) ∧
        (candidate.scope = .project → ctx.targetProjectId = candidateProject candidate))

variable {candidate : MemoryWriteCandidate}

variable {traceId nodeId : Option String}

theorem build_spec {actingProjectId : ProjectId}
    {actingConfig targetConfig : Option ProjectConfig} {controlState : Option Access.ProjectControlState}
    {ctx : PolicyAccessContext}
    (h : buildPolicyAccessContextForMemoryWrite candidate actingProjectId actingConfig targetConfig controlState traceId
      nodeId = some ctx) :
    ctx.action = .write ∧ ctx.fromProjectId = actingProjectId ∧
      (candidate.scope = .global → ctx.includeGlobal = true ∧ ctx.targetProjectId = none) ∧
      (candidate.scope = .project → ctx.targetProjectId = candidateProject candidate) := by
  unfold buildPolicyAccessContextForMemoryWrite at h
  split at h
  · cases h
  · split at h
    · rename_i hscope
      cases h
      exact ⟨rfl, rfl, fun _ => ⟨rfl, rfl⟩, fun hproject => absurd (hscope.symm.trans hproject) (by decide)⟩
    · cases h
    · rename_i target hscope htarget
      split at h
      · cases h
      · cases h
        refine ⟨rfl, rfl, fun hglobal => absurd (hscope.symm.trans hglobal) (by decide), fun _ => ?_⟩
        exact (Option.filter_eq_some_iff.mp htarget).1.symm

theorem meets_getProject (id : ProjectId) : (getProject id).Meets writeAnswers governing
    (fun l' _ _ => evaluations l' = evaluations l) l s := by
  refine meets_within_call fun x r s' hanswers _ => (meets_unwrap r).mpr ?_
  exact (evaluations_snoc _ _).trans (List.append_nil _)

theorem meets_getTargetConfig (candidate : MemoryWriteCandidate) (actingProjectId : ProjectId) :
    (getTargetConfig candidate actingProjectId).Meets writeAnswers governing
      (fun l' _ _ => evaluations l' = evaluations l) l s := by
  unfold getTargetConfig
  split
  · exact meets_getProject _
  · rfl

theorem meets_getControlState (policy : GovernedTypedLtmPolicyOptions) (actingProjectId : ProjectId) :
    (getControlState policy actingProjectId).Meets writeAnswers governing
      (fun l' _ _ => evaluations l' = evaluations l) l s := by
  unfold getControlState
  split_ifs
  · refine meets_within_call fun x r s' hanswers _ => (meets_unwrap r).mpr ?_
    exact (evaluations_snoc _ _).trans (List.append_nil _)
  · rfl

theorem meets_deniedPolicyResult {projectId : ProjectId} {targetProjectId : Option ProjectId}
    {reason : String} :
    (deniedPolicyResult projectId targetProjectId nodeId traceId reason).Meets writeAnswers governing
      (fun _ y _ => ∀ result, y = .ok result → result.allowed = false) l s := by
  unfold deniedPolicyResult
  rw [meets_bind]
  refine (evaluations_ltm _).mono ?_
  intro l' y s' _
  cases y with
  | error message => rintro _ ⟨⟩
  | ok id =>
    dsimp only
    rw [meets_bind]
    refine (evaluations_ltm _).mono ?_
    intro l' y s' _
    cases y with
    | error message => rintro _ ⟨⟩
    | ok time =>
      rintro result hresult
      exact Except.ok.inj hresult ▸ rfl

theorem meets_evaluateWritePolicy {policy : GovernedTypedLtmPolicyOptions} {actingProjectId : ProjectId} :
    (evaluateWritePolicy (some policy) candidate (some actingProjectId) traceId).Meets writeAnswers governing
      (fun l' y _ => ∀ result, y = .ok result → Decided candidate actingProjectId l l' result) l s := by
  unfold evaluateWritePolicy
  cases hcross : isCrossProjectMemoryWrite candidate actingProjectId with
  | false =>
    rw [Option.filter_some, hcross]
    rintro result hresult
    exact Except.ok.inj hresult ▸ ⟨hcross, rfl⟩
  | true =>
    rw [Option.filter_some, hcross, if_pos rfl]
    rw [meets_bind]
    refine (meets_getProject _).mono fun l₁ y s₁ hlog₁ => ?_
    cases y with
    | error message => rintro _ ⟨⟩
    | ok actingConfig =>
      dsimp only
      rw [meets_bind]
      refine (meets_getTargetConfig _ _).mono fun l₂ y s₂ hlog₂ => ?_
      cases y with
      | error message => rintro _ ⟨⟩
      | ok targetConfig =>
        dsimp only
        rw [meets_bind]
        refine (meets_getControlState _ _).mono fun l₃ y s₃ hlog₃ => ?_
        cases y with
        | error message => rintro _ ⟨⟩
        | ok controlState =>
          have hlog : evaluations l₃ = evaluations l := hlog₃.trans (hlog₂.trans hlog₁)
          dsimp only
          split
          · rename_i ctx hctx
            rw [meets_bind]
            refine meets_within_call fun x r s' hanswers _ => (meets_unwrap r).mpr ?_
            cases r with
            | error message => rintro _ ⟨⟩
            | ok result =>
              rintro _ hresult
              cases hresult
              refine ⟨hcross, fun _ => ⟨ctx, ?_, build_spec hctx⟩⟩
              rw [evaluations_snoc, hlog]
              rfl
          · rw [meets_bind]
            refine meets_deniedPolicyResult.mono fun l' y s' hdenied => ?_
            cases y with
            | error message => rintro _ ⟨⟩
            | ok denied =>
              rintro _ hresult
              cases hresult
              refine ⟨hcross, fun hallowed => ?_⟩
              rw [hdenied denied rfl] at hallowed
              cases hallowed

/-! ## The entry -/

section Entry

variable {l : Log LtmOp.Answer}

theorem placed_prepareVectorIndexing {e : MemoryEntry} : (prepareVectorIndexing runtime e).Meets answers calm
    (fun _ y _ => ∀ e', y = .ok e' → ∃ embedding, e' = { e with embedding := embedding }) l s := by
  unfold prepareVectorIndexing
  cases runtime.vectorIndexing with
  | none =>
    rintro e' he'
    exact ⟨e.embedding, (Except.ok.inj he').symm⟩
  | some dimensions =>
    rw [meets_bind]
    refine meets_embedText fun l' y _ => ?_
    cases y with
    | error message => rintro _ ⟨⟩
    | ok embedded =>
      dsimp only
      rw [meets_bind]
      refine meets_upsert ?_ fun message => ?_
      · rintro e' he'
        exact ⟨_, (Except.ok.inj he').symm⟩
      · rintro _ ⟨⟩

theorem placed_writePrepared {e : MemoryEntry} : (writePrepared runtime e).Meets answers calm
    (fun _ y t => y = .ok () → ∃ refs, t.entries.find? e.id = some { e with patternRefs := refs }) l s := by
  unfold writePrepared
  rw [meets_bind, meets_attempt]
  refine meets_write (fun parsed hparsed _ => ?_) fun message => ?_
  · obtain ⟨refs, rfl⟩ := parseEntryForWrite_spec hparsed
    exact ⟨refs, Collection.find?_put_self _ _⟩
  · dsimp only
    rw [meets_bind]
    exact meets_within_of_forall (fun l y t => by cases y <;> nofun) _ _ _

end Entry

/-! ## The write -/

/-- What an applied write has done: the entry is where the input places it, and the policy check was passed. -/
structure PlacedAndDecided (input : GovernedTypedLtmWriteInput) (actingProjectId : ProjectId) (l : Log WriteOp.Answer)
    (r : GovernedTypedLtmWriteResult) (t : LtmState) (e : MemoryEntry) (id : String) : Prop where
  resulting : r.result.resultingEntryId = some id
  stored : t.entries.find? id = some e
  scope : e.scope = input.candidate.scope
  project : e.projectId = resolveEntryProjectId input.candidate input.projectId
  decided : ∃ result, Decided input.candidate actingProjectId [] l result ∧
    ∀ evaluated, result = some evaluated → evaluated.allowed = true

def StoredIfApplied (input : GovernedTypedLtmWriteInput) (actingProjectId : ProjectId) :
    Log WriteOp.Answer → Except String GovernedTypedLtmWriteResult → LtmState → Prop
  | l, .ok r, t => r.result.applied = true → ∃ e id, PlacedAndDecided input actingProjectId l r t e id
  | _, .error _, _ => True

variable {result : Option PolicyEvaluationResult}

theorem Decided.congr {actingProjectId : ProjectId} {l₀ l₀' l l' : Log WriteOp.Answer}
    (h : Decided candidate actingProjectId l₀ l result) (hlog₀ : evaluations l₀ = evaluations l₀')
    (hlog : evaluations l' = evaluations l) : Decided candidate actingProjectId l₀' l' result := by
  cases result with
  | none => exact ⟨h.1, hlog.trans (h.2.trans hlog₀)⟩
  | some result =>
    refine ⟨h.1, fun hallowed => ?_⟩
    obtain ⟨ctx, hevaluations, hctx⟩ := h.2 hallowed
    exact ⟨ctx, hlog.trans (hlog₀ ▸ hevaluations), hctx⟩

theorem placed_storeEntry {input : GovernedTypedLtmWriteInput} {actingProjectId : ProjectId} {mutationId : String}
    {now : IsoTime} {decision : GovernedTypedLtmWriteDecision} {policyDecision : Option Access.PolicyDecisionRecord}
    (hdecided : Decided input.candidate actingProjectId [] l result)
    (hallowed : ∀ evaluated, result = some evaluated → evaluated.allowed = true) :
    (storeEntry runtime input input.candidate mutationId now decision policyDecision).Meets writeAnswers governing
      (StoredIfApplied input actingProjectId) l s := by
  unfold storeEntry
  rw [meets_bind]
  refine (evaluations_ltm _).mono ?_
  intro l₁ y s₁ hlog₁
  cases y with
  | error message => trivial
  | ok id =>
    dsimp only
    rw [meets_bind]
    refine (meets_ltm placed_prepareVectorIndexing).mono ?_
    rintro l₂ y s₂ ⟨hprepared, hlog₂⟩
    cases y with
    | error message => trivial
    | ok preparedEntry =>
      obtain ⟨embedding, rfl⟩ := hprepared preparedEntry rfl
      dsimp only
      rw [meets_bind]
      refine (meets_ltm placed_writePrepared).mono ?_
      rintro l₃ y s₃ ⟨hwritten, hlog₃⟩
      cases y with
      | error message => trivial
      | ok _ =>
        obtain ⟨refs, hstored⟩ := hwritten rfl
        rw [meets_bind]
        refine (meets_ltm (P := fun _ t => t.entries = s₃.entries) ?_).mono ?_
        · exact meets_appendAuditRecord (fun _ => rfl) fun _ => rfl
        · rintro l₄ y t ⟨hentries, hlog₄⟩
          cases y with
          | error message => trivial
          | ok _ =>
            intro _
            have hlog : evaluations l₄ = evaluations l := hlog₄.trans (hlog₃.trans (hlog₂.trans hlog₁))
            exact ⟨_, id, ⟨rfl, hentries ▸ hstored, rfl, rfl, result, hdecided.congr rfl hlog, hallowed⟩⟩

theorem parseTypedCandidate_spec {candidate parsed : MemoryWriteCandidate}
    (h : parseTypedCandidate candidate = .ok parsed) : parsed = candidate ∧ candidate.projectId ≠ some "" := by
  unfold parseTypedCandidate at h
  split_ifs at h with hvalid
  exact ⟨(Except.ok.inj h).symm, hvalid.2⟩

theorem denied_notApplied {input : GovernedTypedLtmWriteInput} {actingProjectId : ProjectId}
    {record : AppendAuditRecordInput} {r : GovernedTypedLtmWriteResult} (hr : r.result.applied = false) :
    (ltm (appendAuditRecord record) >>= fun _ => (pure r : WriteCall GovernedTypedLtmWriteResult)).Meets writeAnswers
      governing (StoredIfApplied input actingProjectId) l s := by
  rw [meets_bind]
  refine meets_within_of_forall (fun l y t => ?_) _ _ _
  cases y with
  | error message => trivial
  | ok _ => exact fun happlied => absurd happlied (by simp [hr])

theorem placed_writeGoverned {policy : GovernedTypedLtmPolicyOptions} {input : GovernedTypedLtmWriteInput}
    {actingProjectId : ProjectId} (hacting : input.actingProjectId = some actingProjectId) :
    (writeGoverned runtime (some policy) input).Meets writeAnswers governing (fun l y t =>
      StoredIfApplied input actingProjectId l y t ∧ (∀ r, y = .ok r → input.candidate.projectId ≠ some "")) [] s := by
  unfold writeGoverned
  rw [meets_bind, meets_unwrap]
  cases hparse : parseTypedCandidate input.candidate with
  | error message => exact ⟨trivial, by rintro _ ⟨⟩⟩
  | ok candidate =>
    obtain ⟨rfl, hproject⟩ := parseTypedCandidate_spec hparse
    have hweaken : ∀ l y t, StoredIfApplied input actingProjectId l y t →
        StoredIfApplied input actingProjectId l y t ∧ ∀ r, y = .ok r → input.candidate.projectId ≠ some "" :=
      fun _ _ _ h => ⟨h, fun _ _ => hproject⟩
    refine Meets.mono hweaken ?_
    rw [meets_bind]
    refine (evaluations_ltm _).mono ?_
    intro l₁ y s₁ hlog₁
    cases y with
    | error message => trivial
    | ok mutationId =>
      dsimp only
      rw [meets_bind]
      refine (evaluations_ltm _).mono ?_
      intro l₂ y s₂ hlog₂
      cases y with
      | error message => trivial
      | ok time =>
        dsimp only
        rw [meets_bind, hacting]
        refine meets_evaluateWritePolicy.mono fun l₃ y s₃ hdecided => ?_
        cases y with
        | error message => trivial
        | ok result =>
          have hresult : Decided input.candidate actingProjectId [] l₃ result :=
            (hdecided result rfl).congr (hlog₂.trans hlog₁) rfl
          dsimp only
          split
          · exact denied_notApplied rfl
          · rename_i hnot
            split_ifs with happroved
            · exact denied_notApplied rfl
            · refine placed_storeEntry hresult fun evaluated hevaluated => ?_
              rw [hevaluated, Option.filter_some] at hnot
              cases hallowed : evaluated.allowed with
              | true => rfl
              | false => exact absurd hnot (by simp [hallowed])

/-! ## Placement and policy -/

section Governed

variable {input : GovernedTypedLtmWriteInput} {actingProjectId : ProjectId} {r : GovernedTypedLtmWriteResult}
  {e : MemoryEntry} {id : String}

/-- The project that is checked is the project in which the entry is placed, or the entry is placed at home. -/
def ChecksPlacement (input : GovernedTypedLtmWriteInput) (actingProjectId : ProjectId) : Prop :=
  input.candidate.scope = .global ∨ input.projectId = none ∨ input.projectId = input.candidate.projectId ∨
    input.projectId = some actingProjectId.val

theorem map_candidateProject {candidate : MemoryWriteCandidate} (h : candidate.projectId ≠ some "") :
    (candidateProject candidate).map Subtype.val = candidate.projectId := by
  unfold candidateProject
  cases hid : candidate.projectId with
  | none => rfl
  | some id =>
    have hne : id ≠ "" := fun hempty => h (hid.trans (congrArg some hempty))
    rw [Option.bind_some, dif_pos hne]
    rfl

/-- An entry outside the acting project crosses projects, when its project is that of the candidate. -/
theorem isCross_of_placed {candidate : MemoryWriteCandidate} (hcandidate : candidate.projectId ≠ some "")
    (h : candidate.scope = .global ∨ ∃ project, candidate.projectId = some project ∧ project ≠ actingProjectId.val) :
    isCrossProjectMemoryWrite candidate actingProjectId = true := by
  unfold isCrossProjectMemoryWrite
  rcases h with hglobal | ⟨project, hproject, hne⟩
  · simp [hglobal]
  · have hmap := map_candidateProject hcandidate
    rw [hproject, Option.map_eq_some_iff] at hmap
    obtain ⟨target, htarget, rfl⟩ := hmap
    rw [htarget, Bool.or_eq_true]
    exact .inr (decide_eq_true fun heq => hne (congrArg Subtype.val heq))

theorem PlacedAndDecided.governed (h : PlacedAndDecided input actingProjectId l r t e id)
    (hcandidate : input.candidate.projectId ≠ some "") (hchecks : ChecksPlacement input actingProjectId) :
    Governed actingProjectId l e := by
  intro houtside
  -- The entry is global, or it is in the project of the candidate.
  have hplaced : input.candidate.scope = .global ∨
      input.candidate.scope = .project ∧ e.projectId = input.candidate.projectId ∧
        ∃ project, input.candidate.projectId = some project ∧ project ≠ actingProjectId.val := by
    cases hscope : input.candidate.scope with
    | global => exact .inl rfl
    | project =>
      have hproject := h.project
      rw [resolveEntryProjectId, hscope] at hproject
      rcases houtside with hglobal | ⟨project, hid, hne⟩
      · exact absurd (h.scope.symm.trans hglobal) (by simp [hscope])
      · have hsame : e.projectId = input.candidate.projectId := by
          rcases hchecks with hglobal | hnone | hsame | hacting
          · exact absurd hglobal (by simp [hscope])
          · rw [hproject, hnone]
            rfl
          · rw [hproject, hsame, Option.or_self]
          · rw [hacting] at hproject
            exact absurd (Option.some.inj (hid.symm.trans hproject)) hne
        exact .inr ⟨rfl, hsame, project, hsame.symm.trans hid, hne⟩
  have hcross : isCrossProjectMemoryWrite input.candidate actingProjectId = true :=
    isCross_of_placed hcandidate (hplaced.imp_right fun hproject => hproject.2.2)
  obtain ⟨result, hdecided, hallowed⟩ := h.decided
  cases result with
  | none => exact absurd hdecided.1 (by simp [hcross])
  | some result =>
    obtain ⟨ctx, hevaluations, haction, hacting, hglobal, hproject⟩ := hdecided.2 (hallowed result rfl)
    refine ⟨(ctx, result), by simp [hevaluations], hallowed result rfl, haction, hacting, fun hscope => ?_, fun hscope => ?_⟩
    · exact hglobal (h.scope.symm.trans hscope)
    · rcases hplaced with hisGlobal | ⟨hisProject, hsame, -⟩
      · exact absurd (hisGlobal.symm.trans (h.scope.symm.trans hscope)) (by decide)
      · rw [hproject hisProject, map_candidateProject hcandidate, hsame]

theorem PlacedAndDecided.checks (h : PlacedAndDecided input actingProjectId l r t e id)
    (hcandidate : input.candidate.projectId ≠ some "") (hgoverned : Governed actingProjectId l e) :
    ChecksPlacement input actingProjectId := by
  by_contra hnot
  obtain ⟨hscope, hnone, hdiffers, hacting⟩ :
      input.candidate.scope ≠ .global ∧ input.projectId ≠ none ∧ input.projectId ≠ input.candidate.projectId ∧
        input.projectId ≠ some actingProjectId.val := by
    unfold ChecksPlacement at hnot
    push Not at hnot
    exact hnot
  obtain ⟨project, hproject⟩ := Option.ne_none_iff_exists'.mp hnone
  have hisProject : input.candidate.scope = .project := by
    cases hscope' : input.candidate.scope with
    | global => exact absurd hscope' hscope
    | project => rfl
  have hid : e.projectId = some project := by
    rw [h.project, resolveEntryProjectId, hisProject, hproject]
    rfl
  have hne : project ≠ actingProjectId.val := fun heq => hacting (hproject.trans (congrArg some heq))
  obtain ⟨c, hc, hallowed, hasks⟩ := hgoverned (.inr ⟨project, hid, hne⟩)
  obtain ⟨result, hdecided, hpassed⟩ := h.decided
  cases result with
  | none =>
    rw [hdecided.2] at hc
    cases hc
  | some result =>
    obtain ⟨ctx, hevaluations, -, -, -, htarget⟩ := hdecided.2 (hpassed result rfl)
    rw [hevaluations] at hc
    obtain rfl := List.mem_singleton.mp hc
    have hplaced := hasks.project (h.scope.trans hisProject)
    rw [htarget hisProject, map_candidateProject hcandidate, hid, ← hproject] at hplaced
    exact hdiffers hplaced.symm

/-- **Writes and the policy.** An applied write of an acting project has stored its entry; the policy allowed exactly
where that entry is placed, global or outside the acting project, exactly when the project of the input is not given,
or is that of the candidate, or is the acting one, or the entry is global. -/
theorem governed_iff {policy : GovernedTypedLtmPolicyOptions} (hacting : input.actingProjectId = some actingProjectId)
    (hends : (writeGoverned runtime (some policy) input).Ends writeAnswers NewWriteIds [] s (.ok r) l t)
    (happlied : r.result.applied = true) :
    ∃ e id, r.result.resultingEntryId = some id ∧ t.entries.find? id = some e ∧
      (Governed actingProjectId l e ↔ ChecksPlacement input actingProjectId) := by
  obtain ⟨hstored, hcandidate⟩ := (placed_writeGoverned hacting).of_within hends
  obtain ⟨e, id, hplaced⟩ := hstored happlied
  refine ⟨e, id, hplaced.resulting, hplaced.stored, ?_⟩
  exact ⟨hplaced.checks (hcandidate r rfl), hplaced.governed (hcandidate r rfl)⟩

end Governed

/-! ## One fact, written at home and elsewhere -/

def actingOne : ProjectId := ⟨"00000000-0000-4000-8000-00000000000a", by decide⟩

def policyOne : GovernedTypedLtmPolicyOptions := ⟨false, none⟩

/-- The candidate is of the acting project; the input may place it elsewhere. -/
def writeOne (projectId : Option String) : GovernedTypedLtmWriteInput where
  candidate := factOne
  projectId := projectId
  actingProjectId := some actingOne
  actor := none
  decision := none
  traceId := none
  evidenceRefs := none

def writeEnvOne (id : String) : WriteEnv := ⟨envOne none id, .ok none, .ok none, .error "not evaluated"⟩

def writeScriptOne : List WriteEnv :=
  [writeEnvOne "00000000-0000-4000-8000-000000000001", writeEnvOne "", writeEnvOne "00000000-0000-4000-8000-000000000002",
    writeEnvOne "", writeEnvOne ""]

theorem writeAtHome_governed :
    ∃ r l t, (writeGoverned withoutIndex (some policyOne) (writeOne none)).Ends writeAnswers NewWriteIds [] .empty
      (.ok r) l t ∧ r.result.applied = true ∧ ∃ e id, r.result.resultingEntryId = some id ∧
        t.entries.find? id = some e ∧ Governed actingOne l e := by
  obtain ⟨r, l, t, hends, hy⟩ := (writeGoverned withoutIndex (some policyOne) (writeOne none)).exists_ends_of_check
    writeAnswers NewWriteIds writeScriptOne .empty (fun r _ => r.result.applied) (by decide +kernel)
  have hacting : (writeOne none).actingProjectId = some actingOne := rfl
  obtain ⟨e, id, hid, he, hiff⟩ := governed_iff hacting hends hy
  exact ⟨r, l, t, hends, hy, e, id, hid, he, hiff.mpr (.inr (.inl rfl))⟩

/-- The entry lands in a project for which nothing was evaluated. -/
theorem writeElsewhere_not_governed :
    ∃ r l t, (writeGoverned withoutIndex (some policyOne) (writeOne (some otherProject))).Ends writeAnswers NewWriteIds
      [] .empty (.ok r) l t ∧ r.result.applied = true ∧ ∃ e id, r.result.resultingEntryId = some id ∧
        t.entries.find? id = some e ∧ e.projectId = some otherProject ∧ ¬Governed actingOne l e := by
  obtain ⟨r, l, t, hends, hy⟩ := (writeGoverned withoutIndex (some policyOne)
    (writeOne (some otherProject))).exists_ends_of_check writeAnswers NewWriteIds writeScriptOne .empty
      (fun r _ => r.result.applied) (by decide +kernel)
  have hacting : (writeOne (some otherProject)).actingProjectId = some actingOne := rfl
  obtain ⟨hstored, hcandidate⟩ := (placed_writeGoverned hacting).of_within hends
  obtain ⟨e, id, hplaced⟩ := hstored hy
  refine ⟨r, l, t, hends, hy, e, id, hplaced.resulting, hplaced.stored, hplaced.project, fun hgoverned => ?_⟩
  have hchecks := hplaced.checks (hcandidate r rfl) hgoverned
  unfold ChecksPlacement at hchecks
  revert hchecks
  decide +kernel

end NousCore.Memory
