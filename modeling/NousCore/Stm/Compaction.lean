import Mathlib.Data.List.DropRight
import NousCore.Stm.Store

/-!
# What a compaction leaves

* `trimSummaryToBudget_spec` : a trimmed summary is a suffix that fits into its budget;
* `Compacted` : the context that a compaction leaves, and the summary that it records.
-/

namespace NousCore.Stm

open Async

/-! ## Summaries -/

def summaryThen (summary : Option Text) (text : Text) : Text :=
  (summary.map (· ++ ascii "\n\n")).getD [] ++ text

theorem estimateTokenCount_le {text : Text} {budget : Nat} (h : text.length ≤ budget * 4) :
    estimateTokenCount text ≤ budget := by
  unfold estimateTokenCount
  omega

theorem trimSummaryToBudget_spec (summary : Text) (budget : Nat) :
    (trimSummaryToBudget summary budget).getD [] <:+ summary ∧
      estimateTokenCount ((trimSummaryToBudget summary budget).getD []) ≤ budget := by
  unfold trimSummaryToBudget
  dsimp only
  split_ifs with hnone hfits
  · exact ⟨List.nil_suffix, Nat.zero_le _⟩
  · exact ⟨List.suffix_refl _, estimateTokenCount_le hfits⟩
  · refine ⟨List.drop_suffix _ _, estimateTokenCount_le ?_⟩
    rw [Option.getD_some, List.length_drop]
    omega

theorem normalizeSummary_getD (summary : Option Text) : (normalizeSummary summary).getD [] = summary.getD [] := by
  cases summary with
  | none => rfl
  | some text =>
    rw [normalizeSummary, Option.filter_some]
    split_ifs with h
    · rfl
    · simpa using h

theorem mergeSummaries_normalized (summary : Option Text) {text : Text} (htext : text ≠ []) :
    mergeSummaries (normalizeSummary summary) text = summaryThen (normalizeSummary summary) text := by
  unfold mergeSummaries normalizeSummary summaryThen
  rw [Option.filter_filter]
  simp only [Bool.and_self]
  cases hsummary : summary.filter (· ≠ []) with
  | none => rfl
  | some existing => simp [htext]

theorem ascii_role_ne_nil (role : StmRole) : ascii role.text ≠ [] := by
  cases role <;> decide

theorem rawSummaryText_ne_nil {entries : List StmEntry} (h : entries ≠ []) : rawSummaryText entries ≠ [] := by
  obtain ⟨entry, rest, rfl⟩ := List.exists_cons_of_ne_nil h
  have hfirst := ascii_role_ne_nil entry.role
  unfold rawSummaryText
  cases rest <;> simp [hfirst]

/-! ## Contexts -/

theorem readContext_eq (policy : StmCompactionPolicy) (document : Option StmDocument) :
    ∃ entries summary, readContext policy document = buildContext policy entries summary := by
  unfold readContext
  split
  · exact ⟨_, _, rfl⟩
  · exact ⟨_, _, rfl⟩
  · exact ⟨_, _, rfl⟩

structure Compacted (policy : StmCompactionPolicy) (old new : StmContext) (record : StmCompactionSummaryDraft) : Prop where
  entries : new.entries = old.entries.rtake policy.retainedRecentEntries
  counted : new.tokenCount = calculateContextTokenCount new.entries new.summary
  bounded : new.tokenCount ≤ max policy.targetContextTokens (sumEntryTokens new.entries)
  summary : new.summary.getD [] <:+
    summaryThen old.summary (rawSummaryText (old.entries.rdrop policy.retainedRecentEntries))
  preCount : record.preCompactionTokenCount = old.tokenCount
  postCount : record.postCompactionTokenCount = new.tokenCount

section

variable {env : StmEnv} {policy : StmCompactionPolicy} {old : StmContext} {plan : Compaction}

theorem planCompaction_eq_none (hold : ¬old.entries.length < policy.minEntriesBeforeCompaction) :
    planCompaction env policy old ≠ none := by
  have hretained := policy.retained_lt_min
  unfold planCompaction
  rw [if_neg hold]
  rw [if_neg]
  · exact Option.some_ne_none _
  · rw [List.take_eq_nil_iff]
    rintro (hkept | hnil)
    · omega
    · rw [hnil, List.length_nil] at hold
      omega

theorem compacted_of_plan (hread : ∃ entries summary, old = buildContext policy entries summary)
    (h : planCompaction env policy old = some plan) : Compacted policy old plan.updated plan.draft := by
  obtain ⟨entries, summary, rfl⟩ := hread
  obtain ⟨-, h⟩ := Option.ite_none_left_eq_some.mp h
  obtain ⟨hcompacted, h⟩ := Option.ite_none_left_eq_some.mp h
  cases h
  refine ⟨rfl, rfl, ?_, ?_, rfl, rfl⟩
  · show calculateContextTokenCount _ _ ≤ _
    rw [calculateContextTokenCount, normalizeSummary_getD]
    refine (Nat.add_le_add_right (trimSummaryToBudget_spec _ _).2 _).trans ?_
    rw [buildContext_entries, buildContext_entries]
    omega
  · show (normalizeSummary _).getD [] <:+ _
    rw [normalizeSummary_getD]
    refine (trimSummaryToBudget_spec _ _).1.trans ?_
    have hmerged := mergeSummaries_normalized summary (rawSummaryText_ne_nil hcompacted)
    exact hmerged ▸ List.suffix_refl _

/-- What a call of `compact` leaves of a state: nothing is changed when there are too few entries, or the context is
compacted. A call that fails leaves the context as it was. -/
def MeetsTarget (policy : StmCompactionPolicy) (s t : StmState) : Except StmError Unit → Prop
  | .ok () =>
    (readContext policy s.document).entries.length < policy.minEntriesBeforeCompaction ∧ t = s ∨
      policy.minEntriesBeforeCompaction ≤ (readContext policy s.document).entries.length ∧
        ∃ new record, t.document = some (.context new) ∧ t.summaries = s.summaries.put record ∧
          Compacted policy (readContext policy s.document) new record.toStmCompactionSummaryDraft
  | .error _ => t.document = s.document

theorem meetsTarget_putCompaction {s : StmState} {l : Log StmOp.Answer}
    (hlong : policy.minEntriesBeforeCompaction ≤ (readContext policy s.document).entries.length)
    (hcompacted : Compacted policy (readContext policy s.document) plan.updated plan.draft) :
    (putCompaction plan).Meets stmAnswers .alone (fun _ y t => MeetsTarget policy s t y) l s := by
  refine meets_alone_call fun x answer s' hanswer => ?_
  unfold stmAnswers at hanswer
  dsimp only at hanswer
  split_ifs at hanswer
  · cases hanswer
    exact rfl
  · cases hanswer
    refine meets_alone_call fun x' answer' t hanswer' => ?_
    unfold stmAnswers at hanswer'
    dsimp only at hanswer'
    split_ifs at hanswer'
    · cases hanswer'
      exact rfl
    · cases hanswer'
      exact .inr ⟨hlong, plan.updated, newSummary plan.draft x, rfl, rfl, hcompacted⟩

theorem meetsTarget_compact (env : StmEnv) (policy : StmCompactionPolicy) (s : StmState) :
    (compact env policy).Meets stmAnswers .alone (fun _ y t => MeetsTarget policy s t y) [] s := by
  rw [compact_eq]
  refine meets_alone_call fun x answer s' hanswer => ?_
  cases hanswer
  by_cases hrejects : x.rejects = true
  · rw [if_pos hrejects]
    exact rfl
  · rw [if_neg hrejects]
    show ((planCompaction env policy (readContext policy s.document)).elim (.pure ()) putCompaction).Meets _ _ _ _ _
    cases hplan : planCompaction env policy (readContext policy s.document) with
    | none => exact .inl ⟨not_not.mp fun hlong => planCompaction_eq_none hlong hplan, rfl⟩
    | some plan =>
      refine meetsTarget_putCompaction ?_ (compacted_of_plan (readContext_eq policy s.document) hplan)
      exact not_lt.mp (Option.ite_none_left_eq_some.mp hplan).1

/-! ## What is written is what is read -/

theorem normalizeSummary_normalizeSummary (summary : Option Text) :
    normalizeSummary (normalizeSummary summary) = normalizeSummary summary := by
  unfold normalizeSummary
  rw [Option.filter_filter]
  simp only [Bool.and_self]

def StmOp.ReadBack (policy : StmCompactionPolicy) : StmOp → Prop
  | .putContext context => readContext policy (some (.context context)) = context
  | .getContext | .putSummary _ => True

theorem readBack_buildContext (policy : StmCompactionPolicy) (entries : List StmEntry) (summary : Option Text) :
    StmOp.ReadBack policy (.putContext (buildContext policy entries summary)) := by
  show buildContext policy entries (normalizeSummary summary) = buildContext policy entries summary
  unfold buildContext
  rw [normalizeSummary_normalizeSummary]

theorem readBack_body (env : StmEnv) (policy : StmCompactionPolicy) (task : StmTask) :
    (task.body env policy).Every (StmOp.ReadBack policy) := by
  cases task with
  | append entry =>
    cases hparse : parseStmEntry env entry with
    | error e =>
      rw [StmTask.body, append_of_refused env policy hparse]
      trivial
    | ok validated =>
      rw [StmTask.body, append_of_parsed env policy hparse]
      refine ⟨trivial, fun answer => every_bind (every_unwrap answer) fun raw => ?_⟩
      exact ⟨readBack_buildContext policy _ _, fun answer' => every_unwrap answer'⟩
  | compact =>
    rw [StmTask.body, compact_eq]
    refine ⟨trivial, fun answer => every_bind (every_unwrap answer) fun raw => ?_⟩
    cases hplan : planCompaction env policy (readContext policy raw) with
    | none => trivial
    | some plan =>
      refine ⟨trivial, fun answer' => every_bind (every_unwrap answer') fun _ => ⟨?_, fun answer'' => every_unwrap _⟩⟩
      obtain ⟨-, hplan⟩ := Option.ite_none_left_eq_some.mp hplan
      obtain ⟨-, hplan⟩ := Option.ite_none_left_eq_some.mp hplan
      exact Option.some.inj hplan ▸ readBack_buildContext policy _ _

/-- **A compaction meets its target.** It changes nothing when there are too few entries. Else it leaves the last
entries, within the target or with no summary beside them, and records the counts of both contexts. The contexts that
are stored are those that are read. -/
theorem compact_meets_target (env : StmEnv) (policy : StmCompactionPolicy) :
    (∀ s, (compact env policy).Meets stmAnswers .alone (fun _ y t => MeetsTarget policy s t y) [] s) ∧
      ∀ task, (StmTask.body env policy task).Every (StmOp.ReadBack policy) :=
  ⟨meetsTarget_compact env policy, readBack_body env policy⟩

end

end NousCore.Stm
