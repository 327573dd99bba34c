import NousCore.Lib.Serial
import NousCore.Stm.Store
import Mathlib.Data.List.Forall2

/-!
# No entry is lost

* `appended` : the entries whose append resolved, in the order in which they did;
* `nothingLost_of_unchanged` : then nothing is lost; `overlap_loses_entry` : two appends that overlap lose an entry.
-/

namespace NousCore.Stm

open Async NousCore.System

variable (env : StmEnv) (policy : StmCompactionPolicy)

/-! ## What is to be kept -/

def StmState.entries (s : StmState) : List StmEntry := (readContext policy s.document).entries

def appendedOf : StmTask × Except StmError Unit → List StmEntry
  | (.append input, .ok ()) => (parseStmEntry env input).toOption.toList
  | _ => []

/-- The entries whose append resolved, in the order in which they did. -/
def appended (c : StmConfig) : List StmEntry := (outcomes c).flatMap (appendedOf env)

def Lists (summary : StmCompactionSummary) (entries : List StmEntry) : Prop :=
  summary.sourceEntryRefs = entries.map (StmEntry.ref env)

def wroteSummary : Sigma StmOp.Answer → Bool
  | ⟨.putSummary _, .ok _⟩ => true
  | _ => false

def readDocument : Sigma StmOp.Answer → Option (Option StmDocument)
  | ⟨.getContext, .ok raw⟩ => some raw
  | _ => none

/-- The summary of the call is stored, and its context not yet. -/
def Between (th : StmThread) : Prop := th.log.any wroteSummary = true ∧ th.program.outcome.isNone = true

instance (th : StmThread) : Decidable (Between th) := inferInstanceAs (Decidable (_ ∧ _))

/-- The entries that were there and those that were appended are, in this order, those of the summaries and those of
the context. Each new summary lists its own part; while a call is between its writes, the part of its summary is still
the beginning of the context. -/
def NothingLost (s : StmState) (c : StmConfig) : Prop :=
  ∃ (summaries : List StmCompactionSummary) (moved pending : List (List StmEntry)),
    c.state.summaries.all = s.summaries.all ++ summaries ∧
      List.Forall₂ (Lists env) summaries (moved ++ pending) ∧
      s.entries policy ++ appended env c = moved.flatten ++ c.state.entries policy ∧
      pending.flatten <+: c.state.entries policy ∧ pending.length ≤ 1 ∧
      ((∀ th ∈ c.threads, ¬Between th) → pending = [])

theorem NothingLost.stored_or_listed {env : StmEnv} {policy : StmCompactionPolicy} {s : StmState} {c : StmConfig}
    (h : NothingLost env policy s c) {entry : StmEntry} (hentry : entry ∈ appended env c) :
    entry ∈ c.state.entries policy ∨
      ∃ summary ∈ c.state.summaries.all, entry.ref env ∈ summary.sourceEntryRefs := by
  obtain ⟨summaries, moved, pending, hall, hlists, hsplit, -⟩ := h
  have hknown : entry ∈ moved.flatten ++ c.state.entries policy := hsplit ▸ List.mem_append_right _ hentry
  rcases List.mem_append.mp hknown with hmoved | hstored
  · obtain ⟨part, hpart, hmem⟩ := List.mem_flatten.mp hmoved
    obtain ⟨i, hi, hget⟩ := List.mem_iff_getElem.mp (List.mem_append_left pending hpart)
    have hlt : i < summaries.length := hlists.length_eq ▸ hi
    refine .inr ⟨summaries[i], hall ▸ List.mem_append_right _ (List.getElem_mem hlt), ?_⟩
    have hlisted : Lists env summaries[i] (moved ++ pending)[i] := hlists.get hlt hi
    rw [hlisted, hget]
    exact List.mem_map_of_mem hmem
  · exact .inl hstored

/-- A call that has read the context takes a turn only while that context is stored, and no other call is between its
writes; and the store does not reject the context of a compaction whose summary it has taken. -/
def Unchanged (c : StmConfig) : StmLabel → Prop
  | .begin _ => True
  | .turn i x => ∀ th ∈ c.threads[i]?, (∀ raw ∈ th.log.filterMap readDocument, c.state.document = raw) ∧
      (th.log.length ≠ 0 → ∀ th' ∈ c.threads.eraseIdx i, ¬Between th') ∧ (Between th → x.rejects = false)

instance (c : StmConfig) (l : StmLabel) : Decidable (Unchanged c l) :=
  match l with
  | .begin _ => instDecidableTrue
  | .turn i x => inferInstanceAs (Decidable (∀ th ∈ c.threads[i]?,
      (∀ raw ∈ th.log.filterMap readDocument, c.state.document = raw) ∧
        (th.log.length ≠ 0 → ∀ th' ∈ c.threads.eraseIdx i, ¬Between th') ∧ (Between th → x.rejects = false)))

/-! ## How far a call has come -/

inductive Stage : StmThread → Prop
  | begun (t : StmTask) : Stage ⟨t, t.body env policy, []⟩
  | appending {input : StmEntryInput} {entry : StmEntry} {raw : Option StmDocument} :
      parseStmEntry env input = .ok entry →
      Stage ⟨.append input, putEntry policy entry (readContext policy raw), [⟨.getContext, .ok raw⟩]⟩
  | compacting {raw : Option StmDocument} {plan : Compaction} :
      planCompaction env policy (readContext policy raw) = some plan →
      Stage ⟨.compact, putCompaction plan, [⟨.getContext, .ok raw⟩]⟩
  | retaining {raw : Option StmDocument} {plan : Compaction} :
      planCompaction env policy (readContext policy raw) = some plan →
      Stage ⟨.compact, putRetained plan, [⟨.getContext, .ok raw⟩, ⟨.putSummary plan.draft, .ok ()⟩]⟩
  | ended {th : StmThread} : th.program.outcome ≠ none → Stage th

variable {env policy} {s s' : StmState} {c c' : StmConfig} {x : StmChoice} {t : StmTask}

theorem appendedOf_append {input : StmEntryInput} {entry : StmEntry} (h : parseStmEntry env input = .ok entry) :
    appendedOf env (.append input, .ok ()) = [entry] := by
  show (parseStmEntry env input).toOption.toList = [entry]
  rw [h]
  rfl

theorem appendedOf_body (t : StmTask) {y : Except StmError Unit} (h : (t.body env policy).outcome = some y) :
    appendedOf env (t, y) = [] := by
  cases t with
  | append input =>
    change (append env policy input).outcome = some y at h
    cases hparse : parseStmEntry env input with
    | error e =>
      rw [append_of_refused env policy hparse] at h
      cases h
      rfl
    | ok entry =>
      rw [append_of_parsed env policy hparse] at h
      cases h
  | compact => rfl

theorem not_between_of_outcome {th : StmThread} (h : th.program.outcome ≠ none) : ¬Between th := by
  intro hbetween
  exact h (Option.isNone_iff_eq_none.mp hbetween.2)

inductive Turned (env : StmEnv) (policy : StmCompactionPolicy) (s : StmState) (x : StmChoice) (log : Log StmOp.Answer) :
    StmState → StmThread → Prop
  /-- It reads, or the store rejects it. -/
  | same {th : StmThread} : ¬Between th → (∀ y, th.program.outcome = some y → appendedOf env (th.task, y) = []) →
      (log.any wroteSummary = true → x.rejects = true) → Turned env policy s x log s th
  | appended {input : StmEntryInput} {entry : StmEntry} {raw : Option StmDocument} {log' : Log StmOp.Answer} :
      parseStmEntry env input = .ok entry → log = [⟨.getContext, .ok raw⟩] →
      Turned env policy s x log
        { s with document := some (.context (buildContext policy ((readContext policy raw).entries ++ [entry])
            (readContext policy raw).summary)) }
        ⟨.append input, .pure (), log'⟩
  /-- It stores the summary of its compaction. -/
  | listed {raw : Option StmDocument} {plan : Compaction} :
      planCompaction env policy (readContext policy raw) = some plan → log = [⟨.getContext, .ok raw⟩] →
      s.summaries.find? x.id = none →
      Turned env policy s x log { s with summaries := s.summaries.put (newSummary plan.draft x) }
        ⟨.compact, putRetained plan, [⟨.getContext, .ok raw⟩, ⟨.putSummary plan.draft, .ok ()⟩]⟩
  /-- It stores the context of its compaction. -/
  | retained {raw : Option StmDocument} {plan : Compaction} {log' : Log StmOp.Answer} :
      planCompaction env policy (readContext policy raw) = some plan →
      log = [⟨.getContext, .ok raw⟩, ⟨.putSummary plan.draft, .ok ()⟩] →
      Turned env policy s x log { s with document := some (.context plan.updated) } ⟨.compact, .pure (), log'⟩

/-! ## One turn -/

theorem putSummary_answer {draft : StmCompactionSummaryDraft} {r : StmOp.Answer (.putSummary draft)}
    (h : stmAnswers (.putSummary draft) x s = some (r, s')) :
    x.rejects = true ∧ r = .error .store ∧ s' = s ∨
      s.summaries.find? x.id = none ∧ r = .ok () ∧ s' = { s with summaries := s.summaries.put (newSummary draft x) } := by
  change (if x.rejects then some (.error .store, s)
    else if (s.summaries.find? x.id).isSome then none
    else some (.ok (), { s with summaries := s.summaries.put (newSummary draft x) })) = some (r, s') at h
  split_ifs at h with hx hid
  · cases h
    exact .inl ⟨hx, rfl, rfl⟩
  · cases h
    exact .inr ⟨by simpa using hid, rfl, rfl⟩

theorem putContext_answer {context : StmContext} {r : StmOp.Answer (.putContext context)}
    (h : stmAnswers (.putContext context) x s = some (r, s')) :
    x.rejects = true ∧ r = .error .store ∧ s' = s ∨
      r = .ok () ∧ s' = { s with document := some (.context context) } := by
  change (if x.rejects then some (.error .store, s)
    else some (.ok (), { s with document := some (.context context) })) = some (r, s') at h
  split_ifs at h with hx
  · cases h
    exact .inl ⟨hx, rfl, rfl⟩
  · cases h
    exact .inr ⟨rfl, rfl⟩

theorem turned_of_read {f : Option StmDocument → StmCall Unit} {r : StmOp.Answer .getContext}
    (hanswers : stmAnswers .getContext x s = some (r, s'))
    (hstage : ∀ raw, Stage env policy ⟨t, f raw, [⟨.getContext, .ok raw⟩]⟩)
    (hnothing : ∀ raw y, (f raw).outcome = some y → appendedOf env (t, y) = []) :
    Stage env policy ⟨t, unwrap r >>= f, [⟨.getContext, r⟩]⟩ ∧
      Turned env policy s x [] s' ⟨t, unwrap r >>= f, [⟨.getContext, r⟩]⟩ := by
  obtain ⟨-, rfl⟩ := Prod.mk.inj (Option.some.inj hanswers)
  cases r with
  | error e =>
    refine ⟨.ended nofun, .same (not_between_of_outcome nofun) (fun y hy => ?_) nofun⟩
    cases hy
    cases t <;> rfl
  | ok raw =>
    refine ⟨hstage raw, .same (fun h => ?_) (hnothing raw) nofun⟩
    simpa [wroteSummary] using h.1

theorem turned_of_begun {o : StmOp} {next : StmOp.Answer o → StmCall Unit} {r : StmOp.Answer o}
    (hbody : .call o next = t.body env policy) (hanswers : stmAnswers o x s = some (r, s')) :
    Stage env policy ⟨t, next r, [⟨o, r⟩]⟩ ∧ Turned env policy s x [] s' ⟨t, next r, [⟨o, r⟩]⟩ := by
  cases t with
  | append input =>
    change Async.call o next = append env policy input at hbody
    cases hparse : parseStmEntry env input with
    | error e =>
      rw [append_of_refused env policy hparse] at hbody
      cases hbody
    | ok entry =>
      rw [append_of_parsed env policy hparse] at hbody
      obtain ⟨rfl, heq⟩ := Async.call.inj hbody
      obtain rfl := eq_of_heq heq
      exact turned_of_read hanswers (fun raw => .appending hparse) fun raw y hy => nomatch hy
  | compact =>
    change Async.call o next = compact env policy at hbody
    rw [compact_eq] at hbody
    obtain ⟨rfl, heq⟩ := Async.call.inj hbody
    obtain rfl := eq_of_heq heq
    refine turned_of_read hanswers (fun raw => ?_) fun raw y hy => rfl
    cases hplan : planCompaction env policy (readContext policy raw) with
    | none => exact .ended nofun
    | some plan => exact .compacting hplan

theorem turned_of_stage {o : StmOp} {next : StmOp.Answer o → StmCall Unit} {log : Log StmOp.Answer}
    {r : StmOp.Answer o} (hstage : Stage env policy ⟨t, .call o next, log⟩) (hanswers : stmAnswers o x s = some (r, s')) :
    Stage env policy ⟨t, next r, log ++ [⟨o, r⟩]⟩ ∧
      Turned env policy s x log s' ⟨t, next r, log ++ [⟨o, r⟩]⟩ := by
  generalize hth : (⟨t, .call o next, log⟩ : StmThread) = th at hstage
  cases hstage with
  | begun t' =>
    obtain ⟨rfl, hprogram, rfl⟩ := Thread.mk.inj hth
    exact turned_of_begun hprogram hanswers
  | @appending input entry raw hparse =>
    obtain ⟨rfl, hprogram, rfl⟩ := Thread.mk.inj hth
    obtain ⟨rfl, heq⟩ := Async.call.inj hprogram
    obtain rfl := eq_of_heq heq
    obtain ⟨-, rfl, rfl⟩ | ⟨rfl, rfl⟩ := putContext_answer hanswers
    · refine ⟨.ended nofun, .same (not_between_of_outcome nofun) (fun y hy => ?_) fun h => ?_⟩
      · cases hy
        rfl
      · simp [wroteSummary] at h
    · exact ⟨.ended nofun, .appended hparse rfl⟩
  | @compacting raw plan hplan =>
    obtain ⟨rfl, hprogram, rfl⟩ := Thread.mk.inj hth
    obtain ⟨rfl, heq⟩ := Async.call.inj hprogram
    obtain rfl := eq_of_heq heq
    obtain ⟨-, rfl, rfl⟩ | ⟨hid, rfl, rfl⟩ := putSummary_answer hanswers
    · refine ⟨.ended nofun, .same (not_between_of_outcome nofun) (fun y hy => rfl) fun h => ?_⟩
      simp [wroteSummary] at h
    · exact ⟨.retaining hplan, .listed hplan rfl hid⟩
  | @retaining raw plan hplan =>
    obtain ⟨rfl, hprogram, rfl⟩ := Thread.mk.inj hth
    obtain ⟨rfl, heq⟩ := Async.call.inj hprogram
    obtain rfl := eq_of_heq heq
    obtain ⟨hx, rfl, rfl⟩ | ⟨rfl, rfl⟩ := putContext_answer hanswers
    · exact ⟨.ended nofun, .same (not_between_of_outcome nofun) (fun y hy => rfl) fun _ => hx⟩
    · exact ⟨.ended nofun, .retained hplan rfl⟩
  | ended h =>
    rw [← hth] at h
    exact absurd rfl h

/-! ## What every turn keeps -/

/-- Either no call is between its writes, or one is: the stored context is still the one that it compacts. -/
inductive Pending (env : StmEnv) (policy : StmCompactionPolicy) (document : Option StmDocument)
    (threads : List StmThread) : List (List StmEntry) → Prop
  | none : (∀ th ∈ threads, ¬Between th) → Pending env policy document threads []
  | one {i : Nat} {plan : Compaction} : planCompaction env policy (readContext policy document) = some plan →
      threads[i]? = some ⟨.compact, putRetained plan,
        [⟨.getContext, .ok document⟩, ⟨.putSummary plan.draft, .ok ()⟩]⟩ →
      (∀ j th, j ≠ i → threads[j]? = some th → ¬Between th) →
      Pending env policy document threads [plan.compactedEntries]

structure Kept (env : StmEnv) (policy : StmCompactionPolicy) (s : StmState) (c : StmConfig) : Prop where
  stages : ∀ th ∈ c.threads, Stage env policy th
  settled : Settled c
  placed : ∃ (summaries : List StmCompactionSummary) (moved pending : List (List StmEntry)),
    c.state.summaries.all = s.summaries.all ++ summaries ∧
      List.Forall₂ (Lists env) summaries (moved ++ pending) ∧
      s.entries policy ++ appended env c = moved.flatten ++ c.state.entries policy ∧
      Pending env policy c.state.document c.threads pending

theorem Kept.nothingLost (h : Kept env policy s c) : NothingLost env policy s c := by
  obtain ⟨summaries, moved, pending, hall, hlists, hsplit, hpending⟩ := h.placed
  refine ⟨summaries, moved, pending, hall, hlists, hsplit, ?_⟩
  cases hpending with
  | none hnone => exact ⟨List.nil_prefix, Nat.zero_le 1, fun _ => rfl⟩
  | @one i plan hplan hget hothers =>
    refine ⟨?_, Nat.le_refl 1, fun hnone => ?_⟩
    · rw [List.flatten_singleton, StmState.entries, (planCompaction_spec hplan).1]
      exact List.prefix_append _ _
    · exact absurd ⟨rfl, rfl⟩ (hnone _ (List.mem_of_getElem? hget))

section Threads

variable {document : Option StmDocument} {threads : List StmThread} {pending : List (List StmEntry)} {i : Nat}
  {th th' : StmThread}

theorem forall_mem_set {P : StmThread → Prop} (hothers : ∀ j th, j ≠ i → threads[j]? = some th → P th) (hP : P th') :
    ∀ th ∈ threads.set i th', P th := by
  intro th hth
  obtain ⟨j, hj⟩ := List.mem_iff_getElem?.mp hth
  by_cases hji : j = i
  · subst hji
    rw [List.getElem?_set_self'] at hj
    obtain ⟨-, -, rfl⟩ := Option.map_eq_some_iff.mp hj
    exact hP
  · exact hothers j th hji (List.getElem?_set_ne (Ne.symm hji) ▸ hj)

section

variable (h : Pending env policy document threads pending)

include h

theorem Pending.begin (hth : ¬Between th) :
    Pending env policy document (threads ++ [th]) pending := by
  cases h with
  | none hnone => exact .none (List.forall_mem_append.mpr ⟨hnone, fun u hu => List.mem_singleton.mp hu ▸ hth⟩)
  | @one i plan hplan hget hothers =>
    refine .one (i := i) hplan ?_ fun j u hji hj => ?_
    · rw [List.getElem?_append_left (List.getElem?_eq_some_iff.mp hget).1]
      exact hget
    · rcases List.mem_append.mp (List.mem_of_getElem? hj) with hold | hnew
      · by_cases hlt : j < threads.length
        · exact hothers j u hji (by rwa [List.getElem?_append_left hlt] at hj)
        · rw [List.getElem?_append_right (by omega)] at hj
          exact List.mem_singleton.mp (List.mem_of_getElem? hj) ▸ hth
      · exact List.mem_singleton.mp hnew ▸ hth

theorem Pending.turn (hget : threads[i]? = some th)
    (hth : ¬Between th) (hth' : ¬Between th') : Pending env policy document (threads.set i th') pending := by
  cases h with
  | none hnone => exact .none (forall_mem_set (fun j u _ hj => hnone u (List.mem_of_getElem? hj)) hth')
  | @one k plan hplan hk hothers =>
    have hki : k ≠ i := by
      rintro rfl
      cases hk.symm.trans hget
      exact hth ⟨rfl, rfl⟩
    refine .one (i := k) hplan ((List.getElem?_set_ne (Ne.symm hki)).trans hk) fun j u hjk hj => ?_
    by_cases hji : j = i
    · subst hji
      rw [List.getElem?_set_self'] at hj
      obtain ⟨-, -, rfl⟩ := Option.map_eq_some_iff.mp hj
      exact hth'
    · exact hothers j u hjk (List.getElem?_set_ne (Ne.symm hji) ▸ hj)

theorem Pending.eq_nil (hget : threads[i]? = some th)
    (hth : ¬Between th) (hothers : ∀ j th, j ≠ i → threads[j]? = some th → ¬Between th) : pending = [] := by
  cases h with
  | none hnone => rfl
  | @one k plan hplan hk hnone =>
    by_cases hki : k = i
    · subst hki
      cases hk.symm.trans hget
      exact absurd ⟨rfl, rfl⟩ hth
    · exact absurd ⟨rfl, rfl⟩ (hothers k _ hki hk)

end

end Threads

theorem getElem?_others {α : Type} {l : List α} {i j : Nat} {a : α} (hji : j ≠ i) (h : l[j]? = some a) :
    a ∈ l.eraseIdx i := List.mem_eraseIdx_iff_getElem?.mpr ⟨j, hji, h⟩

/-- What a turn of a call adds to the entries that were appended, and to what the summaries and the context list. -/
theorem placed_of_turned {i : Nat} {th th' : StmThread} {summaries : List StmCompactionSummary}
    {moved pending : List (List StmEntry)} {known : List StmEntry} (hget : c.threads[i]? = some th)
    (hlive : th.program.outcome.isNone = true)
    (hturned : Turned env policy c.state x th.log s' th') (hguard : Unchanged c (.turn i x))
    (hall : c.state.summaries.all = s.summaries.all ++ summaries)
    (hlists : List.Forall₂ (Lists env) summaries (moved ++ pending))
    (hsplit : known = moved.flatten ++ c.state.entries policy)
    (hpending : Pending env policy c.state.document c.threads pending) :
    ∃ (summaries : List StmCompactionSummary) (moved pending : List (List StmEntry)),
      s'.summaries.all = s.summaries.all ++ summaries ∧
        List.Forall₂ (Lists env) summaries (moved ++ pending) ∧
        known ++ th'.program.outcome.toList.flatMap (fun y => appendedOf env (th'.task, y)) =
          moved.flatten ++ s'.entries policy ∧
        Pending env policy s'.document (c.threads.set i th') pending := by
  obtain ⟨hread, hothers, haccepts⟩ := hguard th hget
  have hothers : th.log.length ≠ 0 → ∀ j u, j ≠ i → c.threads[j]? = some u → ¬Between u :=
    fun hlog j u hji hj => hothers hlog u (getElem?_others hji hj)
  cases hturned with
  | same hth' hnothing hrejects =>
    have hth : ¬Between th := by
      intro hth
      rw [haccepts hth] at hrejects
      exact absurd (hrejects hth.1) (by decide)
    refine ⟨summaries, moved, pending, hall, hlists, ?_, hpending.turn hget hth hth'⟩
    cases hout : th'.program.outcome with
    | none => rw [hsplit, Option.toList_none, List.flatMap_nil, List.append_nil]
    | some y => rw [hsplit, Option.toList_some, List.flatMap_singleton, hnothing y hout, List.append_nil]
  | @appended input entry raw log' hparse hlog =>
    have hth : ¬Between th := fun hth => by simpa [hlog, wroteSummary] using hth.1
    obtain rfl := hpending.eq_nil hget hth (hothers (by simp [hlog]))
    obtain rfl : c.state.document = raw := hread raw (by simp [hlog, readDocument])
    refine ⟨summaries, moved, [], hall, hlists, ?_, ?_⟩
    · show known ++ [Except.ok ()].flatMap (fun y => appendedOf env (.append input, y)) =
        moved.flatten ++ (c.state.entries policy ++ [entry])
      rw [hsplit, List.flatMap_singleton, appendedOf_append hparse, List.append_assoc]
    · exact .none (forall_mem_set (hothers (by simp [hlog])) (not_between_of_outcome nofun))
  | @listed raw plan hplan hlog hid =>
    have hth : ¬Between th := fun hth => by simpa [hlog, wroteSummary] using hth.1
    obtain rfl := hpending.eq_nil hget hth (hothers (by simp [hlog]))
    obtain rfl : c.state.document = raw := hread raw (by simp [hlog, readDocument])
    rw [List.append_nil] at hlists
    refine ⟨summaries ++ [newSummary plan.draft x], moved, [plan.compactedEntries], ?_, ?_, ?_, ?_⟩
    · show (c.state.summaries.rows.set x.id _).values = _
      rw [Record.values_set_of_not_mem _ (Record.get?_eq_none.mp hid), ← List.append_assoc, ← hall]
      rfl
    · exact List.rel_append hlists (.cons (planCompaction_spec hplan).2 .nil)
    · exact (List.append_nil known).trans hsplit
    · refine .one (i := i) hplan ?_ fun j u hji hj => ?_
      · rw [List.getElem?_set_self (List.getElem?_eq_some_iff.mp hget).1]
      · exact hothers (by simp [hlog]) j u hji (by rwa [List.getElem?_set_ne (Ne.symm hji)] at hj)
  | @retained raw plan log' hplan hlog =>
    have hth : Between th := ⟨by simp [hlog, wroteSummary], hlive⟩
    obtain rfl : c.state.document = raw := hread raw (by simp [hlog, readDocument])
    cases hpending with
    | none hnone => exact absurd hth (hnone th (List.mem_of_getElem? hget))
    | @one k plan' hplan' hk hnone =>
      cases hplan.symm.trans hplan'
      obtain ⟨hentries, -⟩ := planCompaction_spec hplan
      refine ⟨summaries, moved ++ [plan.compactedEntries], [], hall, (List.append_nil _).symm ▸ hlists, ?_, ?_⟩
      · show known ++ [] = (moved ++ [plan.compactedEntries]).flatten ++ plan.updated.entries
        rw [List.append_nil, hsplit, StmState.entries, hentries, List.flatten_append, List.flatten_singleton,
          List.append_assoc]
      · exact .none (forall_mem_set (hothers (by simp [hlog])) (not_between_of_outcome nofun))

theorem appended_of_stepped {l : StmLabel} (h : (stmSystem env policy).Stepped c l c') (hc : Settled c) {i : Nat}
    {th : StmThread} (hget : c'.threads[i]? = some th) (hreturned : c'.returned = c.returned ++ settle i th.program) :
    appended env c' = appended env c ++ th.program.outcome.toList.flatMap fun y => appendedOf env (th.task, y) := by
  unfold appended
  rw [h.outcomes hc hget hreturned, List.flatMap_append, List.flatMap_map]

theorem kept_of_step {l : StmLabel} (hc : Kept env policy s c)
    (hstep : Guarded (stmSystem env policy).Step Unchanged c l c') : Kept env policy s c' := by
  obtain ⟨hstep, hguard⟩ := hstep
  have hstepped := stepped_of_step hstep
  have hsettled := hstepped.settled hc.settled
  have happended : ∀ (i : Nat) (th : StmThread), c'.threads[i]? = some th →
      c'.returned = c.returned ++ settle i th.program → appended env c' =
        appended env c ++ th.program.outcome.toList.flatMap fun y => appendedOf env (th.task, y) :=
    fun i th => appended_of_stepped hstepped hc.settled
  obtain ⟨summaries, moved, pending, hall, hlists, hsplit, hpending⟩ := hc.placed
  cases hstepped with
  | begin t =>
    have hnew : ¬Between ((stmSystem env policy).thread t) := fun h => absurd h.1 (by simp [thread])
    refine ⟨List.forall_mem_append.mpr ⟨hc.stages, fun th hth => ?_⟩, hsettled,
      summaries, moved, pending, hall, hlists, ?_, hpending.begin hnew⟩
    · exact List.mem_singleton.mp hth ▸ .begun t
    · rw [happended c.threads.length ((stmSystem env policy).thread t) (by simp) rfl, ← List.append_assoc, hsplit]
      show _ ++ (t.body env policy).outcome.toList.flatMap _ = _
      cases hout : (t.body env policy).outcome with
      | none => exact List.append_nil _
      | some y =>
        rw [Option.toList_some, List.flatMap_singleton]
        exact (congrArg _ (appendedOf_body t hout)).trans (List.append_nil _)
  | @turn i x t log o next r s' hget hblocked hanswers =>
    obtain ⟨hstage, hturned⟩ := turned_of_stage (hc.stages _ (List.mem_of_getElem? hget)) hanswers
    obtain ⟨summaries, moved, pending, hall, hlists, hsplit, hpending⟩ :=
      placed_of_turned hget rfl hturned hguard hall hlists hsplit hpending
    have hthreads : c.threads.set i ⟨t, next r, log ++ [⟨o, r⟩]⟩ ++ [] = c.threads.set i ⟨t, next r, log ++ [⟨o, r⟩]⟩ :=
      List.append_nil _
    refine ⟨?_, hsettled, summaries, moved, pending, hall, hlists, ?_, ?_⟩
    · show ∀ th ∈ c.threads.set i _ ++ [], Stage env policy th
      rw [hthreads]
      exact forall_mem_set (fun j th _ hj => hc.stages th (List.mem_of_getElem? hj)) hstage
    · rw [happended i _ (getElem?_self hget) rfl, ← List.append_assoc]
      exact hsplit
    · show Pending env policy s'.document (c.threads.set i _ ++ []) pending
      rw [hthreads]
      exact hpending

/-- **No entry is lost.** As long as calls write only over the context that they have read, and not between the two
writes of another call, the summaries and the context have every entry once, in append order. -/
theorem nothingLost_of_unchanged {ls : List StmLabel}
    (h : Run (Guarded (stmSystem env policy).Step Unchanged) (start s) ls c) : NothingLost env policy s c := by
  have hstart : Kept env policy s (start s) := by
    exact ⟨by simp [start], by simp [Settled, start], [], [], [], (List.append_nil _).symm, .nil, List.append_nil _,
      .none (by simp [start])⟩
  exact (h.invariant (fun _ _ _ hc hstep => kept_of_step hc hstep) hstart).nothingLost

/-! ## Two runs -/

def exampleTime : String := "2026-03-01T12:00:00.000Z"

/-- The hashes of the two contents below, and the one date. -/
def exampleEnv : StmEnv where
  isDatetime := fun timestamp => timestamp = exampleTime
  sha256 := fun content =>
    if content = [] then "e3b0c44298fc1c149afbf4c8996fb92427ae41e4649b934ca495991b7852b855"
    else "ba7816bf8f01cfea414140de5dae2223b00361a396177a9cb410ff61f20015ad"

def smallPolicy : StmCompactionPolicy where
  maxContextTokens := 2
  targetContextTokens := 1
  minEntriesBeforeCompaction := 2
  retainedRecentEntries := 1
  target_pos := by decide
  retained_pos := by decide
  target_lt_max := by decide
  retained_lt_min := by decide

def firstInput : StmEntryInput := ⟨"user", ascii "abc", exampleTime, none⟩

def secondInput : StmEntryInput := ⟨"assistant", [], exampleTime, none⟩

def firstEntry : StmEntry := ⟨.user, ascii "abc", exampleTime, none⟩

def secondEntry : StmEntry := ⟨.assistant, [], exampleTime, none⟩

def exampleChoice : StmChoice := ⟨false, "7c9e6679-7425-40de-944b-e07fc1f90ae7", exampleTime⟩

/-- Two appends, one after the other, and a compaction that moves the first entry to a summary. -/
theorem nothingLost_compaction : ∃ c, Run (Guarded (stmSystem exampleEnv smallPolicy).Step Unchanged) (start .empty)
      [.begin (.append firstInput), .begin (.append secondInput), .turn 0 exampleChoice, .turn 0 exampleChoice,
        .turn 1 exampleChoice, .turn 1 exampleChoice, .begin .compact, .turn 2 exampleChoice, .turn 2 exampleChoice,
        .turn 2 exampleChoice] c ∧
    NothingLost exampleEnv smallPolicy .empty c ∧ appended exampleEnv c = [firstEntry, secondEntry] ∧
      c.state.entries smallPolicy = [secondEntry] := by
  obtain ⟨c, hrun, hcheck⟩ := (stmSystem exampleEnv smallPolicy).exists_run_of_checkedStep Unchanged
    [.begin (.append firstInput), .begin (.append secondInput), .turn 0 exampleChoice, .turn 0 exampleChoice,
      .turn 1 exampleChoice, .turn 1 exampleChoice, .begin .compact, .turn 2 exampleChoice, .turn 2 exampleChoice,
      .turn 2 exampleChoice] .empty
    (fun c => decide (appended exampleEnv c = [firstEntry, secondEntry] ∧
      c.state.entries smallPolicy = [secondEntry])) (by decide +kernel)
  exact ⟨c, hrun, nothingLost_of_unchanged hrun, of_decide_eq_true hcheck⟩

/-- Two appends that both read the empty context: the second one writes over the first one's entry. -/
theorem overlap_loses_entry : ∃ c, Run (stmSystem exampleEnv defaultStmCompactionPolicy).Step (start .empty)
      [.begin (.append firstInput), .begin (.append secondInput), .turn 0 exampleChoice, .turn 1 exampleChoice,
        .turn 0 exampleChoice, .turn 1 exampleChoice] c ∧
    firstEntry ∈ appended exampleEnv c ∧ firstEntry ∉ c.state.entries defaultStmCompactionPolicy ∧
      c.state.summaries.all = [] ∧ ¬NothingLost exampleEnv defaultStmCompactionPolicy .empty c := by
  obtain ⟨c, hrun, hcheck⟩ := (stmSystem exampleEnv defaultStmCompactionPolicy).exists_run_of_steps
    [.begin (.append firstInput), .begin (.append secondInput), .turn 0 exampleChoice, .turn 1 exampleChoice,
      .turn 0 exampleChoice, .turn 1 exampleChoice] .empty
    (fun c => decide (firstEntry ∈ appended exampleEnv c ∧ firstEntry ∉ c.state.entries defaultStmCompactionPolicy ∧
      c.state.summaries.all = [])) (by decide +kernel)
  obtain ⟨happended, hstored, hsummaries⟩ := of_decide_eq_true hcheck
  refine ⟨c, hrun, happended, hstored, hsummaries, fun h => ?_⟩
  rcases h.stored_or_listed happended with hmem | ⟨summary, hsummary, -⟩
  · exact hstored hmem
  · rw [hsummaries] at hsummary
    exact List.not_mem_nil hsummary

end NousCore.Stm
