import NousCore.Lib.Once
import Mathlib.Data.List.Basic

/-!
# Calls that are transactions

A call that reads once, and then writes at most once.

* `System.Transaction` : the shape of such a call;
* `System.serial_of_fresh` : fresh transactions do to the state what they do one after the other, in the order in which
  they return.
-/

namespace NousCore.System

open Async

variable {Op Task : Type} {Res : Op → Type} {ρ σ ε α : Type} {sys : System Task Res ρ σ ε α}
  {c c' : Config Task Res σ ε α} {s : σ} {ls : List (Label Task ρ)}

/-- What is left of a transaction that has read: it has ended, or it ends with its next operation. -/
def Commits (p : Async Res ε α) : Prop := p.outcome ≠ none ∨ ∃ o next, p = .call o next ∧ ∀ r, (next r).outcome ≠ none

/-- A call that asks one of the operations that `reads` are, and then commits. -/
def Transaction (reads : Op → Prop) (p : Async Res ε α) : Prop :=
  ∃ o next, p = .call o next ∧ reads o ∧ ∀ r, Commits (next r)

/-- A call of a task, with its outcome, when no other call is in progress. -/
def InTurn (sys : System Task Res ρ σ ε α) : σ → Task × Except ε α → σ → Prop := fun s e t =>
  ∃ l, (sys.body e.1).Ends sys.answers (fun _ _ _ _ => True) [] s e.2 l t

/-- The call that takes its turn may be answered again what it was answered before. -/
def Fresh (sys : System Task Res ρ σ ε α) (c : Config Task Res σ ε α) : Label Task ρ → Prop
  | .begin _ => True
  | .turn i _ => ∀ th ∈ c.threads[i]?, ∀ e ∈ th.log, ∃ x, (sys.answers e.1 x c.state).map Prod.fst = some e.2

def outcomes (c : Config Task Res σ ε α) : List (Task × Except ε α) :=
  c.returned.filterMap fun e => c.threads[e.1]?.map fun th => (th.task, e.2)

/-- The call that begins is one that `admits` lets begin. -/
def Opens (admits : Task → Prop) : Label Task ρ → Prop
  | .begin t => admits t
  | .turn _ _ => True

instance (admits : Task → Prop) [DecidablePred admits] (l : Label Task ρ) : Decidable (Opens admits l) :=
  match l with
  | .begin t => inferInstanceAs (Decidable (admits t))
  | .turn _ _ => instDecidableTrue

/-- A transaction has not begun, or it has read, or it has ended. -/
inductive Stage (sys : System Task Res ρ σ ε α) (reads : Op → Prop) (th : Thread Task Res ε α) : Prop
  | begun : th = sys.thread th.task → Stage sys reads th
  | read {o : Op} {next : Res o → Async Res ε α} {r : Res o} : sys.body th.task = .call o next → reads o →
      th.program = next r → th.log = [⟨o, r⟩] → Stage sys reads th
  | ended : th.program.outcome ≠ none → Stage sys reads th

theorem outcome_eq_some {p : Async Res ε α} (h : p.outcome ≠ none) :
    ∃ y, p.outcome = some y ∧ ∀ (answers : Answers Res ρ σ) l s, p.Ends answers (fun _ _ _ _ => True) l s y l s := by
  cases p with
  | pure a => exact ⟨_, rfl, fun _ l s => .pure a l s⟩
  | throw e => exact ⟨_, rfl, fun _ l s => .throw e l s⟩
  | call o next => exact absurd rfl h

theorem Stepped.outcomes {l : Label Task ρ} (h : sys.Stepped c l c') (hc : Settled c) {i : Nat}
    {th : Thread Task Res ε α} (hget : c'.threads[i]? = some th)
    (hreturned : c'.returned = c.returned ++ settle i th.program) :
    outcomes c' = outcomes c ++ th.program.outcome.toList.map fun y => (th.task, y) := by
  unfold System.outcomes
  rw [hreturned, List.filterMap_append]
  congr 1
  · refine List.filterMap_congr fun e he => ?_
    obtain ⟨u, hu, -⟩ := hc e he
    obtain ⟨u', hu', htask⟩ := h.task hu
    rw [hu, hu', Option.map_some, Option.map_some, htask]
  · unfold settle
    cases th.program.outcome with
    | none => rfl
    | some y =>
      show List.filterMap _ [(i, y)] = _
      rw [List.filterMap_cons, hget]
      rfl

theorem admits_of_mem_outcomes {admits : Task → Prop} (hspawned : ∀ o, sys.spawned o = [])
    (hrun : Run (Guarded sys.Step fun _ l => Opens admits l) (start s) ls c) :
    ∀ e ∈ outcomes c, admits e.1 := by
  have hthreads : ∀ th ∈ c.threads, admits th.task := by
    refine hrun.invariant (P := fun c => ∀ th ∈ c.threads, admits th.task) ?_ (by simp [start])
    rintro c l c' hc ⟨hstep, hopens⟩ th hth
    have hstepped := stepped_of_step hstep
    clear hstep
    cases hstepped with
    | begin t =>
      rcases List.mem_append.mp hth with hold | hnew
      · exact hc th hold
      · exact List.mem_singleton.mp hnew ▸ hopens
    | @turn i x t log o next r s' hget hblocked hanswers =>
      rw [hspawned, List.map_nil, List.append_nil] at hth
      rcases List.mem_or_eq_of_mem_set hth with hold | rfl
      · exact hc th hold
      · exact hc ⟨t, .call o next, log⟩ (List.mem_of_getElem? hget)
  intro e he
  obtain ⟨e', -, he'⟩ := List.mem_filterMap.mp he
  obtain ⟨th, hth, rfl⟩ := Option.map_eq_some_iff.mp he'
  exact hthreads th (List.mem_of_getElem? hth)

section Serial

variable {reads : Op → Prop} (hbody : ∀ t, Transaction reads (sys.body t))
  (hreads : ∀ o, reads o → ∀ x s r s', sys.answers o x s = some (r, s') → s' = s)

include hbody in
theorem outcome_body (t : Task) : (sys.body t).outcome = none := by
  obtain ⟨o, next, hcall, -⟩ := hbody t
  rw [hcall]
  rfl

theorem stage_turn {i : Nat} {x : ρ} {t : Task} {log : Log Res} {o : Op} {next : Res o → Async Res ε α} {r : Res o}
    {s' : σ} (hbody : Transaction reads (sys.body t))
    (hreads : ∀ o, reads o → ∀ x s r s', sys.answers o x s = some (r, s') → s' = s)
    (hget : c.threads[i]? = some ⟨t, .call o next, log⟩) (hanswers : sys.answers o x c.state = some (r, s'))
    (hstage : Stage sys reads ⟨t, .call o next, log⟩) (hfresh : sys.Fresh c (.turn i x)) :
    Stage sys reads ⟨t, next r, log ++ [⟨o, r⟩]⟩ ∧
      (s' = c.state ∧ (next r).outcome = none ∨
        ∃ y, (next r).outcome = some y ∧ sys.InTurn c.state (t, y) s') := by
  obtain ⟨o₀, next₀, hcall, hread, hcommits⟩ := hbody
  cases hstage with
  | begun h =>
    -- the call reads
    obtain ⟨-, hprogram, rfl⟩ := Thread.mk.inj h
    obtain ⟨rfl, heq⟩ := Async.call.inj (hprogram.trans hcall)
    obtain rfl := eq_of_heq heq
    have hsame := hreads o hread x _ _ _ hanswers
    refine ⟨.read hcall hread rfl rfl, ?_⟩
    by_cases hout : (next r).outcome = none
    · exact .inl ⟨hsame, hout⟩
    · obtain ⟨y, hy, hends⟩ := outcome_eq_some (σ := σ) (ρ := ρ) hout
      refine .inr ⟨y, hy, [⟨o, r⟩], ?_⟩
      rw [hcall]
      exact .call hanswers trivial (hends _ _ _)
  | @read o' next' r' hcall' hread' hprogram hlog =>
    -- the call writes, having read what it would read again
    obtain rfl : log = [⟨o', r'⟩] := hlog
    obtain ⟨x', hx'⟩ := hfresh _ hget ⟨o', r'⟩ (List.mem_singleton_self _)
    obtain ⟨⟨r'', s''⟩, hagain, hsameAnswer⟩ := Option.map_eq_some_iff.mp hx'
    have hagain : sys.answers o' x' c.state = some (r', s'') := hagain.trans (congrArg some (Prod.ext hsameAnswer rfl))
    have hsame := hreads o' hread' x' _ _ _ hagain
    have hends : (next r).outcome ≠ none := by
      obtain ⟨rfl, heq⟩ := Async.call.inj (hcall.symm.trans hcall')
      obtain rfl := eq_of_heq heq
      rcases hcommits r' with hout | ⟨o₁, next₁, hnext, hout⟩
      · exact absurd (congrArg Async.outcome hprogram.symm) hout
      · obtain ⟨rfl, heq⟩ := Async.call.inj (hprogram.trans hnext)
        obtain rfl := eq_of_heq heq
        exact hout r
    obtain ⟨y, hy, hend⟩ := outcome_eq_some (σ := σ) (ρ := ρ) hends
    refine ⟨.ended hends, .inr ⟨y, hy, [⟨o', r'⟩, ⟨o, r⟩], ?_⟩⟩
    rw [hcall']
    refine .call hagain trivial ?_
    rw [← show Async.call o next = next' r' from hprogram, hsame]
    exact .call hanswers trivial (hend _ _ _)
  | ended h => exact absurd rfl h

include hbody hreads in
/-- **Serial order.** When every call that takes a turn would read again what it has read, the state is what the calls
that returned make of the first state, one after the other in the order in which they returned. -/
theorem serial_of_fresh (hrun : Run (Guarded sys.Step sys.Fresh) (start s) ls c) :
    Run sys.InTurn s (outcomes c) c.state := by
  have hinv : (∀ th ∈ c.threads, Stage sys reads th) ∧ Settled c ∧ Run sys.InTurn s (outcomes c) c.state := by
    refine hrun.invariant (P := fun c => (∀ th ∈ c.threads, Stage sys reads th) ∧ Settled c ∧
      Run sys.InTurn s (outcomes c) c.state) ?_ ⟨by simp [start], by simp [Settled, start], .nil⟩
    rintro c l c' ⟨hstages, hsettled, hserial⟩ ⟨hstep, hfresh⟩
    have hstepped := stepped_of_step hstep
    have hsettled' := hstepped.settled hsettled
    refine ⟨?_, hsettled', ?_⟩
    · intro th hth
      obtain ⟨i, hget⟩ := List.mem_iff_getElem?.mp hth
      obtain hold | ⟨hnew, -⟩ | ⟨x, o, next, r, log, rfl, hold, hanswers, hth'⟩ := hstepped.threads hget
      · exact hstages th (List.mem_of_getElem? hold)
      · exact .begun hnew
      · rw [hth']
        exact (stage_turn (hbody _) hreads hold hanswers (hstages _ (List.mem_of_getElem? hold)) hfresh).1
    · have houtcomes : ∀ (i : Nat) (th : Thread Task Res ε α), c'.threads[i]? = some th →
          c'.returned = c.returned ++ settle i th.program →
          outcomes c' = outcomes c ++ th.program.outcome.toList.map fun y => (th.task, y) :=
        fun i th => hstepped.outcomes hsettled
      cases hstepped with
      | begin t =>
        rw [houtcomes c.threads.length (sys.thread t) (by simp) rfl]
        show Run sys.InTurn s (_ ++ (sys.body t).outcome.toList.map _) c.state
        rw [outcome_body hbody t]
        exact (List.append_nil _).symm ▸ hserial
      | @turn i x t log o next r s' hget hblocked hanswers =>
        rw [houtcomes i ⟨t, next r, log ++ [⟨o, r⟩]⟩ (getElem?_self hget) rfl]
        obtain ⟨-, ⟨rfl, hout⟩ | ⟨y, hout, hinturn⟩⟩ :=
          stage_turn (hbody t) hreads hget hanswers (hstages _ (List.mem_of_getElem? hget)) hfresh
        · rw [hout]
          exact (List.append_nil _).symm ▸ hserial
        · rw [hout]
          exact .snoc hserial hinturn
  exact hinv.2.2

end Serial

end NousCore.System
