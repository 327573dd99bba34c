import NousCore.Lib.Once
import Mathlib.Data.List.Perm.Basic

/-!
# Operations that are calls of their own

What one call takes for an operation may itself take several operations of a store.

* `Async.traces_bind_of_every` : a part of a call that puts nothing down;
* `System.journal_of_run` : when a list grows by what an operation puts down, it is the journal, in some order.
-/

namespace NousCore

namespace Async

variable {Op Op' : Type} {Res : Op → Type} {Res' : Op' → Type} {ε α β : Type}

/-- The call with each of its operations taken for a call, whose outcome is its answer. -/
def interpret (h : ∀ o, Async Res' ε (Res o)) : Async Res ε α → Async Res' ε α
  | .pure a => .pure a
  | .throw e => .throw e
  | .call o next => h o >>= fun r => (next r).interpret h

variable {l : Log Res}

theorem Traces.interpret {R : Log Res → Log Res' → Prop} {h : ∀ o, Async Res' ε (Res o)}
    (hstep : ∀ o l l', R l l' → (h o).Traces (fun l'' y => ∃ r, y = .ok r ∧ R (l ++ [⟨o, r⟩]) l'') l')
    {post : Log Res → Except ε α → Prop} {post' : Log Res' → Except ε α → Prop}
    (hpost : ∀ l l' y, R l l' → post l y → post' l' y) {p : Async Res ε α} {l' : Log Res'}
    (hp : p.Traces post l) (hl : R l l') : (p.interpret h).Traces post' l' := by
  induction p generalizing l l' with
  | pure | throw => exact hpost l l' _ hl hp
  | call o next ih =>
    refine traces_bind.mpr ((hstep o l l' hl).mono ?_)
    rintro l'' y ⟨r, rfl, hr⟩
    exact ih r (hp r) hr

variable {P : Op → Prop}

theorem Every.via {f : Op → Op'} {g : ∀ o, Res' (f o) → Res o} {Q : Op' → Prop}
    (h : ∀ o, P o → Q (f o)) {p : Async Res ε α} (hp : p.Every P) : (p.via f g).Every Q := by
  induction p with
  | pure | throw => trivial
  | call o next ih => exact ⟨h o hp.1, fun r => ih _ (hp.2 _)⟩

theorem Every.traces {p : Async Res ε α} (hp : p.Every P) (l : Log Res) :
    p.Traces (fun l' _ => ∃ l₁, l' = l ++ l₁ ∧ ∀ e ∈ l₁, P e.1) l := by
  induction p generalizing l with
  | pure | throw => exact ⟨[], (List.append_nil l).symm, by simp⟩
  | call o next ih =>
    intro r
    refine (ih r (hp.2 r) _).mono ?_
    rintro l' y ⟨l₁, rfl, hl₁⟩
    refine ⟨⟨o, r⟩ :: l₁, by simp, List.forall_mem_cons.mpr ⟨hp.1, hl₁⟩⟩

theorem traces_attempt {ε' : Type} {post : Log Res → Except ε (Except ε' β) → Prop} {p : Async Res ε' β}
    :
    (p.attempt : Async Res ε (Except ε' β)).Traces post l ↔ p.Traces (fun l y => post l (.ok y)) l := by
  induction p generalizing l with
  | pure | throw => exact Iff.rfl
  | call o next ih => exact forall_congr' fun r => ih r

theorem Traces.of_outcome {post : Log Res → Except ε α → Prop} {p : Async Res ε α} {y : Except ε α}
    (h : p.Traces post l) (hout : p.outcome = some y) : post l y := by
  cases p with
  | pure | throw => exact Option.some.inj hout ▸ h
  | call o next => cases hout

theorem traces_bind_of_every {R : Type} {puts : Sigma Res → Option R}
    (hP : ∀ e : Sigma Res, P e.1 → puts e = none) {p : Async Res ε β} (hp : p.Every P) {f : β → Async Res ε α}
    {post : Log Res → Except ε α → Prop}
    (hok : ∀ b l', l'.filterMap puts = l.filterMap puts → (f b).Traces post l')
    (herror : ∀ e l', l'.filterMap puts = l.filterMap puts → post l' (.error e)) : (p >>= f).Traces post l := by
  refine traces_bind.mpr ((hp.traces l).mono ?_)
  rintro l' y ⟨l₁, rfl, hl₁⟩
  have hsame : (l ++ l₁).filterMap puts = l.filterMap puts := by
    rw [List.filterMap_append, List.filterMap_eq_nil_iff.mpr fun e he => hP e (hl₁ e he), List.append_nil]
  cases y with
  | ok b => exact hok b _ hsame
  | error e => exact herror e _ hsame

theorem Traces.via {f : Op → Op'} {g : ∀ o, Res' (f o) → Res o} {R : Log Res → Log Res' → Prop}
    (hstep : ∀ o r l l', R l l' → R (l ++ [⟨o, g o r⟩]) (l' ++ [⟨f o, r⟩]))
    {post : Log Res → Except ε α → Prop} {post' : Log Res' → Except ε α → Prop}
    (hpost : ∀ l l' y, R l l' → post l y → post' l' y) {p : Async Res ε α} {l' : Log Res'}
    (hp : p.Traces post l) (hl : R l l') : (p.via f g).Traces post' l' := by
  induction p generalizing l l' with
  | pure | throw => exact hpost l l' _ hl hp
  | call o next ih => exact fun r => ih _ (hp _) (hstep o r l l' hl)

/-- Where every operation can be answered, what holds of all logs at the end, and of the beginnings of a log of which
it holds, holds of the log of a call in progress. -/
theorem Traces.of_isPrefix {Q : Log Res → Prop} (hanswer : ∀ o, Nonempty (Res o))
    (hshorter : ∀ l e, Q (l ++ [e]) → Q l) {p : Async Res ε α} (h : p.Traces (fun l _ => Q l) l) : Q l := by
  induction p generalizing l with
  | pure | throw => exact h
  | call o next ih =>
    obtain ⟨r⟩ := hanswer o
    exact hshorter _ _ (ih r (h r))

end Async

namespace System

variable {Op Task R : Type} {Res : Op → Type} {ρ σ ε α : Type} {sys : System Task Res ρ σ ε α}
  {c c' : Config Task Res σ ε α} {s : σ} {ls : List (Label Task ρ)}

/-- What the operations of all calls have put down. -/
def journal (puts : Sigma Res → Option R) (c : Config Task Res σ ε α) : List R :=
  c.threads.flatMap fun th => th.log.filterMap puts

variable {puts : Sigma Res → Option R}

theorem journal_set {threads : List (Thread Task Res ε α)} {i : Nat} {t : Task} {p p' : Async Res ε α} {log : Log Res}
    {e : Sigma Res} (hget : threads[i]? = some ⟨t, p, log⟩) :
    ((threads.set i ⟨t, p', log ++ [e]⟩).flatMap fun th => th.log.filterMap puts).Perm
      ((threads.flatMap fun th => th.log.filterMap puts) ++ (puts e).toList) := by
  induction threads generalizing i with
  | nil => simp at hget
  | cons th threads ih =>
    cases i with
    | zero =>
      obtain rfl : th = ⟨t, p, log⟩ := by simpa using hget
      rw [List.set_cons_zero, List.flatMap_cons, List.flatMap_cons, List.filterMap_append, List.append_assoc,
        List.append_assoc]
      refine List.Perm.append_left _ ?_
      have hone : List.filterMap puts [e] = (puts e).toList := by
        cases h : puts e <;> simp [h]
      rw [hone]
      exact List.perm_append_comm
    | succ i =>
      rw [List.set_cons_succ, List.flatMap_cons, List.flatMap_cons, List.append_assoc]
      exact (ih hget).append_left _

theorem journal_thread (ts : List Task) : (ts.map sys.thread).flatMap (fun th => th.log.filterMap puts) = [] := by
  simp [thread]

/-- **The journal.** A list that every operation extends by what it puts down holds what the calls have put down. -/
theorem journal_of_run {records : σ → List R} {admits : Task → Prop} {allowed : Task → Allowance Res ρ σ}
    (hgrows : ∀ t l o x s r s', allowed t l o x s → sys.answers o x s = some (r, s') →
      records s' = records s ++ (puts ⟨o, r⟩).toList)
    (hrun : Run (Guarded sys.Step (Allows admits allowed)) (start s) ls c) :
    ∃ added, records c.state = records s ++ added ∧ added.Perm (journal puts c) := by
  refine hrun.invariant (P := fun c => ∃ added, records c.state = records s ++ added ∧ added.Perm (journal puts c)) ?_
    ⟨[], by simp [start], by simp [start, journal]⟩
  rintro c l c' ⟨added, hadded, hperm⟩ ⟨hstep, hallows⟩
  have hstepped := stepped_of_step hstep
  cases hstepped with
  | begin t =>
    refine ⟨added, hadded, ?_⟩
    unfold System.journal
    rw [List.flatMap_append, show [sys.thread t] = [t].map sys.thread from rfl, journal_thread, List.append_nil]
    exact hperm
  | @turn i x t log o next r s' hget hblocked hanswers =>
    refine ⟨added ++ (puts ⟨o, r⟩).toList, ?_, ?_⟩
    · rw [hgrows t log o x c.state r s' (hallows _ hget) hanswers, hadded, List.append_assoc]
    · unfold System.journal
      rw [List.flatMap_append, journal_thread, List.append_nil]
      exact (hperm.append_right _).trans (journal_set hget).symm

end System

end NousCore
