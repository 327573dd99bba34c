import NousCore.Lib.Interpret

/-!
# Calls that do not interfere

* `Isolates.inTurn_filter` : leaving out the calls of the others changes no outcome of one's own calls.
-/

namespace NousCore

namespace Async

variable {Op Op' : Type} {Res : Op → Type} {Res' : Op' → Type} {ε α β : Type}

/-- Every operation that the call may ask for meets `P`, and every value that it may return meets `Q`. -/
def Yields (P : Op → Prop) (Q : α → Prop) : Async Res ε α → Prop
  | .pure a => Q a
  | .throw _ => True
  | .call o next => P o ∧ ∀ r, (next r).Yields P Q

variable {P : Op → Prop} {Q : α → Prop} {R : β → Prop}

theorem yields_perform {o : Op} (h : P o) : (perform o : Async Res ε (Res o)).Yields P fun _ => True :=
  ⟨h, fun _ => trivial⟩

theorem yields_unwrap {y : Except ε α} (h : ∀ a, y = .ok a → Q a) : (unwrap y : Async Res ε α).Yields P Q := by
  cases y with
  | ok a => exact h a rfl
  | error e => trivial

theorem yields_bind {p : Async Res ε α} {f : α → Async Res ε β} (hp : p.Yields P Q)
    (hf : ∀ a, Q a → (f a).Yields P R) : (p >>= f).Yields P R := by
  induction p with
  | pure a => exact hf a hp
  | throw e => trivial
  | call o next ih => exact ⟨hp.1, fun r => ih r (hp.2 r)⟩

theorem Yields.every {p : Async Res ε α} (hp : p.Yields P Q) : p.Every P := by
  induction p with
  | pure | throw => trivial
  | call o next ih => exact ⟨hp.1, fun r => ih r (hp.2 r)⟩

theorem Every.yields {p : Async Res ε α} (hp : p.Every P) : p.Yields P fun _ => True := by
  induction p with
  | pure | throw => trivial
  | call o next ih => exact ⟨hp.1, fun r => ih r (hp.2 r)⟩

theorem Yields.interpret {S : Op' → Prop} {h : ∀ o, Async Res' ε (Res o)} (hP : ∀ o, P o → (h o).Every S)
    {p : Async Res ε α} (hp : p.Yields P Q) : (p.interpret h).Yields S Q := by
  induction p with
  | pure a => exact hp
  | throw e => trivial
  | call o next ih => exact yields_bind (hP o hp.1).yields fun r _ => ih r (hp.2 r)

/-! ## Calls one after the other -/

section InTurn

variable {Task ρ σ : Type} (answers : Answers Res ρ σ) (body : Task → Async Res ε α)

/-- Run alone, with any choices of the environment. -/
def freely (p : Async Res ε α) (script : List ρ) (s : σ) : Option (Except ε α × σ) :=
  p.alone answers (fun _ _ _ _ => True) script [] s

/-- The outcomes of calls that run one after the other, each with its script, and the state that they leave. -/
def inTurn : List (Task × List ρ) → σ → Option (List (Task × Except ε α) × σ)
  | [], s => some ([], s)
  | (t, script) :: calls, s => do
    let (y, s') ← (body t).freely answers script s
    let (ys, s'') ← inTurn calls s'
    return ((t, y) :: ys, s'')

variable {answers}

theorem ends_of_freely {p : Async Res ε α} {script : List ρ} {s t : σ} {y : Except ε α}
    (h : p.freely answers script s = some (y, t)) :
    ∃ l, p.Ends answers (fun l _ x _ => script[l.length]? = some x) [] s y l t := by
  have hall : ∀ (taken rest : List ρ) (l : Log Res) (s : σ), taken.length = l.length →
      p.alone answers (fun _ _ _ _ => True) rest l s = some (y, t) →
      ∃ l', p.Ends answers (fun l _ x _ => (taken ++ rest)[l.length]? = some x) l s y l' t := by
    clear h
    induction p with
    | pure a =>
      intro taken rest l s _ h
      obtain ⟨l', hends⟩ := ends_of_alone h
      cases hends
      exact ⟨l, .pure a l _⟩
    | throw e =>
      intro taken rest l s _ h
      obtain ⟨l', hends⟩ := ends_of_alone h
      cases hends
      exact ⟨l, .throw e l _⟩
    | call o next ih =>
      intro taken rest l s hlength h
      cases rest with
      | nil => simp [alone] at h
      | cons x rest =>
        rw [alone] at h
        split at h
        · rename_i r s' hanswers
          rw [if_pos trivial] at h
          obtain ⟨l', hends⟩ := ih r (taken ++ [x]) rest (l ++ [⟨o, r⟩]) s' (by simp [hlength]) h
          rw [List.append_assoc, List.singleton_append] at hends
          exact ⟨l', .call hanswers (by simp [← hlength]) hends⟩
        · cases h
  exact hall [] script [] s rfl h

theorem exists_freely (htotal : ∀ o s, ∃ x r s', answers o x s = some (r, s')) (p : Async Res ε α) (s : σ) :
    ∃ script y s', p.freely answers script s = some (y, s') := by
  unfold freely
  generalize ([] : Log Res) = l
  induction p generalizing l s with
  | pure | throw => exact ⟨[], _, _, rfl⟩
  | call o next ih =>
    obtain ⟨x, r, s', hanswers⟩ := htotal o s
    obtain ⟨script, y, t, hnext⟩ := ih r s' (l ++ [⟨o, r⟩])
    refine ⟨x :: script, y, t, ?_⟩
    rw [alone, hanswers]
    exact (if_pos trivial).trans hnext

theorem exists_freely_choosing {choose : Op → ρ} (htotal : ∀ o s, ∃ r s', answers o (choose o) s = some (r, s'))
    (p : Async Res ε α) (s : σ) : ∃ script y l s', p.freely answers script s = some (y, s') ∧
      p.Ends answers (fun _ o x _ => x = choose o) [] s y l s' := by
  unfold freely
  generalize ([] : Log Res) = l₀
  induction p generalizing l₀ s with
  | pure a => exact ⟨[], _, l₀, _, rfl, .pure a l₀ s⟩
  | throw e => exact ⟨[], _, l₀, _, rfl, .throw e l₀ s⟩
  | call o next ih =>
    obtain ⟨r, s', hanswers⟩ := htotal o s
    obtain ⟨script, y, l, t, hnext, hends⟩ := ih r s' (l₀ ++ [⟨o, r⟩])
    refine ⟨choose o :: script, y, l, t, ?_, .call hanswers rfl hends⟩
    rw [alone, hanswers]
    exact (if_pos trivial).trans hnext

end InTurn

end Async

/-! ## Views -/

open Async

variable {Op Task : Type} {Res : Op → Type} {ρ σ ε α : Type}

/-- States that agree in what one can see: one's own operations are answered alike, and keep the agreement, and the
operations of others leave what one can see as it is. -/
structure Isolates (answers : Answers Res ρ σ) (agree : σ → σ → Prop) (mine others : Op → Prop) : Prop where
  refl : ∀ s, agree s s
  trans : ∀ s t u, agree s t → agree t u → agree s u
  respects : ∀ o x s t r s', mine o → agree s t → answers o x s = some (r, s') →
    ∃ t', answers o x t = some (r, t') ∧ agree s' t'
  frame : ∀ o x s r s', others o → answers o x s = some (r, s') → agree s' s

namespace Isolates

variable {answers : Answers Res ρ σ} {agree : σ → σ → Prop} {mine others : Op → Prop}

theorem alone_respects (h : Isolates answers agree mine others) {p : Async Res ε α} (hp : p.Every mine)
    {script : List ρ} {l : Log Res} {s s' t : σ} {y : Except ε α} (hagree : agree s t)
    (halone : p.alone answers (fun _ _ _ _ => True) script l s = some (y, s')) :
    ∃ t', p.alone answers (fun _ _ _ _ => True) script l t = some (y, t') ∧ agree s' t' := by
  induction p generalizing script l s t with
  | pure | throw =>
    cases script with
    | nil =>
      cases halone
      exact ⟨t, rfl, hagree⟩
    | cons x script => simp [alone] at halone
  | call o next ih =>
    cases script with
    | nil => simp [alone] at halone
    | cons x script =>
      rw [alone] at halone
      split at halone
      · rename_i r s₁ hanswers
        obtain ⟨t₁, hanswers', hagree'⟩ := h.respects o x s t r s₁ hp.1 hagree hanswers
        rw [if_pos trivial] at halone
        obtain ⟨t', halone', hagree''⟩ := ih r (hp.2 r) hagree' halone
        refine ⟨t', ?_, hagree''⟩
        rw [alone, hanswers']
        dsimp only
        rw [if_pos trivial, halone']
      · cases halone

theorem alone_frame (h : Isolates answers agree mine others) {p : Async Res ε α} (hp : p.Every others)
    {script : List ρ} {l : Log Res} {s s' : σ} {y : Except ε α}
    (halone : p.alone answers (fun _ _ _ _ => True) script l s = some (y, s')) : agree s' s := by
  induction p generalizing script l s with
  | pure | throw =>
    cases script with
    | nil =>
      obtain ⟨-, rfl⟩ := Prod.mk.inj (Option.some.inj halone)
      exact h.refl s
    | cons x script => simp [alone] at halone
  | call o next ih =>
    cases script with
    | nil => simp [alone] at halone
    | cons x script =>
      rw [alone] at halone
      split at halone
      · rename_i r s₁ hanswers
        rw [if_pos trivial] at halone
        exact h.trans _ _ _ (ih r (hp.2 r) halone) (h.frame o x s r s₁ hp.1 hanswers)
      · cases halone

/-- **Noninterference.** Without the calls of the others, one's own calls have the same outcomes, and leave the same
view. -/
theorem inTurn_filter (h : Isolates answers agree mine others) (body : Task → Async Res ε α) (own : Task → Bool)
    {calls : List (Task × List ρ)} {ys : List (Task × Except ε α)} {s s' t : σ} (hagree : agree s t)
    (hmine : ∀ call ∈ calls, own call.1 = true → (body call.1).Every mine)
    (hothers : ∀ call ∈ calls, own call.1 = false → (body call.1).Every others)
    (hrun : inTurn answers body calls s = some (ys, s')) :
    ∃ t', inTurn answers body (calls.filter (own ·.1)) t = some (ys.filter (own ·.1), t') ∧ agree s' t' := by
  induction calls generalizing s t ys with
  | nil =>
    cases hrun
    exact ⟨t, rfl, hagree⟩
  | cons call calls ih =>
    obtain ⟨task, script⟩ := call
    obtain ⟨⟨y, s₁⟩, hcall, hrun⟩ := Option.bind_eq_some_iff.mp hrun
    obtain ⟨⟨ys', s₂⟩, hrest, hrun⟩ := Option.bind_eq_some_iff.mp hrun
    cases hrun
    obtain ⟨hm, hmine⟩ := List.forall_mem_cons.mp hmine
    obtain ⟨ho, hothers⟩ := List.forall_mem_cons.mp hothers
    cases hown : own task with
    | true =>
      obtain ⟨t₁, hcall', hagree'⟩ := h.alone_respects (hm hown) hagree hcall
      obtain ⟨t', hrest', hagree''⟩ := ih hagree' hmine hothers hrest
      refine ⟨t', ?_, hagree''⟩
      rw [List.filter_cons_of_pos (by exact hown), List.filter_cons_of_pos (by exact hown), inTurn]
      rw [show (body task).freely answers script t = some (y, t₁) from hcall']
      dsimp only [Option.bind_eq_bind, Option.bind_some]
      rw [hrest']
      rfl
    | false =>
      obtain ⟨t', hrest', hagree'⟩ := ih (h.trans _ _ _ (h.alone_frame (ho hown) hcall) hagree) hmine hothers hrest
      refine ⟨t', ?_, hagree'⟩
      rw [List.filter_cons_of_neg (by simp [hown]), List.filter_cons_of_neg (by simp [hown]), hrest']

end Isolates

end NousCore
