import NousCore.Lib.Runs

/-!
# Asynchronous calls as trees of operations

A call asks for one operation after the other and goes on with the answers; between two operations other calls may
run. What an operation is, and what it does, is a parameter.

* `Async Res ε α` : a call with operations `o` answered in `Res o`, that returns `α` or throws `ε`;
* `Async.attempt` : `try … catch`, and `Async.Every` : a property of all operations that a call may ask for;
* `Async.Meets` : the call keeps a contract (what it relies on, what it guarantees) and its postcondition, one rule
  for each way to build a call (`meets_bind`, `meets_attempt`, `meets_alone_call`).
-/

namespace NousCore

inductive Async {Op : Type} (Res : Op → Type) (ε α : Type) where
  | protected pure (a : α)
  | protected throw (e : ε)
  | call (o : Op) (next : Res o → Async Res ε α)

namespace Async

variable {Op : Type} {Res : Op → Type} {ε ε' α β : Type}

protected def bind : Async Res ε α → (α → Async Res ε β) → Async Res ε β
  | .pure a, f => f a
  | .throw e, _ => .throw e
  | .call o next, f => .call o fun r => (next r).bind f

instance : Monad (Async Res ε) where
  pure := .pure
  bind := .bind

/-- Ask for one operation. -/
def perform (o : Op) : Async Res ε (Res o) := .call o .pure

/-- The value of an answer that may be a rejection. -/
def unwrap : Except ε α → Async Res ε α
  | .ok a => .pure a
  | .error e => .throw e

/-- `try … catch`: the outcome as a value. -/
def attempt : Async Res ε α → Async Res ε' (Except ε α)
  | .pure a => .pure (.ok a)
  | .throw e => .pure (.error e)
  | .call o next => .call o fun r => (next r).attempt

/-- The outcome of a call that has come to its end. -/
def outcome : Async Res ε α → Option (Except ε α)
  | .pure a => some (.ok a)
  | .throw e => some (.error e)
  | .call _ _ => none

@[simp] theorem pure_bind' (a : α) (f : α → Async Res ε β) : (Pure.pure a >>= f : Async Res ε β) = f a := rfl

@[simp] theorem throw_bind (e : ε) (f : α → Async Res ε β) : ((.throw e : Async Res ε α) >>= f) = .throw e := rfl

@[simp] theorem call_bind (o : Op) (next : Res o → Async Res ε α) (f : α → Async Res ε β) :
    (.call o next >>= f) = .call o fun r => next r >>= f := rfl

@[simp] theorem perform_bind (o : Op) (f : Res o → Async Res ε β) : (perform o >>= f) = .call o f := rfl

theorem map_eq_bind (f : α → β) (p : Async Res ε α) : f <$> p = p >>= fun a => Pure.pure (f a) := rfl

theorem bind_assoc' {γ : Type} (p : Async Res ε α) (f : α → Async Res ε β) (g : β → Async Res ε γ) :
    p >>= f >>= g = p >>= fun a => f a >>= g := by
  induction p with
  | pure | throw => rfl
  | call o next ih =>
    simp only [call_bind]
    congr 1
    funext r
    exact ih r

/-! ## The operations of a call -/

/-- Every operation that the call may ask for meets `P`. -/
def Every (P : Op → Prop) : Async Res ε α → Prop
  | .call o next => P o ∧ ∀ r, (next r).Every P
  | _ => True

variable {P : Op → Prop}

theorem every_bind {p : Async Res ε α} {f : α → Async Res ε β} (hp : p.Every P)
    (hf : ∀ a, (f a).Every P) : (p >>= f).Every P := by
  induction p with
  | pure a => exact hf a
  | throw e => trivial
  | call o next ih => exact ⟨hp.1, fun r => ih r (hp.2 r)⟩

theorem every_perform {o : Op} (h : P o) : (perform o : Async Res ε (Res o)).Every P :=
  ⟨h, fun _ => trivial⟩

theorem every_unwrap (y : Except ε α) : (unwrap y : Async Res ε α).Every P := by
  cases y <;> trivial

theorem every_attempt {p : Async Res ε α} (hp : p.Every P) :
    (p.attempt : Async Res ε' (Except ε α)).Every P := by
  induction p with
  | pure | throw => trivial
  | call o next ih => exact ⟨hp.1, fun r => ih r (hp.2 r)⟩

theorem every_of_forall (h : ∀ o, P o) (p : Async Res ε α) : p.Every P := by
  induction p with
  | pure | throw => trivial
  | call o next ih => exact ⟨h o, ih⟩

theorem Every.mono {P Q : Op → Prop} (h : ∀ o, P o → Q o) {p : Async Res ε α} (hp : p.Every P) : p.Every Q := by
  induction p with
  | pure | throw => trivial
  | call o next ih => exact ⟨h o hp.1, fun r => ih r (hp.2 r)⟩

end Async

/-! ## What a call leaves in its log -/

/-- The operations that a call has been answered, with the answers. -/
abbrev Log {Op : Type} (Res : Op → Type) := List (Sigma Res)

namespace Async

variable {Op : Type} {Res : Op → Type} {ε α β : Type}

/-- Whatever is answered, the log and the outcome at the end of the call meet `post`. -/
def Traces (post : Log Res → Except ε α → Prop) : Async Res ε α → Log Res → Prop
  | .pure a, l => post l (.ok a)
  | .throw e, l => post l (.error e)
  | .call o next, l => ∀ r, (next r).Traces post (l ++ [⟨o, r⟩])

theorem Traces.mono {post post' : Log Res → Except ε α → Prop} (h : ∀ l y, post l y → post' l y) {p : Async Res ε α}
    {l : Log Res} (hp : p.Traces post l) : p.Traces post' l := by
  induction p generalizing l with
  | pure | throw => exact h _ _ hp
  | call o next ih => exact fun r => ih r (hp r)

theorem traces_bind {post : Log Res → Except ε α → Prop} {p : Async Res ε β} {f : β → Async Res ε α} {l : Log Res} :
    (p >>= f).Traces post l ↔ p.Traces (fun l y => match y with
      | .ok b => (f b).Traces post l
      | .error e => post l (.error e)) l := by
  induction p generalizing l with
  | pure | throw => exact Iff.rfl
  | call o next ih => exact forall_congr' fun r => ih r

theorem traces_isPrefix (p : Async Res ε α) (l : Log Res) : p.Traces (fun l' _ => l <+: l') l := by
  induction p generalizing l with
  | pure | throw => exact List.prefix_refl l
  | call o next ih => exact fun r => (ih r _).mono fun _ _ h => (List.prefix_append _ _).trans h

end Async

/-! ## Calls of a part of the system -/

namespace Async

variable {Op Op' : Type} {Res : Op → Type} {Res' : Op' → Type} {ε α β : Type}

/-- The call with its operations taken for those of a larger system, and their answers read back. -/
def via (f : Op → Op') (g : ∀ o, Res' (f o) → Res o) : Async Res ε α → Async Res' ε α
  | .pure a => .pure a
  | .throw e => .throw e
  | .call o next => .call (f o) fun r => (next (g o r)).via f g

theorem every_via {f : Op → Op'} {g : ∀ o, Res' (f o) → Res o} {P : Op' → Prop} (h : ∀ o, P (f o))
    (p : Async Res ε α) : (p.via f g).Every P := by
  induction p with
  | pure | throw => trivial
  | call o next ih => exact ⟨h o, fun r => ih (g o r)⟩

end Async

/-! ## Running alone -/

/-- What the operations do: the answer and the next state, or nothing where the operation has to wait. The choice of
the environment (a store that rejects, the answer of a service that is not modelled) is an input. -/
abbrev Answers {Op : Type} (Res : Op → Type) (ρ σ : Type) := (o : Op) → ρ → σ → Option (Res o × σ)

/-- Which operation may be performed with which choice of the environment, after a log and in a state. -/
abbrev Allowance {Op : Type} (Res : Op → Type) (ρ σ : Type) := Log Res → Op → ρ → σ → Prop

namespace Async

variable {Op : Type} {Res : Op → Type} {ε ε' ρ σ α β : Type}

/-- The call runs to its end from `s` with no other call in between. -/
inductive Ends (answers : Answers Res ρ σ) (allowed : Allowance Res ρ σ) :
    Async Res ε α → Log Res → σ → Except ε α → Log Res → σ → Prop
  | pure (a : α) (l : Log Res) (s : σ) : Ends answers allowed (.pure a) l s (.ok a) l s
  | throw (e : ε) (l : Log Res) (s : σ) : Ends answers allowed (.throw e) l s (.error e) l s
  | call {o : Op} {next : Res o → Async Res ε α} {l l' : Log Res} {s s' t : σ} {x : ρ} {r : Res o} {y : Except ε α} :
      answers o x s = some (r, s') → allowed l o x s → Ends answers allowed (next r) (l ++ [⟨o, r⟩]) s' y l' t →
      Ends answers allowed (.call o next) l s y l' t

/-- Run with a script of the choices of the environment. -/
def alone (answers : Answers Res ρ σ) (allowed : Allowance Res ρ σ) [∀ l o x s, Decidable (allowed l o x s)] :
    Async Res ε α → List ρ → Log Res → σ → Option (Except ε α × σ)
  | .pure a, [], _, s => some (.ok a, s)
  | .throw e, [], _, s => some (.error e, s)
  | .call o next, x :: script, l, s =>
    match answers o x s with
    | some (r, s') => if allowed l o x s then (next r).alone answers allowed script (l ++ [⟨o, r⟩]) s' else none
    | none => none
  | _, _, _, _ => none

theorem ends_of_alone {answers : Answers Res ρ σ} {allowed : Allowance Res ρ σ}
    [∀ l o x s, Decidable (allowed l o x s)] {p : Async Res ε α} :
    ∀ {script : List ρ} {l : Log Res} {s t : σ} {y : Except ε α}, p.alone answers allowed script l s = some (y, t) →
      ∃ l', p.Ends answers allowed l s y l' t := by
  induction p with
  | pure a =>
    intro script l s t y h
    cases script with
    | nil =>
      cases h
      exact ⟨l, .pure a l s⟩
    | cons x script => simp [alone] at h
  | throw e =>
    intro script l s t y h
    cases script with
    | nil =>
      cases h
      exact ⟨l, .throw e l s⟩
    | cons x script => simp [alone] at h
  | call o next ih =>
    intro script l s t y h
    cases script with
    | nil => simp [alone] at h
    | cons x script =>
      rw [alone] at h
      split at h
      · rename_i r s' hanswers
        split_ifs at h with hallowed
        obtain ⟨l', hends⟩ := ih r h
        exact ⟨l', .call hanswers hallowed hends⟩
      · cases h

theorem exists_ends_of_check (p : Async Res ε α) (answers : Answers Res ρ σ) (allowed : Allowance Res ρ σ)
    [∀ l o x s, Decidable (allowed l o x s)] (script : List ρ) (s : σ) (check : α → σ → Bool)
    (h : (p.alone answers allowed script [] s).any (fun e => e.1.toOption.any (check · e.2)) = true) :
    ∃ a l t, p.Ends answers allowed [] s (.ok a) l t ∧ check a t = true := by
  obtain ⟨⟨y, t⟩, halone, hy⟩ := (Option.any_eq_true _ _).mp h
  obtain ⟨l, hends⟩ := ends_of_alone halone
  cases y with
  | error e => cases hy
  | ok a => exact ⟨a, l, t, hends, hy⟩

/-- Run with a script, and keep the log. -/
def logged (answers : Answers Res ρ σ) (allowed : Allowance Res ρ σ) [∀ l o x s, Decidable (allowed l o x s)] :
    Async Res ε α → List ρ → Log Res → σ → Option (Except ε α × Log Res × σ)
  | .pure a, [], l, s => some (.ok a, l, s)
  | .throw e, [], l, s => some (.error e, l, s)
  | .call o next, x :: script, l, s =>
    match answers o x s with
    | some (r, s') => if allowed l o x s then (next r).logged answers allowed script (l ++ [⟨o, r⟩]) s' else none
    | none => none
  | _, _, _, _ => none

theorem ends_of_logged {answers : Answers Res ρ σ} {allowed : Allowance Res ρ σ}
    [∀ l o x s, Decidable (allowed l o x s)] {p : Async Res ε α} :
    ∀ {script : List ρ} {l l' : Log Res} {s t : σ} {y : Except ε α},
      p.logged answers allowed script l s = some (y, l', t) → p.Ends answers allowed l s y l' t := by
  induction p with
  | pure a =>
    intro script l l' s t y h
    cases script with
    | nil =>
      cases h
      exact .pure a _ _
    | cons x script => simp [logged] at h
  | throw e =>
    intro script l l' s t y h
    cases script with
    | nil =>
      cases h
      exact .throw e _ _
    | cons x script => simp [logged] at h
  | call o next ih =>
    intro script l l' s t y h
    cases script with
    | nil => simp [logged] at h
    | cons x script =>
      rw [logged] at h
      split at h
      · rename_i r s' hanswers
        split_ifs at h with hallowed
        exact .call hanswers hallowed (ih r h)
      · cases h

theorem exists_ends {answers : Answers Res ρ σ} {allowed : Allowance Res ρ σ}
    (htotal : ∀ l o s, ∃ x r s', answers o x s = some (r, s') ∧ allowed l o x s) (p : Async Res ε α) :
    ∀ (l : Log Res) (s : σ), ∃ y l' t, p.Ends answers allowed l s y l' t := by
  induction p with
  | pure a => exact fun l s => ⟨_, l, s, .pure a l s⟩
  | throw e => exact fun l s => ⟨_, l, s, .throw e l s⟩
  | call o next ih =>
    intro l s
    obtain ⟨x, r, s', hanswers, hallowed⟩ := htotal l o s
    obtain ⟨y, l', t, hends⟩ := ih r (l ++ [⟨o, r⟩]) s'
    exact ⟨y, l', t, .call hanswers hallowed hends⟩

theorem exists_ends_of_every {answers : Answers Res ρ σ} {allowed : Allowance Res ρ σ} {P : Op → Prop} {I : σ → Prop}
    (hstep : ∀ l o s, P o → I s → ∃ x r s', answers o x s = some (r, s') ∧ allowed l o x s ∧ I s')
    {p : Async Res ε α} (hp : p.Every P) (l : Log Res) {s : σ} (hs : I s) : ∃ y l' t, p.Ends answers allowed l s y l' t := by
  induction p generalizing l s with
  | pure a => exact ⟨_, l, s, .pure a l s⟩
  | throw e => exact ⟨_, l, s, .throw e l s⟩
  | call o next ih =>
    obtain ⟨x, r, s', hanswers, hallowed, hs'⟩ := hstep l o s hp.1 hs
    obtain ⟨y, l', t, hends⟩ := ih r (hp.2 r) (l ++ [⟨o, r⟩]) hs'
    exact ⟨y, l', t, .call hanswers hallowed hends⟩

/-! ## Contracts -/

/-- What a call may ask for, what it relies on of the other calls between two operations of its own, and what it
guarantees of each of its operations. -/
structure Contract {Op : Type} (Res : Op → Type) (ρ σ : Type) where
  allowed : Allowance Res ρ σ
  rely : σ → σ → Prop
  guar : σ → σ → Prop

section Meets

variable (answers : Answers Res ρ σ) (c : Contract Res ρ σ)

/-- From `s` on, as long as the others do what `c` relies on, each operation keeps the guarantee of `c`, and the call
ends in `post`. -/
def Meets (post : Log Res → Except ε α → σ → Prop) : Async Res ε α → Log Res → σ → Prop
  | .pure a, l, s => post l (.ok a) s
  | .throw e, l, s => post l (.error e) s
  | .call o next, l, s => ∀ x r s', answers o x s = some (r, s') → c.allowed l o x s →
      c.guar s s' ∧ ∀ s'', c.rely s' s'' → (next r).Meets post (l ++ [⟨o, r⟩]) s''

variable {answers c} {post : Log Res → Except ε α → σ → Prop} {l : Log Res} {s : σ}

@[simp] theorem meets_pure (a : α) : (Pure.pure a : Async Res ε α).Meets answers c post l s ↔ post l (.ok a) s :=
  Iff.rfl

@[simp] theorem meets_throw (e : ε) : (.throw e : Async Res ε α).Meets answers c post l s ↔ post l (.error e) s :=
  Iff.rfl

theorem meets_unwrap (y : Except ε α) : (unwrap y : Async Res ε α).Meets answers c post l s ↔ post l y s := by
  cases y <;> exact Iff.rfl

theorem Meets.mono {post' : Log Res → Except ε α → σ → Prop} (h : ∀ l y s, post l y s → post' l y s)
    {p : Async Res ε α} (hp : p.Meets answers c post l s) : p.Meets answers c post' l s := by
  induction p generalizing l s with
  | pure | throw => exact h _ _ _ hp
  | call o next ih =>
    intro x r s' hanswers hallowed
    obtain ⟨hguar, hnext⟩ := hp x r s' hanswers hallowed
    exact ⟨hguar, fun s'' hrely => ih r (hnext s'' hrely)⟩

/-- **Sequence.** What the first part establishes is what the second part starts from. -/
theorem meets_bind {p : Async Res ε β} {f : β → Async Res ε α} :
    (p >>= f).Meets answers c post l s ↔ p.Meets answers c (fun l y s => match y with
      | .ok b => (f b).Meets answers c post l s
      | .error e => post l (.error e) s) l s := by
  induction p generalizing l s with
  | pure | throw => exact Iff.rfl
  | call o next ih =>
    constructor
    · intro h x r s' hanswers hallowed
      obtain ⟨hguar, hnext⟩ := h x r s' hanswers hallowed
      exact ⟨hguar, fun s'' hrely => (ih r).mp (hnext s'' hrely)⟩
    · intro h x r s' hanswers hallowed
      obtain ⟨hguar, hnext⟩ := h x r s' hanswers hallowed
      exact ⟨hguar, fun s'' hrely => (ih r).mpr (hnext s'' hrely)⟩

theorem meets_map {f : β → α} {p : Async Res ε β} :
    (f <$> p).Meets answers c post l s ↔ p.Meets answers c (fun l y t => post l (y.map f) t) l s := by
  induction p generalizing l s with
  | pure | throw => exact Iff.rfl
  | call o next ih =>
    refine forall_congr' fun x => forall_congr' fun r => forall_congr' fun s' => forall_congr' fun _ => ?_
    exact forall_congr' fun _ => and_congr Iff.rfl (forall_congr' fun _ => forall_congr' fun _ => ih r)

theorem meets_attempt {p : Async Res ε' β} {post : Log Res → Except ε (Except ε' β) → σ → Prop} :
    (p.attempt : Async Res ε (Except ε' β)).Meets answers c post l s ↔
      p.Meets answers c (fun l y s => post l (.ok y) s) l s := by
  induction p generalizing l s with
  | pure | throw => exact Iff.rfl
  | call o next ih =>
    constructor
    · intro h x r s' hanswers hallowed
      obtain ⟨hguar, hnext⟩ := h x r s' hanswers hallowed
      exact ⟨hguar, fun s'' hrely => (ih r).mp (hnext s'' hrely)⟩
    · intro h x r s' hanswers hallowed
      obtain ⟨hguar, hnext⟩ := h x r s' hanswers hallowed
      exact ⟨hguar, fun s'' hrely => (ih r).mpr (hnext s'' hrely)⟩

theorem Meets.ends {allowed : Allowance Res ρ σ} {p : Async Res ε α} {y : Except ε α} {l' : Log Res} {t : σ}
    (hrefl : ∀ s, c.rely s s) (hallowed : ∀ l o x s, allowed l o x s → c.allowed l o x s)
    (h : p.Meets answers c post l s) (hends : p.Ends answers allowed l s y l' t) : post l' y t := by
  induction hends with
  | pure | throw => exact h
  | call hanswers hallow _ ih =>
    exact ih ((h _ _ _ hanswers (hallowed _ _ _ _ hallow)).2 _ (hrefl _))

/-- What every path of the call leaves in its log, the call ends in, when its operations keep the guarantee. -/
theorem Traces.meets {q : Log Res → Except ε α → Prop} {p : Async Res ε α} (h : p.Traces q l)
    (hguar : ∀ l o x s r s', c.allowed l o x s → answers o x s = some (r, s') → c.guar s s') :
    p.Meets answers c (fun l y _ => q l y) l s := by
  induction p generalizing l s with
  | pure | throw => exact h
  | call o next ih => exact fun x r s' hanswers hallowed => ⟨hguar _ _ _ _ _ _ hallowed hanswers, fun _ _ => ih r (h r)⟩

/-- A call that relies on not being disturbed. -/
def Contract.alone : Contract Res ρ σ := ⟨fun _ _ _ _ => True, Eq, fun _ _ => True⟩

theorem meets_alone_call {answers : Answers Res ρ σ} {post : Log Res → Except ε α → σ → Prop} {o : Op}
    {next : Res o → Async Res ε α} {l : Log Res} {s : σ}
    (h : ∀ x r s', answers o x s = some (r, s') → (next r).Meets answers .alone post (l ++ [⟨o, r⟩]) s') :
    (call o next : Async Res ε α).Meets answers .alone post l s :=
  fun x r s' hanswers _ => ⟨trivial, fun _ hrely => hrely ▸ h x r s' hanswers⟩

/-- A call that is not disturbed, with the choices of the environment that are allowed. -/
def Contract.within (allowed : Allowance Res ρ σ) : Contract Res ρ σ := ⟨allowed, Eq, fun _ _ => True⟩

theorem meets_within_call {answers : Answers Res ρ σ} {allowed : Allowance Res ρ σ}
    {post : Log Res → Except ε α → σ → Prop} {o : Op} {next : Res o → Async Res ε α} {l : Log Res} {s : σ}
    (h : ∀ x r s', answers o x s = some (r, s') → allowed l o x s →
      (next r).Meets answers (.within allowed) post (l ++ [⟨o, r⟩]) s') :
    (call o next : Async Res ε α).Meets answers (.within allowed) post l s :=
  fun x r s' hanswers hallowed => ⟨trivial, fun _ hrely => hrely ▸ h x r s' hanswers hallowed⟩

theorem Meets.and_every {answers : Answers Res ρ σ} {P : Op → Prop} {p : Async Res ε α} {l₀ : Log Res}
    (h : p.Meets answers c post l s) (hp : p.Every P) (hl : ∃ l₁, l = l₀ ++ l₁ ∧ ∀ e ∈ l₁, P e.1) :
    p.Meets answers c (fun l' y t => post l' y t ∧ ∃ l₁, l' = l₀ ++ l₁ ∧ ∀ e ∈ l₁, P e.1) l s := by
  induction p generalizing l s with
  | pure | throw => exact ⟨h, hl⟩
  | call o next ih =>
    intro x r s' hanswers hallowed
    obtain ⟨hguar, hnext⟩ := h x r s' hanswers hallowed
    refine ⟨hguar, fun s'' hrely => ih r (hnext s'' hrely) (hp.2 r) ?_⟩
    obtain ⟨l₁, rfl, hl₁⟩ := hl
    refine ⟨l₁ ++ [⟨o, r⟩], List.append_assoc _ _ _, List.forall_mem_append.mpr ⟨hl₁, ?_⟩⟩
    exact fun e he => List.mem_singleton.mp he ▸ hp.1

theorem meets_within_of_forall {answers : Answers Res ρ σ} {allowed : Allowance Res ρ σ}
    {post : Log Res → Except ε α → σ → Prop} (h : ∀ l y s, post l y s) (p : Async Res ε α) (l : Log Res) (s : σ) :
    p.Meets answers (.within allowed) post l s := by
  induction p generalizing l s with
  | pure | throw => exact h _ _ _
  | call o next ih => exact meets_within_call fun x r s' _ _ => ih r _ s'

theorem Meets.of_within {answers : Answers Res ρ σ} {allowed : Allowance Res ρ σ}
    {P : Log Res → Except ε α → σ → Prop} {p : Async Res ε α} {y : Except ε α} {l l' : Log Res} {s t : σ}
    (h : p.Meets answers (.within allowed) P l s) (hends : p.Ends answers allowed l s y l' t) : P l' y t :=
  h.ends (fun _ => rfl) (fun _ _ _ _ h => h) hends

theorem meets_alone_of_every {answers : Answers Res ρ σ} {P : Op → Prop} {R : σ → σ → Prop} (hrefl : ∀ s, R s s)
    (htrans : ∀ s t u, R s t → R t u → R s u) (hstep : ∀ o x s r t, P o → answers o x s = some (r, t) → R s t)
    {p : Async Res ε α} (hp : p.Every P) (l : Log Res) (s : σ) :
    p.Meets answers .alone (fun _ _ t => R s t) l s := by
  induction p generalizing l s with
  | pure | throw => exact hrefl s
  | call o next ih =>
    refine meets_alone_call fun x r s' hanswers => ?_
    exact (ih r (hp.2 r) _ s').mono fun _ _ t h => htrans _ _ _ (hstep _ _ _ _ _ hp.1 hanswers) h

theorem Meets.within {answers : Answers Res ρ σ} (allowed : Allowance Res ρ σ) {P : Log Res → Except ε α → σ → Prop}
    {p : Async Res ε α} {l : Log Res} {s : σ} (h : p.Meets answers .alone P l s) :
    p.Meets answers (.within allowed) P l s := by
  induction p generalizing l s with
  | pure | throw => exact h
  | call o next ih => exact meets_within_call fun x r s' hanswers _ => ih r ((h x r s' hanswers trivial).2 s' rfl)

theorem Meets.of_alone {answers : Answers Res ρ σ} {allowed : Allowance Res ρ σ}
    {P : Log Res → Except ε α → σ → Prop} {p : Async Res ε α} {y : Except ε α} {l l' : Log Res} {s t : σ}
    (h : p.Meets answers .alone P l s) (hends : p.Ends answers allowed l s y l' t) : P l' y t :=
  h.ends (fun _ => rfl) (fun _ _ _ _ _ => trivial) hends

end Meets

end Async

end NousCore
