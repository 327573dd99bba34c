import NousCore.Lib.Runs
import Mathlib.Logic.Function.Basic

/-!
# Cooperative concurrency

Asynchronous calls on one shared store. A call runs without interruption up to its next `await`; between two such
turns any other call may take a turn.

* `Program σ ε α` : a call on a store of type `σ`, as a tree of reads, writes and awaits;
* `Pool.derived` : without that condition the store is still the outcome of some of the calls, in sequence.
-/

namespace NousCore

universe u

/-- An asynchronous call on a store. -/
inductive Program (σ ε α : Type u) where
  | pure (a : α)
  | throw (e : ε)
  | read (next : σ → Program σ ε α)
  | write (s : σ) (next : Program σ ε α)
  | await (next : Program σ ε α)

namespace Program

variable {σ ε α β : Type u}

def bind : Program σ ε α → (α → Program σ ε β) → Program σ ε β
  | .pure a, f => f a
  | .throw e, _ => .throw e
  | .read next, f => .read fun s => (next s).bind f
  | .write s next, f => .write s (next.bind f)
  | .await next, f => .await (next.bind f)

instance : Monad (Program σ ε) where
  pure := .pure
  bind := .bind

def get : Program σ ε σ := .read .pure

def set (s : σ) : Program σ ε PUnit := .write s (.pure ⟨⟩)

/-- A synchronous computation that may throw. -/
def lift : Except ε α → Program σ ε α
  | .ok a => .pure a
  | .error e => .throw e

/-- Wait for a promise that does not touch the store, and take its value or its rejection. -/
def awaited (x : Except ε α) : Program σ ε α := .await (lift x)

/-- Run to the next `await`: the store then, and what is left of the call. -/
def turn : Program σ ε α → σ → σ × Program σ ε α
  | .pure a, s => (s, .pure a)
  | .throw e, s => (s, .throw e)
  | .read next, s => (next s).turn s
  | .write t next, _ => next.turn t
  | .await next, s => (s, next)

/-- Run to the end with no other call on the store. -/
def alone : Program σ ε α → σ → Except ε α × σ
  | .pure a, s => (.ok a, s)
  | .throw e, s => (.error e, s)
  | .read next, s => (next s).alone s
  | .write t next, _ => next.alone t
  | .await next, s => next.alone s

/-- The next turn begins with a write. -/
def writes : Program σ ε α → Bool
  | .write _ _ => true
  | _ => false

/-- What a call that returns makes of the store, when it runs alone. -/
def effect (p : Program σ ε α) (s : σ) : Except ε σ := (p.alone s).1.map fun _ => (p.alone s).2

section

variable {s t : σ} {a : α} {b : β}

@[simp] theorem alone_get : (get : Program σ ε σ).alone s = (.ok s, s) := rfl

@[simp] theorem alone_set : (set t : Program σ ε PUnit).alone s = (.ok ⟨⟩, t) := rfl

@[simp] theorem alone_pure : (Pure.pure a : Program σ ε α).alone s = (.ok a, s) := rfl

@[simp] theorem alone_lift (x : Except ε α) : (lift x).alone s = (x, s) := by cases x <;> rfl

@[simp] theorem alone_awaited (x : Except ε α) : (awaited x).alone s = (x, s) := alone_lift x

/-- A sequence that returns is a first part that returns and a second that starts where the first stops. -/
theorem alone_bind_eq_ok {p : Program σ ε α} {f : α → Program σ ε β} :
    (p >>= f).alone s = (.ok b, t) ↔ ∃ a u, p.alone s = (.ok a, u) ∧ (f a).alone u = (.ok b, t) := by
  show (p.bind f).alone s = _ ↔ _
  induction p generalizing s with
  | pure | throw => simp [bind, alone]
  | read next ih => exact ih s
  | write u next ih => exact ih
  | await next ih => exact ih

end

/-! ## Transactions -/

/-- What is left of a transaction once it has read the store: it awaits, and then throws, or writes and returns. -/
inductive Commits : Program σ ε α → Prop
  | throw (e : ε) : Commits (.throw e)
  | write (s : σ) (a : α) : Commits (.write s (.pure a))
  | await {next : Program σ ε α} : Commits next → Commits (.await next)

/-- A call that reads the store, and at last writes what it made of it. -/
def Transaction (p : Program σ ε α) : Prop := ∃ next, p = .read next ∧ ∀ s, (next s).Commits

/-- A part of a call that neither reads nor writes the store. -/
inductive Quiet : Program σ ε α → Prop
  | pure (a : α) : Quiet (.pure a)
  | throw (e : ε) : Quiet (.throw e)
  | await {next : Program σ ε α} : Quiet next → Quiet (.await next)

theorem quiet_lift (x : Except ε α) : (lift x : Program σ ε α).Quiet := by
  cases x with
  | error e => exact .throw e
  | ok a => exact .pure a

theorem quiet_awaited (x : Except ε α) : (awaited x : Program σ ε α).Quiet := .await (quiet_lift x)

theorem Quiet.commits_bind {p : Program σ ε α} (hp : p.Quiet) {f : α → Program σ ε β} (h : ∀ a, (f a).Commits) :
    (p >>= f).Commits := by
  induction hp with
  | pure a => exact h a
  | throw e => exact .throw e
  | await _ ih => exact .await ih

theorem commits_set_return (s : σ) (a : α) : (set s >>= fun _ => Pure.pure a : Program σ ε α).Commits := .write s a

theorem transaction_get_bind {f : σ → Program σ ε α} (h : ∀ s, (f s).Commits) : (get >>= f).Transaction :=
  ⟨f, rfl, h⟩

end Program

/-! ## Pools -/

section

variable {ι σ ε α : Type u}

/-- A call in progress, with the store that its first turn found. -/
structure Call (σ ε α : Type u) where
  program : Program σ ε α
  found : Option σ

/-- The store, the calls on it, and the calls that have returned, with their answers. -/
structure Pool (ι σ ε α : Type u) where
  store : σ
  calls : ι → Call σ ε α
  returned : List (ι × α)

namespace Pool

def start (programs : ι → Program σ ε α) (s : σ) : Pool ι σ ε α := ⟨s, fun i => ⟨programs i, none⟩, []⟩

/-- The answer of a call in the turn in which it returns. -/
def answer (i : ι) : Program σ ε α → Program σ ε α → List (ι × α)
  | .pure _, _ => []
  | _, .pure a => [(i, a)]
  | _, _ => []

variable [DecidableEq ι]

def turn (p : Pool ι σ ε α) (i : ι) : Pool ι σ ε α where
  store := ((p.calls i).program.turn p.store).1
  calls := Function.update p.calls i
    ⟨((p.calls i).program.turn p.store).2, some ((p.calls i).found.getD p.store)⟩
  returned := p.returned ++ answer i (p.calls i).program ((p.calls i).program.turn p.store).2

/-- Any call may take the next turn. -/
def Step : Pool ι σ ε α → ι → Pool ι σ ε α → Prop := fun p i p' => p' = p.turn i

/-- A call that is about to write finds the store that it read. -/
def Fresh (p : Pool ι σ ε α) (i : ι) : Prop :=
  ∀ s ∈ (p.calls i).found, (p.calls i).program.writes = true → p.store = s

instance [DecidableEq σ] (p : Pool ι σ ε α) (i : ι) : Decidable (p.Fresh i) :=
  inferInstanceAs (Decidable (∀ s ∈ (p.calls i).found, (p.calls i).program.writes = true → p.store = s))

/-- A call that takes its first turn finds a store that meets `G`. -/
def Begins (G : σ → ι → Prop) (p : Pool ι σ ε α) (i : ι) : Prop := (p.calls i).found = none → G p.store i

end Pool

/-- A call that runs alone from `s` to `t` and returns its answer. -/
def Alone (programs : ι → Program σ ε α) : σ → ι × α → σ → Prop := fun s l t => (programs l.1).alone s = (.ok l.2, t)

theorem foldlM_effect {programs : ι → Program σ ε α} {s t : σ} {l : List (ι × α)} (h : Run (Alone programs) s l t) :
    (l.map Prod.fst).foldlM (fun s i => (programs i).effect s) s = .ok t := by
  induction h with
  | nil => rfl
  | snoc _ halone ih =>
    rw [List.map_append, List.foldlM_append, ih]
    show List.foldlM _ _ _ = _
    rw [List.map_singleton, foldlM_cons_eq_ok]
    exact ⟨_, by rw [Program.effect, halone]; rfl, rfl⟩

theorem alone_of_effect {programs : ι → Program σ ε α} {s t : σ} {i : ι} (h : (programs i).effect s = .ok t) :
    ∃ a, Alone programs s (i, a) t := by
  unfold Program.effect at h
  cases ha : ((programs i).alone s).1 with
  | error e =>
    rw [ha] at h
    cases h
  | ok a =>
    rw [ha] at h
    exact ⟨a, Prod.ext ha (Except.ok.inj h)⟩

theorem run_of_foldlM_effect {programs : ι → Program σ ε α} : ∀ {is : List ι} {s t : σ},
    is.foldlM (fun s i => (programs i).effect s) s = .ok t → ∃ l, l.map Prod.fst = is ∧ Run (Alone programs) s l t
  | [], s, t, h => by
    rw [List.foldlM_nil] at h
    cases h
    exact ⟨[], rfl, .nil⟩
  | i :: is, s, t, h => by
    obtain ⟨u, hu, ht⟩ := foldlM_cons_eq_ok.mp h
    obtain ⟨a, ha⟩ := alone_of_effect hu
    obtain ⟨l, rfl, hl⟩ := run_of_foldlM_effect ht
    exact ⟨(i, a) :: l, rfl, hl.cons ha⟩

/-- What one transaction has come to: not begun, under way (or rejected) since it found `s`, or returned. -/
inductive Call.Stage (program : Program σ ε α) (returned : α → Prop) : Call σ ε α → Prop
  | idle : program.Transaction → (∀ a, ¬returned a) → Stage program returned ⟨program, none⟩
  | underway {rest : Program σ ε α} {s : σ} : rest.Commits → program.alone s = rest.alone s → (∀ a, ¬returned a) →
      Stage program returned ⟨rest, some s⟩
  | answered {a : α} {s : σ} : (∀ b, returned b ↔ b = a) → Stage program returned ⟨.pure a, some s⟩

namespace Pool

variable [DecidableEq ι] {programs : ι → Program σ ε α} {p p' : Pool ι σ ε α} {i : ι} {schedule : List ι} {s₀ : σ}

/-- Every call is at some stage, and has returned at most once. -/
structure Staged (programs : ι → Program σ ε α) (p : Pool ι σ ε α) : Prop where
  stage : ∀ i, (p.calls i).Stage (programs i) fun a => (i, a) ∈ p.returned
  nodup : (p.returned.map Prod.fst).Nodup

inductive Turned (programs : ι → Program σ ε α) (p : Pool ι σ ε α) (i : ι) : Pool ι σ ε α → Prop
  | quiet (rest : Program σ ε α) : Turned programs p i
      ⟨p.store, Function.update p.calls i ⟨rest, some ((p.calls i).found.getD p.store)⟩, p.returned⟩
  | commit (a : α) (t : σ) : (programs i).alone ((p.calls i).found.getD p.store) = (.ok a, t) →
      (p.Fresh i → (p.calls i).found.getD p.store = p.store) → Turned programs p i
      ⟨t, Function.update p.calls i ⟨.pure a, some ((p.calls i).found.getD p.store)⟩, p.returned ++ [(i, a)]⟩

variable {rest : Program σ ε α}

omit [DecidableEq ι] in
theorem answer_of_commits (i : ι) (q : Program σ ε α) (h : rest.Commits) : answer i q rest = [] := by
  cases h <;> cases q <;> rfl

omit [DecidableEq ι] in
theorem turn_commits (h : rest.Commits) (u : σ) :
    (∃ rest', rest.turn u = (u, rest') ∧ rest'.Commits ∧ ∀ v, rest'.alone v = rest.alone v) ∨
      ∃ t a, rest = .write t (.pure a) := by
  cases h with
  | throw e => exact .inl ⟨_, rfl, .throw e, fun _ => rfl⟩
  | write t a => exact .inr ⟨t, a, rfl⟩
  | await h => exact .inl ⟨_, rfl, h, fun _ => rfl⟩

section

variable (h : Staged programs p)

include h

theorem Staged.others {j : ι} (hj : j ≠ i) (c : Call σ ε α) (a : α) :
    (Function.update p.calls i c j).Stage (programs j) fun b => (j, b) ∈ p.returned ++ [(i, a)] := by
  rw [Function.update_of_ne hj]
  have hsame : (fun b => (j, b) ∈ p.returned ++ [(i, a)]) = fun b => (j, b) ∈ p.returned := by
    funext b
    simp [hj]
  exact hsame ▸ h.stage j

theorem Staged.quiet {s : σ}
    (hrest : (⟨rest, some s⟩ : Call σ ε α).Stage (programs i) fun a => (i, a) ∈ p.returned) :
    Staged programs ⟨p.store, Function.update p.calls i ⟨rest, some s⟩, p.returned⟩ := by
  refine ⟨fun j => ?_, h.nodup⟩
  by_cases hj : j = i
  · subst hj
    show (Function.update p.calls j _ j).Stage _ _
    rwa [Function.update_self]
  · show (Function.update p.calls i _ j).Stage _ _
    rw [Function.update_of_ne hj]
    exact h.stage j

theorem Staged.commit (hnew : ∀ a, (i, a) ∉ p.returned) (a : α) (s t : σ) :
    Staged programs ⟨t, Function.update p.calls i ⟨.pure a, some s⟩, p.returned ++ [(i, a)]⟩ := by
  refine ⟨fun j => ?_, ?_⟩
  · by_cases hj : j = i
    · subst hj
      show (Function.update p.calls j _ j).Stage _ _
      rw [Function.update_self]
      exact .answered fun b => by simp [hnew b]
    · exact h.others hj _ a
  · rw [List.map_append, List.map_singleton, List.nodup_append]
    refine ⟨h.nodup, by simp, ?_⟩
    simp only [List.mem_map, List.mem_singleton, Prod.exists, exists_and_right, exists_eq_right]
    rintro j ⟨b, hb⟩ _ rfl rfl
    exact hnew b hb

theorem Staged.underway (rest : Program σ ε α) (hrest : rest.Commits)
    (hnew : ∀ a, (i, a) ∉ p.returned)
    (halone : (programs i).alone ((p.calls i).found.getD p.store) = rest.alone ((p.calls i).found.getD p.store))
    (hturn : (p.calls i).program.turn p.store = rest.turn p.store)
    (hanswer : ∀ a, answer i (p.calls i).program (.pure a) = [(i, a)])
    (hfresh : p.Fresh i → (∃ t next, rest = .write t next) → (p.calls i).found.getD p.store = p.store) :
    Turned programs p i (p.turn i) ∧ Staged programs (p.turn i) := by
  unfold Pool.turn
  rw [hturn]
  obtain ⟨rest', hrest', hcommits, hsame⟩ | ⟨t, a, rfl⟩ := turn_commits hrest p.store
  · rw [hrest', answer_of_commits i _ hcommits, List.append_nil]
    exact ⟨.quiet _, h.quiet (.underway hcommits (halone.trans (hsame _).symm) hnew)⟩
  · show Turned _ _ _ ⟨t, _, p.returned ++ answer i _ (.pure a)⟩ ∧ Staged _ ⟨t, _, p.returned ++ answer i _ (.pure a)⟩
    rw [hanswer a]
    exact ⟨.commit a t halone fun hf => hfresh hf ⟨t, _, rfl⟩, h.commit hnew a _ t⟩

/-- **One turn.** It leaves the store, or it is the last turn of a transaction. -/
theorem Staged.turn (i : ι) :
    Turned programs p i (p.turn i) ∧ Staged programs (p.turn i) := by
  have hstage := h.stage i
  generalize hc : p.calls i = c at hstage
  cases hstage with
  | idle htransaction hnew =>
    obtain ⟨next, hnext, hcommits⟩ := htransaction
    refine h.underway (next p.store) (hcommits _) hnew ?_ ?_ ?_ ?_
    · rw [hnext, hc]
      rfl
    · rw [hc, hnext]
      rfl
    · rw [hc, hnext]
      exact fun _ => rfl
    · rw [hc]
      exact fun _ _ => rfl
  | @underway rest s hcommits halone hnew =>
    refine h.underway rest hcommits hnew ?_ ?_ ?_ ?_
    · rw [hc]
      exact halone
    · rw [hc]
    · rw [hc]
      cases hcommits <;> exact fun _ => rfl
    · rintro hf ⟨t, next, rfl⟩
      rw [hc]
      exact (hf s (by rw [hc]; rfl) (by rw [hc]; rfl)).symm
  | @answered a s hret =>
    have hturn : p.turn i = ⟨p.store, Function.update p.calls i ⟨.pure a, some s⟩, p.returned⟩ := by
      unfold Pool.turn
      rw [hc]
      simp only [Program.turn, Option.getD_some, answer, List.append_nil]
    rw [hturn]
    refine ⟨?_, h.quiet (.answered hret)⟩
    have hq : Turned programs p i _ := .quiet (.pure a)
    rwa [hc] at hq

end

omit [DecidableEq ι] in
theorem staged_start (h : ∀ i, (programs i).Transaction) : Staged programs (start programs s₀) :=
  ⟨fun i => .idle (h i) fun _ => List.not_mem_nil, List.nodup_nil⟩

theorem run_turns (schedule : List ι) (p : Pool ι σ ε α) : Run Pool.Step p schedule (schedule.foldl Pool.turn p) := by
  induction schedule generalizing p with
  | nil => exact .nil
  | cons i schedule ih => exact .cons rfl (ih _)

theorem staged_of_run (hprograms : ∀ i, (programs i).Transaction)
    (h : Run Pool.Step (start programs s₀) schedule p) : Staged programs p :=
  h.invariant (P := fun q => Staged programs q) (by rintro q i _ hq rfl; exact (hq.turn i).2) (staged_start hprograms)

omit [DecidableEq ι] in
theorem mem_returned_iff (h : Staged programs p) (i : ι) (a : α) :
    (i, a) ∈ p.returned ↔ (p.calls i).program = .pure a := by
  have hstage := h.stage i
  generalize p.calls i = c at hstage
  cases hstage with
  | idle htransaction hnew =>
    obtain ⟨next, hnext, -⟩ := htransaction
    simp [hnew a, hnext]
  | underway hcommits _ hnew =>
    simp only [hnew a, false_iff]
    rintro rfl
    cases hcommits
  | answered hret =>
    rw [hret a, Program.pure.injEq]
    exact eq_comm

/-- **Serial order.** When every call that writes finds the store that it read, the store is what the calls that
returned make of the first store, one after the other in the order in which they returned, with the same answers. -/
theorem serial (hprograms : ∀ i, (programs i).Transaction)
    (h : Run (Guarded Pool.Step Fresh) (start programs s₀) schedule p) : Run (Alone programs) s₀ p.returned p.store := by
  have hinv : Staged programs p ∧ Run (Alone programs) s₀ p.returned p.store := by
    refine h.invariant (P := fun q => Staged programs q ∧ Run (Alone programs) s₀ q.returned q.store) ?_
      ⟨staged_start hprograms, .nil⟩
    rintro q i _ ⟨hq, hrun⟩ ⟨rfl, hfresh⟩
    obtain ⟨hturned, hstaged⟩ := hq.turn i
    refine ⟨hstaged, ?_⟩
    generalize q.turn i = q' at hturned
    cases hturned with
    | quiet rest => exact hrun
    | commit a t halone hread =>
      rw [hread hfresh] at halone
      exact .snoc hrun halone
  exact hinv.2

/-- The store `s` is what some of the calls of `returned` make of `s₀`, each of them allowed by `G`. -/
def Derived (programs : ι → Program σ ε α) (G : σ → ι → Prop) (s₀ : σ) (returned : List (ι × α)) (s : σ) : Prop :=
  ∃ l, Run (Guarded (Alone programs) fun s x => G s x.1) s₀ l s ∧ l ⊆ returned

omit [DecidableEq ι] in
theorem Derived.mono {G : σ → ι → Prop} {returned returned' : List (ι × α)} {s : σ}
    (h : Derived programs G s₀ returned s) (hsub : returned ⊆ returned') : Derived programs G s₀ returned' s := by
  obtain ⟨l, hrun, hl⟩ := h
  exact ⟨l, hrun, fun x hx => hsub (hl hx)⟩

/-- **Derivation.** In any interleaving the store is the outcome of some of the calls that returned, in sequence: the
others have been overwritten. What is asked of the calls that begin holds of the calls of that sequence. -/
theorem derived {G : σ → ι → Prop} (hprograms : ∀ i, (programs i).Transaction)
    (h : Run (Guarded Pool.Step (Begins G)) (start programs s₀) schedule p) :
    Derived programs G s₀ p.returned p.store := by
  have hinv : Staged programs p ∧ Derived programs G s₀ p.returned p.store ∧
      ∀ i s, (p.calls i).found = some s → Derived programs G s₀ p.returned s ∧ G s i := by
    refine h.invariant (P := fun q => Staged programs q ∧ Derived programs G s₀ q.returned q.store ∧
      ∀ i s, (q.calls i).found = some s → Derived programs G s₀ q.returned s ∧ G s i) ?_
      ⟨staged_start hprograms, ⟨[], .nil, List.nil_subset _⟩, fun i s hs => by cases hs⟩
    rintro q i _ ⟨hq, hstore, hfound⟩ ⟨rfl, hbegins⟩
    obtain ⟨hturned, hstaged⟩ := hq.turn i
    have hread : Derived programs G s₀ q.returned ((q.calls i).found.getD q.store) ∧
        G ((q.calls i).found.getD q.store) i := by
      cases hc : (q.calls i).found with
      | none => exact ⟨hstore, hbegins hc⟩
      | some s => exact hfound i s hc
    refine ⟨hstaged, ?_⟩
    generalize q.turn i = q' at hturned
    cases hturned with
    | quiet rest =>
      refine ⟨hstore, fun j s hs => ?_⟩
      by_cases hj : j = i
      · subst hj
        simp only [Function.update_self, Option.some.injEq] at hs
        exact hs ▸ hread
      · simp only [Function.update_of_ne hj] at hs
        exact hfound j s hs
    | commit a t halone _ =>
      have hsub : q.returned ⊆ q.returned ++ [(i, a)] := List.subset_append_left _ _
      refine ⟨?_, fun j s hs => ?_⟩
      · obtain ⟨⟨l, hrun, hl⟩, hG⟩ := hread
        exact ⟨l ++ [(i, a)], .snoc hrun ⟨halone, hG⟩, List.append_subset.mpr
          ⟨fun x hx => hsub (hl hx), List.subset_append_right _ _⟩⟩
      · by_cases hj : j = i
        · subst hj
          simp only [Function.update_self, Option.some.injEq] at hs
          exact hs ▸ ⟨hread.1.mono hsub, hread.2⟩
        · simp only [Function.update_of_ne hj] at hs
          exact ⟨(hfound j s hs).1.mono hsub, (hfound j s hs).2⟩
  exact hinv.2.1

end Pool

end

end NousCore
