import NousCore.Lib.Async

/-!
# Calls in progress on one state

Any number of asynchronous calls on one state; one turn of a call performs one operation. A task may be exclusive: an
exclusive call does not start before the exclusive calls that began before it have ended.

* `Config` : the state, the calls in progress, and the outcomes of those that ended, in the order in which they ended;
* `System.step` : a call begins, or a call takes one turn.
-/

namespace NousCore

/-- The tasks of a service, and what its operations do. -/
structure System {Op : Type} (Task : Type) (Res : Op → Type) (ρ σ ε α : Type) where
  body : Task → Async Res ε α
  answers : Answers Res ρ σ
  /-- The calls that an operation starts without waiting for them. -/
  spawned : Op → List Task
  exclusive : Task → Bool

structure Thread {Op : Type} (Task : Type) (Res : Op → Type) (ε α : Type) where
  task : Task
  program : Async Res ε α
  log : Log Res

structure Config {Op : Type} (Task : Type) (Res : Op → Type) (σ ε α : Type) where
  state : σ
  threads : List (Thread Task Res ε α)
  returned : List (Nat × Except ε α)

inductive Label (Task ρ : Type) where
  | begin (t : Task)
  | turn (i : Nat) (x : ρ)

namespace System

variable {Op Task : Type} {Res : Op → Type} {ρ σ ε α : Type}

def start (s : σ) : Config Task Res σ ε α := ⟨s, [], []⟩

/-- What is returned when the `i`-th call is left with `program`. -/
def settle (i : Nat) (program : Async Res ε α) : List (Nat × Except ε α) := program.outcome.toList.map fun y => (i, y)

variable (sys : System Task Res ρ σ ε α)

def thread (t : Task) : Thread Task Res ε α := ⟨t, sys.body t, []⟩

/-- An exclusive call that has not ended. -/
def holds (th : Thread Task Res ε α) : Bool := sys.exclusive th.task && th.program.outcome.isNone

/-- The `i`-th call has to wait for an exclusive call that began before it. -/
def blocked (c : Config Task Res σ ε α) (i : Nat) (th : Thread Task Res ε α) : Bool :=
  sys.exclusive th.task && (c.threads.take i).any sys.holds

/-- The call `th`, the `i`-th, performs its next operation. -/
def turn (c : Config Task Res σ ε α) (i : Nat) (x : ρ) (th : Thread Task Res ε α) : Option (Config Task Res σ ε α) :=
  match th.program with
  | .call o next =>
    if sys.blocked c i th then none
    else (sys.answers o x c.state).map fun r =>
      { state := r.2
        threads := c.threads.set i ⟨th.task, next r.1, th.log ++ [⟨o, r.1⟩]⟩ ++ (sys.spawned o).map sys.thread
        returned := c.returned ++ settle i (next r.1) }
  | _ => none

def step (c : Config Task Res σ ε α) : Label Task ρ → Option (Config Task Res σ ε α)
  | .begin t => some { c with
      threads := c.threads ++ [sys.thread t]
      returned := c.returned ++ settle c.threads.length (sys.body t) }
  | .turn i x => c.threads[i]?.bind (sys.turn c i x)

def Step : Config Task Res σ ε α → Label Task ρ → Config Task Res σ ε α → Prop := fun c l c' => sys.step c l = some c'

/-- The next operation of a call is one that `allowed` lets be performed. -/
def Asks (allowed : Task → Allowance Res ρ σ) (x : ρ) (s : σ) (th : Thread Task Res ε α) : Prop :=
  match th.program with
  | .call o _ => allowed th.task th.log o x s
  | _ => True

instance (allowed : Task → Allowance Res ρ σ) [∀ t l o x s, Decidable (allowed t l o x s)] (x : ρ) (s : σ)
    (th : Thread Task Res ε α) : Decidable (Asks allowed x s th) :=
  match h : th.program with
  | .call o _ => decidable_of_iff (allowed th.task th.log o x s) (by unfold Asks; rw [h])
  | .pure _ => .isTrue (by unfold Asks; rw [h]; trivial)
  | .throw _ => .isTrue (by unfold Asks; rw [h]; trivial)

/-- The steps of calls that `admits` lets begin, and of operations that `allowed` lets be performed. -/
def Allows (admits : Task → Prop) (allowed : Task → Allowance Res ρ σ) : Config Task Res σ ε α → Label Task ρ → Prop
  | _, .begin t => admits t
  | c, .turn i x => ∀ th ∈ c.threads[i]?, Asks allowed x c.state th

instance (admits : Task → Prop) [DecidablePred admits] (allowed : Task → Allowance Res ρ σ)
    [∀ t l o x s, Decidable (allowed t l o x s)] (c : Config Task Res σ ε α) (l : Label Task ρ) :
    Decidable (Allows admits allowed c l) :=
  match l with
  | .begin t => inferInstanceAs (Decidable (admits t))
  | .turn i x => inferInstanceAs (Decidable (∀ th ∈ c.threads[i]?, Asks allowed x c.state th))

/-! ## One step -/

inductive Stepped (c : Config Task Res σ ε α) : Label Task ρ → Config Task Res σ ε α → Prop
  | begin (t : Task) : Stepped c (.begin t)
      { c with
        threads := c.threads ++ [sys.thread t]
        returned := c.returned ++ settle c.threads.length (sys.body t) }
  | turn {i : Nat} {x : ρ} {t : Task} {log : Log Res} {o : Op} {next : Res o → Async Res ε α} {r : Res o} {s' : σ} :
      c.threads[i]? = some ⟨t, .call o next, log⟩ → sys.blocked c i ⟨t, .call o next, log⟩ = false →
      sys.answers o x c.state = some (r, s') → Stepped c (.turn i x)
      { state := s'
        threads := c.threads.set i ⟨t, next r, log ++ [⟨o, r⟩]⟩ ++ (sys.spawned o).map sys.thread
        returned := c.returned ++ settle i (next r) }

variable {sys}

theorem stepped_of_step {c c' : Config Task Res σ ε α} {l : Label Task ρ} (h : sys.Step c l c') :
    sys.Stepped c l c' := by
  cases l with
  | begin t =>
    have h' := Option.some.inj h
    rw [← h']
    exact .begin t
  | turn i x =>
    obtain ⟨th, hth, h⟩ := Option.bind_eq_some_iff.mp h
    obtain ⟨t, program, log⟩ := th
    unfold turn at h
    split at h
    · rename_i o next heq
      obtain rfl : program = .call o next := heq
      split_ifs at h with hblocked
      obtain ⟨r, hr, rfl⟩ := Option.map_eq_some_iff.mp h
      exact .turn hth (Bool.eq_false_iff.mpr hblocked) hr
    · cases h

/-! ## Runs that are computed -/

section Check

variable (sys) (admits : Task → Prop) [DecidablePred admits] (allowed : Task → Allowance Res ρ σ)
  [∀ t l o x s, Decidable (allowed t l o x s)]

def guardedStep (c : Config Task Res σ ε α) (l : Label Task ρ) : Option (Config Task Res σ ε α) :=
  if Allows admits allowed c l then sys.step c l else none

/-- A step, refused where the guard does not hold. -/
def checkedStep (G : Config Task Res σ ε α → Label Task ρ → Prop) [∀ c l, Decidable (G c l)]
    (c : Config Task Res σ ε α) (l : Label Task ρ) : Option (Config Task Res σ ε α) :=
  if G c l then sys.step c l else none

omit [DecidablePred admits] [∀ t l o x s, Decidable (allowed t l o x s)] in
theorem run_of_checkedStep {G : Config Task Res σ ε α → Label Task ρ → Prop} [∀ c l, Decidable (G c l)]
    {ls : List (Label Task ρ)} {c c' : Config Task Res σ ε α} (h : ls.foldlM (sys.checkedStep G) c = some c') :
    Run (Guarded sys.Step G) c ls c' := by
  refine (run_of_takes h).mono fun c l c' hstep => ?_
  unfold Takes checkedStep at hstep
  split_ifs at hstep with hG
  exact ⟨hstep, hG⟩

omit [DecidablePred admits] [∀ t l o x s, Decidable (allowed t l o x s)] in
theorem exists_run_of_checkedStep (G : Config Task Res σ ε α → Label Task ρ → Prop) [∀ c l, Decidable (G c l)]
    (ls : List (Label Task ρ)) (s : σ) (P : Config Task Res σ ε α → Bool)
    (h : (ls.foldlM (sys.checkedStep G) (start s)).any P = true) :
    ∃ c, Run (Guarded sys.Step G) (start s) ls c ∧ P c = true := by
  obtain ⟨c, hrun, hP⟩ := (Option.any_eq_true _ _).mp h
  exact ⟨c, sys.run_of_checkedStep hrun, hP⟩

theorem exists_run_of_check (ls : List (Label Task ρ)) (s : σ) (P : Config Task Res σ ε α → Bool)
    (h : (ls.foldlM (sys.guardedStep admits allowed) (start s)).any P = true) :
    ∃ c, Run (Guarded sys.Step (Allows admits allowed)) (start s) ls c ∧ P c = true :=
  sys.exists_run_of_checkedStep _ ls s P h

omit [DecidablePred admits] [∀ t l o x s, Decidable (allowed t l o x s)] in
theorem exists_run_of_steps (ls : List (Label Task ρ)) (s : σ) (P : Config Task Res σ ε α → Bool)
    (h : (ls.foldlM sys.step (start s)).any P = true) : ∃ c, Run sys.Step (start s) ls c ∧ P c = true :=
  exists_run_of_takes sys.step ls (start s) P h

end Check

/-! ## Contracts for every task -/

section Sound

variable (sys) (admits : Task → Prop) (allowed : Task → Allowance Res ρ σ) (rely guar : Task → σ → σ → Prop)
  (post : Task → Log Res → Except ε α → σ → Prop) (inv idle : σ → Prop)

def contract (t : Task) : Async.Contract Res ρ σ := ⟨allowed t, rely t, guar t⟩

/-- The call `th` keeps its contract, whatever the other calls do that it relies on. -/
def Keeps (s : σ) (th : Thread Task Res ε α) : Prop :=
  ∀ s', rely th.task s s' → th.program.Meets sys.answers (contract allowed rely guar th.task) (post th.task) th.log s'

/-- Contracts that fit together: what a task guarantees is what the others rely on. The invariant `inv` holds at all
times, and `idle` as long as no exclusive call is in progress. -/
structure Sound : Prop where
  rely_refl : ∀ t s, rely t s s
  rely_trans : ∀ t s s' s'', rely t s s' → rely t s' s'' → rely t s s''
  rely_inv : ∀ t s s', inv s → rely t s s' → inv s'
  rely_idle : ∀ t s s', sys.exclusive t = true → idle s → rely t s s' → idle s'
  guar_inv : ∀ t s s', inv s → guar t s s' → inv s'
  guar_idle : ∀ t s s', sys.exclusive t = false → idle s → guar t s s' → idle s'
  guar_rely : ∀ t u s s', inv s → sys.exclusive t = false ∨ sys.exclusive u = false → guar t s s' → rely u s s'
  shared : ∀ t s, admits t → sys.exclusive t = false → inv s →
    (sys.body t).Meets sys.answers (contract allowed rely guar t) (post t) [] s
  alone : ∀ t s, admits t → sys.exclusive t = true → inv s → idle s →
    (sys.body t).Meets sys.answers (contract allowed rely guar t) (post t) [] s
  post_idle : ∀ t l y s, sys.exclusive t = true → post t l y s → idle s
  spawned : ∀ o, ∀ t ∈ sys.spawned o, admits t ∧ sys.exclusive t = false

/-- What sound contracts keep: the invariant, `idle` between exclusive calls, and the contract of every call that may
take a turn; a call that has to wait has not begun. -/
structure Kept (c : Config Task Res σ ε α) : Prop where
  inv : inv c.state
  idle : (∀ th ∈ c.threads, sys.holds th = false) → idle c.state
  waits : ∀ i th, c.threads[i]? = some th → sys.blocked c i th = true → th = sys.thread th.task ∧ admits th.task
  keeps : ∀ i th, c.threads[i]? = some th → sys.blocked c i th = false →
    sys.exclusive th.task = false ∨ sys.holds th = true → sys.Keeps allowed rely guar post c.state th

variable {sys admits allowed rely guar post inv idle}

theorem blocked_false_of_shared {c : Config Task Res σ ε α} {i : Nat} {th : Thread Task Res ε α}
    (h : sys.exclusive th.task = false) : sys.blocked c i th = false := by
  unfold blocked
  rw [h, Bool.false_and]

theorem blocked_eq_true {c : Config Task Res σ ε α} {i : Nat} {th : Thread Task Res ε α} :
    sys.blocked c i th = true ↔
      sys.exclusive th.task = true ∧ ∃ j, j < i ∧ ∃ u, c.threads[j]? = some u ∧ sys.holds u = true := by
  unfold blocked
  rw [Bool.and_eq_true, List.any_eq_true]
  refine and_congr_right fun _ => ⟨?_, ?_⟩
  · rintro ⟨u, hu, hholds⟩
    obtain ⟨j, hj, hget⟩ := List.mem_take_iff_getElem.mp hu
    exact ⟨j, by omega, u, by rw [List.getElem?_eq_getElem (by omega), hget], hholds⟩
  · rintro ⟨j, hj, u, hu, hholds⟩
    refine ⟨u, List.mem_iff_getElem?.mpr ⟨j, ?_⟩, hholds⟩
    rw [List.getElem?_take_of_lt hj, hu]

theorem holds_eq_true {th : Thread Task Res ε α} :
    sys.holds th = true ↔ sys.exclusive th.task = true ∧ th.program.outcome = none := by
  unfold holds
  rw [Bool.and_eq_true, Option.isNone_iff_eq_none]

theorem kept_start {s : σ} (hinv : inv s) (hidle : idle s) :
    sys.Kept admits allowed rely guar post inv idle (start s) where
  inv := hinv
  idle := fun _ => hidle
  waits := by
    intro i th h
    simp [start] at h
  keeps := by
    intro i th h
    simp [start] at h

theorem Sound.keeps_thread (h : sys.Sound admits allowed rely guar post inv idle) {s : σ} {t : Task} (hs : inv s)
    (ht : admits t) (hidle : sys.exclusive t = true → idle s) : sys.Keeps allowed rely guar post s (sys.thread t) := by
  intro s' hrely
  have hinv := h.rely_inv _ _ _ hs hrely
  cases hexclusive : sys.exclusive t with
  | false => exact h.shared t s' ht hexclusive hinv
  | true => exact h.alone t s' ht hexclusive hinv (h.rely_idle _ _ _ hexclusive (hidle hexclusive) hrely)

theorem Sound.kept_begin (h : sys.Sound admits allowed rely guar post inv idle) {c : Config Task Res σ ε α}
    (hc : sys.Kept admits allowed rely guar post inv idle c) {t : Task} (ht : admits t)
    (returned : List (Nat × Except ε α)) :
    sys.Kept admits allowed rely guar post inv idle ⟨c.state, c.threads ++ [sys.thread t], returned⟩ := by
  have hold : ∀ {i : Nat} {th : Thread Task Res ε α}, i < c.threads.length →
      sys.blocked ⟨c.state, c.threads ++ [sys.thread t], returned⟩ i th = sys.blocked c i th := by
    intro i th hi
    unfold blocked
    rw [List.take_append_of_le_length (by omega)]
  have hnew : ∀ {i : Nat} {th : Thread Task Res ε α}, (c.threads ++ [sys.thread t])[i]? = some th →
      ¬i < c.threads.length → i = c.threads.length ∧ th = sys.thread t := by
    intro i th hget hi
    rw [List.getElem?_append_right (by omega)] at hget
    obtain ⟨hlt, rfl⟩ := List.getElem?_eq_some_iff.mp hget
    rw [List.length_singleton] at hlt
    exact ⟨by omega, by simp⟩
  refine ⟨hc.inv, fun hnone => ?_, fun i th hget hblocked => ?_, fun i th hget hblocked hlive => ?_⟩
  · exact hc.idle fun th hth => hnone th (List.mem_append_left _ hth)
  · by_cases hi : i < c.threads.length
    · rw [List.getElem?_append_left hi] at hget
      exact hc.waits i th hget (by rwa [hold hi] at hblocked)
    · obtain ⟨-, rfl⟩ := hnew hget hi
      exact ⟨rfl, ht⟩
  · by_cases hi : i < c.threads.length
    · rw [List.getElem?_append_left hi] at hget
      exact hc.keeps i th hget (by rwa [hold hi] at hblocked) hlive
    · obtain ⟨rfl, rfl⟩ := hnew hget hi
      refine h.keeps_thread hc.inv ht fun hexclusive => hc.idle fun u hu => ?_
      by_contra hholds
      obtain ⟨j, hj⟩ := List.mem_iff_getElem?.mp hu
      have hlt : j < c.threads.length := (List.getElem?_eq_some_iff.mp hj).1
      rw [blocked_eq_true.mpr ⟨hexclusive, j, hlt, u, by rw [List.getElem?_append_left hlt, hj],
        Bool.not_eq_false _ ▸ hholds⟩] at hblocked
      cases hblocked

section Turn

variable {c : Config Task Res σ ε α} {i : Nat} {th th' : Thread Task Res ε α} {new : List (Thread Task Res ε α)}

variable {u : Thread Task Res ε α}

theorem getElem?_set_append (hget : c.threads[i]? = some th) {j : Nat}
    (h : (c.threads.set i th' ++ new)[j]? = some u) :
    j = i ∧ u = th' ∨ j ≠ i ∧ c.threads[j]? = some u ∨ c.threads.length ≤ j ∧ u ∈ new := by
  have hi := (List.getElem?_eq_some_iff.mp hget).1
  by_cases hj : j < c.threads.length
  · rw [List.getElem?_append_left (by rwa [List.length_set])] at h
    by_cases hij : i = j
    · subst hij
      rw [List.getElem?_set_self hj] at h
      exact .inl ⟨rfl, (Option.some.inj h).symm⟩
    · rw [List.getElem?_set_ne hij] at h
      exact .inr (.inl ⟨fun he => hij he.symm, h⟩)
  · rw [List.getElem?_append_right (by rw [List.length_set]; omega)] at h
    exact .inr (.inr ⟨by omega, List.mem_of_getElem? h⟩)

theorem getElem?_of_ne {j : Nat} (hj : j ≠ i) (h : c.threads[j]? = some u) :
    (c.threads.set i th' ++ new)[j]? = some u := by
  have hlt := (List.getElem?_eq_some_iff.mp h).1
  rw [List.getElem?_append_left (by rwa [List.length_set]), List.getElem?_set_ne (fun he => hj he.symm), h]

theorem getElem?_self (hget : c.threads[i]? = some th) : (c.threads.set i th' ++ new)[i]? = some th' := by
  have hlt := (List.getElem?_eq_some_iff.mp hget).1
  rw [List.getElem?_append_left (by rwa [List.length_set]), List.getElem?_set_self hlt]

variable (s' : σ) (returned : List (Nat × Except ε α))

theorem blocked_of_turn (hget : c.threads[i]? = some th) (hmono : sys.holds th' = true → sys.holds th = true)
    {j : Nat} (hj : j < c.threads.length)
    (h : sys.blocked ⟨s', c.threads.set i th' ++ new, returned⟩ j u = true) : sys.blocked c j u = true := by
  obtain ⟨hexclusive, k, hk, v, hv, hholds⟩ := blocked_eq_true.mp h
  rcases getElem?_set_append hget hv with ⟨rfl, rfl⟩ | ⟨-, hv⟩ | ⟨hlen, -⟩
  · exact blocked_eq_true.mpr ⟨hexclusive, k, hk, th, hget, hmono hholds⟩
  · exact blocked_eq_true.mpr ⟨hexclusive, k, hk, v, hv, hholds⟩
  · omega

theorem shared_or_shared (hget : c.threads[i]? = some th) (hblocked : sys.blocked c i th = false)
    (hcall : th.program.outcome = none) {j : Nat} (hj : j ≠ i)
    (hu : c.threads[j]? = some u) (hfree : sys.blocked c j u = false)
    (hlive : sys.exclusive u.task = false ∨ sys.holds u = true) :
    sys.exclusive th.task = false ∨ sys.exclusive u.task = false := by
  rcases hlive with hshared | hholds
  · exact .inr hshared
  · by_contra hboth
    rw [not_or, Bool.not_eq_false, Bool.not_eq_false] at hboth
    rcases Nat.lt_or_gt_of_ne hj with hlt | hlt
    · rw [blocked_eq_true.mpr ⟨hboth.1, j, hlt, u, hu, hholds⟩] at hblocked
      cases hblocked
    · rw [blocked_eq_true.mpr ⟨hboth.2, i, hlt, th, hget, holds_eq_true.mpr ⟨hboth.1, hcall⟩⟩] at hfree
      cases hfree

end Turn

theorem meets_of_outcome {answers : Answers Res ρ σ} {k : Async.Contract Res ρ σ}
    {q : Log Res → Except ε α → σ → Prop} {p : Async Res ε α} {l : Log Res} {s : σ} (h : p.Meets answers k q l s)
    (hp : p.outcome ≠ none) : ∃ y, p.outcome = some y ∧ q l y s := by
  cases p with
  | pure | throw => exact ⟨_, rfl, h⟩
  | call o next => exact absurd rfl hp

theorem Sound.kept_turn (h : sys.Sound admits allowed rely guar post inv idle) {c : Config Task Res σ ε α}
    (hc : sys.Kept admits allowed rely guar post inv idle c) {i : Nat} {x : ρ} {t : Task} {log : Log Res} {o : Op}
    {next : Res o → Async Res ε α} {r : Res o} {s' : σ} (hget : c.threads[i]? = some ⟨t, .call o next, log⟩)
    (hblocked : sys.blocked c i ⟨t, .call o next, log⟩ = false) (hanswers : sys.answers o x c.state = some (r, s'))
    (hallowed : allowed t log o x c.state) (returned : List (Nat × Except ε α)) :
    sys.Kept admits allowed rely guar post inv idle
      ⟨s', c.threads.set i ⟨t, next r, log ++ [⟨o, r⟩]⟩ ++ (sys.spawned o).map sys.thread, returned⟩ := by
  have hlive : sys.exclusive t = false ∨ sys.holds (⟨t, .call o next, log⟩ : Thread Task Res ε α) = true := by
    cases hexclusive : sys.exclusive t with
    | false => exact .inl rfl
    | true => exact .inr (holds_eq_true.mpr ⟨hexclusive, rfl⟩)
  have hmono : sys.holds (⟨t, next r, log ++ [⟨o, r⟩]⟩ : Thread Task Res ε α) = true →
      sys.holds (⟨t, .call o next, log⟩ : Thread Task Res ε α) = true := fun hholds =>
    holds_eq_true.mpr ⟨(holds_eq_true.mp hholds).1, rfl⟩
  obtain ⟨hguar, hnext⟩ := hc.keeps i _ hget hblocked hlive c.state (h.rely_refl _ _) x r s' hanswers hallowed
  have hinv : inv s' := h.guar_inv _ _ _ hc.inv hguar
  have hnew : ∀ u ∈ (sys.spawned o).map sys.thread, sys.exclusive u.task = false ∧
      sys.Keeps allowed rely guar post s' u := by
    intro u hu
    obtain ⟨v, hv, rfl⟩ := List.mem_map.mp hu
    obtain ⟨hadmits, hshared⟩ := h.spawned o v hv
    exact ⟨hshared, h.keeps_thread hinv hadmits fun he => by rw [hshared] at he; cases he⟩
  -- when the exclusive call ends here, `idle` is what its postcondition leaves
  have hended : sys.exclusive t = true →
      sys.holds (⟨t, next r, log ++ [⟨o, r⟩]⟩ : Thread Task Res ε α) = false → idle s' := by
    intro hexclusive hholds
    have hout : (next r).outcome ≠ none := by
      intro hnone
      rw [holds_eq_true.mpr ⟨hexclusive, hnone⟩] at hholds
      cases hholds
    obtain ⟨y, -, hpost⟩ := meets_of_outcome (hnext s' (h.rely_refl _ _)) hout
    exact h.post_idle _ _ _ _ hexclusive hpost
  refine ⟨hinv, fun hnone => ?_, fun j u hu hwait => ?_, fun j u hu hfree hu' => ?_⟩
  · cases hexclusive : sys.exclusive t with
    | true => exact hended hexclusive (hnone _ (List.mem_of_getElem? (getElem?_self hget)))
    | false =>
      refine h.guar_idle _ _ _ hexclusive (hc.idle fun v hv => ?_) hguar
      obtain ⟨k, hk⟩ := List.mem_iff_getElem?.mp hv
      by_cases hki : k = i
      · subst hki
        cases hk.symm.trans hget
        unfold holds
        rw [show sys.exclusive _ = false from hexclusive, Bool.false_and]
      · exact hnone v (List.mem_of_getElem? (getElem?_of_ne hki hk))
  · rcases getElem?_set_append hget hu with ⟨rfl, rfl⟩ | ⟨-, hold⟩ | ⟨-, hmem⟩
    · have hlt := (List.getElem?_eq_some_iff.mp hget).1
      have hb := blocked_of_turn s' returned hget hmono hlt hwait
      rw [show sys.blocked c j (⟨t, next r, log ++ [⟨o, r⟩]⟩ : Thread Task Res ε α) =
        sys.blocked c j ⟨t, .call o next, log⟩ from rfl, hblocked] at hb
      cases hb
    · exact hc.waits j u hold
        (blocked_of_turn s' returned hget hmono (List.getElem?_eq_some_iff.mp hold).1 hwait)
    · rw [blocked_false_of_shared (hnew u hmem).1] at hwait
      cases hwait
  · rcases getElem?_set_append hget hu with ⟨rfl, rfl⟩ | ⟨hj, hold⟩ | ⟨-, hmem⟩
    · exact hnext
    · cases hbefore : sys.blocked c j u with
      | false =>
        have hrely := h.guar_rely t u.task c.state s' hc.inv
          (shared_or_shared hget hblocked rfl hj hold hbefore hu') hguar
        exact fun s'' hs'' => hc.keeps j u hold hbefore hu' s'' (h.rely_trans _ _ _ _ hrely hs'')
      | true =>
        obtain ⟨hthread, hadmits⟩ := hc.waits j u hold hbefore
        rw [hthread]
        refine h.keeps_thread hinv hadmits fun _ => ?_
        obtain ⟨hexclusive, k, hk, v, hv, hholds⟩ := blocked_eq_true.mp hbefore
        have hki : k = i := by
          by_contra hne
          rw [blocked_eq_true.mpr ⟨hexclusive, k, hk, v, getElem?_of_ne hne hv, hholds⟩] at hfree
          cases hfree
        subst hki
        cases hget.symm.trans hv
        refine hended (holds_eq_true.mp hholds).1 ?_
        by_contra hne
        rw [blocked_eq_true.mpr ⟨hexclusive, k, hk, _, getElem?_self hget, Bool.not_eq_false _ ▸ hne⟩] at hfree
        cases hfree
    · exact (hnew u hmem).2

/-- **Rely and guarantee.** Under sound contracts the invariant holds in every interleaving, and every call keeps its
contract. -/
theorem Sound.kept_of_run (h : sys.Sound admits allowed rely guar post inv idle) {s : σ} (hinv : inv s)
    (hidle : idle s) {ls : List (Label Task ρ)} {c : Config Task Res σ ε α}
    (hrun : Run (Guarded sys.Step (Allows admits allowed)) (start s) ls c) :
    sys.Kept admits allowed rely guar post inv idle c := by
  refine hrun.invariant ?_ (kept_start hinv hidle)
  rintro c l c' hc ⟨hstep, hallows⟩
  have hstepped := stepped_of_step hstep
  clear hstep
  cases hstepped with
  | begin t => exact h.kept_begin hc hallows _
  | turn hget hblocked hanswers => exact h.kept_turn hc hget hblocked hanswers (hallows _ hget) _

end Sound

end System

end NousCore
