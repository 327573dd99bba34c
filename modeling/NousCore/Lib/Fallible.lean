import Mathlib.Tactic.Common

/-!
# Computations that may throw, and keep what they have written

* `Fallible ε σ` : a state that outlives the error;
* `outcome` : how a computation ends from a state;
* `ends_tryCatch` : what is caught is a computation from the state the error left; `attempt` : the error as a value.
-/

namespace NousCore

universe u

/-- A state that outlives the error. -/
abbrev Fallible (ε σ : Type u) (α : Type u) := ExceptT ε (StateM σ) α

namespace Fallible

variable {ε σ α β : Type u} {x : Fallible ε σ α} {f : α → Fallible ε σ β} {s : σ}

def outcome (x : Fallible ε σ α) (s : σ) : Except ε α × σ := x.run.run s

/-- From `s` it ends with a value that meets `ok`, or with an error that meets `error`. -/
def Ends (x : Fallible ε σ α) (s : σ) (ok : α → σ → Prop) (error : ε → σ → Prop) : Prop :=
  match outcome x s with
  | (.ok a, s') => ok a s'
  | (.error e, s') => error e s'

variable {ok ok' : α → σ → Prop} {error error' : ε → σ → Prop}

theorem ends_pure {a : α} (h : ok a s) : Ends (pure a) s ok error := h

theorem ends_throw {e : ε} (h : error e s) : Ends (throw e : Fallible ε σ α) s ok error := h

theorem ends_get {ok : σ → σ → Prop} (h : ok s s) : Ends (get : Fallible ε σ σ) s ok error := h

theorem ends_set {s' : σ} {ok : PUnit → σ → Prop} (h : ok ⟨⟩ s') : Ends (set s' : Fallible ε σ PUnit) s ok error := h

theorem ends_modify {g : σ → σ} {ok : PUnit → σ → Prop} (h : ok ⟨⟩ (g s)) :
    Ends (modify g : Fallible ε σ PUnit) s ok error := h

theorem Ends.mono (h : Ends x s ok error) (hok : ∀ a s', ok a s' → ok' a s')
    (herror : ∀ e s', error e s' → error' e s') : Ends x s ok' error' := by
  unfold Ends at h ⊢
  rcases houtcome : outcome x s with ⟨e | a, s'⟩
  · rw [houtcome] at h
    exact herror e s' h
  · rw [houtcome] at h
    exact hok a s' h

theorem Ends.and (h : Ends x s ok error) (h' : Ends x s ok' error') :
    Ends x s (fun a s' => ok a s' ∧ ok' a s') fun e s' => error e s' ∧ error' e s' := by
  unfold Ends at *
  rcases houtcome : outcome x s with ⟨e | a, s'⟩ <;> rw [houtcome] at h h' <;> exact ⟨h, h'⟩

variable {post : Except ε α → σ → Prop}

theorem Ends.result
    (h : Ends x s (fun a s' => post (.ok a) s') fun e s' => post (.error e) s') :
    post (outcome x s).1 (outcome x s).2 := by
  unfold Ends at h
  rcases houtcome : outcome x s with ⟨e | a, s'⟩ <;> rwa [houtcome] at h

theorem Ends.state {P : σ → Prop} (h : Ends x s (fun _ s' => P s') fun _ s' => P s') : P (outcome x s).2 := by
  unfold Ends at h
  rcases houtcome : outcome x s with ⟨e | a, s'⟩ <;> rwa [houtcome] at h

theorem outcome_bind : outcome (x >>= f) s =
    match outcome x s with
    | (.ok a, s') => outcome (f a) s'
    | (.error e, s') => (.error e, s') := by
  unfold outcome
  rw [ExceptT.run_bind, StateT.run_bind]
  rcases houtcome : x.run.run s with ⟨e | a, s'⟩ <;> rfl

theorem ends_bind {ok' : β → σ → Prop} (h : Ends x s ok error)
    (hf : ∀ a s', ok a s' → Ends (f a) s' ok' error) : Ends (x >>= f) s ok' error := by
  unfold Ends at h ⊢
  rw [outcome_bind]
  rcases houtcome : outcome x s with ⟨e | a, s'⟩
  · rw [houtcome] at h
    exact h
  · rw [houtcome] at h
    exact hf a s' h

theorem outcome_tryCatch {handle : ε → Fallible ε σ α} : outcome (tryCatch x handle) s =
    match outcome x s with
    | (.ok a, s') => (.ok a, s')
    | (.error e, s') => outcome (handle e) s' := by
  unfold outcome
  rw [ExceptT.run_tryCatch, StateT.run_bind]
  rcases houtcome : x.run.run s with ⟨e | a, s'⟩ <;> rfl

theorem ends_tryCatch {handle : ε → Fallible ε σ α} (h : Ends x s ok error')
    (hhandle : ∀ e s', error' e s' → Ends (handle e) s' ok error) : Ends (tryCatch x handle) s ok error := by
  unfold Ends at h ⊢
  rw [outcome_tryCatch]
  rcases houtcome : outcome x s with ⟨e | a, s'⟩
  · rw [houtcome] at h
    exact hhandle e s' h
  · rw [houtcome] at h
    exact h

/-- The computation, with the error it was left with as a value. -/
def attempt (x : Fallible ε σ α) : Fallible ε σ (Except ε α) := tryCatch (Except.ok <$> x) fun e => pure (.error e)

theorem ends_attempt {error : ε → σ → Prop}
    (h : Ends x s (fun a s' => post (.ok a) s') fun e s' => post (.error e) s') : Ends (attempt x) s post error := by
  have hmap : Ends (Except.ok <$> x : Fallible ε σ (Except ε α)) s post fun e s' => post (.error e) s' := by
    rw [← bind_pure_comp]
    exact ends_bind h fun a s' ha => ends_pure ha
  exact ends_tryCatch hmap fun e s' he => ends_pure he

/-! ## What every computation does to the state -/

/-- However it ends, the state it leaves is related to the state it began with. -/
def Respects (R : σ → σ → Prop) (x : Fallible ε σ α) : Prop := ∀ s, Ends x s (fun _ s' => R s s') fun _ s' => R s s'

section Respects

variable {R : σ → σ → Prop}

theorem respects_pure (hrefl : ∀ s, R s s) (a : α) : Respects R (pure a : Fallible ε σ α) :=
  fun s => ends_pure (hrefl s)

theorem respects_throw (hrefl : ∀ s, R s s) (e : ε) : Respects R (throw e : Fallible ε σ α) :=
  fun s => ends_throw (hrefl s)

theorem respects_get (hrefl : ∀ s, R s s) : Respects R (get : Fallible ε σ σ) := fun s => ends_get (hrefl s)

theorem respects_bind (htrans : ∀ s₁ s₂ s₃, R s₁ s₂ → R s₂ s₃ → R s₁ s₃) (h : Respects R x)
    (hf : ∀ a, Respects R (f a)) : Respects R (x >>= f) := by
  intro s
  refine ends_bind (h s) fun a s₁ hs₁ => ?_
  exact (hf a s₁).mono (fun _ s₂ hs₂ => htrans s s₁ s₂ hs₁ hs₂) fun _ s₂ hs₂ => htrans s s₁ s₂ hs₁ hs₂

theorem respects_attempt (h : Respects R x) : Respects R (attempt x) := fun s => ends_attempt (h s)

theorem Respects.outcome (h : Respects R x) {result : Except ε α} {s' : σ} (hend : outcome x s = (result, s')) :
    R s s' := by
  have hstate := (h s).state
  rwa [hend] at hstate

end Respects

theorem outcome_attempt : outcome (attempt x) s = (.ok (outcome x s).1, (outcome x s).2) := by
  have hmap : outcome (Except.ok <$> x : Fallible ε σ (Except ε α)) s =
      match outcome x s with
      | (.ok a, s') => (.ok (.ok a), s')
      | (.error e, s') => (.error e, s') := by
    rw [← bind_pure_comp, outcome_bind]
    rcases outcome x s with ⟨e | a, s'⟩ <;> rfl
  unfold attempt
  rw [outcome_tryCatch, hmap]
  rcases outcome x s with ⟨e | a, s'⟩ <;> rfl

theorem ends_attempt_outcome {error : ε → σ → Prop} :
    Ends (attempt x) s (fun result s' => outcome x s = (result, s')) error := by
  unfold Ends
  rw [outcome_attempt]

end Fallible

end NousCore
