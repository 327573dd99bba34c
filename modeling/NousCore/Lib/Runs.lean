import Mathlib.Data.List.Induction
import Mathlib.Tactic.Common

/-!
# Runs of a labelled step relation

* `Run step s ls t` : the steps labelled `ls` lead from `s` to `t`;
* `Run.invariant` : what every step keeps holds after every run;
* `bind_eq_ok`, `foldlM_invariant` : taking a fallible computation apart.
-/

namespace NousCore

/-! ## Fallible computations -/

section Except

variable {ε α σ : Type*}

theorem bind_eq_ok.{u} {α β : Type u} {x : Except ε α} {f : α → Except ε β} {b : β} :
    (x >>= f) = .ok b ↔ ∃ a, x = .ok a ∧ f a = .ok b := by
  cases x with
  | error | ok => simp [bind, Except.bind]

theorem ite_error_eq_ok {c : Prop} [Decidable c] {e : ε} {x : Except ε α} {a : α} :
    (if c then .error e else x) = .ok a ↔ ¬c ∧ x = .ok a := by
  split_ifs with h <;> simp [h]

theorem ite_some_eq_none {c : Prop} [Decidable c] {a : α} {x : Option α} :
    (if c then some a else x) = none ↔ ¬c ∧ x = none := by
  split_ifs with h <;> simp [h]

theorem foldlM_cons_eq_ok {f : σ → α → Except ε σ} {a : α} {l : List α} {s t : σ} :
    (a :: l).foldlM f s = .ok t ↔ ∃ u, f s a = .ok u ∧ l.foldlM f u = .ok t := by
  rw [List.foldlM_cons, bind_eq_ok]

theorem foldlM_invariant {f : σ → α → Except ε σ} {P : σ → Prop} :
    ∀ {l : List α} {s t : σ}, (∀ u a v, a ∈ l → P u → f u a = .ok v → P v) → P s → l.foldlM f s = .ok t → P t
  | [], s, t, _, hs, h => by
    rw [List.foldlM_nil] at h
    exact Except.ok.inj h ▸ hs
  | a :: l, s, t, hf, hs, h => by
    obtain ⟨u, hu, ht⟩ := foldlM_cons_eq_ok.mp h
    refine foldlM_invariant (fun u b v hb => hf u b v (List.mem_cons_of_mem _ hb)) ?_ ht
    exact hf s a u List.mem_cons_self hs hu

theorem mapM_eq_ok_iff.{u} {α : Type*} {β : Type u} {ε : Type*} {f : α → Except ε β} :
    ∀ {l : List α} {results : List β}, l.mapM f = .ok results ↔ l.map f = results.map .ok
  | [], results => by
    rw [List.mapM_nil, List.map_nil, eq_comm (b := List.map _ _), List.map_eq_nil_iff]
    exact ⟨fun h => (Except.ok.inj h).symm, fun h => congrArg Except.ok h.symm⟩
  | a :: l, results => by
    rw [List.mapM_cons, bind_eq_ok, List.map_cons, eq_comm (b := List.map _ _), List.map_eq_cons_iff]
    constructor
    · rintro ⟨b, hb, h⟩
      obtain ⟨rest, hrest, h⟩ := bind_eq_ok.mp h
      exact ⟨b, rest, (Except.ok.inj h).symm, hb.symm, (mapM_eq_ok_iff.mp hrest).symm⟩
    · rintro ⟨b, rest, rfl, hb, hrest⟩
      exact ⟨b, hb.symm, bind_eq_ok.mpr ⟨rest, mapM_eq_ok_iff.mpr hrest.symm, rfl⟩⟩

theorem exists_mapM_eq_ok.{u} {α : Type*} {β : Type u} {ε : Type*} {f : α → Except ε β} :
    ∀ {l : List α}, (∀ a ∈ l, ∃ b, f a = .ok b) → ∃ results, l.mapM f = .ok results
  | [], _ => ⟨[], List.mapM_nil⟩
  | a :: l, h => by
    obtain ⟨b, hb⟩ := h a List.mem_cons_self
    obtain ⟨rest, hrest⟩ := exists_mapM_eq_ok fun c hc => h c (List.mem_cons_of_mem _ hc)
    refine ⟨b :: rest, mapM_eq_ok_iff.mpr ?_⟩
    rw [List.map_cons, List.map_cons, hb, mapM_eq_ok_iff.mp hrest]

theorem eq_ok_of_toOption {x : Except ε α} {a : α} (h : x.toOption = some a) : x = .ok a := by
  cases x with
  | error e => cases h
  | ok b => exact congrArg Except.ok (Option.some.inj h)

theorem exists_foldlM_of_check (f : σ → α → Except ε σ) (l : List α) (s : σ) (check : σ → Bool)
    (h : (l.foldlM f s).toOption.any check = true) : ∃ t, l.foldlM f s = .ok t ∧ check t = true := by
  obtain ⟨t, hok, hcheck⟩ := (Option.any_eq_true _ _).mp h
  exact ⟨t, eq_ok_of_toOption hok, hcheck⟩

end Except

/-! ## Runs -/

variable {σ ι ε : Type*}

inductive Run (step : σ → ι → σ → Prop) (s : σ) : List ι → σ → Prop
  | nil : Run step s [] s
  | snoc {ls : List ι} {t u : σ} {l : ι} : Run step s ls t → step t l u → Run step s (ls ++ [l]) u

/-- The steps that are taken from a state and under a label that meet `G`. -/
def Guarded (step : σ → ι → σ → Prop) (G : σ → ι → Prop) : σ → ι → σ → Prop := fun s l t => step s l t ∧ G s l

/-- The steps of a fallible operation that succeed. -/
def Succeeds (f : σ → ι → Except ε σ) : σ → ι → σ → Prop := fun s l t => f s l = .ok t

namespace Run

variable {step step' : σ → ι → σ → Prop} {s t u : σ} {ls ls' : List ι} {l : ι}

theorem cons (h : step s l t) (hr : Run step t ls u) : Run step s (l :: ls) u := by
  induction hr with
  | nil => exact .snoc .nil h
  | snoc _ hs ih => rw [← List.cons_append]; exact .snoc ih hs

theorem trans (h : Run step s ls t) (h' : Run step t ls' u) : Run step s (ls ++ ls') u := by
  induction h' with
  | nil => rwa [List.append_nil]
  | snoc _ hs ih => rw [← List.append_assoc]; exact .snoc ih hs

theorem eq_of_nil (h : Run step s [] t) : t = s := by
  generalize hnil : ([] : List ι) = ls at h
  cases h with
  | nil => rfl
  | snoc => simp at hnil

theorem exists_of_append (h : Run step s (ls ++ ls') u) : ∃ t, Run step s ls t ∧ Run step t ls' u := by
  induction ls' using List.reverseRecOn generalizing u with
  | nil => exact ⟨u, by rwa [List.append_nil] at h, .nil⟩
  | append_singleton ls' l ih =>
    rw [← List.append_assoc] at h
    generalize hall : ls ++ ls' ++ [l] = all at h
    cases h with
    | nil => simp at hall
    | @snoc all' t _ l' hr hs =>
      obtain ⟨rfl, hl⟩ := List.append_inj' hall rfl
      obtain rfl : l = l' := List.singleton_inj.mp hl
      obtain ⟨v, hv, hrest⟩ := ih hr
      exact ⟨v, hv, .snoc hrest hs⟩

theorem uncons (h : Run step s (l :: ls) u) : ∃ t, step s l t ∧ Run step t ls u := by
  rw [← List.singleton_append] at h
  obtain ⟨t, hfirst, hrest⟩ := h.exists_of_append
  rw [← List.nil_append [l]] at hfirst
  generalize hl : ([] : List ι) ++ [l] = labels at hfirst
  cases hfirst with
  | nil => simp at hl
  | snoc hnil hstep =>
    obtain ⟨rfl, hl⟩ := List.append_inj' hl rfl
    obtain rfl := List.singleton_inj.mp hl
    obtain rfl := hnil.eq_of_nil
    exact ⟨t, hstep, hrest⟩

theorem mono (hsub : ∀ s l t, step s l t → step' s l t) (h : Run step s ls t) : Run step' s ls t := by
  induction h with
  | nil => exact .nil
  | snoc _ hs ih => exact .snoc ih (hsub _ _ _ hs)

theorem map {κ : Type*} {step' : σ → κ → σ → Prop} {ks : List κ} (f : κ → ι)
    (hsub : ∀ s k t, step' s k t → step s (f k) t) (h : Run step' s ks t) : Run step s (ks.map f) t := by
  induction h with
  | nil => exact .nil
  | snoc _ hs ih =>
    rw [List.map_append]
    exact .snoc ih (hsub _ _ _ hs)

theorem invariant {P : σ → Prop} (hstep : ∀ t l u, P t → step t l u → P u) (h : Run step s ls t) (hs : P s) :
    P t := by
  induction h with
  | nil => exact hs
  | snoc _ hl ih => exact hstep _ _ _ ih hl

theorem guarded {G : ι → Prop} (h : Run step s ls t) (hG : ∀ l ∈ ls, G l) : Run (Guarded step fun _ l => G l) s ls t := by
  induction h with
  | nil => exact .nil
  | snoc _ hs ih =>
    rw [List.forall_mem_append] at hG
    exact .snoc (ih hG.1) ⟨hs, hG.2 _ (List.mem_singleton_self _)⟩

theorem forget_guard {G : σ → ι → Prop} (h : Run (Guarded step G) s ls t) : Run step s ls t :=
  h.mono fun _ _ _ hs => hs.1

end Run

theorem run_of_foldlM {f : σ → ι → Except ε σ} :
    ∀ {ls : List ι} {s t : σ}, ls.foldlM f s = .ok t → Run (Succeeds f) s ls t
  | [], s, t, h => by
    rw [List.foldlM_nil] at h
    exact Except.ok.inj h ▸ .nil
  | l :: ls, s, t, h => by
    obtain ⟨u, hu, ht⟩ := foldlM_cons_eq_ok.mp h
    exact .cons hu (run_of_foldlM ht)

/-- A fallible operation, refused where the guard does not hold. -/
def guardStep (f : σ → ι → Except String σ) (G : σ → ι → Prop) [∀ s l, Decidable (G s l)] (s : σ) (l : ι) :
    Except String σ :=
  if G s l then f s l else .error "guard"

theorem run_of_guardStep {f : σ → ι → Except String σ} {G : σ → ι → Prop} [∀ s l, Decidable (G s l)] {ls : List ι}
    {s t : σ} (h : ls.foldlM (guardStep f G) s = .ok t) : Run (Guarded (Succeeds f) G) s ls t := by
  refine (run_of_foldlM h).mono fun s l t hs => ?_
  unfold Succeeds guardStep at hs
  split_ifs at hs with hG
  exact ⟨hs, hG⟩

/-- The steps of a partial operation. -/
def Takes (f : σ → ι → Option σ) : σ → ι → σ → Prop := fun s l t => f s l = some t

theorem run_of_takes {f : σ → ι → Option σ} :
    ∀ {ls : List ι} {s t : σ}, ls.foldlM f s = some t → Run (Takes f) s ls t
  | [], s, t, h => by
    rw [List.foldlM_nil] at h
    exact Option.some.inj h ▸ .nil
  | l :: ls, s, t, h => by
    rw [List.foldlM_cons] at h
    obtain ⟨u, hu, ht⟩ := Option.bind_eq_some_iff.mp h
    exact .cons hu (run_of_takes ht)

theorem exists_run_of_takes (f : σ → ι → Option σ) (ls : List ι) (s : σ) (check : σ → Bool)
    (h : (ls.foldlM f s).any check = true) : ∃ t, Run (Takes f) s ls t ∧ check t = true := by
  obtain ⟨t, ht, hcheck⟩ := (Option.any_eq_true _ _).mp h
  exact ⟨t, run_of_takes ht, hcheck⟩

end NousCore
