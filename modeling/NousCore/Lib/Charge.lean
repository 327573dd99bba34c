import NousCore.Lib.Runs
import Mathlib.Algebra.Order.Monoid.Canonical.Defs
import Mathlib.Algebra.BigOperators.Group.List.Basic

/-!
# Counters that are charged before they are checked

Every request adds to a counter, and it is admitted when the counter is then within the limit.

* `add_sum_admitted_le` : together they are within the limit;
* `admitted_eq_self`, `admitted_eq_nil` : all are admitted while the sum is within the limit, and none after that;
* `grants_iff_keepsOut` : exactly then every request that fits is admitted.
-/

namespace NousCore

theorem Run.exists_of_append_cons {σ ι : Type*} {step : σ → ι → σ → Prop} {s u : σ} {ls ls' : List ι} {l : ι}
    (h : Run step s (ls ++ l :: ls') u) : ∃ t v, Run step s ls t ∧ step t l v ∧ Run step v ls' u := by
  obtain ⟨t, hfirst, hrest⟩ := h.exists_of_append
  obtain ⟨v, hone, hlast⟩ := Run.exists_of_append (show Run step t ([l] ++ ls') u from hrest)
  generalize hsingle : [l] = single at hone
  cases hone with
  | nil => cases hsingle
  | @snoc ls₀ t' _ l' hnil hstep =>
    obtain ⟨rfl, rfl⟩ : ls₀ = [] ∧ l' = l := by
      have hparts := List.append_inj' (show [] ++ [l] = ls₀ ++ [l'] from hsingle) rfl
      exact ⟨hparts.1.symm, (List.singleton_inj.mp hparts.2).symm⟩
    exact ⟨t, v, hfirst, hnil.eq_of_nil ▸ hstep, hlast⟩

namespace Charge

variable {M : Type*} [AddCommMonoid M] [PartialOrder M] [CanonicallyOrderedAdd M] [DecidableLE M]

/-- The requests of `ds` that are admitted, from `used` on. -/
def admitted (limit : M) : M → List M → List M
  | _, [] => []
  | used, d :: ds => if used + d ≤ limit then d :: admitted limit (used + d) ds else admitted limit (used + d) ds

variable {limit used d : M} {ds es : List M}

omit [CanonicallyOrderedAdd M] in
theorem admitted_append : admitted limit used (ds ++ es) =
    admitted limit used ds ++ admitted limit (used + ds.sum) es := by
  induction ds generalizing used with
  | nil => simp [admitted]
  | cons d ds ih =>
    rw [List.cons_append, admitted, admitted, ih, List.sum_cons, add_assoc]
    split_ifs <;> rfl

theorem admitted_eq_nil (h : ¬used ≤ limit) : admitted limit used ds = [] := by
  induction ds generalizing used with
  | nil => rfl
  | cons d ds ih =>
    have hnext : ¬used + d ≤ limit := fun hle => h (le_self_add.trans hle)
    rw [admitted, if_neg hnext, ih hnext]

theorem admitted_eq_self (h : used + ds.sum ≤ limit) : admitted limit used ds = ds := by
  induction ds generalizing used with
  | nil => rfl
  | cons d ds ih =>
    rw [List.sum_cons, ← add_assoc] at h
    rw [admitted, if_pos (le_self_add.trans h), ih h]

theorem add_sum_admitted_le (h : used ≤ limit) : used + (admitted limit used ds).sum ≤ limit := by
  induction ds generalizing used with
  | nil => simpa [admitted] using h
  | cons d ds ih =>
    rw [admitted]
    split_ifs with hd
    · rw [List.sum_cons, ← add_assoc]
      exact ih hd
    · rw [admitted_eq_nil hd, List.sum_nil, add_zero]
      exact h

theorem admitted_append_cons (hin : ds.sum ≤ limit) (hout : ¬ds.sum + d ≤ limit) :
    admitted limit 0 (ds ++ d :: es) = ds := by
  rw [admitted_append, admitted_eq_self (by rwa [zero_add]), zero_add, admitted, if_neg hout, admitted_eq_nil hout,
    List.append_nil]

theorem within_or_first (limit : M) (ds : List M) :
    ds.sum ≤ limit ∨ ∃ ds₁ d ds₂, ds = ds₁ ++ d :: ds₂ ∧ ds₁.sum ≤ limit ∧ ¬ds₁.sum + d ≤ limit := by
  induction ds using List.reverseRecOn with
  | nil => exact .inl (by simp)
  | append_singleton ds d ih =>
    rcases ih with hin | ⟨ds₁, d₁, ds₂, rfl, hin, hout⟩
    · by_cases hd : ds.sum + d ≤ limit
      · exact .inl (by simpa using hd)
      · exact .inr ⟨ds, d, [], rfl, hin, hd⟩
    · exact .inr ⟨ds₁, d₁, ds₂ ++ [d], by simp, hin, hout⟩

/-- Every request that fits into what the requests admitted before it have left is admitted. -/
def Grants (limit : M) (ds : List M) : Prop :=
  ∀ ds₁ d ds₂, ds = ds₁ ++ d :: ds₂ → (admitted limit 0 ds₁).sum + d ≤ limit → ds₁.sum + d ≤ limit

/-- After a request that is not admitted, none fits into what the requests before it have left. -/
def KeepsOut (limit : M) (ds : List M) : Prop :=
  ∀ ds₁ d ds₂ d' ds₃, ds = ds₁ ++ d :: (ds₂ ++ d' :: ds₃) → ds₁.sum ≤ limit → ¬ds₁.sum + d ≤ limit →
    ¬ds₁.sum + d' ≤ limit

theorem grants_iff_keepsOut : Grants limit ds ↔ KeepsOut limit ds := by
  constructor
  · intro h ds₁ d ds₂ d' ds₃ hds hin hout hfits
    have hgranted := h (ds₁ ++ d :: ds₂) d' ds₃ (by simp [hds]) (by rwa [admitted_append_cons hin hout])
    refine hout (le_trans ?_ hgranted)
    rw [List.sum_append, List.sum_cons, ← add_assoc, add_assoc _ ds₂.sum]
    exact le_self_add
  · intro h ds₁ d ds₂ hds hfits
    rcases within_or_first limit ds₁ with hin | ⟨ds₁', d', ds₂', rfl, hin, hout⟩
    · rwa [admitted_eq_self (by rwa [zero_add])] at hfits
    · rw [admitted_append_cons hin hout] at hfits
      exact absurd hfits (h ds₁' d' ds₂' d ds₂ (by simp [hds]) hin hout)

omit [CanonicallyOrderedAdd M] [DecidableLE M] in
theorem keepsOut_of_forall_eq {d : M} (h : ∀ d' ∈ ds, d' = d) : KeepsOut limit ds := by
  rintro ds₁ d₁ ds₂ d₂ ds₃ rfl - hout
  rwa [h d₂ (by simp), ← h d₁ (by simp)]

/-! ## Counters of a system -/

/-- A counter: what it reads in a state, what an event charges, and whether the event was granted. -/
structure Gauge (σ ι M : Type*) where
  used : σ → M
  limit : M
  charge : ι → Option M
  granted : ι → Bool

namespace Gauge

variable {σ ι : Type*} {step : σ → ι → σ → Prop} {g : Gauge σ ι M} {s t : σ} {evs evs' : List ι}

def charges (g : Gauge σ ι M) (evs : List ι) : List M := evs.filterMap g.charge

def grants (g : Gauge σ ι M) (evs : List ι) : List M := evs.filterMap fun e => if g.granted e then g.charge e else none

/-- The counter is charged before it is checked, and only by the events that charge it. -/
structure Counts (g : Gauge σ ι M) (step : σ → ι → σ → Prop) : Prop where
  same : ∀ s e t, step s e t → g.charge e = none → g.used t = g.used s
  charged : ∀ s e t d, step s e t → g.charge e = some d →
    g.used t = g.used s + d ∧ (g.granted e = true ↔ g.used s + d ≤ g.limit)

omit [CanonicallyOrderedAdd M] in
theorem Counts.of_run (h : g.Counts step) (hrun : Run step s evs t) :
    g.used t = g.used s + (g.charges evs).sum ∧ g.grants evs = admitted g.limit (g.used s) (g.charges evs) := by
  induction hrun with
  | nil => exact ⟨by simp [charges], rfl⟩
  | @snoc evs t u e hrun hstep ih =>
    obtain ⟨hused, hgrants⟩ := ih
    unfold charges grants at *
    rw [List.filterMap_append, List.filterMap_append, List.filterMap_cons, List.filterMap_cons]
    cases hcharge : g.charge e with
    | none =>
      refine ⟨?_, ?_⟩
      · simpa using (h.same _ _ _ hstep hcharge).trans hused
      · simpa using hgrants
    | some d =>
      obtain ⟨hnext, hgranted⟩ := h.charged _ _ _ _ hstep hcharge
      rw [List.filterMap_nil, admitted_append, ← hgrants, ← hused, List.sum_append, ← add_assoc, ← hused, hnext]
      refine ⟨by simp, ?_⟩
      congr 1
      rw [admitted]
      by_cases hfits : g.used t + d ≤ g.limit
      · rw [if_pos (hgranted.mpr hfits), if_pos hfits]
        rfl
      · rw [if_neg fun hg => hfits (hgranted.mp hg), if_neg hfits]
        rfl

theorem Counts.sum_grants_le (h : g.Counts step) (hrun : Run step s evs t) : (g.grants evs).sum ≤ g.limit := by
  rw [(h.of_run hrun).2]
  by_cases hle : g.used s ≤ g.limit
  · exact le_add_self.trans (add_sum_admitted_le hle)
  · rw [admitted_eq_nil hle, List.sum_nil]
    exact zero_le

/-- Every event that fits into what the granted ones before it have left is granted. -/
def GrantsWhatFits (g : Gauge σ ι M) (evs : List ι) : Prop :=
  ∀ evs₁ e evs₂ d, evs = evs₁ ++ e :: evs₂ → g.charge e = some d → (g.grants evs₁).sum + d ≤ g.limit →
    g.granted e = true

theorem Counts.grantsWhatFits_iff (h : g.Counts step) (hzero : g.used s = 0) (hrun : Run step s evs t) :
    g.GrantsWhatFits evs ↔ KeepsOut g.limit (g.charges evs) := by
  have hprefix : ∀ evs₁ e evs₂, evs = evs₁ ++ e :: evs₂ → ∀ d, g.charge e = some d →
      g.grants evs₁ = admitted g.limit 0 (g.charges evs₁) ∧
        (g.granted e = true ↔ (g.charges evs₁).sum + d ≤ g.limit) := by
    rintro evs₁ e evs₂ rfl d hd
    obtain ⟨u, v, hrun₁, hstep, -⟩ := hrun.exists_of_append_cons
    obtain ⟨hused, hgrants⟩ := h.of_run hrun₁
    rw [hzero, zero_add] at hused
    exact ⟨hzero ▸ hgrants, hused ▸ (h.charged _ _ _ _ hstep hd).2⟩
  rw [← grants_iff_keepsOut]
  constructor
  · intro hgrant ds₁ d ds₂ hds hfits
    obtain ⟨evs₁, evs', rfl, rfl, hrest⟩ := List.filterMap_eq_append_iff.mp hds
    obtain ⟨skipped, e, evs₂, rfl, hskipped, hd, -⟩ := List.filterMap_eq_cons_iff.mp hrest
    have hcharges : g.charges (evs₁ ++ skipped) = List.filterMap g.charge evs₁ := by
      unfold charges
      rw [List.filterMap_append, List.filterMap_eq_nil_iff.mpr hskipped, List.append_nil]
    obtain ⟨hgrants, hiff⟩ := hprefix (evs₁ ++ skipped) e evs₂ (by simp) d hd
    rw [hcharges] at hgrants hiff
    exact hiff.mp (hgrant (evs₁ ++ skipped) e evs₂ d (by simp) hd (hgrants ▸ hfits))
  · intro hgrant evs₁ e evs₂ d hevs hd hfits
    obtain ⟨hgrants, hiff⟩ := hprefix evs₁ e evs₂ hevs d hd
    refine hiff.mpr (hgrant (g.charges evs₁) d (g.charges evs₂) ?_ (hgrants ▸ hfits))
    unfold charges
    rw [hevs, List.filterMap_append, List.filterMap_cons, hd]

end Gauge

end Charge

end NousCore
