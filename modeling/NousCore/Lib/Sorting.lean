import Mathlib.Algebra.GroupWithZero.Nat
import Mathlib.Data.List.Sort

/-!
# Sorting by a comparison

* `sortBy le` : a stable sort, where `le a b` says that `a` need not come after `b`;
* `pairwise_sortBy` : the list is sorted when `le` is a total preorder;
* `exists_split_of_insertionSort` : the first of a list sorted by rank is the earliest of least rank;
* `takeFitting` : the first of a list, as long as what they cost fits; `isPrefix_takeFitting`, no prefix that fits is longer.
-/

namespace NousCore

variable {α : Type*} (le : α → α → Bool) {l : List α} {a : α}

def sortBy (l : List α) : List α := l.insertionSort fun a b => le a b = true

theorem perm_sortBy (l : List α) : (sortBy le l).Perm l := List.perm_insertionSort _ l

@[simp] theorem mem_sortBy : a ∈ sortBy le l ↔ a ∈ l := (perm_sortBy le l).mem_iff

variable {le}

theorem pairwise_sortBy (trans : ∀ a b c, le a b = true → le b c = true → le a c = true)
    (total : ∀ a b, (le a b || le b a) = true) (l : List α) :
    (sortBy le l).Pairwise fun a b => le a b = true := by
  have : Std.Total fun a b => le a b = true := ⟨fun a b => by simpa using total a b⟩
  have : IsTrans α fun a b => le a b = true := ⟨trans⟩
  exact List.pairwise_insertionSort (fun a b => le a b = true) l

/-! ## Which of two comes first -/

theorem pair_sublist_asymm : ∀ {l : List α} {a b : α}, l.Nodup → [a, b].Sublist l → ¬[b, a].Sublist l
  | [], _, _, _, h, _ => nomatch List.sublist_nil.mp h
  | c :: l, a, b, hn, h, h' => by
    obtain ⟨hc, hn⟩ := List.nodup_cons.mp hn
    rcases List.sublist_cons_iff.mp h with hl | ⟨r, hr, hb⟩
    · rcases List.sublist_cons_iff.mp h' with hl' | ⟨r', hr', ha⟩
      · exact pair_sublist_asymm hn hl hl'
      · cases hr'
        exact hc (hl.subset (List.mem_cons_of_mem _ List.mem_cons_self))
    · cases hr
      rcases List.sublist_cons_iff.mp h' with hl' | ⟨r', hr', ha⟩
      · exact hc (hl'.subset (List.mem_cons_of_mem _ List.mem_cons_self))
      · cases hr'
        exact hc (hb.subset List.mem_cons_self)

theorem pair_sublist_or : ∀ {l : List α} {a b : α}, a ∈ l → b ∈ l → a ≠ b → [a, b].Sublist l ∨ [b, a].Sublist l
  | c :: l, a, b, ha, hb, hne => by
    rcases List.mem_cons.mp ha with rfl | hal
    · have hbl : b ∈ l := (List.mem_cons.mp hb).resolve_left hne.symm
      exact .inl ((List.singleton_sublist.mpr hbl).cons_cons a)
    · rcases List.mem_cons.mp hb with rfl | hbl
      · exact .inr ((List.singleton_sublist.mpr hal).cons_cons b)
      · exact (pair_sublist_or hal hbl hne).imp (.cons c) (.cons c)

/-- **Stability.** What comes first although it need not came first. -/
theorem pair_sublist_of_sortBy {b : α} (hn : l.Nodup) (h : [a, b].Sublist (sortBy le l)) (hle : le b a = true) :
    [a, b].Sublist l := by
  have hn' : (sortBy le l).Nodup := (perm_sortBy le l).nodup_iff.mpr hn
  have ha : a ∈ l := (mem_sortBy le).mp (h.subset List.mem_cons_self)
  have hb : b ∈ l := (mem_sortBy le).mp (h.subset (List.mem_cons_of_mem _ List.mem_cons_self))
  have hne : a ≠ b := by
    rintro rfl
    exact pair_sublist_asymm hn' h h
  refine (pair_sublist_or ha hb hne).resolve_right fun h' => pair_sublist_asymm hn' h ?_
  exact List.sublist_insertionSort (List.pairwise_pair.mpr hle) h'

theorem exists_split_of_insertionSort {rank : α → Nat} {b : α} {rest : List α}
    (h : l.insertionSort (fun a b => rank a ≤ rank b) = b :: rest) : ∃ l₁ l₂, l = l₁ ++ b :: l₂ ∧
      (∀ a ∈ l₁, rank b < rank a) ∧ ∀ a ∈ l₂, rank b ≤ rank a := by
  induction l generalizing b rest with
  | nil => cases h
  | cons a l ih =>
    have hsorted : List.orderedInsert (fun a b => rank a ≤ rank b) a (l.insertionSort fun a b => rank a ≤ rank b) =
      b :: rest := h
    cases hl : l.insertionSort (fun a b => rank a ≤ rank b) with
    | nil =>
      rw [hl] at hsorted
      cases hsorted
      have hnil : l = [] := List.nil_perm.mp (hl ▸ List.perm_insertionSort (fun a b => rank a ≤ rank b) l)
      exact ⟨[], [], by rw [hnil]; rfl, nofun, nofun⟩
    | cons c tail =>
      obtain ⟨l₁, l₂, rfl, hbefore, hafter⟩ := ih hl
      rw [hl] at hsorted
      by_cases hle : rank a ≤ rank c
      · rw [List.orderedInsert_cons_of_le (fun a b => rank a ≤ rank b) tail hle] at hsorted
        cases hsorted
        refine ⟨[], l₁ ++ c :: l₂, rfl, nofun, fun x hx => ?_⟩
        rcases List.mem_append.mp hx with hx | hx
        · have := hbefore x hx
          omega
        · rcases List.mem_cons.mp hx with rfl | hx
          · exact hle
          · have := hafter x hx
            omega
      · rw [List.orderedInsert_of_not_le (fun a b => rank a ≤ rank b) tail hle] at hsorted
        cases hsorted
        refine ⟨a :: l₁, l₂, rfl, fun x hx => ?_, hafter⟩
        rcases List.mem_cons.mp hx with rfl | hx
        · exact Nat.lt_of_not_le hle
        · exact hbefore x hx

/-- A list that is cut after `k` and filtered by `p`: at least `k` of the whole list meet `p` and are better than
something behind the cut, exactly when behind the cut there are as many of them as the filter drops before it. -/
theorem le_countP_iff {k : Nat} (p better : α → Bool) (hlength : (l.take k).length = k)
    (hbetter : ∀ a ∈ l.take k, better a = true) :
    k ≤ l.countP (fun a => p a && better a) ↔
      (l.take k).countP (fun a => !p a) ≤ (l.drop k).countP fun a => p a && better a := by
  have hsplit : l.countP (fun a => p a && better a) =
      (l.take k).countP (fun a => p a && better a) + (l.drop k).countP fun a => p a && better a := by
    rw [← List.countP_append, List.take_append_drop]
  have hbefore : (l.take k).countP (fun a => p a && better a) = (l.take k).countP p := by
    refine List.countP_congr fun a ha => ?_
    rw [hbetter a ha, Bool.and_true]
  have hall : (l.take k).length = (l.take k).countP p + (l.take k).countP fun a => !p a := by
    rw [List.length_eq_countP_add_countP p]
    simp only [Bool.not_eq_true, Bool.decide_eq_false]
  omega

/-! ## As long as they fit -/

/-- From the front, as long as what they cost together still fits. -/
def takeFitting (fits : Nat → Bool) (cost : α → Nat) : Nat → List α → List α
  | _, [] => []
  | spent, a :: l => if fits (spent + cost a) then a :: takeFitting fits cost (spent + cost a) l else []

section

variable {fits fits' : Nat → Bool} {cost : α → Nat} {spent : Nat}

theorem takeFitting_isPrefix (fits : Nat → Bool) (cost : α → Nat) (spent : Nat) (l : List α) :
    takeFitting fits cost spent l <+: l := by
  induction l generalizing spent with
  | nil => exact List.prefix_refl []
  | cons a l ih =>
    rw [takeFitting]
    split_ifs
    · exact List.cons_prefix_cons.mpr ⟨rfl, ih _⟩
    · exact List.nil_prefix

theorem takeFitting_fits (h : fits spent = true) :
    fits (spent + ((takeFitting fits cost spent l).map cost).sum) = true := by
  induction l generalizing spent with
  | nil => exact h
  | cons a l ih =>
    rw [takeFitting]
    split_ifs with hfits
    · rw [List.map_cons, List.sum_cons, ← Nat.add_assoc]
      exact ih hfits
    · exact h

theorem isPrefix_takeFitting (hmono : ∀ m n, m ≤ n → fits n = true → fits m = true) {l' : List α} (hl : l' <+: l)
    (h : fits (spent + (l'.map cost).sum) = true) : l' <+: takeFitting fits cost spent l := by
  induction l generalizing spent l' with
  | nil => exact hl
  | cons a l ih =>
    cases l' with
    | nil => exact List.nil_prefix
    | cons b l' =>
      obtain ⟨rfl, htail⟩ := List.cons_prefix_cons.mp hl
      rw [List.map_cons, List.sum_cons, ← Nat.add_assoc] at h
      rw [takeFitting, if_pos (hmono _ _ (Nat.le_add_right _ _) h)]
      exact List.cons_prefix_cons.mpr ⟨rfl, ih htail h⟩

theorem takeFitting_mono (h : ∀ n, fits n = true → fits' n = true) :
    takeFitting fits cost spent l <+: takeFitting fits' cost spent l := by
  induction l generalizing spent with
  | nil => exact List.prefix_refl []
  | cons a l ih =>
    rw [takeFitting]
    split_ifs with hfits
    · rw [takeFitting, if_pos (h _ hfits)]
      exact List.cons_prefix_cons.mpr ⟨rfl, ih⟩
    · exact List.nil_prefix

end

/-! ## Orders of strings -/

/-- `a` need not come after `b`. -/
structure Collation where
  le : String → String → Bool
  trans : ∀ a b c, le a b = true → le b c = true → le a c = true
  total : ∀ a b, (le a b || le b a) = true

def codePoints : Collation where
  le a b := a ≤ b
  trans := fun _ _ _ hab hbc => decide_eq_true (String.le_trans (of_decide_eq_true hab) (of_decide_eq_true hbc))
  total := fun a b => by simpa using String.le_total a b

end NousCore
