import Mathlib.Data.List.Basic

/-!
# Hash chains

A list of records each of which names the hash of the one before it.

* `Chained back hash p l` : the first record of `l` names `p`, and every other one the hash of the record before it;
* `chained_append` : a chain is extended by a record that names the hash of the last one;
* `Numbered seq n l` : the records of `l` are numbered `n`, `n + 1`, ….
-/

namespace NousCore

section

variable {α H : Type} (back : α → Option H) (hash : α → H)

def Chained : Option H → List α → Prop
  | _, [] => True
  | p, x :: l => back x = p ∧ Chained (some (hash x)) l

variable {back hash} {p : Option H} {l l' : List α} {x : α}

/-- What the next record of a chain has to name. -/
def lastHash (hash : α → H) (p : Option H) (l : List α) : Option H := (l.getLast?.map hash).or p

@[simp] theorem lastHash_append_singleton : lastHash hash p (l ++ [x]) = some (hash x) := by
  simp [lastHash]

theorem lastHash_cons : lastHash hash p (x :: l) = lastHash hash (some (hash x)) l := by
  cases l with
  | nil => rfl
  | cons y l =>
    unfold lastHash
    rw [List.getLast?_cons_cons]
    cases h : (y :: l).getLast? with
    | none => simp at h
    | some z => rfl

theorem chained_append : Chained back hash p (l ++ l') ↔
    Chained back hash p l ∧ Chained back hash (lastHash hash p l) l' := by
  induction l generalizing p with
  | nil => exact ⟨fun h => ⟨trivial, h⟩, And.right⟩
  | cons y l ih =>
    rw [List.cons_append, lastHash_cons]
    constructor
    · rintro ⟨hback, h⟩
      exact ⟨⟨hback, (ih.mp h).1⟩, (ih.mp h).2⟩
    · rintro ⟨⟨hback, h⟩, h'⟩
      exact ⟨hback, ih.mpr ⟨h, h'⟩⟩

theorem Chained.left (h : Chained back hash p (l ++ l')) : Chained back hash p l := (chained_append.mp h).1

theorem Chained.back_zero (h : Chained back hash p l) (hl : l[0]? = some x) : back x = p := by
  cases l with
  | nil => cases hl
  | cons y l =>
    obtain rfl : y = x := Option.some.inj hl
    exact h.1

theorem Chained.back_succ (h : Chained back hash p l) {i : Nat} {y : α} (hx : l[i]? = some x) (hy : l[i + 1]? = some y) :
    back y = some (hash x) := by
  induction l generalizing p i with
  | nil => cases hx
  | cons z l ih =>
    cases i with
    | zero =>
      obtain rfl : z = x := Option.some.inj hx
      exact h.2.back_zero hy
    | succ i => exact ih h.2 hx hy

/-- **Commitment.** In chains of records of which no two have the same hash, unless they name the same hash and have
the same content, a common hash stands at the same place, with the same content at and before it. -/
theorem Chained.commit {β γ : Type} {back' : β → Option H} {hash' : β → H} {m : List β} (content : α → γ)
    (content' : β → γ) (h : Chained back hash none l) (h' : Chained back' hash' none m)
    (hfree : ∀ a ∈ l, ∀ b ∈ m, hash a = hash' b → back a = back' b ∧ content a = content' b) :
    ∀ {i j : Nat} {a : α} {b : β}, l[i]? = some a → m[j]? = some b → hash a = hash' b →
      i = j ∧ ∀ k ≤ i, (l[k]?).map content = (m[k]?).map content' := by
  intro i
  induction i with
  | zero =>
    intro j a b ha hb hab
    obtain ⟨hback, hcontent⟩ := hfree a (List.mem_of_getElem? ha) b (List.mem_of_getElem? hb) hab
    cases j with
    | succ j =>
      obtain ⟨b', hb'⟩ : ∃ b', m[j]? = some b' :=
        ⟨_, List.getElem?_eq_getElem (Nat.lt_of_succ_lt (List.getElem?_eq_some_iff.mp hb).1)⟩
      rw [h.back_zero ha, h'.back_succ hb' hb] at hback
      cases hback
    | zero =>
      refine ⟨rfl, fun k hk => ?_⟩
      obtain rfl : k = 0 := Nat.le_zero.mp hk
      rw [ha, hb, Option.map_some, Option.map_some, hcontent]
  | succ i ih =>
    intro j a b ha hb hab
    obtain ⟨hback, hcontent⟩ := hfree a (List.mem_of_getElem? ha) b (List.mem_of_getElem? hb) hab
    obtain ⟨a', ha'⟩ : ∃ a', l[i]? = some a' :=
      ⟨_, List.getElem?_eq_getElem (Nat.lt_of_succ_lt (List.getElem?_eq_some_iff.mp ha).1)⟩
    rw [h.back_succ ha' ha] at hback
    cases j with
    | zero =>
      rw [h'.back_zero hb] at hback
      cases hback
    | succ j =>
      obtain ⟨b', hb'⟩ : ∃ b', m[j]? = some b' :=
        ⟨_, List.getElem?_eq_getElem (Nat.lt_of_succ_lt (List.getElem?_eq_some_iff.mp hb).1)⟩
      rw [h'.back_succ hb' hb] at hback
      obtain ⟨rfl, hsame⟩ := ih ha' hb' (Option.some.inj hback)
      refine ⟨rfl, fun k hk => ?_⟩
      rcases Nat.lt_or_eq_of_le hk with hlt | rfl
      · exact hsame k (Nat.le_of_lt_succ hlt)
      · rw [ha, hb, Option.map_some, Option.map_some, hcontent]

end

theorem filter_isPrefix {α : Type} {q : α → Bool} {l : List α} (h : l.Pairwise fun a b => q b = true → q a = true) :
    l.filter q <+: l := by
  induction l with
  | nil => exact List.prefix_refl _
  | cons x l ih =>
    obtain ⟨hx, hl⟩ := List.pairwise_cons.mp h
    by_cases hq : q x = true
    · rw [List.filter_cons_of_pos hq]
      exact (List.prefix_cons_inj x).mpr (ih hl)
    · have hnone : l.filter q = [] := List.filter_eq_nil_iff.mpr fun y hy hqy => hq (hx y hy hqy)
      rw [List.filter_cons_of_neg hq, hnone]
      exact List.nil_prefix

/-! ## Numbering -/

section

variable {α : Type} (seq : α → Nat)

def Numbered : Nat → List α → Prop
  | _, [] => True
  | n, x :: l => seq x = n ∧ Numbered (n + 1) l

variable {seq} {n : Nat} {l l' : List α} {x : α}

theorem numbered_iff : Numbered seq n l ↔ ∀ i y, l[i]? = some y → seq y = n + i := by
  induction l generalizing n with
  | nil => simp [Numbered]
  | cons z l ih =>
    constructor
    · rintro ⟨hz, hl⟩ i y hy
      cases i with
      | zero =>
        obtain rfl : z = y := Option.some.inj hy
        exact hz
      | succ i =>
        rw [ih.mp hl i y hy]
        omega
    · intro h
      refine ⟨h 0 z rfl, ih.mpr fun i y hy => ?_⟩
      rw [h (i + 1) y hy]
      omega

theorem numbered_append : Numbered seq n (l ++ l') ↔ Numbered seq n l ∧ Numbered seq (n + l.length) l' := by
  induction l generalizing n with
  | nil => exact ⟨fun h => ⟨trivial, h⟩, And.right⟩
  | cons y l ih =>
    rw [List.cons_append, List.length_cons, show n + (l.length + 1) = n + 1 + l.length by omega]
    constructor
    · rintro ⟨hy, h⟩
      exact ⟨⟨hy, (ih.mp h).1⟩, (ih.mp h).2⟩
    · rintro ⟨⟨hy, h⟩, h'⟩
      exact ⟨hy, ih.mpr ⟨h, h'⟩⟩

theorem Numbered.bounds (h : Numbered seq n l) (hx : x ∈ l) : n ≤ seq x ∧ seq x < n + l.length := by
  obtain ⟨i, hi⟩ := List.mem_iff_getElem?.mp hx
  have hlt := (List.getElem?_eq_some_iff.mp hi).1
  rw [numbered_iff.mp h i x hi]
  omega

theorem Numbered.getElem?_eq (h : Numbered seq n l) {k : Nat} (hk : n ≤ k) (hx : x ∈ l) :
    seq x = k ↔ l[k - n]? = some x := by
  constructor
  · rintro rfl
    obtain ⟨i, hi⟩ := List.mem_iff_getElem?.mp hx
    rw [numbered_iff.mp h i x hi, Nat.add_sub_cancel_left]
    exact hi
  · intro hget
    rw [numbered_iff.mp h _ x hget]
    omega

theorem Numbered.filter_range (h : Numbered seq n l) (first last : Nat) :
    l.filter (fun x => decide (seq x ≥ first) && decide (seq x ≤ last)) = (l.take (last + 1 - n)).drop (first - n) := by
  induction l generalizing n with
  | nil => simp
  | cons y l ih =>
    have hy : seq y = n := h.1
    rw [List.filter_cons, hy, ih h.2]
    by_cases hlast : n ≤ last
    · rw [show last + 1 - n = last + 1 - (n + 1) + 1 by omega, List.take_succ_cons]
      by_cases hfirst : first ≤ n
      · rw [show first - n = 0 by omega, show first - (n + 1) = 0 by omega, List.drop_zero, List.drop_zero]
        simp [hfirst, hlast]
      · rw [show first - n = first - (n + 1) + 1 by omega, List.drop_succ_cons]
        simp [hfirst]
    · rw [show last + 1 - n = 0 by omega, show last + 1 - (n + 1) = 0 by omega]
      simp [hlast]

theorem Numbered.pairwise (h : Numbered seq n l) : l.Pairwise fun a b => seq a ≤ seq b := by
  induction l generalizing n with
  | nil => exact .nil
  | cons y l ih =>
    refine .cons (fun z hz => ?_) (ih h.2)
    have hz' := (h.2.bounds hz).1
    have hy := h.1
    omega

end

end NousCore
