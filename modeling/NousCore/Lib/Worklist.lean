import Mathlib.Data.List.Nodup
import Mathlib.Algebra.BigOperators.Group.List.Basic
import Mathlib.Tactic.Linarith

/-!
# Worklist searches

A search takes an item from its list, drops it when it is done already or not to be kept, and otherwise marks it done
and puts the items it expands to in the list.

* `Explores expand keep todo done fin` : such a search ends with the items `fin` done;
* `Explores.mem_iff` : a search from nothing done ends with exactly the reached items;
* `cost`, `cost_drop`, `cost_visit` : the number of turns left, which every turn lowers.
-/

namespace NousCore

variable {α : Type*}

inductive Explores (expand : α → List α) (keep : α → Prop) : List α → List α → List α → Prop
  | nil {done : List α} : Explores expand keep [] done done
  | drop {a : α} {todo done fin : List α} :
      a ∈ done ∨ ¬keep a → Explores expand keep todo done fin → Explores expand keep (a :: todo) done fin
  | visit {a : α} {todo todo' done fin : List α} :
      a ∉ done → keep a → (∀ b, b ∈ todo' ↔ b ∈ todo ∨ b ∈ expand a) →
        Explores expand keep todo' (a :: done) fin → Explores expand keep (a :: todo) done fin

inductive Reached (expand : α → List α) (keep : α → Prop) (start : List α) : α → Prop
  | start {a : α} : a ∈ start → keep a → Reached expand keep start a
  | next {a b : α} : Reached expand keep start a → b ∈ expand a → keep b → Reached expand keep start b

namespace Reached

variable {expand : α → List α} {keep : α → Prop} {start : List α} {a : α}

theorem kept (h : Reached expand keep start a) : keep a := by
  cases h with
  | start _ hk => exact hk
  | next _ _ hk => exact hk

theorem start_ne_nil (h : Reached expand keep start a) : start ≠ [] := by
  induction h with
  | start ha _ => exact List.ne_nil_of_mem ha
  | next _ _ _ ih => exact ih

end Reached

namespace Explores

variable {expand : α → List α} {keep : α → Prop} {todo done fin start : List α} {a : α}

section

variable (h : Explores expand keep todo done fin)

include h

theorem done_subset : done ⊆ fin := by
  induction h with
  | nil => exact fun _ h => h
  | drop _ _ ih => exact ih
  | visit _ _ _ _ ih => exact fun b hb => ih (List.mem_cons_of_mem _ hb)

theorem sound {P : α → Prop}
    (hnext : ∀ a b, P a → b ∈ expand a → keep b → P b) (htodo : ∀ a ∈ todo, keep a → P a) (hdone : ∀ a ∈ done, P a) :
    ∀ a ∈ fin, P a := by
  induction h with
  | nil => exact hdone
  | drop _ _ ih => exact ih (fun a ha => htodo a (List.mem_cons_of_mem _ ha)) hdone
  | @visit a todo todo' done fin _ hk hmem _ ih =>
    have ha : P a := htodo a List.mem_cons_self hk
    refine ih (fun b hb hkb => ?_) (fun b hb => ?_)
    · rcases (hmem b).mp hb with hb | hb
      · exact htodo b (List.mem_cons_of_mem _ hb) hkb
      · exact hnext a b ha hb hkb
    · rcases List.mem_cons.mp hb with rfl | hb
      · exact ha
      · exact hdone b hb

theorem todo_marked : ∀ a ∈ todo, keep a → a ∈ fin := by
  induction h with
  | nil => simp
  | @drop a todo done fin hdrop hrest ih =>
    intro b hb hkb
    rcases List.mem_cons.mp hb with rfl | hb
    · exact hrest.done_subset (hdrop.resolve_right (not_not_intro hkb))
    · exact ih b hb hkb
  | @visit a todo todo' done fin _ _ hmem hrest ih =>
    intro b hb hkb
    rcases List.mem_cons.mp hb with rfl | hb
    · exact hrest.done_subset List.mem_cons_self
    · exact ih b ((hmem b).mpr (.inl hb)) hkb

theorem closed
    (hdone : ∀ a ∈ done, ∀ b ∈ expand a, keep b → b ∈ done ∨ b ∈ todo) :
    ∀ a ∈ fin, ∀ b ∈ expand a, keep b → b ∈ fin := by
  induction h with
  | nil => exact fun a ha b hb hkb => (hdone a ha b hb hkb).elim id (fun h => absurd h List.not_mem_nil)
  | @drop a todo done fin hdrop _ ih =>
    refine ih fun c hc b hb hkb => ?_
    rcases hdone c hc b hb hkb with h | h
    · exact .inl h
    · rcases List.mem_cons.mp h with rfl | h
      · exact .inl (hdrop.resolve_right (not_not_intro hkb))
      · exact .inr h
  | @visit a todo todo' done fin _ _ hmem _ ih =>
    refine ih fun c hc b hb hkb => ?_
    rcases List.mem_cons.mp hc with rfl | hc
    · exact .inr ((hmem b).mpr (.inr hb))
    · rcases hdone c hc b hb hkb with h | h
      · exact .inl (List.mem_cons_of_mem _ h)
      · rcases List.mem_cons.mp h with rfl | h
        · exact .inl List.mem_cons_self
        · exact .inr ((hmem b).mpr (.inl h))

end

theorem mem_iff (h : Explores expand keep start [] fin) : a ∈ fin ↔ Reached expand keep start a := by
  constructor
  · intro ha
    exact h.sound (fun _ _ hr hb hk => .next hr hb hk) (fun _ ha hk => .start ha hk) (by simp) a ha
  · intro hr
    induction hr with
    | start ha hk => exact h.todo_marked _ ha hk
    | next _ hb hk ih => exact h.closed (by simp) _ ih _ hb hk

end Explores

/-! ## Turns -/

section Cost

variable [DecidableEq α] (expand : α → List α) (everything : List α)

/-- One turn for each item to do, and one for each item that the items not done yet may still add. -/
def cost (todo done : List α) : Nat :=
  todo.length + ((everything.filter (· ∉ done)).map fun a => (expand a).length).sum

theorem cost_drop (a : α) (todo done : List α) :
    cost expand everything todo done < cost expand everything (a :: todo) done := by
  simp only [cost, List.length_cons]
  omega

theorem sum_filter_cons {a : α} {done : List α} (ha : a ∉ done) :
    ∀ {l : List α}, l.Nodup → a ∈ l →
      ((l.filter (· ∉ a :: done)).map fun b => (expand b).length).sum + (expand a).length =
        ((l.filter (· ∉ done)).map fun b => (expand b).length).sum
  | [], _, h => absurd h List.not_mem_nil
  | b :: l, hn, h => by
    obtain ⟨hb, hn⟩ := List.nodup_cons.mp hn
    rcases List.mem_cons.mp h with rfl | h
    · have hrest : l.filter (· ∉ a :: done) = l.filter (· ∉ done) :=
        List.filter_congr fun c hc => by
          have hca : c ≠ a := fun e => hb (e ▸ hc)
          simp [hca]
      rw [List.filter_cons_of_neg (by simp), hrest, List.filter_cons_of_pos (by simpa using ha), List.map_cons,
        List.sum_cons]
      omega
    · have hba : b ≠ a := fun e => hb (e ▸ h)
      have ih := sum_filter_cons ha hn h
      by_cases hbd : b ∈ done
      · rw [List.filter_cons_of_neg (by simp [hbd]), List.filter_cons_of_neg (by simp [hbd])]
        exact ih
      · rw [List.filter_cons_of_pos (by simp [hbd, hba]), List.filter_cons_of_pos (by simpa using hbd), List.map_cons,
          List.map_cons, List.sum_cons, List.sum_cons]
        omega

theorem cost_visit (hn : everything.Nodup) {a : α} (todo : List α) {done : List α} (ha : a ∉ done) (hmem : a ∈ everything) :
    cost expand everything (todo ++ expand a) (a :: done) < cost expand everything (a :: todo) done := by
  have h := sum_filter_cons expand ha hn hmem
  simp only [cost, List.length_append, List.length_cons]
  omega

end Cost

end NousCore
