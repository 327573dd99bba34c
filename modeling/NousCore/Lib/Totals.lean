import Mathlib.Algebra.BigOperators.Group.List.Basic
import Mathlib.Tactic.Abel
import NousCore.Lib.Record

/-!
# Totals of a record

* `Record.total f` : what the values of a record come to, under `f`;
* `total_set_of_some`, `total_set_of_none` : a write adds what it writes and takes off what it overwrites;
* `addTo` : a record of running totals, one for each key, and `total_foldl_addTo` what a list adds to it.
-/

namespace NousCore

namespace Record

variable {κ α M : Type*} [DecidableEq κ] [AddCommGroup M]

def total (f : α → M) (r : Record κ α) : M := (r.values.map f).sum

omit [DecidableEq κ] in
@[simp] theorem total_empty (f : α → M) : (empty : Record κ α).total f = 0 := rfl

theorem sum_map_modify (f : α → M) (k : κ) (v : α) : ∀ {l : List (κ × α)} {w : α}, (l.map Prod.fst).Nodup →
    (k, w) ∈ l → ((l.map fun e => if e.1 = k then (e.1, v) else e).map fun e => f e.2).sum =
      (l.map fun e => f e.2).sum - f w + f v
  | [], _, _, h => absurd h List.not_mem_nil
  | (j, u) :: l, w, hnodup, h => by
    rw [List.map_cons, List.nodup_cons] at hnodup
    rw [List.map_cons, List.map_cons, List.sum_cons, List.map_cons, List.sum_cons]
    rcases List.mem_cons.mp h with he | hl
    · cases he
      have hrest : (l.map fun e => if e.1 = k then (e.1, v) else e) = l := by
        refine (List.map_congr_left fun e he' => if_neg ?_).trans (List.map_id l)
        intro hk
        exact hnodup.1 (List.mem_map.mpr ⟨e, he', hk⟩)
      rw [if_pos rfl, hrest]
      abel
    · have hne : j ≠ k := by
        rintro rfl
        exact hnodup.1 (List.mem_map.mpr ⟨_, hl, rfl⟩)
      rw [if_neg hne, sum_map_modify f k v hnodup.2 hl]
      abel

theorem total_set_of_some {f : α → M} {r : Record κ α} {k : κ} {v w : α} (h : r.get? k = some w) :
    (r.set k v).total f = r.total f - f w + f v := by
  have hmem : k ∈ r.keys := mem_keys.mpr ⟨w, h⟩
  unfold total values set
  rw [dif_pos hmem, List.map_map, List.map_map]
  exact sum_map_modify f k v r.nodup (mem_entries_of_get? h)

theorem total_set_of_none {f : α → M} {r : Record κ α} {k : κ} {v : α} (h : r.get? k = none) :
    (r.set k v).total f = r.total f + f v := by
  unfold total
  rw [values_set_of_not_mem v (get?_eq_none.mp h), List.map_append, List.sum_append]
  simp

def addTo (begin : α) (add : α → α) (r : Record κ α) (k : κ) : Record κ α :=
  r.set k (match r.get? k with
    | some v => add v
    | none => begin)

theorem total_addTo {f : α → M} {begin : α} {add : α → α} {x : M} (hbegin : f begin = x)
    (hadd : ∀ v, f (add v) = f v + x) (r : Record κ α) (k : κ) : (addTo begin add r k).total f = r.total f + x := by
  unfold addTo
  cases h : r.get? k with
  | some v =>
    rw [total_set_of_some h]
    rw [hadd]
    abel
  | none =>
    rw [total_set_of_none h]
    rw [hbegin]

theorem total_foldl_addTo {β : Type*} {f : α → M} {key : β → κ} {begin : β → α} {add : β → α → α} {x : β → M}
    (hbegin : ∀ b, f (begin b) = x b) (hadd : ∀ b v, f (add b v) = f v + x b) :
    ∀ (l : List β) (r : Record κ α),
      (l.foldl (fun r b => addTo (begin b) (add b) r (key b)) r).total f = r.total f + (l.map x).sum
  | [], r => by simp
  | b :: l, r => by
    rw [List.foldl_cons, total_foldl_addTo hbegin hadd l, total_addTo (hbegin b) (hadd b), List.map_cons, List.sum_cons]
    abel

end Record

end NousCore
