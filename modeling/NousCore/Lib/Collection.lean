import NousCore.Lib.Record

/-!
# Collections of documents

A collection of a document store keeps each document under the document's own key:

* `Collection key` : the documents, with this as a field;
* `put`, `delete`, `get`, `all` : the operations of the store;
* `find?_put`, `find?_delete` : what they do to every read.
-/

namespace NousCore

structure Collection {κ α : Type} [DecidableEq κ] (key : α → κ) where
  rows : Record κ α
  keyed : ∀ k v, rows.get? k = some v → key v = k

namespace Collection

variable {κ α : Type} [DecidableEq κ] {key : α → κ}

def empty : Collection key := ⟨.empty, fun _ _ h => by cases h⟩

section

variable (c : Collection key)

def find? (k : κ) : Option α := c.rows.get? k

def get (k : κ) : Option {v : α // key v = k} :=
  match h : c.rows.get? k with
  | some v => some ⟨v, c.keyed k v h⟩
  | none => none

def all : List α := c.rows.values

def put (v : α) : Collection key where
  rows := c.rows.set (key v) v
  keyed := fun k w h => by
    rw [Record.get?_set] at h
    split_ifs at h with hk
    · rw [← Option.some.inj h, hk]
    · exact c.keyed k w h

def delete (k : κ) : Collection key where
  rows := c.rows.erase k
  keyed := fun j w h => by
    rw [Record.get?_erase] at h
    split_ifs at h with hj
    exact c.keyed j w h

theorem find?_put (v : α) (k : κ) : (c.put v).find? k = if k = key v then some v else c.find? k :=
  Record.get?_set _ _ _ _

@[simp] theorem find?_put_self (v : α) : (c.put v).find? (key v) = some v := by
  rw [find?_put, if_pos rfl]

theorem find?_delete (j k : κ) : (c.delete j).find? k = if k = j then none else c.find? k :=
  Record.get?_erase _ _ _

theorem map_val_get (k : κ) : (c.get k).map Subtype.val = c.find? k := by
  unfold get find?
  split
  · rename_i v h
    exact h.symm
  · rename_i h
    exact h.symm

end

theorem get_eq_none {c : Collection key} {k : κ} (h : c.get k = none) : c.find? k = none := by
  rw [← map_val_get, h, Option.map_none]

theorem find?_of_get {c : Collection key} {k : κ} {v : {v : α // key v = k}} (h : c.get k = some v) :
    c.find? k = some v.val := by
  rw [← map_val_get, h, Option.map_some]

theorem mem_all {c : Collection key} {v : α} : v ∈ c.all ↔ c.find? (key v) = some v := by
  unfold all find?
  rw [Record.mem_values]
  constructor
  · rintro ⟨k, hk⟩
    rwa [c.keyed k v hk]
  · intro h
    exact ⟨key v, h⟩

theorem mem_all_of_put {c : Collection key} {v w : α} (h : w ∈ (c.put v).all) : w ∈ c.all ∨ w = v := by
  rw [mem_all, find?_put] at h
  split_ifs at h
  · exact Or.inr (Option.some.inj h).symm
  · exact Or.inl (mem_all.mpr h)

theorem mem_all_of_delete {c : Collection key} {k : κ} {w : α} (h : w ∈ (c.delete k).all) : w ∈ c.all := by
  rw [mem_all, find?_delete] at h
  split_ifs at h
  exact mem_all.mpr h

theorem nodup_map_all (c : Collection key) : (c.all.map key).Nodup := by
  have hkeys : c.all.map key = c.rows.entries.map Prod.fst := by
    unfold all Record.values
    rw [List.map_map]
    exact List.map_congr_left fun e he => c.keyed e.1 e.2 (Record.get?_eq_some.mpr he)
  rw [hkeys]
  exact c.rows.nodup

/-! ## Editing -/

/-- The documents of `ks` are edited, the others are what they were. -/
def Edited (f : κ → α → α) (before : Collection key) (ks : List κ) (c : Collection key) : Prop :=
  ∀ k, c.find? k = (before.find? k).map fun v => if k ∈ ks then f k v else v

section Edited

variable {f : κ → α → α} {before c : Collection key} {ks : List κ} {k : κ}

theorem Edited.start (f : κ → α → α) (before : Collection key) : Edited f before [] before := by
  intro k
  simp only [List.not_mem_nil, if_false, Option.map_id']

theorem Edited.skip (h : Edited f before ks c) (hsame : ∀ v, c.find? k = some v → f k v = v) :
    Edited f before (ks ++ [k]) c := by
  intro j
  rw [h j]
  by_cases hj : j = k
  · subst hj
    cases hv : before.find? j with
    | none => rfl
    | some v =>
      have hedited := h j
      rw [hv, Option.map_some] at hedited
      have hsame := hsame _ hedited
      rw [Option.map_some, Option.map_some, if_pos (List.mem_append_right _ (List.mem_singleton_self _))]
      split_ifs with hks
      · rfl
      · rw [if_neg hks] at hsame
        rw [hsame]
  · simp only [List.mem_append, List.mem_singleton, hj, or_false]

theorem Edited.edit {v : α} (h : Edited f before ks c) (hv : c.find? k = some v) (hkey : ∀ v, key (f k v) = key v)
    (hagain : ∀ v, f k (f k v) = f k v) : Edited f before (ks ++ [k]) (c.put (f k v)) := by
  intro j
  have hk : key (f k v) = k := (hkey v).trans (c.keyed k v hv)
  rw [find?_put, hk]
  by_cases hj : j = k
  · subst hj
    rw [h j] at hv
    obtain ⟨w, hw, rfl⟩ := Option.map_eq_some_iff.mp hv
    rw [if_pos rfl, hw, Option.map_some, if_pos (List.mem_append_right _ (List.mem_singleton_self _))]
    split_ifs
    · rw [hagain]
    · rfl
  · rw [if_neg hj, h j]
    simp only [List.mem_append, List.mem_singleton, hj, or_false]

theorem Edited.forall {P : α → Prop} (h : Edited f before ks c) (hf : ∀ k v, P v → P (f k v))
    (hbefore : ∀ k v, before.find? k = some v → P v) : ∀ k v, c.find? k = some v → P v := by
  intro k v hv
  rw [h k] at hv
  obtain ⟨w, hw, rfl⟩ := Option.map_eq_some_iff.mp hv
  split_ifs
  · exact hf k w (hbefore k w hw)
  · exact hbefore k w hw

end Edited

end Collection

end NousCore
