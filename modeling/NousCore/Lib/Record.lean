import Mathlib.Data.List.Nodup
import Mathlib.Data.List.Dedup
import Mathlib.Data.List.Sort

/-!
# Insertion-ordered records, and the set spread

A JavaScript `Map`, or an object used as a record, keeps its keys in insertion order and each key once:

* `get?`, `set`, `modify`, `ofEntries` : reading, writing, editing in place, `Object.fromEntries`;
* `get?_modify`, `get?_set`, `get?_erase` : what a write does to every read;
* `mem_values` : a value is listed exactly when some key reads it;
* `nodup_eraseDups` : `[...new Set(xs)]` has no repetition.
-/

namespace NousCore

/-! ## The set spread -/

theorem nodup_eraseDups {α : Type*} [BEq α] [LawfulBEq α] : ∀ l : List α, l.eraseDups.Nodup
  | [] => by simp
  | a :: l => by
    rw [List.eraseDups_cons, List.nodup_cons]
    refine ⟨fun h => ?_, nodup_eraseDups _⟩
    have := (List.mem_filter.mp (List.mem_eraseDups.mp h)).2
    simp at this
termination_by l => l.length
decreasing_by simp only [List.length_cons]; exact Nat.lt_succ_of_le (List.length_filter_le _ _)

/-! ## Records -/

/-- An insertion-ordered map: every key is listed once. -/
structure Record (κ : Type*) (α : Type*) where
  entries : List (κ × α)
  nodup : (entries.map Prod.fst).Nodup
  deriving DecidableEq

namespace Record

variable {κ : Type*} {α : Type*}

def empty : Record κ α := ⟨[], List.nodup_nil⟩

def keys (r : Record κ α) : List κ := r.entries.map Prod.fst

def values (r : Record κ α) : List α := r.entries.map Prod.snd

variable [DecidableEq κ]

def get? (r : Record κ α) (k : κ) : Option α := r.entries.lookup k

/-- Edit the value at `k` in place; nothing happens at a missing key. -/
def modify (r : Record κ α) (k : κ) (f : α → α) : Record κ α where
  entries := r.entries.map fun e => if e.1 = k then (e.1, f e.2) else e
  nodup := by
    have h : (Prod.fst ∘ fun e : κ × α => if e.1 = k then (e.1, f e.2) else e) = Prod.fst := by
      funext e
      simp only [Function.comp_apply]
      split_ifs <;> rfl
    rw [List.map_map, h]
    exact r.nodup

/-- Overwrite in place, or append a new key at the end. -/
def set (r : Record κ α) (k : κ) (v : α) : Record κ α :=
  if h : k ∈ r.keys then r.modify k fun _ => v
  else ⟨r.entries ++ [(k, v)], by
    rw [List.map_append, List.nodup_append]
    refine ⟨r.nodup, by simp, fun a ha b hb => ?_⟩
    rw [List.map_singleton, List.mem_singleton] at hb
    rintro rfl
    subst hb
    exact h ha⟩

/-- Without the key `k`. -/
def erase (r : Record κ α) (k : κ) : Record κ α where
  entries := r.entries.filter fun e => e.1 ≠ k
  nodup := r.nodup.sublist (List.filter_sublist.map _)

/-- `Object.fromEntries`: a later entry overwrites an earlier one of its key. -/
def ofEntries (es : List (κ × α)) : Record κ α := es.foldl (fun r e => r.set e.1 e.2) empty

/-! ## Reading -/

variable {v : α}

theorem mem_entries_of_get? {r : Record κ α} {k : κ} (h : r.get? k = some v) : (k, v) ∈ r.entries := by
  obtain ⟨l₁, l₂, he, -⟩ := List.lookup_eq_some_iff.mp h
  simp [he]

theorem lookup_of_mem : ∀ {l : List (κ × α)} {k : κ} {v : α}, (l.map Prod.fst).Nodup → (k, v) ∈ l →
    l.lookup k = some v
  | [], _, _, _, h => by simp at h
  | (j, w) :: l, k, v, hn, h => by
    rw [List.map_cons, List.nodup_cons] at hn
    rcases List.mem_cons.mp h with he | hl
    · cases he
      exact List.lookup_cons_self
    · have hne : k ≠ j := by
        rintro rfl
        exact hn.1 (List.mem_map.mpr ⟨_, hl, rfl⟩)
      rw [List.lookup_cons, beq_eq_false_iff_ne.mpr hne]
      exact lookup_of_mem hn.2 hl

theorem get?_eq_some {r : Record κ α} {k : κ} : r.get? k = some v ↔ (k, v) ∈ r.entries :=
  ⟨mem_entries_of_get?, lookup_of_mem r.nodup⟩

theorem mem_keys {r : Record κ α} {k : κ} : k ∈ r.keys ↔ ∃ v, r.get? k = some v := by
  simp only [keys, List.mem_map, get?_eq_some]
  exact ⟨fun ⟨e, he, h⟩ => ⟨e.2, h ▸ he⟩, fun ⟨v, hv⟩ => ⟨(k, v), hv, rfl⟩⟩

theorem get?_eq_none {r : Record κ α} {k : κ} : r.get? k = none ↔ k ∉ r.keys := by
  rw [mem_keys, ← Option.ne_none_iff_exists', not_not]

theorem mem_values {r : Record κ α} : v ∈ r.values ↔ ∃ k, r.get? k = some v := by
  simp only [values, List.mem_map, get?_eq_some]
  exact ⟨fun ⟨e, he, h⟩ => ⟨e.1, h ▸ he⟩, fun ⟨k, hk⟩ => ⟨(k, v), hk, rfl⟩⟩

theorem any_values {r : Record κ α} {p : α → Bool} :
    r.values.any p = true ↔ ∃ k v, r.get? k = some v ∧ p v = true := by
  rw [List.any_eq_true]
  constructor
  · rintro ⟨v, hv, hp⟩
    obtain ⟨k, hk⟩ := mem_values.mp hv
    exact ⟨k, v, hk, hp⟩
  · rintro ⟨k, v, hk, hp⟩
    exact ⟨v, mem_values.mpr ⟨k, hk⟩, hp⟩

@[simp] theorem get?_empty (k : κ) : (empty : Record κ α).get? k = none := rfl

/-! ## Writing -/

theorem lookup_map_modify (k j : κ) (f : α → α) : ∀ l : List (κ × α),
    (l.map fun e => if e.1 = k then (e.1, f e.2) else e).lookup j =
      if j = k then (l.lookup j).map f else l.lookup j
  | [] => by simp
  | (i, w) :: l => by
    have hfst : (if i = k then (i, f w) else (i, w)) = (i, if i = k then f w else w) := by
      split_ifs <;> rfl
    rw [List.map_cons, hfst, List.lookup_cons, List.lookup_cons]
    by_cases hji : j = i
    · subst hji
      by_cases hjk : j = k <;> simp [hjk]
    · rw [beq_eq_false_iff_ne.mpr hji]
      exact lookup_map_modify k j f l

section

variable (r : Record κ α)

theorem get?_modify (k j : κ) (f : α → α) :
    (r.modify k f).get? j = if j = k then (r.get? j).map f else r.get? j :=
  lookup_map_modify k j f r.entries

@[simp] theorem get?_modify_self (k : κ) (f : α → α) :
    (r.modify k f).get? k = (r.get? k).map f := by
  rw [get?_modify, if_pos rfl]

theorem get?_modify_of_ne {k j : κ} (f : α → α) (h : j ≠ k) :
    (r.modify k f).get? j = r.get? j := by
  rw [get?_modify, if_neg h]

@[simp] theorem keys_modify (k : κ) (f : α → α) : (r.modify k f).keys = r.keys := by
  simp only [keys, modify, List.map_map]
  congr 1
  funext e
  simp only [Function.comp_apply]
  split_ifs <;> rfl

theorem get?_set (k j : κ) (v : α) :
    (r.set k v).get? j = if j = k then some v else r.get? j := by
  unfold set
  split_ifs with hk hj hj
  · subst hj
    obtain ⟨w, hw⟩ := mem_keys.mp hk
    rw [get?_modify_self, hw, Option.map_some]
  · rw [get?_modify_of_ne _ _ hj]
  · subst hj
    have hnone : r.get? j = none := get?_eq_none.mpr hk
    change (r.entries ++ [(j, v)]).lookup j = some v
    rw [List.lookup_append, show r.entries.lookup j = none from hnone]
    simp
  · change (r.entries ++ [(k, v)]).lookup j = r.entries.lookup j
    rw [List.lookup_append, List.lookup_cons, beq_eq_false_iff_ne.mpr hj]
    simp

theorem get?_erase (k j : κ) : (r.erase k).get? j = if j = k then none else r.get? j := by
  split_ifs with hj
  · refine get?_eq_none.mpr fun hmem => ?_
    obtain ⟨e, he, rfl⟩ := List.mem_map.mp hmem
    exact absurd hj (by simpa using (List.mem_filter.mp he).2)
  · refine Option.ext fun v => ?_
    rw [get?_eq_some, get?_eq_some]
    simp [erase, hj]

omit [DecidableEq κ] in
theorem nodup_filterMap (f : κ → α → Option α) {l : List (κ × α)} (h : (l.map Prod.fst).Nodup) :
    ((l.filterMap fun e => (f e.1 e.2).map fun v => (e.1, v)).map Prod.fst).Nodup := by
  refine h.sublist ?_
  clear h
  induction l with
  | nil => exact List.Sublist.slnil
  | cons e l ih =>
    rw [List.filterMap_cons, List.map_cons]
    cases f e.1 e.2 with
    | none => exact ih.cons _
    | some v => exact ih.cons_cons _

/-- Each value becomes what `f` makes of it, or is dropped. -/
def filterMap (f : κ → α → Option α) : Record κ α where
  entries := r.entries.filterMap fun e => (f e.1 e.2).map fun v => (e.1, v)
  nodup := nodup_filterMap f r.nodup

theorem get?_filterMap (f : κ → α → Option α) (k : κ) :
    (r.filterMap f).get? k = (r.get? k).bind (f k) := by
  refine Option.ext fun v => ?_
  rw [get?_eq_some, Option.bind_eq_some_iff]
  simp only [filterMap, List.mem_filterMap, Option.map_eq_some_iff, get?_eq_some]
  constructor
  · rintro ⟨⟨j, w⟩, he, v', hv', heq⟩
    cases heq
    exact ⟨w, he, hv'⟩
  · rintro ⟨w, he, hv⟩
    exact ⟨(k, w), he, v, hv, rfl⟩

end

theorem entries_set_of_not_mem {r : Record κ α} {k : κ} (v : α) (h : k ∉ r.keys) :
    (r.set k v).entries = r.entries ++ [(k, v)] := by
  unfold set
  rw [dif_neg h]

theorem values_set_of_not_mem {r : Record κ α} {k : κ} (v : α) (h : k ∉ r.keys) :
    (r.set k v).values = r.values ++ [v] := by
  rw [values, entries_set_of_not_mem v h, List.map_append]
  rfl

theorem keys_set_of_not_mem {r : Record κ α} {k : κ} (v : α) (h : k ∉ r.keys) :
    (r.set k v).keys = r.keys ++ [k] := by
  rw [keys, entries_set_of_not_mem v h, List.map_append]
  rfl

theorem get?_foldl_set_cases (k : κ) : ∀ (es : List (κ × α)) (r : Record κ α),
    (∃ v, (es.foldl (fun r e => r.set e.1 e.2) r).get? k = some v ∧ (k, v) ∈ es) ∨
      k ∉ es.map Prod.fst ∧ (es.foldl (fun r e => r.set e.1 e.2) r).get? k = r.get? k
  | [], r => .inr ⟨by simp, rfl⟩
  | (j, w) :: es, r => by
    rw [List.foldl_cons]
    rcases get?_foldl_set_cases k es (r.set j w) with ⟨v, hv, hmem⟩ | ⟨hmem, hv⟩
    · exact .inl ⟨v, hv, List.mem_cons_of_mem _ hmem⟩
    · rw [get?_set] at hv
      by_cases hk : k = j
      · subst hk
        rw [if_pos rfl] at hv
        exact .inl ⟨w, hv, List.mem_cons_self⟩
      · rw [if_neg hk] at hv
        exact .inr ⟨by simp [hk, hmem], hv⟩

variable {es : List (κ × α)}

theorem mem_of_get?_ofEntries {k : κ} (h : (ofEntries es).get? k = some v) : (k, v) ∈ es := by
  rcases get?_foldl_set_cases k es empty with ⟨w, hw, hmem⟩ | ⟨-, hnone⟩
  · rw [ofEntries, hw, Option.some.injEq] at h
    exact h ▸ hmem
  · rw [ofEntries, hnone, get?_empty] at h
    cases h

theorem exists_get?_ofEntries {k : κ} : (∃ v, (ofEntries es).get? k = some v) ↔ k ∈ es.map Prod.fst := by
  constructor
  · rintro ⟨v, hv⟩
    exact List.mem_map.mpr ⟨(k, v), mem_of_get?_ofEntries hv, rfl⟩
  · intro hk
    rcases get?_foldl_set_cases k es empty with ⟨v, hv, -⟩ | ⟨hnot, -⟩
    · exact ⟨v, hv⟩
    · exact absurd hk hnot

theorem get?_ofEntries (hn : (es.map Prod.fst).Nodup) {k : κ} :
    (ofEntries es).get? k = some v ↔ (k, v) ∈ es := by
  refine ⟨mem_of_get?_ofEntries, fun h => ?_⟩
  obtain ⟨w, hw⟩ := exists_get?_ofEntries.mpr (List.mem_map.mpr ⟨(k, v), h, rfl⟩)
  have hv := lookup_of_mem hn h
  rw [lookup_of_mem hn (mem_of_get?_ofEntries hw), Option.some.injEq] at hv
  rw [hw, hv]

/-! ## Parts of a record -/

/-- The entries whose keys meet `p`. -/
def restrict (r : Record κ α) (p : κ → Bool) : Record κ α where
  entries := r.entries.filter fun e => p e.1
  nodup := r.nodup.sublist (List.filter_sublist.map _)

section Restrict

variable {r : Record κ α} {p : κ → Bool} {k : κ}

omit [DecidableEq κ] in
theorem ext_entries {r r' : Record κ α} (h : r.entries = r'.entries) : r = r' := by
  obtain ⟨entries, nodup⟩ := r
  obtain ⟨entries', nodup'⟩ := r'
  obtain rfl : entries = entries' := h
  rfl

theorem get?_restrict (h : p k = true) : (r.restrict p).get? k = r.get? k := by
  refine Option.ext fun v => ?_
  rw [get?_eq_some, get?_eq_some]
  simp [restrict, h]

omit [DecidableEq κ] in
theorem mem_keys_restrict : k ∈ (r.restrict p).keys ↔ k ∈ r.keys ∧ p k = true := by
  simp only [keys, restrict, List.mem_map, List.mem_filter]
  constructor
  · rintro ⟨e, ⟨he, hp⟩, rfl⟩
    exact ⟨⟨e, he, rfl⟩, hp⟩
  · rintro ⟨⟨e, he, rfl⟩, hp⟩
    exact ⟨e, ⟨he, hp⟩, rfl⟩

theorem restrict_modify (f : α → α) : (r.modify k f).restrict p = (r.restrict p).modify k f := by
  refine ext_entries ?_
  simp only [restrict, modify, List.filter_map]
  congr 1
  refine List.filter_congr fun e _ => ?_
  simp only [Function.comp_apply]
  split_ifs <;> rfl

theorem restrict_set_of_pos (v : α) (h : p k = true) : (r.set k v).restrict p = (r.restrict p).set k v := by
  by_cases hk : k ∈ r.keys
  · rw [set, dif_pos hk, set, dif_pos (mem_keys_restrict.mpr ⟨hk, h⟩), restrict_modify]
  · refine ext_entries ?_
    rw [entries_set_of_not_mem v fun hmem => hk (mem_keys_restrict.mp hmem).1]
    simp [restrict, entries_set_of_not_mem v hk, h]

theorem modify_of_not_mem (f : α → α) (h : k ∉ r.keys) : r.modify k f = r := by
  refine ext_entries ?_
  simp only [modify]
  refine (List.map_congr_left fun e he => if_neg ?_).trans (List.map_id _)
  rintro rfl
  exact h (List.mem_map.mpr ⟨e, he, rfl⟩)

theorem restrict_set_of_neg (v : α) (h : p k = false) : (r.set k v).restrict p = r.restrict p := by
  by_cases hk : k ∈ r.keys
  · rw [set, dif_pos hk, restrict_modify, modify_of_not_mem]
    rw [mem_keys_restrict, h]
    simp
  · refine ext_entries ?_
    simp [restrict, entries_set_of_not_mem v hk, h]

theorem restrict_erase : (r.erase k).restrict p = (r.restrict p).erase k := by
  refine ext_entries ?_
  simp only [restrict, erase, List.filter_filter, Bool.and_comm]

theorem restrict_erase_of_neg (h : p k = false) : (r.erase k).restrict p = r.restrict p := by
  refine ext_entries ?_
  simp only [restrict, erase, List.filter_filter]
  refine List.filter_congr fun e _ => ?_
  by_cases he : e.1 = k
  · simp [he, h]
  · simp [he]

end Restrict

end Record

end NousCore
