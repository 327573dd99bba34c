import NousCore.Lib.JsonText
import NousCore.Lib.Sorting

/-!
# The canonical text of a value

* `normalize`, `stableStringify` : the text that is hashed;
* `JsonValue.meaning`, `Meaning.withoutProto` : the value up to the order of its keys, and without `__proto__` members;
* `TiesAgree` : keys that `localeCompare` does not tell apart stand in the same order.
-/

namespace NousCore.Witness

/-! ## Values -/

/-- A JSON value; an object lists its members as they were created, and a member may be `undefined`. -/
inductive JsonValue where
  | null
  | bool (b : Bool)
  | number (x : Decimal)
  | string (s : JsString)
  | array (items : List JsonValue)
  | object (members : List (JsString × Option JsonValue))

namespace JsonValue

mutual

/-- No object has two members of one key. -/
def Distinct : JsonValue → Prop
  | .array items => ItemsDistinct items
  | .object members => (members.map Prod.fst).Nodup ∧ MembersDistinct members
  | _ => True

def ItemsDistinct : List JsonValue → Prop
  | [] => True
  | x :: items => x.Distinct ∧ ItemsDistinct items

def MembersDistinct : List (JsString × Option JsonValue) → Prop
  | [] => True
  | (_, none) :: members => MembersDistinct members
  | (_, some x) :: members => x.Distinct ∧ MembersDistinct members

end

end JsonValue

structure JsonDocument where
  value : JsonValue
  distinct : value.Distinct

/-! ## The order of the keys of an object -/

def arrayIndex? (key : JsString) : Option Nat :=
  let n := numeralValue key
  if n < 2 ^ 32 - 1 ∧ numeral n = key then some n else none

def isIndex (key : JsString) : Bool := (arrayIndex? key).isSome

/-- `Object.entries`: the indices in ascending order, then the other keys as they were created. -/
def ownEntries {α : Type} (entries : List (JsString × α)) : List (JsString × α) :=
  sortBy (fun a b => (arrayIndex? a.1).getD 0 ≤ (arrayIndex? b.1).getD 0) (entries.filter fun e => isIndex e.1) ++
    entries.filter fun e => !isIndex e.1

/-- A comparison of strings, consistent as `sort` needs it. -/
structure Collator where
  localeCompare : JsString → JsString → Ordering
  swap : ∀ a b, localeCompare b a = (localeCompare a b).swap
  trans : ∀ a b c, localeCompare a b ≠ .gt → localeCompare b c ≠ .gt → localeCompare a c ≠ .gt

def Collator.le (c : Collator) (a b : JsString) : Bool := c.localeCompare a b ≠ .gt

/-! ## Normalizing -/

def protoKey : JsString := units "__proto__"

/-- `normalized[key] = value`, where the setter of `__proto__` makes no property. -/
def assign {α : Type} (normalized : List (JsString × α)) (entry : JsString × α) : List (JsString × α) :=
  if entry.1 = protoKey then normalized
  else if normalized.any fun e => e.1 = entry.1 then
    normalized.map fun e => if e.1 = entry.1 then entry else e
  else normalized ++ [entry]

/-- The object that is built from entries in the order of their keys, and what it lists. -/
def rebuild {α : Type} (c : Collator) (entries : List (JsString × α)) : List (JsString × α) :=
  ownEntries ((sortBy (fun a b => c.le a.1 b.1) (ownEntries entries)).foldl assign [])

mutual

/-- The values of the members are normalized before their keys are put in order, which does not change the order. -/
def normalize (c : Collator) : JsonValue → JsonTree
  | .null => .null
  | .bool b => .bool b
  | .number x => .number x
  | .string s => .string s
  | .array items => .array (normalizeItems c items)
  | .object members => .object (rebuild c (normalizeMembers c members))

def normalizeItems (c : Collator) : List JsonValue → List JsonTree
  | [] => []
  | x :: items => normalize c x :: normalizeItems c items

def normalizeMembers (c : Collator) : List (JsString × Option JsonValue) → List (JsString × JsonTree)
  | [] => []
  | (_, none) :: members => normalizeMembers c members
  | (k, some x) :: members => (k, normalize c x) :: normalizeMembers c members

end

def stableStringify (c : Collator) (v : JsonDocument) : JsString := (normalize c v.value).text

/-! ## Equality up to the order of keys -/

/-- A JSON value with its objects as functions. -/
inductive Meaning where
  | null
  | bool (b : Bool)
  | number (x : Decimal)
  | string (s : JsString)
  | array (items : List Meaning)
  | object (value? : JsString → Option Meaning)

mutual

/-- The value without the members of key `__proto__`. -/
def Meaning.withoutProto : Meaning → Meaning
  | .null => .null
  | .bool b => .bool b
  | .number x => .number x
  | .string s => .string s
  | .array items => .array (Meaning.itemsWithoutProto items)
  | .object value? => .object fun key => if key = protoKey then none else Meaning.memberWithoutProto (value? key)

def Meaning.itemsWithoutProto : List Meaning → List Meaning
  | [] => []
  | m :: items => m.withoutProto :: Meaning.itemsWithoutProto items

def Meaning.memberWithoutProto : Option Meaning → Option Meaning
  | none => none
  | some m => some m.withoutProto

end

namespace JsonValue

mutual

/-- The value up to the order of its keys. -/
def meaning : JsonValue → Meaning
  | .null => .null
  | .bool b => .bool b
  | .number x => .number x
  | .string s => .string s
  | .array items => .array (itemsMeaning items)
  | .object members => .object (membersMeaning members)

def itemsMeaning : List JsonValue → List Meaning
  | [] => []
  | x :: items => x.meaning :: itemsMeaning items

def membersMeaning : List (JsString × Option JsonValue) → JsString → Option Meaning
  | [], _ => none
  | (k, none) :: members, key => if key = k then none else membersMeaning members key
  | (k, some x) :: members, key => if key = k then some x.meaning else membersMeaning members key

end

def definedKeys (members : List (JsString × Option JsonValue)) : List JsString :=
  (members.filter fun m => m.2.isSome).map Prod.fst

/-- Two keys that are told apart neither by `localeCompare` nor by being indices. -/
structure Tied (c : Collator) (a b : JsString) : Prop where
  ne : a ≠ b
  eq : c.localeCompare a b = .eq
  left : isIndex a = false ∧ a ≠ protoKey
  right : isIndex b = false ∧ b ≠ protoKey

mutual

/-- Where both values have an object, tied keys stand in the same order in the two. -/
def TiesAgree (c : Collator) : JsonValue → JsonValue → Prop
  | .array items, .array items' => ItemsTiesAgree c items items'
  | .object members, .object members' =>
    (∀ a b, Tied c a b → [a, b].Sublist (definedKeys members) → ¬[b, a].Sublist (definedKeys members')) ∧
      MembersTiesAgree c members members'
  | _, _ => True

def ItemsTiesAgree (c : Collator) : List JsonValue → List JsonValue → Prop
  | x :: items, y :: items' => x.TiesAgree c y ∧ ItemsTiesAgree c items items'
  | _, _ => True

/-- The values of each key, that of `__proto__` apart. -/
def MembersTiesAgree (c : Collator) : List (JsString × Option JsonValue) → List (JsString × Option JsonValue) → Prop
  | [], _ => True
  | (_, none) :: members, members' => MembersTiesAgree c members members'
  | (k, some x) :: members, members' =>
    (k ≠ protoKey → ∀ y, (k, some y) ∈ members' → x.TiesAgree c y) ∧ MembersTiesAgree c members members'

end

end JsonValue

/-! ## What is rebuilt -/

section Rebuild

variable {α : Type} {c : Collator} {entries entries' : List (JsString × α)}

theorem Collator.le_total (c : Collator) (a b : JsString) : (c.le a b || c.le b a) = true := by
  unfold Collator.le
  rw [c.swap a b]
  cases c.localeCompare a b <;> rfl

variable {a b : JsString}

theorem Collator.le_trans (c : Collator) {d : JsString} (hab : c.le a b = true) (hbd : c.le b d = true) :
    c.le a d = true :=
  decide_eq_true (c.trans a b d (of_decide_eq_true hab) (of_decide_eq_true hbd))

theorem Collator.eq_of_le (c : Collator) (hab : c.le a b = true) (hba : c.le b a = true) :
    c.localeCompare a b = .eq := by
  have hle := of_decide_eq_true hab
  have hge := of_decide_eq_true hba
  rw [c.swap a b] at hge
  cases h : c.localeCompare a b with
  | lt =>
    rw [h] at hge
    exact absurd rfl hge
  | eq => rfl
  | gt => exact absurd h hle

theorem arrayIndex?_injective {n : Nat} (ha : arrayIndex? a = some n) (hb : arrayIndex? b = some n) :
    a = b := by
  obtain ⟨⟨-, ha⟩, hm⟩ := Option.ite_none_right_eq_some.mp ha
  obtain ⟨⟨-, hb⟩, hn⟩ := Option.ite_none_right_eq_some.mp hb
  rw [← ha, ← hb, Option.some.inj (hm.trans hn.symm)]

theorem perm_ownEntries (entries : List (JsString × α)) : (ownEntries entries).Perm entries :=
  ((perm_sortBy _ _).append_right _).trans (List.filter_append_perm (fun e => isIndex e.1) entries)

theorem foldl_assign : ∀ {entries normalized : List (JsString × α)}, ((normalized ++ entries).map Prod.fst).Nodup →
    entries.foldl assign normalized = normalized ++ entries.filter fun e => e.1 ≠ protoKey
  | [], normalized, _ => (List.append_nil normalized).symm
  | e :: entries, normalized, hn => by
    rw [List.foldl_cons]
    have hsub : (normalized ++ entries).Sublist (normalized ++ e :: entries) :=
      (List.sublist_cons_self e entries).append_left normalized
    by_cases hproto : e.1 = protoKey
    · rw [assign, if_pos hproto, foldl_assign (hn.sublist (hsub.map _)), List.filter_cons_of_neg (by simpa using hproto)]
    · have hnew : (normalized.any fun e' => decide (e'.1 = e.1)) = false := by
        rw [List.any_eq_false]
        intro e' he' heq
        rw [List.map_append] at hn
        exact List.disjoint_of_nodup_append hn (List.mem_map_of_mem he')
          ((of_decide_eq_true heq) ▸ List.mem_map_of_mem List.mem_cons_self)
      rw [assign, if_neg hproto, hnew, if_neg Bool.false_ne_true, foldl_assign (by
        rw [List.append_assoc]
        exact hn), List.append_assoc, List.filter_cons_of_pos (by simpa using hproto)]
      rfl

variable (c entries) in
/-- What comes before what in the rebuilt object. -/
def Precedes (a b : JsString × α) : Prop :=
  match arrayIndex? a.1, arrayIndex? b.1 with
  | some m, some n => m < n
  | some _, none => True
  | none, some _ => False
  | none, none => c.le a.1 b.1 = true ∧ (c.le b.1 a.1 = true → [a.1, b.1].Sublist (entries.map Prod.fst))

theorem filter_ownEntries (entries : List (JsString × α)) :
    ((ownEntries entries).filter fun e => !isIndex e.1) = entries.filter fun e => !isIndex e.1 := by
  have hnone : (sortBy (fun a b : JsString × α => (arrayIndex? a.1).getD 0 ≤ (arrayIndex? b.1).getD 0)
      (entries.filter fun e => isIndex e.1)).filter (fun e => !isIndex e.1) = [] := by
    rw [List.filter_eq_nil_iff]
    intro e he hnot
    rw [(List.mem_filter.mp ((mem_sortBy _).mp he)).2] at hnot
    cases hnot
  rw [ownEntries, List.filter_append, hnone, List.nil_append, List.filter_filter]
  simp only [Bool.and_self]

theorem rebuild_eq (hn : (entries.map Prod.fst).Nodup) : rebuild c entries =
    ownEntries ((sortBy (fun a b => c.le a.1 b.1) (ownEntries entries)).filter fun e => e.1 ≠ protoKey) := by
  have hn' : ((sortBy (fun a b => c.le a.1 b.1) (ownEntries entries)).map Prod.fst).Nodup :=
    (((perm_sortBy _ _).trans (perm_ownEntries entries)).map _).nodup_iff.mpr hn
  rw [rebuild, @foldl_assign _ _ [] (by rwa [List.nil_append])]
  rfl

theorem perm_rebuild (hn : (entries.map Prod.fst).Nodup) :
    (rebuild c entries).Perm (entries.filter fun e => e.1 ≠ protoKey) := by
  rw [rebuild_eq hn]
  exact (perm_ownEntries _).trans (((perm_sortBy _ _).trans (perm_ownEntries entries)).filter _)

/-- **The order of the entries.** Indices in ascending order, then the other keys by the comparison; of two that it
does not tell apart, the first is first. -/
theorem pairwise_rebuild (hn : (entries.map Prod.fst).Nodup) : (rebuild c entries).Pairwise (Precedes c entries) := by
  have hindex : ∀ {e : JsString × α}, isIndex e.1 = true → ∃ n, arrayIndex? e.1 = some n := fun h =>
    Option.isSome_iff_exists.mp h
  have hother : ∀ {e : JsString × α}, (!isIndex e.1) = true → arrayIndex? e.1 = none := fun h =>
    Option.not_isSome_iff_eq_none.mp (by simpa [isIndex] using h)
  have hkeys : ((rebuild c entries).map Prod.fst).Nodup :=
    ((perm_rebuild hn).map _).nodup_iff.mpr (hn.sublist (List.filter_sublist.map _))
  rw [rebuild_eq hn] at hkeys ⊢
  have hown : (ownEntries entries).Nodup := (perm_ownEntries entries).nodup_iff.mpr (List.Nodup.of_map _ hn)
  rw [ownEntries, List.map_append, List.nodup_append'] at hkeys
  refine List.pairwise_append.mpr ⟨?_, ?_, ?_⟩
  · -- among the indices
    have hsorted := @pairwise_sortBy _ (fun a b : JsString × α => decide ((arrayIndex? a.1).getD 0 ≤
      (arrayIndex? b.1).getD 0)) (fun a b d h h' => by simp only [decide_eq_true_eq] at *; omega)
      (fun a b => by simp only [Bool.or_eq_true, decide_eq_true_eq]; omega)
      (((sortBy (fun a b => c.le a.1 b.1) (ownEntries entries)).filter fun e => e.1 ≠ protoKey).filter
        fun e => isIndex e.1)
    refine (hsorted.and (List.pairwise_map.mp hkeys.1)).imp_of_mem fun {a b} ha hb h => ?_
    obtain ⟨m, hm⟩ := hindex (List.mem_filter.mp ((mem_sortBy _).mp ha)).2
    obtain ⟨n, hn⟩ := hindex (List.mem_filter.mp ((mem_sortBy _).mp hb)).2
    have hle := of_decide_eq_true h.1
    rw [hm, hn] at hle
    have hne : m ≠ n := by
      rintro rfl
      exact h.2 (arrayIndex?_injective hm hn)
    rw [Precedes, hm, hn]
    exact lt_of_le_of_ne hle hne
  · -- among the others
    refine List.pairwise_iff_forall_sublist.mpr fun {a b} h => ?_
    have hmem := fun d hd => List.mem_filter.mp (h.subset (a := d) hd)
    rw [Precedes, hother (hmem a List.mem_cons_self).2, hother (hmem b (List.mem_cons_of_mem _ List.mem_cons_self)).2]
    have hsort : [a, b].Sublist (sortBy (fun a b => c.le a.1 b.1) (ownEntries entries)) :=
      h.trans (List.filter_sublist.trans List.filter_sublist)
    refine ⟨?_, fun hle => ?_⟩
    · exact List.pairwise_iff_forall_sublist.mp (@pairwise_sortBy _ (fun a b : JsString × α => c.le a.1 b.1)
        (fun _ _ _ => c.le_trans) (fun _ _ => c.le_total _ _) _) hsort
    · have hbefore := (pair_sublist_of_sortBy hown hsort hle).filter fun e => !isIndex e.1
      rw [filter_ownEntries, List.filter_eq_self.mpr fun d hd => (hmem d hd).2] at hbefore
      exact (hbefore.trans List.filter_sublist).map Prod.fst
  · -- across
    intro a ha b hb
    obtain ⟨m, hm⟩ := hindex (List.mem_filter.mp ((mem_sortBy _).mp ha)).2
    rw [Precedes, hm, hother (List.mem_filter.mp hb).2]
    trivial

theorem precedes_of_tied {a b : JsString × α} (ht : JsonValue.Tied c a.1 b.1) :
    Precedes c entries a b ↔ [a.1, b.1].Sublist (entries.map Prod.fst) := by
  have hnone : ∀ {k : JsString}, isIndex k = false → arrayIndex? k = none := fun h =>
    Option.not_isSome_iff_eq_none.mp (by simpa [isIndex] using h)
  have hle : c.le a.1 b.1 = true := by
    rw [Collator.le, ht.eq]
    rfl
  have hge : c.le b.1 a.1 = true := by
    rw [Collator.le, c.swap, ht.eq]
    rfl
  rw [Precedes, hnone ht.left.1, hnone ht.right.1]
  exact ⟨fun h => h.2 hge, fun h => ⟨hle, fun _ => h⟩⟩

theorem JsonValue.Tied.symm (h : Tied c a b) : Tied c b a :=
  ⟨h.ne.symm, by rw [c.swap, h.eq]; rfl, h.right, h.left⟩

theorem Precedes.asymm {a b : JsString × α} (h : Precedes c entries a b) (hn : (entries.map Prod.fst).Nodup) :
    ¬Precedes c entries b a := by
  unfold Precedes at h ⊢
  intro h'
  cases hm : arrayIndex? a.1 with
  | some m =>
    cases hn : arrayIndex? b.1 with
    | some n =>
      rw [hm, hn] at h h'
      exact Nat.lt_asymm h h'
    | none =>
      rw [hm, hn] at h'
      exact h'
  | none =>
    cases hn' : arrayIndex? b.1 with
    | some n =>
      rw [hm, hn'] at h
      exact h
    | none =>
      rw [hm, hn'] at h h'
      exact pair_sublist_asymm hn (h.2 h'.1) (h'.2 h.1)

/-- Between two entries of distinct keys that are not tied, the order does not depend on the object. -/
theorem Precedes.of_not_tied {a b : JsString × α} (h : Precedes c entries a b) (hne : a.1 ≠ b.1)
    (ha : a.1 ≠ protoKey) (hb : b.1 ≠ protoKey) (ht : ¬JsonValue.Tied c a.1 b.1) : Precedes c entries' a b := by
  unfold Precedes at h ⊢
  cases hm : arrayIndex? a.1 with
  | some m =>
    cases hn : arrayIndex? b.1 with
    | some n =>
      rw [hm, hn] at h
      exact h
    | none => trivial
  | none =>
    cases hn : arrayIndex? b.1 with
    | some n =>
      rw [hm, hn] at h
      exact h.elim
    | none =>
      rw [hm, hn] at h
      refine ⟨h.1, fun hge => absurd ⟨hne, c.eq_of_le h.1 hge, ⟨?_, ha⟩, ?_, hb⟩ ht⟩
      · rw [isIndex, hm]
        rfl
      · rw [isIndex, hn]
        rfl

/-- **When two objects are rebuilt the same**: they have the same entries, and tied keys in the same order. -/
theorem rebuild_eq_iff (hn : (entries.map Prod.fst).Nodup) (hn' : (entries'.map Prod.fst).Nodup) :
    rebuild c entries = rebuild c entries' ↔
      (entries.filter fun e => e.1 ≠ protoKey).Perm (entries'.filter fun e => e.1 ≠ protoKey) ∧
        ∀ a b, JsonValue.Tied c a b → [a, b].Sublist (entries.map Prod.fst) →
          ¬[b, a].Sublist (entries'.map Prod.fst) := by
  have hkept : ∀ {l : List (JsString × α)} {e : JsString × α}, (l.map Prod.fst).Nodup → e ∈ rebuild c l →
      e ∈ l ∧ e.1 ≠ protoKey := fun hl he => by
    have := List.mem_filter.mp ((perm_rebuild hl).mem_iff.mp he)
    exact ⟨this.1, of_decide_eq_true this.2⟩
  constructor
  · intro h
    have hperm := perm_rebuild (c := c) hn
    refine ⟨hperm.symm.trans (h ▸ perm_rebuild hn'), fun a b ht hab hba => ?_⟩
    obtain ⟨pair, hsub, hpair⟩ := List.sublist_map_iff.mp hab
    obtain ⟨x, rest, rfl, rfl, hrest⟩ := List.map_eq_cons_iff.mp hpair.symm
    obtain ⟨y, rest, rfl, rfl, hnil⟩ := List.map_eq_cons_iff.mp hrest
    obtain rfl := List.map_eq_nil_iff.mp hnil
    have hx : x ∈ rebuild c entries := hperm.mem_iff.mpr (List.mem_filter.mpr
      ⟨hsub.subset List.mem_cons_self, decide_eq_true ht.left.2⟩)
    have hy : y ∈ rebuild c entries := hperm.mem_iff.mpr (List.mem_filter.mpr
      ⟨hsub.subset (List.mem_cons_of_mem _ List.mem_cons_self), decide_eq_true ht.right.2⟩)
    rcases pair_sublist_or hx hy fun heq => ht.ne (congrArg Prod.fst heq) with hxy | hyx
    · rw [h] at hxy
      have hbefore := (precedes_of_tied ht).mp (List.pairwise_iff_forall_sublist.mp (pairwise_rebuild hn') hxy)
      exact pair_sublist_asymm hn' hbefore hba
    · have hbefore := (precedes_of_tied ht.symm).mp (List.pairwise_iff_forall_sublist.mp (pairwise_rebuild hn) hyx)
      exact pair_sublist_asymm hn hab hbefore
  · rintro ⟨hperm, hties⟩
    have hkept' : ∀ {e : JsString × α}, e ∈ rebuild c entries' → e ∈ entries := fun he =>
      (List.mem_filter.mp (hperm.mem_iff.mpr ((perm_rebuild hn').mem_iff.mp he))).1
    refine @List.Perm.eq_of_pairwise _ (Precedes c entries) _ _ (fun a b ha hb hab hba => ?_) (pairwise_rebuild hn) ?_
      ((perm_rebuild hn).trans (hperm.trans (perm_rebuild hn').symm))
    · exact absurd hba (hab.asymm hn)
    · have hkeys : ((rebuild c entries').map Prod.fst).Nodup :=
        ((perm_rebuild hn').map _).nodup_iff.mpr (hn'.sublist (List.filter_sublist.map _))
      refine ((pairwise_rebuild hn').and (List.pairwise_map.mp hkeys)).imp_of_mem fun {a b} ha hb h => ?_
      by_cases ht : JsonValue.Tied c a.1 b.1
      · have hbefore := (precedes_of_tied ht).mp h.1
        refine (precedes_of_tied ht).mpr ?_
        refine (pair_sublist_or (List.mem_map_of_mem (hkept' ha)) (List.mem_map_of_mem (hkept' hb)) ht.ne).resolve_right
          fun hba => hties _ _ ht.symm hba hbefore
      · exact h.1.of_not_tied h.2 (hkept hn' ha).2 (hkept hn' hb).2 ht

end Rebuild

/-! ## When two values are normalized to the same -/

section Values

variable {c : Collator} {members members' : List (JsString × Option JsonValue)}

open JsonValue

theorem map_fst_normalizeMembers : ∀ members : List (JsString × Option JsonValue),
    (normalizeMembers c members).map Prod.fst = definedKeys members
  | [] => rfl
  | (_, none) :: members => map_fst_normalizeMembers members
  | (k, some _) :: members => congrArg (k :: ·) (map_fst_normalizeMembers members)

theorem nodup_definedKeys (hn : (members.map Prod.fst).Nodup) : (definedKeys members).Nodup :=
  hn.sublist (List.filter_sublist.map _)

theorem mem_normalizeMembers {k : JsString} {t : JsonTree} : ∀ {members : List (JsString × Option JsonValue)},
    (k, t) ∈ normalizeMembers c members ↔ ∃ x, (k, some x) ∈ members ∧ normalize c x = t
  | [] => ⟨nofun, fun ⟨_, h, _⟩ => nomatch h⟩
  | (j, none) :: members => by
    rw [normalizeMembers, mem_normalizeMembers]
    refine exists_congr fun x => and_congr_left fun _ => ?_
    rw [List.mem_cons, Prod.mk.injEq]
    exact ⟨.inr, fun h => h.resolve_left fun h => nomatch h.2⟩
  | (j, some y) :: members => by
    rw [normalizeMembers, List.mem_cons, mem_normalizeMembers]
    constructor
    · rintro (h | ⟨x, hx, rfl⟩)
      · cases h
        exact ⟨y, List.mem_cons_self, rfl⟩
      · exact ⟨x, List.mem_cons_of_mem _ hx, rfl⟩
    · rintro ⟨x, hx, rfl⟩
      rcases List.mem_cons.mp hx with h | hx
      · cases h
        exact .inl rfl
      · exact .inr ⟨x, hx, rfl⟩

theorem membersMeaning_eq_some {k : JsString} {m : Meaning} :
    ∀ {members : List (JsString × Option JsonValue)}, (members.map Prod.fst).Nodup →
      (membersMeaning members k = some m ↔ ∃ x, (k, some x) ∈ members ∧ x.meaning = m)
  | [], _ => ⟨nofun, fun ⟨_, h, _⟩ => nomatch h⟩
  | (j, x?) :: members, hn => by
    obtain ⟨hj, hn⟩ := List.nodup_cons.mp hn
    by_cases hk : k = j
    · subst hk
      have hnot : ∀ x, (k, some x) ∉ members := fun x hx => hj (List.mem_map.mpr ⟨(k, some x), hx, rfl⟩)
      cases x? with
      | none =>
        rw [membersMeaning, if_pos rfl]
        refine ⟨nofun, fun ⟨x, hx, _⟩ => ?_⟩
        exact absurd ((List.mem_cons.mp hx).resolve_left nofun) (hnot x)
      | some y =>
        rw [membersMeaning, if_pos rfl]
        constructor
        · intro h
          exact ⟨y, List.mem_cons_self, Option.some.inj h⟩
        · rintro ⟨x, hx, rfl⟩
          rcases List.mem_cons.mp hx with hx | hx
          · cases hx
            rfl
          · exact absurd hx (hnot x)
    · have hmem : ∀ x, (k, some x) ∈ (j, x?) :: members ↔ (k, some x) ∈ members := fun x =>
        ⟨fun h => (List.mem_cons.mp h).resolve_left fun h => hk (Prod.mk.inj h).1, List.mem_cons_of_mem _⟩
      simp only [hmem]
      rw [← membersMeaning_eq_some hn]
      cases x? <;> rw [membersMeaning, if_neg hk]

theorem membersWithoutProto_eq_some {k : JsString} {m : Meaning} (hn : (members.map Prod.fst).Nodup) :
    (if k = protoKey then none else Meaning.memberWithoutProto (membersMeaning members k)) = some m ↔
      k ≠ protoKey ∧ ∃ x, (k, some x) ∈ members ∧ x.meaning.withoutProto = m := by
  rw [Option.ite_none_left_eq_some]
  refine and_congr_right fun _ => ?_
  cases hmeaning : membersMeaning members k with
  | none =>
    refine ⟨nofun, fun ⟨x, hx, _⟩ => ?_⟩
    rw [(membersMeaning_eq_some hn).mpr ⟨x, hx, rfl⟩] at hmeaning
    cases hmeaning
  | some m' =>
    obtain ⟨x, hx, rfl⟩ := (membersMeaning_eq_some hn).mp hmeaning
    constructor
    · intro h
      exact ⟨x, hx, Option.some.inj h⟩
    · rintro ⟨y, hy, rfl⟩
      have hy := (membersMeaning_eq_some hn).mpr ⟨y, hy, rfl⟩
      rw [hmeaning] at hy
      rw [← Option.some.inj hy]
      rfl

theorem membersTiesAgree_iff : ∀ {members : List (JsString × Option JsonValue)},
    MembersTiesAgree c members members' ↔
      ∀ k x y, k ≠ protoKey → (k, some x) ∈ members → (k, some y) ∈ members' → x.TiesAgree c y
  | [] => ⟨fun _ _ _ _ _ h => (nomatch h), fun _ => trivial⟩
  | (j, none) :: members => by
    rw [MembersTiesAgree, membersTiesAgree_iff]
    refine forall_congr' fun k => forall_congr' fun x => forall_congr' fun y => imp_congr_right fun _ => ?_
    refine imp_congr_left ⟨List.mem_cons_of_mem _, fun h => (List.mem_cons.mp h).resolve_left nofun⟩
  | (j, some z) :: members => by
    rw [MembersTiesAgree, membersTiesAgree_iff]
    constructor
    · rintro ⟨hz, hmembers⟩ k x y hk hx hy
      rcases List.mem_cons.mp hx with h | hx
      · cases h
        exact hz hk y hy
      · exact hmembers k x y hk hx hy
    · intro h
      exact ⟨fun hj y hy => h j z y hj List.mem_cons_self hy, fun k x y hk hx hy =>
        h k x y hk (List.mem_cons_of_mem _ hx) hy⟩

theorem normalize_object_iff (hn : (members.map Prod.fst).Nodup) (hn' : (members'.map Prod.fst).Nodup)
    (ih : ∀ k x y, (k, some x) ∈ members → (k, some y) ∈ members' →
      (normalize c x = normalize c y ↔ x.meaning.withoutProto = y.meaning.withoutProto ∧ x.TiesAgree c y)) :
    normalize c (.object members) = normalize c (.object members') ↔
      (object members).meaning.withoutProto = (object members').meaning.withoutProto ∧
        (object members).TiesAgree c (.object members') := by
  have hunique : ∀ {l : List (JsString × Option JsonValue)} {k : JsString} {x y : JsonValue},
      (l.map Prod.fst).Nodup → (k, some x) ∈ l → (k, some y) ∈ l → x = y := fun hl hx hy =>
    Option.some.inj (congrArg Prod.snd (List.inj_on_of_nodup_map hl hx hy rfl))
  have hkeys : ((normalizeMembers c members).map Prod.fst).Nodup :=
    map_fst_normalizeMembers (c := c) members ▸ nodup_definedKeys hn
  have hkeys' : ((normalizeMembers c members').map Prod.fst).Nodup :=
    map_fst_normalizeMembers (c := c) members' ▸ nodup_definedKeys hn'
  have hmeaning : (object members).meaning.withoutProto = (object members').meaning.withoutProto ↔
      ∀ k m, (k ≠ protoKey ∧ ∃ x, (k, some x) ∈ members ∧ x.meaning.withoutProto = m) ↔
        k ≠ protoKey ∧ ∃ y, (k, some y) ∈ members' ∧ y.meaning.withoutProto = m := by
    rw [meaning, meaning, Meaning.withoutProto, Meaning.withoutProto, Meaning.object.injEq, funext_iff]
    refine forall_congr' fun k => ?_
    rw [Option.ext_iff]
    refine forall_congr' fun m => ?_
    rw [membersWithoutProto_eq_some hn, membersWithoutProto_eq_some hn']
  have hentries : ((normalizeMembers c members).filter fun e => e.1 ≠ protoKey).Perm
      ((normalizeMembers c members').filter fun e => e.1 ≠ protoKey) ↔
      ∀ k t, (k ≠ protoKey ∧ ∃ x, (k, some x) ∈ members ∧ normalize c x = t) ↔
        k ≠ protoKey ∧ ∃ y, (k, some y) ∈ members' ∧ normalize c y = t := by
    rw [List.perm_ext_iff_of_nodup (hkeys.of_map.filter _) (hkeys'.of_map.filter _), Prod.forall]
    refine forall_congr' fun k => forall_congr' fun t => ?_
    rw [List.mem_filter, List.mem_filter, mem_normalizeMembers, mem_normalizeMembers, decide_eq_true_eq]
    exact iff_congr and_comm and_comm
  rw [normalize, normalize, JsonTree.object.injEq, rebuild_eq_iff hkeys hkeys', hentries, hmeaning, TiesAgree,
    membersTiesAgree_iff, map_fst_normalizeMembers, map_fst_normalizeMembers]
  constructor
  · rintro ⟨hall, hties⟩
    refine ⟨fun k m => and_congr_right fun hk => ?_, hties, fun k x y hk hx hy => ?_⟩
    · constructor
      · rintro ⟨x, hx, rfl⟩
        obtain ⟨-, y, hy, heq⟩ := (hall k (normalize c x)).mp ⟨hk, x, hx, rfl⟩
        exact ⟨y, hy, ((ih k x y hx hy).mp heq.symm).1.symm⟩
      · rintro ⟨y, hy, rfl⟩
        obtain ⟨-, x, hx, heq⟩ := (hall k (normalize c y)).mpr ⟨hk, y, hy, rfl⟩
        exact ⟨x, hx, ((ih k x y hx hy).mp heq).1⟩
    · obtain ⟨-, z, hz, heq⟩ := (hall k (normalize c x)).mp ⟨hk, x, hx, rfl⟩
      rw [hunique hn' hy hz]
      exact ((ih k x z hx hz).mp heq.symm).2
  · rintro ⟨hall, hties, hmembers⟩
    refine ⟨fun k t => and_congr_right fun hk => ?_, hties⟩
    constructor
    · rintro ⟨x, hx, rfl⟩
      obtain ⟨-, y, hy, heq⟩ := (hall k (x.meaning.withoutProto)).mp ⟨hk, x, hx, rfl⟩
      exact ⟨y, hy, ((ih k x y hx hy).mpr ⟨heq.symm, hmembers k x y hk hx hy⟩).symm⟩
    · rintro ⟨y, hy, rfl⟩
      obtain ⟨-, x, hx, heq⟩ := (hall k (y.meaning.withoutProto)).mpr ⟨hk, y, hy, rfl⟩
      exact ⟨x, hx, (ih k x y hx hy).mpr ⟨heq, hmembers k x y hk hx hy⟩⟩

theorem distinct_of_mem {k : JsString} {x : JsonValue} (h : MembersDistinct members) (hx : (k, some x) ∈ members) :
    x.Distinct := by
  induction members with
  | nil => cases hx
  | cons e members ih =>
    obtain ⟨j, y?⟩ := e
    cases y? with
    | none => exact ih h ((List.mem_cons.mp hx).resolve_left nofun)
    | some y =>
      rcases List.mem_cons.mp hx with heq | hx
      · rw [Option.some.inj (Prod.mk.inj heq).2]
        exact h.1
      · exact ih h.2 hx

mutual

/-- **Equal canonical values**: the same but for `__proto__` members, and tied keys in the same order. -/
theorem normalize_eq_iff (v w : JsonValue) (hv : v.Distinct) (hw : w.Distinct) :
    normalize c v = normalize c w ↔ v.meaning.withoutProto = w.meaning.withoutProto ∧ v.TiesAgree c w := by
  cases v with
  | null =>
    cases w with
    | null => exact iff_of_true rfl ⟨rfl, trivial⟩
    | _ => exact iff_of_false nofun fun h => nomatch h.1
  | bool a =>
    cases w with
    | bool b =>
      refine ⟨fun h => ⟨congrArg Meaning.bool (JsonTree.bool.inj h), trivial⟩, fun h => ?_⟩
      exact congrArg JsonTree.bool (Meaning.bool.inj h.1)
    | _ => exact iff_of_false nofun fun h => nomatch h.1
  | number a =>
    cases w with
    | number b =>
      refine ⟨fun h => ⟨congrArg Meaning.number (JsonTree.number.inj h), trivial⟩, fun h => ?_⟩
      exact congrArg JsonTree.number (Meaning.number.inj h.1)
    | _ => exact iff_of_false nofun fun h => nomatch h.1
  | string a =>
    cases w with
    | string b =>
      refine ⟨fun h => ⟨congrArg Meaning.string (JsonTree.string.inj h), trivial⟩, fun h => ?_⟩
      exact congrArg JsonTree.string (Meaning.string.inj h.1)
    | _ => exact iff_of_false nofun fun h => nomatch h.1
  | array items =>
    cases w with
    | array items' =>
      rw [normalize, normalize, JsonTree.array.injEq, meaning, meaning, Meaning.withoutProto, Meaning.withoutProto,
        Meaning.array.injEq, TiesAgree]
      exact normalizeItems_eq_iff items items' hv hw
    | _ => exact iff_of_false nofun fun h => nomatch h.1
  | object members =>
    cases w with
    | object members' =>
      exact normalize_object_iff hv.1 hw.1 fun k x y hx hy =>
        normalizeMember_eq_iff members hv.2 k x hx y (distinct_of_mem hw.2 hy)
    | _ => exact iff_of_false nofun fun h => nomatch h.1
termination_by structural v

theorem normalizeItems_eq_iff (items items' : List JsonValue) (hitems : ItemsDistinct items)
    (hitems' : ItemsDistinct items') : normalizeItems c items = normalizeItems c items' ↔
      Meaning.itemsWithoutProto (itemsMeaning items) = Meaning.itemsWithoutProto (itemsMeaning items') ∧ ItemsTiesAgree c items items' := by
  cases items with
  | nil =>
    cases items' with
    | nil => exact iff_of_true rfl ⟨rfl, trivial⟩
    | cons y items' => exact iff_of_false nofun fun h => nomatch h.1
  | cons x items =>
    cases items' with
    | nil => exact iff_of_false nofun fun h => nomatch h.1
    | cons y items' =>
      rw [normalizeItems, normalizeItems, List.cons.injEq, itemsMeaning, itemsMeaning,
        Meaning.itemsWithoutProto, Meaning.itemsWithoutProto, List.cons.injEq, ItemsTiesAgree,
        normalize_eq_iff x y hitems.1 hitems'.1, normalizeItems_eq_iff items items' hitems.2 hitems'.2]
      exact and_and_and_comm
termination_by structural items

theorem normalizeMember_eq_iff (members : List (JsString × Option JsonValue)) (hmembers : MembersDistinct members)
    (k : JsString) (x : JsonValue) (hx : (k, some x) ∈ members) (w : JsonValue) (hw : w.Distinct) :
    normalize c x = normalize c w ↔ x.meaning.withoutProto = w.meaning.withoutProto ∧ x.TiesAgree c w := by
  cases members with
  | nil => cases hx
  | cons e members =>
    obtain ⟨j, x?⟩ := e
    cases x? with
    | none => exact normalizeMember_eq_iff members hmembers k x ((List.mem_cons.mp hx).resolve_left nofun) w hw
    | some y =>
      by_cases heq : (k, some x) = (j, some y)
      · rw [Option.some.inj (Prod.mk.inj heq).2]
        exact normalize_eq_iff y w hmembers.1 hw
      · exact normalizeMember_eq_iff members hmembers.2 k x ((List.mem_cons.mp hx).resolve_left heq) w hw
termination_by structural members

end

theorem stableStringify_eq_iff (v w : JsonDocument) : stableStringify c v = stableStringify c w ↔
    v.value.meaning.withoutProto = w.value.meaning.withoutProto ∧ v.value.TiesAgree c w.value :=
  JsonTree.text_injective.eq_iff.trans (normalize_eq_iff v.value w.value v.distinct w.distinct)

/-- **Canonical texts.** That two values have the same text exactly when they are the same up to the order of their
keys holds exactly of these: if they are the same, tied keys stand in the same order in both; and if they are not, then
they differ in more than `__proto__` members and the order of tied keys. -/
theorem stableStringify_canonical_iff (c : Collator) (v w : JsonDocument) :
    (stableStringify c v = stableStringify c w ↔ v.value.meaning = w.value.meaning) ↔
      (v.value.meaning = w.value.meaning → v.value.TiesAgree c w.value) ∧
        (v.value.meaning ≠ w.value.meaning →
          v.value.meaning.withoutProto ≠ w.value.meaning.withoutProto ∨ ¬v.value.TiesAgree c w.value) := by
  rw [stableStringify_eq_iff]
  constructor
  · intro h
    refine ⟨fun heq => (h.mpr heq).2, fun hne => ?_⟩
    by_contra hnot
    obtain ⟨hproto, hties⟩ := not_or.mp hnot
    exact hne (h.mp ⟨not_not.mp hproto, not_not.mp hties⟩)
  · rintro ⟨hsame, hdiffer⟩
    refine ⟨fun h => ?_, fun heq => ⟨congrArg Meaning.withoutProto heq, hsame heq⟩⟩
    by_contra hne
    rcases hdiffer hne with hproto | hties
    · exact hproto h.1
    · exact hties h.2

end Values

/-! ## The payload of an event -/

/-- What a payload is built from, with the detail before it is parsed. -/
structure PayloadInput where
  stage : JsString
  actionCategory : JsString
  actionRef : JsString
  authorizationRef : Option JsString
  traceId : Option JsString
  projectId : Option JsString
  actor : JsString
  status : JsString
  invariantCode : Option JsString
  detail : List (JsString × Option JsonValue)
  detail_distinct : (JsonValue.object detail).Distinct
  occurredAt : JsString

theorem membersDistinct_string {k : JsString} {s? : Option JsString} {members : List (JsString × Option JsonValue)}
    (h : JsonValue.MembersDistinct members) : JsonValue.MembersDistinct ((k, s?.map .string) :: members) := by
  cases s? with
  | none => exact h
  | some s => exact ⟨trivial, h⟩

def PayloadInput.buildEventPayload (input : PayloadInput) : JsonDocument where
  value := .object [(units "stage", some (.string input.stage)),
    (units "actionCategory", some (.string input.actionCategory)), (units "actionRef", some (.string input.actionRef)),
    (units "authorizationRef", input.authorizationRef.map .string), (units "traceId", input.traceId.map .string),
    (units "projectId", input.projectId.map .string), (units "actor", some (.string input.actor)),
    (units "status", some (.string input.status)), (units "invariantCode", input.invariantCode.map .string),
    (units "detail", some (.object input.detail)), (units "occurredAt", some (.string input.occurredAt))]
  distinct := by
    have hkeys : (["stage", "actionCategory", "actionRef", "authorizationRef", "traceId", "projectId", "actor", "status",
        "invariantCode", "detail", "occurredAt"].map units).Nodup := by decide
    refine ⟨hkeys, trivial, trivial, trivial, ?_⟩
    refine membersDistinct_string (membersDistinct_string (membersDistinct_string ⟨trivial, trivial, ?_⟩))
    exact membersDistinct_string ⟨input.detail_distinct, trivial, trivial⟩

/-- The comparison by code units. -/
def unitOrder : Collator where
  localeCompare := compare
  swap := fun a b => Std.OrientedCmp.eq_swap
  trans := fun a b c hab hbc => by
    have h := @Std.TransCmp.isLE_trans _ compare _ a b c
    rw [Ordering.isLE_iff_ne_gt, Ordering.isLE_iff_ne_gt, Ordering.isLE_iff_ne_gt] at h
    exact h hab hbc

/-- An event whose detail has these members. -/
def eventWith (detail : List (JsString × Option JsonValue)) (h : (JsonValue.object detail).Distinct) :
    PayloadInput :=
  ⟨units "completion", units "tool-execute", units "tool", none, none, none, units "core", units "succeeded", none,
    detail, h, units "now"⟩

def protoDetail : PayloadInput :=
  eventWith [(protoKey, some (.string (units "x")))] ⟨List.nodup_singleton _, trivial, trivial⟩

def emptyDetail : PayloadInput := eventWith [] ⟨List.nodup_nil, trivial⟩

/-- A `__proto__` member of the detail is not in the text that is hashed. -/
theorem proto_detail_not_canonical :
    ¬(stableStringify unitOrder protoDetail.buildEventPayload = stableStringify unitOrder emptyDetail.buildEventPayload ↔
      protoDetail.buildEventPayload.value.meaning = emptyDetail.buildEventPayload.value.meaning) := by
  have htext : stableStringify unitOrder protoDetail.buildEventPayload =
      stableStringify unitOrder emptyDetail.buildEventPayload := by decide +kernel
  intro h
  have hdetail : some (JsonValue.object [(protoKey, some (.string (units "x")))]).meaning =
      some (JsonValue.object []).meaning := congrFun (Meaning.object.inj (h.mp htext)) (units "detail")
  have hproto : some (Meaning.string (units "x")) = none :=
    congrFun (Meaning.object.inj (Option.some.inj hdetail)) protoKey
  cases hproto

end NousCore.Witness
