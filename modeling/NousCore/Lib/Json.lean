import Mathlib.Tactic.Common
import NousCore.Lib.Record

/-!
# JSON documents, and texts that must not be empty

* `Json.normalize` : the same value with the entries of every object in key order;
* `Json.get?` : reading;
* `emptyFields` : of named texts the names of those that are empty, the paths of a schema's issues;
* `required`, `optional`, `each`, `nonempty` : the texts of a field, of a field that may be absent, of a list, and of a
  list that must not be empty either.
-/

namespace NousCore

inductive Json where
  | null
  | bool (b : Bool)
  | number (n : Rat)
  | string (s : String)
  | array (items : List Json)
  | object (entries : List (String × Json))

namespace Json

/-! ## Equality -/

mutual

def decEq : (a b : Json) → Decidable (a = b)
  | .null, .null => .isTrue rfl
  | .bool a, .bool b => decidable_of_iff (a = b) ⟨fun h => h ▸ rfl, Json.bool.inj⟩
  | .number a, .number b => decidable_of_iff (a = b) ⟨fun h => h ▸ rfl, Json.number.inj⟩
  | .string a, .string b => decidable_of_iff (a = b) ⟨fun h => h ▸ rfl, Json.string.inj⟩
  | .array a, .array b =>
    match decEqItems a b with
    | .isTrue h => .isTrue (congrArg Json.array h)
    | .isFalse h => .isFalse fun he => h (Json.array.inj he)
  | .object a, .object b =>
    match decEqEntries a b with
    | .isTrue h => .isTrue (congrArg Json.object h)
    | .isFalse h => .isFalse fun he => h (Json.object.inj he)
  | .null, .bool _ | .null, .number _ | .null, .string _ | .null, .array _ | .null, .object _
  | .bool _, .null | .bool _, .number _ | .bool _, .string _ | .bool _, .array _ | .bool _, .object _
  | .number _, .null | .number _, .bool _ | .number _, .string _ | .number _, .array _ | .number _, .object _
  | .string _, .null | .string _, .bool _ | .string _, .number _ | .string _, .array _ | .string _, .object _
  | .array _, .null | .array _, .bool _ | .array _, .number _ | .array _, .string _ | .array _, .object _
  | .object _, .null | .object _, .bool _ | .object _, .number _ | .object _, .string _ | .object _, .array _ =>
    .isFalse nofun

def decEqItems : (a b : List Json) → Decidable (a = b)
  | [], [] => .isTrue rfl
  | [], _ :: _ => .isFalse nofun
  | _ :: _, [] => .isFalse nofun
  | x :: a, y :: b =>
    match decEq x y, decEqItems a b with
    | .isTrue h, .isTrue h' => .isTrue (h ▸ h' ▸ rfl)
    | .isFalse h, _ => .isFalse fun he => h (List.cons.inj he).1
    | _, .isFalse h => .isFalse fun he => h (List.cons.inj he).2

def decEqEntries : (a b : List (String × Json)) → Decidable (a = b)
  | [], [] => .isTrue rfl
  | [], _ :: _ => .isFalse nofun
  | _ :: _, [] => .isFalse nofun
  | (j, x) :: a, (k, y) :: b =>
    match (inferInstance : Decidable (j = k)), decEq x y, decEqEntries a b with
    | .isTrue h, .isTrue h', .isTrue h'' => .isTrue (h ▸ h' ▸ h'' ▸ rfl)
    | .isFalse h, _, _ => .isFalse fun he => h (Prod.mk.inj (List.cons.inj he).1).1
    | _, .isFalse h, _ => .isFalse fun he => h (Prod.mk.inj (List.cons.inj he).1).2
    | _, _, .isFalse h => .isFalse fun he => h (List.cons.inj he).2

end

instance : DecidableEq Json := decEq

/-! ## Normal form -/

/-- Put an entry in its place by key. -/
def insertEntry (e : String × Json) : List (String × Json) → List (String × Json)
  | [] => [e]
  | f :: entries => if e.1 ≤ f.1 then e :: f :: entries else f :: insertEntry e entries

mutual

def normalize : Json → Json
  | .array items => .array (normalizeItems items)
  | .object entries => .object (normalizeEntries entries)
  | value => value

def normalizeItems : List Json → List Json
  | [] => []
  | x :: items => x.normalize :: normalizeItems items

def normalizeEntries : List (String × Json) → List (String × Json)
  | [] => []
  | (k, x) :: entries => insertEntry (k, x.normalize) (normalizeEntries entries)

end

/-! ## Reading -/

/-- The strings of an array, when the value is one. -/
def strings? : Json → Option (List String)
  | .array items => some (items.filterMap fun
    | .string s => some s
    | _ => none)
  | _ => none

def string? : Json → Option String
  | .string s => some s
  | _ => none

example : (object [("b", .null), ("a", .array [.bool true])]).normalize =
    object [("a", .array [.bool true]), ("b", .null)] := by decide +kernel

end Json


/-! ## Texts that must not be empty -/

def emptyFields (fields : List (String × String)) : List String := (fields.filter (·.2 = "")).map (·.1)

theorem emptyFields_eq_nil {fields : List (String × String)} :
    emptyFields fields = [] ↔ ∀ field ∈ fields, field.2 ≠ "" := by
  unfold emptyFields
  simp

def required (name text : String) : List (String × String) := [(name, text)]

def optional (name : String) (text : Option String) : List (String × String) := text.toList.map fun t => (name, t)

def each (name : String) (texts : List String) : List (String × String) := texts.map fun t => (name, t)

def nonempty (name : String) (texts : List String) : List (String × String) :=
  if texts = [] then [(name, "")] else each name texts

abbrev NonemptyText := { text : String // text ≠ "" }

end NousCore
