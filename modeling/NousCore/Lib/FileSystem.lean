import Mathlib.Tactic.Common

/-!
# Absolute paths, and what is found at them

The paths of a POSIX file system, with the functions of `node:path` on them.

* `Path.resolve` : where a text leads, from a path;
* `remove`, `makeDirs`, `copy`, `write` : the operations, as far as they come;
* `fileAt`, `SameOutside` : the files, and that those outside a directory are as they were.
-/

namespace NousCore

/-- What an entry of a directory can be called. -/
def IsName (name : List Char) : Prop := name ≠ [] ∧ '/' ∉ name ∧ name ≠ ['.'] ∧ name ≠ ['.', '.']

instance (name : List Char) : Decidable (IsName name) :=
  inferInstanceAs (Decidable (name ≠ [] ∧ '/' ∉ name ∧ name ≠ ['.'] ∧ name ≠ ['.', '.']))

abbrev Name := { name : List Char // IsName name }

@[ext] structure Path where
  names : List Name
  deriving DecidableEq

namespace Path

def root : Path := ⟨[]⟩

def parent (p : Path) : Path := ⟨p.names.dropLast⟩

def child (p : Path) (name : Name) : Path := ⟨p.names ++ [name]⟩

/-- One piece of a text between two slashes. -/
def step (p : Path) (piece : List Char) : Path :=
  if piece = ['.', '.'] then p.parent
  else if h : IsName piece then p.child ⟨piece, h⟩
  else p

def resolve (p : Path) (text : List Char) : Path :=
  (text.splitOnP (· = '/')).foldl step (if text.head? = some '/' then root else p)

def basename (p : Path) : List Char := (p.names.getLast?.map Subtype.val).getD []

def text (p : Path) : List Char :=
  if p.names = [] then ['/'] else p.names.flatMap fun name => '/' :: name.val

/-- A path is strictly below another one. -/
def Inside (p q : Path) : Prop := ∃ rest, rest ≠ [] ∧ p.names = q.names ++ rest

/-- A path is another one, or below it. -/
def Within (p q : Path) : Prop := q.names <+: p.names

/-! ## One name further -/

variable {p q : Path} {name : Name}

theorem child_inj {m : Name} : p.child name = q.child m ↔ p = q ∧ name = m := by
  rw [Path.ext_iff, Path.ext_iff]
  simp only [child]
  constructor
  · intro h
    obtain ⟨hnames, hlast⟩ := List.append_inj' h rfl
    exact ⟨hnames, List.singleton_inj.mp hlast⟩
  · rintro ⟨hnames, rfl⟩
    rw [hnames]

theorem inside_child (p : Path) (name : Name) : (p.child name).Inside p := ⟨[name], by simp, rfl⟩

theorem basename_child : (p.child name).basename = name.val := by simp [basename, child]

/-- What is within a child of a directory and is itself a child of one is that child, or lies deeper. -/
theorem within_child_iff {m : Name} (h : q.names.length ≤ p.names.length) :
    (q.child m).Within (p.child name) ↔ q = p ∧ m = name := by
  constructor
  · intro hwithin
    have heq : p.child name = q.child m := by
      ext1
      refine List.IsPrefix.eq_of_length_le hwithin ?_
      simpa [child] using h
    obtain ⟨hp, hname⟩ := child_inj.mp heq
    exact ⟨hp.symm, hname.symm⟩
  · rintro ⟨rfl, rfl⟩
    exact List.prefix_refl _

/-! ## Where a text leads -/

theorem splitOnP_of_slash_not_mem {text : List Char} (h : '/' ∉ text) : text.splitOnP (· = '/') = [text] :=
  List.splitOnP_eq_singleton fun _ hc => decide_eq_false fun hslash => h (hslash ▸ hc)

theorem resolve_of_slash_not_mem {text : List Char} (h : '/' ∉ text) : p.resolve text = p.step text := by
  have hrelative : text.head? ≠ some '/' := fun hhead => h (List.mem_of_mem_head? hhead)
  rw [resolve, splitOnP_of_slash_not_mem h, if_neg hrelative]
  rfl

theorem resolve_name (p : Path) (name : Name) : p.resolve name.val = p.child name := by
  obtain ⟨hne, hslash, hdot, hdots⟩ := name.property
  rw [resolve_of_slash_not_mem hslash, step, if_neg hdots, dif_pos name.property]

theorem resolve_dot (p : Path) : p.resolve ['.'] = p := by
  rw [resolve_of_slash_not_mem (by decide), step, if_neg (by decide), dif_neg (by decide)]

theorem resolve_dots (p : Path) : p.resolve ['.', '.'] = p.parent := by
  rw [resolve_of_slash_not_mem (by decide), step, if_pos rfl]

theorem not_inside_self (p : Path) : ¬p.Inside p := by
  rintro ⟨rest, hne, hnames⟩
  exact hne (List.self_eq_append_right.mp hnames)

theorem not_inside_parent (p : Path) : ¬p.parent.Inside p := by
  rintro ⟨rest, hne, hnames⟩
  have hlength := congrArg List.length hnames
  have hrest := List.length_pos_iff.mpr hne
  simp only [parent, List.length_dropLast, List.length_append] at hlength
  omega

end Path

/-! ## File systems -/

inductive Entry where
  | directory
  | file (content : String)

abbrev FileSystem := Path → Option Entry

instance (p q : Path) : Decidable (p.Within q) := inferInstanceAs (Decidable (q.names <+: p.names))

namespace FileSystem

abbrev Extent := Path → Bool

def whole : Extent := fun _ => true

/-- `rm -r p`. -/
def remove (p : Path) (extent : Extent) (files : FileSystem) : FileSystem := fun q =>
  if q.Within p && extent q then none else files q

def makeDirs (p : Path) (extent : Extent) (files : FileSystem) : FileSystem := fun q =>
  if p.Within q && extent q then some ((files q).getD .directory) else files q

def copy (src dst : Path) (extent : Extent) (files : FileSystem) : FileSystem := fun q =>
  if q.Within dst && extent q then
    files ⟨src.names ++ q.names.drop dst.names.length⟩ <|> makeDirs dst.parent extent files q
  else makeDirs dst.parent extent files q

def write (p : Path) (content : String) (extent : Extent) (files : FileSystem) : FileSystem := fun q =>
  if q = p && extent q then some (.file content) else makeDirs p.parent extent files q

def fileAt (files : FileSystem) (p : Path) : Option String :=
  match files p with
  | some (.file content) => some content
  | _ => none

def SameOutside (p : Path) (before after : FileSystem) : Prop := ∀ q, ¬q.Within p → after.fileAt q = before.fileAt q

variable {p src : Path} {extent : Extent} {before mid after files : FileSystem}

theorem SameOutside.refl : SameOutside p files files := fun _ _ => rfl

theorem SameOutside.trans (h : SameOutside p before mid) (h' : SameOutside p mid after) :
    SameOutside p before after := fun q hq => (h' q hq).trans (h q hq)

theorem fileAt_makeDirs (q : Path) : fileAt (makeDirs p extent files) q = fileAt files q := by
  unfold fileAt makeDirs
  split_ifs
  · cases files q <;> rfl
  · rfl

theorem sameOutside_makeDirs {dir : Path} : SameOutside p files (makeDirs dir extent files) :=
  fun q _ => fileAt_makeDirs q

theorem sameOutside_remove : SameOutside p files (remove p extent files) := by
  intro q hq
  unfold fileAt remove
  rw [if_neg (by simp [hq])]

theorem fileAt_remove_whole {q : Path} (hq : q.Within p) : fileAt (remove p whole files) q = none := by
  unfold fileAt remove
  rw [if_pos (by simp [hq, whole])]

theorem sameOutside_copy : SameOutside p files (copy src p extent files) := by
  intro q hq
  refine Eq.trans (?_ : _ = fileAt (makeDirs p.parent extent files) q) (fileAt_makeDirs q)
  unfold fileAt copy
  rw [if_neg (by simp [hq])]

theorem sameOutside_write {q : Path} {content : String} (hq : q.Within p) :
    SameOutside p files (write q content extent files) := by
  intro r hr
  have hne : r ≠ q := fun h => hr (h ▸ hq)
  refine Eq.trans (?_ : _ = fileAt (makeDirs q.parent extent files) r) (fileAt_makeDirs r)
  unfold fileAt write
  rw [if_neg (by simp [hne])]

end FileSystem

end NousCore
