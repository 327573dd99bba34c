import NousCore.Lib.JsonText

/-!
# The `<think>` tag tracker

* `applyThinkTagTracker` : one chunk, with the suffix held back from the chunks before it;
* `track_spec` : the chunks may be cut anywhere.
-/

namespace NousCore.Providers

/-! ## The tracker -/

structure ThinkTagState where
  insideThink : Bool
  pendingPrefix : JsString

structure ThinkTagStepResult where
  contentOut : JsString
  thinkingOut : JsString

/-- The tag that ends the stretch of text. -/
def tagOf (insideThink : Bool) : JsString := units (if insideThink then "</think>" else "<think>")

def indexOf (tag : JsString) : JsString → Option Nat
  | [] => none
  | u :: text => if tag <+: u :: text then some 0 else (indexOf tag text).map (· + 1)

/-- The greatest `len` up to the bound for which `text.endsWith(tag.substring(0, len))`. -/
def longestUpTo (text tag : JsString) : Nat → Nat
  | 0 => 0
  | len + 1 => if tag.take (len + 1) <:+ text then len + 1 else longestUpTo text tag len

def longestSuffixThatIsPrefix (text tag : JsString) : Nat := longestUpTo text tag (min text.length (tag.length - 1))

def ThinkTagStepResult.add (out : ThinkTagStepResult) (insideThink : Bool) (text : JsString) : ThinkTagStepResult :=
  if insideThink then { out with thinkingOut := out.thinkingOut ++ text }
  else { out with contentOut := out.contentOut ++ text }

theorem tagOf_ne_nil (insideThink : Bool) : tagOf insideThink ≠ [] := by
  cases insideThink <;> exact List.cons_ne_nil _ _

/-- `while (text.length > 0)`. -/
def trackText (out : ThinkTagStepResult) (insideThink : Bool) (text : JsString) : ThinkTagStepResult × ThinkTagState :=
  if text = [] then (out, ⟨insideThink, []⟩)
  else
    match indexOf (tagOf insideThink) text with
    | some i =>
      trackText (out.add insideThink (text.take i)) (!insideThink) (text.drop (i + (tagOf insideThink).length))
    | none =>
      let kept := text.length - longestSuffixThatIsPrefix text (tagOf insideThink)
      (out.add insideThink (text.take kept), ⟨insideThink, text.drop kept⟩)
termination_by text.length
decreasing_by
  have htext := List.length_pos_of_ne_nil ‹text ≠ []›
  have htag := List.length_pos_of_ne_nil (tagOf_ne_nil insideThink)
  rw [List.length_drop]
  omega

def applyThinkTagTracker (rawContent : JsString) (state : ThinkTagState) (done : Bool) :
    ThinkTagStepResult × ThinkTagState :=
  let step := trackText ⟨[], []⟩ state.insideThink (state.pendingPrefix ++ rawContent)
  if done then (step.1.add step.2.insideThink step.2.pendingPrefix, { step.2 with pendingPrefix := [] }) else step

def ThinkTagStepResult.append (out out' : ThinkTagStepResult) : ThinkTagStepResult :=
  ⟨out.contentOut ++ out'.contentOut, out.thinkingOut ++ out'.thinkingOut⟩

/-- What the tracker emits for the chunks of a stream, the last of which is the one that is done. -/
def track (state : ThinkTagState) : List JsString → ThinkTagStepResult
  | [] => ⟨[], []⟩
  | [chunk] => (applyThinkTagTracker chunk state true).1
  | chunk :: chunk' :: chunks =>
    let step := applyThinkTagTracker chunk state false
    step.1.append (track step.2 (chunk' :: chunks))

/-! ## Unit by unit -/

/-- A unit of a text inside or outside of a tag, or the tag that ends it. -/
inductive Piece where
  | unit (insideThink : Bool) (u : UInt16)
  | tag (insideThink : Bool)

namespace Piece

def text : Piece → JsString
  | unit _ u => [u]
  | tag insideThink => tagOf insideThink

def out? (insideThink : Bool) : Piece → Option UInt16
  | unit inside u => if inside = insideThink then some u else none
  | tag _ => none

/-- Every unit is where the tags before it have led. -/
def Follow : Bool → List Piece → Prop
  | _, [] => True
  | insideThink, unit inside _ :: pieces => inside = insideThink ∧ Follow insideThink pieces
  | insideThink, tag inside :: pieces => inside = insideThink ∧ Follow (!insideThink) pieces

end Piece

def emitted (pieces : List Piece) : ThinkTagStepResult :=
  ⟨pieces.filterMap (Piece.out? false), pieces.filterMap (Piece.out? true)⟩

/-- The pieces of a text up to a suffix that may begin a tag. -/
def scan (insideThink : Bool) : JsString → List Piece × ThinkTagState
  | [] => ([], ⟨insideThink, []⟩)
  | u :: text =>
    if tagOf insideThink <+: u :: text then
      let rest := scan (!insideThink) ((u :: text).drop (tagOf insideThink).length)
      (.tag insideThink :: rest.1, rest.2)
    else if u :: text <+: tagOf insideThink then ([], ⟨insideThink, u :: text⟩)
    else
      let rest := scan insideThink text
      (.unit insideThink u :: rest.1, rest.2)
termination_by text => text.length
decreasing_by
  · have htag := List.length_pos_of_ne_nil (tagOf_ne_nil insideThink)
    rw [List.length_drop, List.length_cons]
    omega
  · exact Nat.lt_succ_self _

section

variable {insideThink : Bool} {text : JsString} {u : UInt16}

theorem scan_tag (h : tagOf insideThink <+: text) : scan insideThink text =
    (.tag insideThink :: (scan (!insideThink) (text.drop (tagOf insideThink).length)).1,
      (scan (!insideThink) (text.drop (tagOf insideThink).length)).2) := by
  cases text with
  | nil => exact absurd (List.prefix_nil.mp h) (tagOf_ne_nil insideThink)
  | cons u text => rw [scan, if_pos h]

theorem scan_unit (h : ¬tagOf insideThink <+: u :: text) (h' : ¬u :: text <+: tagOf insideThink) :
    scan insideThink (u :: text) = (.unit insideThink u :: (scan insideThink text).1, (scan insideThink text).2) := by
  rw [scan, if_neg h, if_neg h']

/-- **Cuts.** A text that goes on is read on from the suffix that was held back. -/
theorem scan_append (insideThink : Bool) (text more : JsString) : scan insideThink (text ++ more) =
    ((scan insideThink text).1 ++ (scan (scan insideThink text).2.insideThink
        ((scan insideThink text).2.pendingPrefix ++ more)).1,
      (scan (scan insideThink text).2.insideThink ((scan insideThink text).2.pendingPrefix ++ more)).2) := by
  fun_induction scan insideThink text with
  | case1 insideThink => rfl
  | case2 insideThink u text htag rest ih =>
    rw [scan_tag (htag.trans (List.prefix_append (u :: text) more)), List.drop_append_of_le_length htag.length_le, ih]
    rfl
  | case3 insideThink u text htag hpending => rfl
  | case4 insideThink u text htag hpending rest ih =>
    -- a tag that begins here and goes on in what follows would be held back already
    have hlonger : ¬tagOf insideThink <+: u :: (text ++ more) := fun h =>
      (List.prefix_or_prefix_of_prefix h (List.prefix_append (u :: text) more)).elim htag hpending
    rw [List.cons_append, scan_unit hlonger fun h => hpending ((List.prefix_append (u :: text) more).trans h), ih]
    rfl

theorem text_scan (insideThink : Bool) (text : JsString) :
    (scan insideThink text).1.flatMap Piece.text ++ (scan insideThink text).2.pendingPrefix = text := by
  fun_induction scan insideThink text with
  | case1 insideThink => rfl
  | case2 insideThink u text htag rest ih =>
    rw [List.flatMap_cons, List.append_assoc]
    exact (congrArg (tagOf insideThink ++ ·) ih).trans (List.prefix_iff_eq_append.mp htag)
  | case3 insideThink u text htag hpending => rfl
  | case4 insideThink u text htag hpending rest ih => exact congrArg (u :: ·) ih

theorem follow_scan (insideThink : Bool) (text : JsString) : Piece.Follow insideThink ((scan insideThink text).1 ++
    (scan insideThink text).2.pendingPrefix.map (.unit (scan insideThink text).2.insideThink)) := by
  have hunits : ∀ (insideThink : Bool) (text : JsString), Piece.Follow insideThink (text.map (.unit insideThink)) := by
    intro insideThink text
    induction text with
    | nil => trivial
    | cons u text ih => exact ⟨rfl, ih⟩
  fun_induction scan insideThink text with
  | case1 insideThink => trivial
  | case2 insideThink u text htag rest ih => exact ⟨rfl, ih⟩
  | case3 insideThink u text htag hpending => exact hunits insideThink (u :: text)
  | case4 insideThink u text htag hpending rest ih => exact ⟨rfl, ih⟩

end

/-! ## The tracker reads unit by unit -/

section

variable {tag text : JsString} {u : UInt16} {insideThink : Bool} {i : Nat}

theorem longestUpTo_le (text tag : JsString) (bound : Nat) : longestUpTo text tag bound ≤ bound := by
  induction bound with
  | zero => exact le_rfl
  | succ len ih =>
    rw [longestUpTo]
    split_ifs
    · exact le_rfl
    · exact ih.trans (Nat.le_succ len)

theorem longestUpTo_cons {bound : Nat} (h : bound ≤ text.length) :
    longestUpTo (u :: text) tag bound = longestUpTo text tag bound := by
  induction bound with
  | zero => rfl
  | succ len ih =>
    have hsuffix : tag.take (len + 1) <:+ u :: text ↔ tag.take (len + 1) <:+ text := by
      refine List.suffix_cons_iff.trans (or_iff_right fun heq => ?_)
      have := congrArg List.length heq
      rw [List.length_take, List.length_cons] at this
      omega
    rw [longestUpTo, longestUpTo, ih (by omega)]
    simp only [hsuffix]

theorem longestSuffixThatIsPrefix_cons (h : ¬tag <+: u :: text) : longestSuffixThatIsPrefix (u :: text) tag =
    if u :: text <+: tag then text.length + 1 else longestSuffixThatIsPrefix text tag := by
  unfold longestSuffixThatIsPrefix
  by_cases hlength : text.length + 1 ≤ tag.length - 1
  · have hwhole : tag.take (text.length + 1) <:+ u :: text ↔ u :: text <+: tag := by
      rw [List.prefix_iff_eq_take]
      refine ⟨fun hs => (hs.eq_of_length ?_).symm, fun hs => ?_⟩
      · rw [List.length_take, List.length_cons]
        omega
      · exact hs ▸ List.suffix_refl _
    rw [List.length_cons, min_eq_left hlength, longestUpTo, min_eq_left (by omega), longestUpTo_cons le_rfl]
    simp only [hwhole]
  · have hnot : ¬u :: text <+: tag := fun hpre => by
      have hle := hpre.length_le
      rw [List.length_cons] at hle
      exact h (hpre.eq_of_length (by rw [List.length_cons]; omega) ▸ List.prefix_refl _)
    rw [if_neg hnot, List.length_cons, min_eq_right (by omega), min_eq_right (by omega), longestUpTo_cons (by omega)]

theorem le_length_of_indexOf (h : indexOf tag text = some i) : i + tag.length ≤ text.length := by
  induction text generalizing i with
  | nil => cases h
  | cons u text ih =>
    rw [indexOf] at h
    split_ifs at h with htag
    · cases h
      have := htag.length_le
      omega
    · obtain ⟨j, hj, rfl⟩ := Option.map_eq_some_iff.mp h
      have := ih hj
      rw [List.length_cons]
      omega

theorem scan_of_indexOf (h : indexOf (tagOf insideThink) text = some i) : scan insideThink text =
    ((text.take i).map (.unit insideThink) ++ .tag insideThink ::
        (scan (!insideThink) (text.drop (i + (tagOf insideThink).length))).1,
      (scan (!insideThink) (text.drop (i + (tagOf insideThink).length))).2) := by
  induction text generalizing i with
  | nil => cases h
  | cons u text ih =>
    rw [indexOf] at h
    split_ifs at h with htag
    · cases h
      rw [scan_tag htag, Nat.zero_add]
      rfl
    · obtain ⟨j, hj, rfl⟩ := Option.map_eq_some_iff.mp h
      have hlong := le_length_of_indexOf hj
      have hpending : ¬u :: text <+: tagOf insideThink := fun hpre => by
        have := hpre.length_le
        rw [List.length_cons] at this
        omega
      rw [scan_unit htag hpending, ih hj, Nat.add_right_comm]
      rfl

theorem scan_of_indexOf_none (h : indexOf (tagOf insideThink) text = none) :
    scan insideThink text =
      ((text.take (text.length - longestSuffixThatIsPrefix text (tagOf insideThink))).map (.unit insideThink),
        ⟨insideThink, text.drop (text.length - longestSuffixThatIsPrefix text (tagOf insideThink))⟩) := by
  induction text with
  | nil => rw [scan]; rfl
  | cons u text ih =>
    rw [indexOf] at h
    split_ifs at h with htag
    have hrest := ih (Option.map_eq_none_iff.mp h)
    rw [longestSuffixThatIsPrefix_cons htag]
    by_cases hpending : u :: text <+: tagOf insideThink
    · rw [if_pos hpending, scan, if_neg htag, if_pos hpending, List.length_cons, Nat.sub_self]
      rfl
    · have hle : longestSuffixThatIsPrefix text (tagOf insideThink) ≤ text.length :=
        (longestUpTo_le _ _ _).trans (min_le_left _ _)
      rw [if_neg hpending, scan_unit htag hpending, hrest, List.length_cons, Nat.succ_sub hle]
      rfl

theorem emitted_append (pieces pieces' : List Piece) :
    emitted (pieces ++ pieces') = (emitted pieces).append (emitted pieces') := by
  simp only [emitted, List.filterMap_append, ThinkTagStepResult.append]

theorem add_eq (out : ThinkTagStepResult) (insideThink : Bool) (text : JsString) :
    out.add insideThink text = out.append (emitted (text.map (.unit insideThink))) := by
  have hout : ∀ inside : Bool, (text.map (Piece.unit insideThink)).filterMap (Piece.out? inside) =
      if insideThink = inside then text else [] := by
    intro inside
    rw [List.filterMap_map]
    split_ifs with heq
    · exact (List.filterMap_congr fun u _ => if_pos heq).trans (List.filterMap_some)
    · exact List.filterMap_eq_nil_iff.mpr fun u _ => if_neg heq
  cases insideThink <;> simp [ThinkTagStepResult.add, ThinkTagStepResult.append, emitted, hout]

theorem append_assoc (out out' out'' : ThinkTagStepResult) :
    (out.append out').append out'' = out.append (out'.append out'') := by
  simp only [ThinkTagStepResult.append, List.append_assoc]

theorem append_emitted_nil (out : ThinkTagStepResult) : out.append (emitted []) = out := by
  simp [ThinkTagStepResult.append, emitted]

theorem trackText_eq (out : ThinkTagStepResult) (insideThink : Bool) (text : JsString) :
    trackText out insideThink text = (out.append (emitted (scan insideThink text).1), (scan insideThink text).2) := by
  fun_induction trackText out insideThink text with
  | case1 out insideThink =>
    rw [scan, append_emitted_nil]
  | case2 out insideThink text htext i hi ih =>
    have htag : ∀ pieces, emitted (.tag insideThink :: pieces) = emitted pieces := fun _ => rfl
    rw [ih, scan_of_indexOf hi, add_eq, emitted_append, append_assoc, htag]
  | case3 out insideThink text htext hi kept =>
    rw [scan_of_indexOf_none hi, add_eq]

end

/-! ## Cuts -/

/-- The pieces of all that is left, with a suffix that is held back to the end. -/
def piecesOf (state : ThinkTagState) (text : JsString) : List Piece :=
  let step := scan state.insideThink (state.pendingPrefix ++ text)
  step.1 ++ step.2.pendingPrefix.map (.unit step.2.insideThink)

theorem piecesOf_append (state : ThinkTagState) (chunk text : JsString) : piecesOf state (chunk ++ text) =
    (scan state.insideThink (state.pendingPrefix ++ chunk)).1 ++
      piecesOf (scan state.insideThink (state.pendingPrefix ++ chunk)).2 text := by
  rw [piecesOf, ← List.append_assoc, scan_append, piecesOf]
  exact List.append_assoc _ _ _

theorem applyThinkTagTracker_eq (chunk : JsString) (state : ThinkTagState) :
    applyThinkTagTracker chunk state false =
        (emitted (scan state.insideThink (state.pendingPrefix ++ chunk)).1,
          (scan state.insideThink (state.pendingPrefix ++ chunk)).2) ∧
      (applyThinkTagTracker chunk state true).1 = emitted (piecesOf state chunk) := by
  have hstep := trackText_eq ⟨[], []⟩ state.insideThink (state.pendingPrefix ++ chunk)
  rw [applyThinkTagTracker, applyThinkTagTracker, hstep]
  refine ⟨rfl, ?_⟩
  rw [if_pos rfl, add_eq, piecesOf, emitted_append]
  rfl

theorem track_eq (state : ThinkTagState) {chunks : List JsString} (h : chunks ≠ []) :
    track state chunks = emitted (piecesOf state chunks.flatten) := by
  induction chunks generalizing state with
  | nil => exact absurd rfl h
  | cons chunk chunks ih =>
    cases chunks with
    | nil => rw [track, (applyThinkTagTracker_eq chunk state).2, List.flatten_singleton]
    | cons chunk' chunks =>
      rw [track, (applyThinkTagTracker_eq chunk state).1, ih _ (List.cons_ne_nil _ _), ← emitted_append, ← piecesOf_append]
      rfl

/-- **The tracker does not see the cuts.** However a text is cut into chunks, the tracker emits what it emits for the
whole text, and that with the tags it recognises is the text, unit by unit and in order. -/
theorem track_spec (chunks : List JsString) :
    track ⟨false, []⟩ chunks = track ⟨false, []⟩ [chunks.flatten] ∧
      ∃ pieces : List Piece, pieces.flatMap Piece.text = chunks.flatten ∧ Piece.Follow false pieces ∧
        emitted pieces = track ⟨false, []⟩ chunks := by
  have hwhole := track_eq ⟨false, []⟩ (List.cons_ne_nil chunks.flatten [])
  rw [List.flatten_singleton] at hwhole
  have hcut : track ⟨false, []⟩ chunks = emitted (piecesOf ⟨false, []⟩ chunks.flatten) := by
    cases chunks with
    | nil => rw [track, piecesOf, List.flatten_nil, List.append_nil, scan]; rfl
    | cons chunk chunks => exact track_eq _ (List.cons_ne_nil chunk chunks)
  refine ⟨hcut.trans hwhole.symm, piecesOf ⟨false, []⟩ chunks.flatten, ?_, follow_scan false _, hcut.symm⟩
  have hunits : ∀ (insideThink : Bool) (text : JsString), (text.map (.unit insideThink)).flatMap Piece.text = text := by
    intro insideThink text
    induction text with
    | nil => rfl
    | cons u text ih => exact congrArg (u :: ·) ih
  rw [piecesOf, List.flatMap_append, hunits]
  exact text_scan false chunks.flatten

end NousCore.Providers
