import Mathlib.Data.List.DropRight
import Mathlib.Data.Nat.Digits.Lemmas
import Mathlib.Tactic.Common

/-!
# The text of a JSON value

* `JsString` : a string as its UTF-16 code units, which need not pair up;
* `quote`, `unquote_quoteBody` : a string between quotes, and what it is read back as;
* `text_injective` : two trees with the same text are the same.
-/

namespace NousCore

abbrev JsString := List UInt16

/-- The code unit of an ASCII character. -/
def unit (c : Char) : UInt16 := c.toNat.toUInt16

def units (s : String) : JsString := s.toList.map unit

/-! ## Numerals -/

def digitUnit (d : Nat) : UInt16 := (48 + d).toUInt16

/-- The decimal digits of a natural number. -/
def numeral (n : Nat) : JsString := if n = 0 then [digitUnit 0] else (Nat.digits 10 n).reverse.map digitUnit

def digitValue (u : UInt16) : Nat := u.toNat - 48

def isDigitUnit (u : UInt16) : Bool := 48 ≤ u.toNat && u.toNat ≤ 57

def numeralValue (text : JsString) : Nat := Nat.ofDigits 10 (text.reverse.map digitValue)

variable {d : Nat}

theorem toNat_digitUnit (h : d < 10) : (digitUnit d).toNat = 48 + d := by
  unfold digitUnit
  rw [Nat.toUInt16_eq, UInt16.toNat_ofNat']
  omega

theorem digitValue_digitUnit (h : d < 10) : digitValue (digitUnit d) = d := by
  rw [digitValue, toNat_digitUnit h]
  omega

theorem isDigitUnit_digitUnit (h : d < 10) : isDigitUnit (digitUnit d) = true := by
  simp only [isDigitUnit, toNat_digitUnit h, Bool.and_eq_true, decide_eq_true_eq]
  omega

theorem map_digitValue_map_digitUnit {digits : List Nat} (h : ∀ d ∈ digits, d < 10) :
    (digits.map digitUnit).map digitValue = digits := by
  rw [List.map_map]
  exact (List.map_congr_left fun d hd => digitValue_digitUnit (h d hd)).trans (List.map_id _)

theorem numeralValue_numeral (n : Nat) : numeralValue (numeral n) = n := by
  unfold numeralValue numeral
  split_ifs with h
  · rw [h]
    rfl
  · rw [← List.map_reverse, List.reverse_reverse, map_digitValue_map_digitUnit fun d hd =>
      Nat.digits_lt_base (by omega) hd, Nat.ofDigits_digits]

theorem numeral_injective : Function.Injective numeral := fun m n h => by
  rw [← numeralValue_numeral m, h, numeralValue_numeral]

variable {u : UInt16}

theorem isDigitUnit_of_mem_numeral {n : Nat} (h : u ∈ numeral n) : isDigitUnit u = true := by
  unfold numeral at h
  split_ifs at h
  · rw [List.mem_singleton.mp h]
    decide
  · obtain ⟨d, hd, rfl⟩ := List.mem_map.mp h
    exact isDigitUnit_digitUnit (Nat.digits_lt_base (by omega) (List.mem_reverse.mp hd))

theorem map_digitUnit_inj {l l' : List Nat} (hl : ∀ d ∈ l, d < 10) (hl' : ∀ d ∈ l', d < 10)
    (h : l.map digitUnit = l'.map digitUnit) : l = l' := by
  rw [← map_digitValue_map_digitUnit hl, h, map_digitValue_map_digitUnit hl']

theorem append_inj_of_run {α : Type*} {p : α → Bool} {a b x y : List α} (ha : ∀ u ∈ a, p u = true)
    (hb : ∀ u ∈ b, p u = true) (hx : ∀ u ∈ x.head?, p u = false) (hy : ∀ u ∈ y.head?, p u = false)
    (h : a ++ x = b ++ y) : a = b ∧ x = y := by
  have hrun : ∀ {a x : List α}, (∀ u ∈ a, p u = true) → (∀ u ∈ x.head?, p u = false) → (a ++ x).takeWhile p = a := by
    intro a x ha hx
    rw [List.takeWhile_append_of_pos ha]
    cases x with
    | nil => exact List.append_nil a
    | cons u x =>
      rw [List.takeWhile_cons_of_neg (Bool.eq_false_iff.mp (hx u rfl)), List.append_nil]
  obtain rfl : a = b := by rw [← hrun ha hx, h, hrun hb hy]
  exact ⟨rfl, List.append_cancel_left h⟩

/-! ## Numbers -/

/-- A finite double by its shortest decimal, `0.d₁d₂…dₖ` times ten to the power `point`; there is one zero. -/
structure Decimal where
  negative : Bool
  digits : List Nat
  point : ℤ
  lt_ten : ∀ d ∈ digits, d < 10
  head?_ne : digits.head? ≠ some 0
  getLast?_ne : digits.getLast? ≠ some 0
  zero : digits = [] → negative = false ∧ point = 0

/-- The digits before the point, those after it, and the exponent. -/
structure DecimalParts where
  whole : List Nat
  fraction : List Nat
  exponent : Option ℤ

namespace DecimalParts

def exponentText : Option ℤ → JsString
  | none => []
  | some e => unit 'e' :: unit (if 0 ≤ e then '+' else '-') :: numeral e.natAbs

def text (parts : DecimalParts) : JsString :=
  parts.whole.map digitUnit ++
    ((if parts.fraction = [] then [] else unit '.' :: parts.fraction.map digitUnit) ++ exponentText parts.exponent)

/-- The digits without leading and trailing zeros, and the place of the point. -/
def read (parts : DecimalParts) : List Nat × ℤ :=
  let digits := parts.whole ++ parts.fraction
  ((digits.dropWhile (· = 0)).rdropWhile (· = 0),
    parts.whole.length - (digits.takeWhile (· = 0)).length + parts.exponent.getD 0)

theorem exponentText_injective : Function.Injective exponentText := by
  intro e e' h
  cases e with
  | none =>
    cases e' with
    | none => rfl
    | some e' => cases h
  | some e =>
    cases e' with
    | none => cases h
    | some e' =>
      obtain ⟨hsign, habs⟩ := List.cons.inj (List.cons.inj h).2
      have habs := numeral_injective habs
      have hsign : 0 ≤ e ↔ 0 ≤ e' := by
        split_ifs at hsign with h₁ h₂ h₂
        · exact iff_of_true h₁ h₂
        · exact absurd hsign (by decide)
        · exact absurd hsign (by decide)
        · exact iff_of_false h₁ h₂
      exact congrArg some (by omega)

variable {e : Option ℤ}

theorem head?_exponentText {u : UInt16} (h : u ∈ (exponentText e).head?) : u = unit 'e' := by
  cases e with
  | none => cases h
  | some e => exact (Option.some.inj h).symm

theorem head?_tail {fraction : List Nat} {u : UInt16}
    (h : u ∈ ((if fraction = [] then [] else unit '.' :: fraction.map digitUnit) ++ exponentText e).head?) :
    isDigitUnit u = false := by
  split_ifs at h
  · rw [head?_exponentText h]
    decide
  · rw [← Option.some.inj h]
    decide

theorem text_inj {parts parts' : DecimalParts} (hw : ∀ d ∈ parts.whole, d < 10) (hf : ∀ d ∈ parts.fraction, d < 10)
    (hw' : ∀ d ∈ parts'.whole, d < 10) (hf' : ∀ d ∈ parts'.fraction, d < 10) (h : parts.text = parts'.text) :
    parts = parts' := by
  obtain ⟨w, f, e⟩ := parts
  obtain ⟨w', f', e'⟩ := parts'
  dsimp only at hw hf hw' hf'
  have hdigits : ∀ {l : List Nat}, (∀ d ∈ l, d < 10) → ∀ u ∈ l.map digitUnit, isDigitUnit u = true := by
    intro l hl u hu
    obtain ⟨d, hd, rfl⟩ := List.mem_map.mp hu
    exact isDigitUnit_digitUnit (hl d hd)
  have hexponent : ∀ {e : Option ℤ}, ∀ u ∈ (exponentText e).head?, isDigitUnit u = false := fun u hu => by
    rw [head?_exponentText hu]
    decide
  obtain ⟨hwhole, htail⟩ := append_inj_of_run (hdigits hw) (hdigits hw') (fun _ => head?_tail) (fun _ => head?_tail) h
  obtain rfl := map_digitUnit_inj hw hw' hwhole
  dsimp only at htail
  split_ifs at htail with h₁ h₂ h₂
  · rw [h₁, h₂, exponentText_injective htail]
  · have := head?_exponentText (e := e) (u := unit '.') (by
      rw [List.nil_append] at htail
      rw [htail]
      rfl)
    exact absurd this (by decide)
  · have := head?_exponentText (e := e') (u := unit '.') (by
      rw [List.nil_append] at htail
      rw [← htail]
      rfl)
    exact absurd this (by decide)
  · obtain ⟨hfraction, hexp⟩ := append_inj_of_run (hdigits hf) (hdigits hf') hexponent hexponent (List.cons.inj htail).2
    rw [map_digitUnit_inj hf hf' hfraction, exponentText_injective hexp]

theorem read_of_zeros {digits : List Nat} {w f : List Nat} {a b : Nat} (hne : digits ≠ [])
    (hhead : digits.head? ≠ some 0) (hlast : digits.getLast? ≠ some 0)
    (h : w ++ f = List.replicate a 0 ++ (digits ++ List.replicate b 0)) :
    read ⟨w, f, e⟩ = (digits, w.length - a + e.getD 0) := by
  have hzeros : ∀ n, ∀ d ∈ List.replicate n 0, decide (d = 0) = true := fun n d hd =>
    decide_eq_true (List.eq_of_mem_replicate hd)
  obtain ⟨d, digits, rfl⟩ := List.exists_cons_of_ne_nil hne
  have hd : ¬decide (d = 0) = true := fun h => hhead (congrArg some (of_decide_eq_true h))
  have htake : (w ++ f).takeWhile (· = 0) = List.replicate a 0 := by
    rw [h, List.takeWhile_append_of_pos (hzeros a), List.cons_append,
      List.takeWhile_cons_of_neg (p := fun x => decide (x = 0)) hd, List.append_nil]
  have hdrop : (w ++ f).dropWhile (· = 0) = (d :: digits) ++ List.replicate b 0 := by
    rw [h, List.dropWhile_append_of_pos (hzeros a), List.cons_append,
      List.dropWhile_cons_of_neg (p := fun x => decide (x = 0)) hd]
  have htrim : ∀ b, ((d :: digits) ++ List.replicate b 0).rdropWhile (· = 0) = d :: digits := fun b => by
    induction b with
    | zero =>
      rw [List.replicate_zero, List.append_nil, List.rdropWhile_eq_self_iff]
      intro hne' hzero
      exact hlast ((List.getLast?_eq_getLast_of_ne_nil hne').trans (congrArg some (of_decide_eq_true hzero)))
    | succ b ih =>
      rw [List.replicate_succ', ← List.append_assoc, List.rdropWhile_concat_pos (fun x => decide (x = 0)) _ _ (by rfl)]
      exact ih
  unfold read
  dsimp only
  rw [htake, hdrop, htrim, List.length_replicate]

end DecimalParts

namespace Decimal

/-- `Number::toString`: no exponent up to 21 digits before the point and 6 zeros after it. -/
def parts (x : Decimal) : DecimalParts :=
  let k : ℤ := x.digits.length
  let n := x.point
  if x.digits = [] then ⟨[0], [], none⟩
  else if k ≤ n ∧ n ≤ 21 then ⟨x.digits ++ List.replicate (n - k).toNat 0, [], none⟩
  else if 0 < n ∧ n ≤ 21 then ⟨x.digits.take n.toNat, x.digits.drop n.toNat, none⟩
  else if -6 < n ∧ n ≤ 0 then ⟨[0], List.replicate (-n).toNat 0 ++ x.digits, none⟩
  else ⟨x.digits.take 1, x.digits.drop 1, some (n - 1)⟩

def text (x : Decimal) : JsString := (if x.negative then [unit '-'] else []) ++ x.parts.text

theorem read_parts (x : Decimal) : x.parts.read = (x.digits, x.point) := by
  have hread : ∀ {w f : List Nat} {e : Option ℤ} {a b : Nat}, x.digits ≠ [] →
      w ++ f = List.replicate a 0 ++ (x.digits ++ List.replicate b 0) → (w.length : ℤ) - a + e.getD 0 = x.point →
      DecimalParts.read ⟨w, f, e⟩ = (x.digits, x.point) := fun hne h hpoint => by
    rw [DecimalParts.read_of_zeros hne x.head?_ne x.getLast?_ne h, hpoint]
  unfold parts
  dsimp only
  split_ifs with hnil hwhole hpoint hsmall
  · obtain ⟨-, hzero⟩ := x.zero hnil
    rw [hnil, hzero]
    rfl
  · refine hread (a := 0) hnil (by rw [List.append_nil]; rfl) ?_
    rw [List.length_append, List.length_replicate]
    show ((_ : Nat) : ℤ) - (0 : Nat) + 0 = _
    omega
  · refine hread (a := 0) (b := 0) hnil ?_ ?_
    · rw [List.take_append_drop, List.replicate_zero, List.append_nil]
      rfl
    · rw [List.length_take]
      show ((_ : Nat) : ℤ) - (0 : Nat) + 0 = _
      omega
  · refine hread (a := (-x.point).toNat + 1) (b := 0) hnil ?_ ?_
    · rw [List.replicate_zero, List.append_nil, List.replicate_succ]
      rfl
    · show ((1 : Nat) : ℤ) - ((-x.point).toNat + 1 : Nat) + 0 = _
      omega
  · have hlength := List.length_pos_of_ne_nil hnil
    refine hread (a := 0) (b := 0) hnil ?_ ?_
    · rw [List.take_append_drop, List.replicate_zero, List.append_nil]
      rfl
    · rw [List.length_take]
      show ((_ : Nat) : ℤ) - (0 : Nat) + (x.point - 1) = _
      omega

theorem parts_lt_ten (x : Decimal) : (∀ d ∈ x.parts.whole, d < 10) ∧ ∀ d ∈ x.parts.fraction, d < 10 := by
  have hzeros : ∀ n, ∀ d ∈ List.replicate n 0, d < 10 := fun n d hd => by
    rw [List.eq_of_mem_replicate hd]
    omega
  have hone : ∀ d ∈ [0], d < 10 := hzeros 1
  unfold parts
  dsimp only
  split_ifs
  · exact ⟨hone, nofun⟩
  · refine ⟨fun d hd => ?_, nofun⟩
    exact (List.mem_append.mp hd).elim (x.lt_ten d) (hzeros _ d)
  · exact ⟨fun d hd => x.lt_ten d (List.mem_of_mem_take hd), fun d hd => x.lt_ten d (List.mem_of_mem_drop hd)⟩
  · refine ⟨hone, fun d hd => ?_⟩
    exact (List.mem_append.mp hd).elim (hzeros _ d) (x.lt_ten d)
  · exact ⟨fun d hd => x.lt_ten d (List.mem_of_mem_take hd), fun d hd => x.lt_ten d (List.mem_of_mem_drop hd)⟩

theorem exists_whole_eq_cons (x : Decimal) : ∃ d rest, x.parts.whole = d :: rest ∧ d < 10 := by
  suffices h : x.parts.whole ≠ [] by
    obtain ⟨d, rest, hcons⟩ := List.exists_cons_of_ne_nil h
    exact ⟨d, rest, hcons, x.parts_lt_ten.1 d (hcons ▸ List.mem_cons_self)⟩
  unfold parts
  dsimp only
  split_ifs with hnil hwhole hpoint
  · exact List.cons_ne_nil _ _
  · exact fun h => hnil (List.append_eq_nil_iff.mp h).1
  · intro h
    rcases List.take_eq_nil_iff.mp h with h | h
    · omega
    · exact hnil h
  · exact List.cons_ne_nil _ _
  · intro h
    rcases List.take_eq_nil_iff.mp h with h | h
    · omega
    · exact hnil h

theorem text_injective : Function.Injective text := by
  intro x y h
  have hminus : ∀ {z : Decimal} {rest : JsString}, unit '-' :: rest ≠ z.parts.text := by
    intro z rest h
    obtain ⟨d, whole, hwhole, hd⟩ := z.exists_whole_eq_cons
    rw [DecimalParts.text, hwhole] at h
    have hdigit := isDigitUnit_digitUnit hd
    rw [← (List.cons.inj h).1] at hdigit
    cases hdigit
  have hparts : ∀ {x y : Decimal}, x.negative = y.negative → x.parts.text = y.parts.text → x = y := by
    intro x y hsign htext
    have hread := congrArg DecimalParts.read (DecimalParts.text_inj x.parts_lt_ten.1 x.parts_lt_ten.2 y.parts_lt_ten.1
      y.parts_lt_ten.2 htext)
    rw [read_parts, read_parts] at hread
    obtain ⟨hdigits, hpoint⟩ := Prod.mk.inj hread
    obtain ⟨⟩ := x
    obtain ⟨⟩ := y
    cases hsign
    cases hdigits
    cases hpoint
    rfl
  unfold text at h
  cases hx : x.negative <;> cases hy : y.negative <;> rw [hx, hy] at h
  · exact hparts (hx.trans hy.symm) h
  · exact absurd h.symm hminus
  · exact absurd h hminus
  · exact hparts (hx.trans hy.symm) (List.cons.inj h).2

end Decimal

def isNumberUnit (u : UInt16) : Bool :=
  isDigitUnit u || u = unit '-' || u = unit '+' || u = unit '.' || u = unit 'e'

theorem DecimalParts.isNumberUnit_of_mem_text {parts : DecimalParts} (hw : ∀ d ∈ parts.whole, d < 10)
    (hf : ∀ d ∈ parts.fraction, d < 10) (h : u ∈ parts.text) : isNumberUnit u = true := by
  have hdigit : ∀ {u}, isDigitUnit u = true → isNumberUnit u = true := fun h => by simp only [isNumberUnit, h, Bool.true_or]
  have hdigits : ∀ {l : List Nat}, (∀ d ∈ l, d < 10) → ∀ u ∈ l.map digitUnit, isNumberUnit u = true := by
    intro l hl u hu
    obtain ⟨d, hd, rfl⟩ := List.mem_map.mp hu
    exact hdigit (isDigitUnit_digitUnit (hl d hd))
  rcases List.mem_append.mp h with h | h
  · exact hdigits hw u h
  rcases List.mem_append.mp h with h | h
  · split_ifs at h
    · cases h
    · rcases List.mem_cons.mp h with rfl | h
      · decide
      · exact hdigits hf u h
  · cases hexp : parts.exponent with
    | none =>
      rw [hexp] at h
      cases h
    | some e =>
      rw [hexp] at h
      rcases List.mem_cons.mp h with rfl | h
      · decide
      rcases List.mem_cons.mp h with rfl | h
      · split_ifs <;> decide
      · exact hdigit (isDigitUnit_of_mem_numeral h)

theorem Decimal.isNumberUnit_of_mem_text {x : Decimal} (h : u ∈ x.text) : isNumberUnit u = true := by
  rcases List.mem_append.mp h with h | h
  · split_ifs at h
    · rw [List.mem_singleton.mp h]
      decide
    · cases h
  · exact DecimalParts.isNumberUnit_of_mem_text x.parts_lt_ten.1 x.parts_lt_ten.2 h

/-! ## Strings -/

def isLead (u : UInt16) : Bool := 0xD800 ≤ u.toNat && u.toNat ≤ 0xDBFF

def isTrail (u : UInt16) : Bool := 0xDC00 ≤ u.toNat && u.toNat ≤ 0xDFFF

def hexUnit (n : Nat) : UInt16 := if n < 10 then digitUnit n else (87 + n).toUInt16

def hexValue (u : UInt16) : Nat := if u.toNat ≤ 57 then u.toNat - 48 else u.toNat - 87

def letterEscapes : List (UInt16 × UInt16) :=
  [(8, unit 'b'), (9, unit 't'), (10, unit 'n'), (12, unit 'f'), (13, unit 'r'), (unit '"', unit '"'),
    (unit '\\', unit '\\')]

/-- An escape of four hexadecimal digits. -/
def unicodeEscape (u : UInt16) : JsString :=
  [unit '\\', unit 'u', hexUnit (u.toNat / 4096), hexUnit (u.toNat / 256 % 16), hexUnit (u.toNat / 16 % 16),
    hexUnit (u.toNat % 16)]

/-- A unit that is not half of a pair. -/
def quoteUnit (u : UInt16) : JsString :=
  match letterEscapes.lookup u with
  | some letter => [unit '\\', letter]
  | none => if u.toNat < 32 || isLead u || isTrail u then unicodeEscape u else [u]

def quoteBody : JsString → JsString
  | [] => []
  | [u] => quoteUnit u
  | u :: v :: s => if isLead u && isTrail v then u :: v :: quoteBody s else quoteUnit u ++ quoteBody (v :: s)

/-- `QuoteJSONString`: between quotes, with escapes of quotes, backslashes, controls and halves of pairs. -/
def quote (s : JsString) : JsString := unit '"' :: (quoteBody s ++ [unit '"'])

/-- What stands before the closing quote, and what after it. -/
def unquote : JsString → Option (JsString × JsString)
  | [] => none
  | u :: text =>
    if u = unit '"' then some ([], text)
    else if u = unit '\\' then
      match text with
      | [] => none
      | letter :: text =>
        if letter = unit 'u' then
          match text with
          | a :: b :: c :: d :: text =>
            let code := ((hexValue a * 16 + hexValue b) * 16 + hexValue c) * 16 + hexValue d
            (unquote text).map fun r => (code.toUInt16 :: r.1, r.2)
          | _ => none
        else (letterEscapes.find? fun e => e.2 = letter).bind fun e => (unquote text).map fun r => (e.1 :: r.1, r.2)
    else (unquote text).map fun r => (u :: r.1, r.2)

theorem hexValue_hexUnit {n : Nat} (h : n < 16) : hexValue (hexUnit n) = n := by
  unfold hexUnit
  split_ifs with h'
  · rw [hexValue, toNat_digitUnit h', if_pos (by omega)]
    omega
  · rw [hexValue, Nat.toUInt16_eq, UInt16.toNat_ofNat', if_neg (by omega)]
    omega

theorem unquote_plain (hquote : u ≠ unit '"') (hbackslash : u ≠ unit '\\') (text : JsString) :
    unquote (u :: text) = (unquote text).map fun r => (u :: r.1, r.2) := by
  rw [unquote.eq_def]
  dsimp only
  rw [if_neg hquote, if_neg hbackslash]

theorem unquote_letterEscape {e : UInt16 × UInt16} (h : e ∈ letterEscapes) (text : JsString) :
    unquote (unit '\\' :: e.2 :: text) = (unquote text).map fun r => (e.1 :: r.1, r.2) := by
  have hletters : (letterEscapes.all fun e =>
      e.2 != unit 'u' && letterEscapes.find? (fun e' => e'.2 = e.2) == some e) = true := by decide
  obtain ⟨hne, hfind⟩ := Bool.and_eq_true_iff.mp (List.all_eq_true.mp hletters e h)
  replace hne := bne_iff_ne.mp hne
  replace hfind := eq_of_beq hfind
  rw [unquote.eq_def]
  dsimp only
  rw [if_neg (by decide), if_pos rfl, if_neg hne, hfind, Option.bind_some]

theorem unquote_unicodeEscape (u : UInt16) (text : JsString) :
    unquote (unicodeEscape u ++ text) = (unquote text).map fun r => (u :: r.1, r.2) := by
  have hlt := u.toNat_lt
  have hcode : (((hexValue (hexUnit (u.toNat / 4096)) * 16 + hexValue (hexUnit (u.toNat / 256 % 16))) * 16 +
      hexValue (hexUnit (u.toNat / 16 % 16))) * 16 + hexValue (hexUnit (u.toNat % 16))).toUInt16 = u := by
    rw [hexValue_hexUnit (by omega), hexValue_hexUnit (by omega), hexValue_hexUnit (by omega),
      hexValue_hexUnit (by omega)]
    rw [show ((u.toNat / 4096 * 16 + u.toNat / 256 % 16) * 16 + u.toNat / 16 % 16) * 16 + u.toNat % 16 = u.toNat by omega]
    exact UInt16.ofNat_toNat
  show unquote (unit '\\' :: unit 'u' :: _ :: _ :: _ :: _ :: text) = _
  rw [unquote.eq_def]
  dsimp only
  rw [if_neg (by decide), if_pos rfl, if_pos rfl, hcode]

theorem unquote_quoteUnit (u : UInt16) (text : JsString) :
    unquote (quoteUnit u ++ text) = (unquote text).map fun r => (u :: r.1, r.2) := by
  unfold quoteUnit
  split
  · rename_i letter hletter
    have hmem : (u, letter) ∈ letterEscapes := by
      obtain ⟨before, after, heq, -⟩ := List.lookup_eq_some_iff.mp hletter
      rw [heq]
      exact List.mem_append_right _ List.mem_cons_self
    exact unquote_letterEscape hmem text
  · rename_i hnone
    split_ifs
    · exact unquote_unicodeEscape u text
    · refine unquote_plain ?_ ?_ text
      · rintro rfl
        exact absurd hnone (by decide)
      · rintro rfl
        exact absurd hnone (by decide)

theorem unquote_quoteBody (s text : JsString) : unquote (quoteBody s ++ unit '"' :: text) = some (s, text) := by
  fun_induction quoteBody s with
  | case1 =>
    rw [List.nil_append, unquote.eq_def]
    exact if_pos rfl
  | case2 u =>
    rw [unquote_quoteUnit, unquote.eq_def]
    dsimp only
    rw [if_pos rfl, Option.map_some]
  | case3 u v s hpair ih =>
    obtain ⟨hlead, htrail⟩ := (Bool.and_eq_true _ _).mp hpair
    have hne : ∀ {w c : UInt16}, isLead w = true ∨ isTrail w = true → isLead c = false → isTrail c = false → w ≠ c := by
      rintro w c (h | h) hc hc' rfl
      · rw [h] at hc
        cases hc
      · rw [h] at hc'
        cases hc'
    rw [List.cons_append, List.cons_append,
      unquote_plain (hne (.inl hlead) (by decide) (by decide)) (hne (.inl hlead) (by decide) (by decide)),
      unquote_plain (hne (.inr htrail) (by decide) (by decide)) (hne (.inr htrail) (by decide) (by decide)), ih]
    rfl
  | case4 u v s _ ih =>
    rw [List.append_assoc, unquote_quoteUnit, ih]
    rfl

theorem quote_append_inj {s s' text text' : JsString} (h : quote s ++ text = quote s' ++ text') :
    s = s' ∧ text = text' := by
  have hbody : quoteBody s ++ [unit '"'] ++ text = quoteBody s' ++ [unit '"'] ++ text' := (List.cons.inj h).2
  rw [List.append_assoc, List.append_assoc] at hbody
  have hread := congrArg unquote hbody
  rw [List.singleton_append, List.singleton_append, unquote_quoteBody, unquote_quoteBody] at hread
  exact Prod.mk.inj (Option.some.inj hread)

/-! ## Trees -/

/-- A value as it is written: an object lists its entries in order. -/
inductive JsonTree where
  | null
  | bool (b : Bool)
  | number (x : Decimal)
  | string (s : JsString)
  | array (items : List JsonTree)
  | object (entries : List (JsString × JsonTree))

namespace JsonTree

mutual

def text : JsonTree → JsString
  | .null => units "null"
  | .bool b => units (if b then "true" else "false")
  | .number x => x.text
  | .string s => quote s
  | .array [] => units "[]"
  | .array (x :: items) => unit '[' :: (x.text ++ itemsText items)
  | .object [] => units "\x7b\x7d"
  | .object ((k, x) :: entries) => unit '\x7b' :: (quote k ++ unit ':' :: (x.text ++ entriesText entries))

def itemsText : List JsonTree → JsString
  | [] => units "]"
  | x :: items => unit ',' :: (x.text ++ itemsText items)

def entriesText : List (JsString × JsonTree) → JsString
  | [] => units "\x7d"
  | (k, x) :: entries => unit ',' :: (quote k ++ unit ':' :: (x.text ++ entriesText entries))

end

/-! ## Reading a text -/

inductive Kind where
  | null | bool | number | string | array | object
  deriving DecidableEq

def kind : JsonTree → Kind
  | .null => .null
  | .bool _ => .bool
  | .number _ => .number
  | .string _ => .string
  | .array _ => .array
  | .object _ => .object

/-- The kind of the values whose text begins with this unit. -/
def kindOf (u : UInt16) : Option Kind :=
  if u = unit 'n' then some .null
  else if u = unit 't' ∨ u = unit 'f' then some .bool
  else if u = unit '"' then some .string
  else if u = unit '[' then some .array
  else if u = unit '\x7b' then some .object
  else if isNumberUnit u then some .number
  else none

theorem exists_text_eq_cons (x : JsonTree) : ∃ u rest, x.text = u :: rest ∧ kindOf u = some x.kind := by
  cases x with
  | null => exact ⟨unit 'n', units "ull", rfl, rfl⟩
  | bool b => cases b <;> exact ⟨_, _, rfl, rfl⟩
  | number x =>
    obtain ⟨d, whole, hwhole, hd⟩ := x.exists_whole_eq_cons
    have hdigit : ∀ d < 10, kindOf (digitUnit d) = some .number := by decide
    unfold text Decimal.text DecimalParts.text
    rw [hwhole]
    cases x.negative with
    | true => exact ⟨_, _, rfl, rfl⟩
    | false => exact ⟨_, _, rfl, hdigit d hd⟩
  | string s => exact ⟨_, _, rfl, rfl⟩
  | array items => cases items <;> exact ⟨_, _, rfl, rfl⟩
  | object entries => cases entries <;> exact ⟨_, _, rfl, rfl⟩

theorem kind_eq {x y : JsonTree} {r r' : JsString} (h : x.text ++ r = y.text ++ r') : x.kind = y.kind := by
  obtain ⟨u, rest, hx, hu⟩ := exists_text_eq_cons x
  obtain ⟨v, rest', hy, hv⟩ := exists_text_eq_cons y
  rw [hx, hy] at h
  exact Option.some.inj (by rw [← hu, ← hv, (List.cons.inj h).1])

/-- The text does not go on as a number does. -/
def Delimited (r : JsString) : Prop := ∀ u ∈ r.head?, isNumberUnit u = false

theorem delimited_itemsText (items : List JsonTree) (r : JsString) : Delimited (itemsText items ++ r) := by
  cases items <;> exact fun u hu => by rw [← Option.some.inj hu]; decide

theorem delimited_entriesText (entries : List (JsString × JsonTree)) (r : JsString) :
    Delimited (entriesText entries ++ r) := by
  cases entries <;> exact fun u hu => by rw [← Option.some.inj hu]; decide

theorem closing_ne (x : JsonTree) {s r text : JsString} : unit ']' :: r ≠ (x.text ++ s) ++ text := by
  obtain ⟨u, rest, hx, hu⟩ := exists_text_eq_cons x
  intro h
  rw [hx] at h
  rw [← (List.cons.inj h).1] at hu
  cases hu

theorem entry_append_inj {k k' : JsString} {s s' t t' r r' : JsString}
    (h : (quote k ++ unit ':' :: (s ++ t)) ++ r = (quote k' ++ unit ':' :: (s' ++ t')) ++ r') :
    k = k' ∧ s ++ (t ++ r) = s' ++ (t' ++ r') := by
  rw [List.append_assoc, List.append_assoc] at h
  obtain ⟨hk, htail⟩ := quote_append_inj h
  refine ⟨hk, ?_⟩
  rw [← List.append_assoc, ← List.append_assoc]
  exact (List.cons.inj htail).2

mutual

/-- **Unique reading**: a text begins with the text of one value only. -/
theorem text_append_inj : ∀ (x y : JsonTree) {r r' : JsString}, Delimited r → Delimited r' →
    x.text ++ r = y.text ++ r' → x = y ∧ r = r' := by
  intro x y r r' hr hr' h
  have hkind := kind_eq h
  cases x with
  | null =>
    cases y with
    | null => exact ⟨rfl, List.append_cancel_left h⟩
    | _ => cases hkind
  | bool b =>
    cases y with
    | bool b' =>
      cases b <;> cases b'
      · exact ⟨rfl, List.append_cancel_left h⟩
      · exact absurd (List.cons.inj h).1 (by decide)
      · exact absurd (List.cons.inj h).1 (by decide)
      · exact ⟨rfl, List.append_cancel_left h⟩
    | _ => cases hkind
  | number a =>
    cases y with
    | number b =>
      obtain ⟨htext, hrest⟩ := append_inj_of_run (fun _ => Decimal.isNumberUnit_of_mem_text)
        (fun _ => Decimal.isNumberUnit_of_mem_text) hr hr' h
      exact ⟨congrArg number (Decimal.text_injective htext), hrest⟩
    | _ => cases hkind
  | string s =>
    cases y with
    | string s' =>
      obtain ⟨rfl, hrest⟩ := quote_append_inj h
      exact ⟨rfl, hrest⟩
    | _ => cases hkind
  | array items =>
    cases y with
    | array items' =>
      cases items with
      | nil =>
        cases items' with
        | nil => exact ⟨rfl, List.append_cancel_left h⟩
        | cons y items' => exact absurd (List.cons.inj h).2 (closing_ne y)
      | cons x items =>
        cases items' with
        | nil => exact absurd (List.cons.inj h).2.symm (closing_ne x)
        | cons y items' =>
          have htail : x.text ++ (itemsText items ++ r) = y.text ++ (itemsText items' ++ r') := by
            rw [← List.append_assoc, ← List.append_assoc]
            exact (List.cons.inj h).2
          obtain ⟨rfl, hitems⟩ := text_append_inj x y (delimited_itemsText items r) (delimited_itemsText items' r')
            htail
          obtain ⟨rfl, hrest⟩ := itemsText_append_inj items items' hitems
          exact ⟨rfl, hrest⟩
    | _ => cases hkind
  | object entries =>
    cases y with
    | object entries' =>
      cases entries with
      | nil =>
        cases entries' with
        | nil => exact ⟨rfl, List.append_cancel_left h⟩
        | cons e entries' => exact absurd (List.cons.inj (List.cons.inj h).2).1 (by decide)
      | cons e entries =>
        cases entries' with
        | nil => exact absurd (List.cons.inj (List.cons.inj h).2).1 (by decide)
        | cons e' entries' =>
          obtain ⟨k, x⟩ := e
          obtain ⟨k', y⟩ := e'
          obtain ⟨rfl, htail⟩ := entry_append_inj (List.cons.inj h).2
          obtain ⟨rfl, hentries⟩ := text_append_inj x y (delimited_entriesText entries r)
            (delimited_entriesText entries' r') htail
          obtain ⟨rfl, hrest⟩ := entriesText_append_inj entries entries' hentries
          exact ⟨rfl, hrest⟩
    | _ => cases hkind

theorem itemsText_append_inj : ∀ (items items' : List JsonTree) {r r' : JsString},
    itemsText items ++ r = itemsText items' ++ r' → items = items' ∧ r = r' := by
  intro items items' r r' h
  cases items with
  | nil =>
    cases items' with
    | nil => exact ⟨rfl, List.append_cancel_left h⟩
    | cons => exact absurd (List.cons.inj h).1 (by decide)
  | cons x items =>
    cases items' with
    | nil => exact absurd (List.cons.inj h).1 (by decide)
    | cons y items' =>
      have htail : x.text ++ (itemsText items ++ r) = y.text ++ (itemsText items' ++ r') := by
        rw [← List.append_assoc, ← List.append_assoc]
        exact (List.cons.inj h).2
      obtain ⟨rfl, hitems⟩ := text_append_inj x y (delimited_itemsText items r) (delimited_itemsText items' r') htail
      obtain ⟨rfl, hrest⟩ := itemsText_append_inj items items' hitems
      exact ⟨rfl, hrest⟩

theorem entriesText_append_inj : ∀ (entries entries' : List (JsString × JsonTree)) {r r' : JsString},
    entriesText entries ++ r = entriesText entries' ++ r' → entries = entries' ∧ r = r' := by
  intro entries entries' r r' h
  cases entries with
  | nil =>
    cases entries' with
    | nil => exact ⟨rfl, List.append_cancel_left h⟩
    | cons => exact absurd (List.cons.inj h).1 (by decide)
  | cons e entries =>
    cases entries' with
    | nil => exact absurd (List.cons.inj h).1 (by decide)
    | cons e' entries' =>
      obtain ⟨k, x⟩ := e
      obtain ⟨k', y⟩ := e'
      obtain ⟨rfl, htail⟩ := entry_append_inj (List.cons.inj h).2
      obtain ⟨rfl, hentries⟩ := text_append_inj x y (delimited_entriesText entries r) (delimited_entriesText entries' r')
        htail
      obtain ⟨rfl, hrest⟩ := entriesText_append_inj entries entries' hentries
      exact ⟨rfl, hrest⟩

end

theorem text_injective : Function.Injective text := fun x y h =>
  (@text_append_inj x y [] [] nofun nofun (by rw [h])).1

end JsonTree

end NousCore
