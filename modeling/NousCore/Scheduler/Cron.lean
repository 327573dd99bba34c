import NousCore.Lib.Numeral
import NousCore.Memory.Types

/-!
# Cron fields

* `parseSegment`, `parseCronMatcher` : the matcher of a segment and of a field;
* `Token` : the grammar of a segment, `Token.denotes` what it stands for;
* `tokenOf_eq_some_iff` : a segment is read as the token that it spells.
-/

namespace NousCore.Scheduler

open Memory (isJsSpace)

/-! ## Segments -/

def trim (text : List Char) : List Char := ((text.dropWhile isJsSpace).reverse.dropWhile isJsSpace).reverse

def toNumber (text : List Char) : JsNumber := numberOf (trim text)

/-- `/^\*\/(\d+)$/` -/
def matchStep : List Char → Option (List Char)
  | '*' :: '/' :: stride => if isNumeral stride then some stride else none
  | _ => none

/-- `/^(\d+)-(\d+)\/(\d+)$/` -/
def matchRangeStep (segment : List Char) : Option (List Char × List Char × List Char) :=
  let start := segment.takeWhile Char.isDigit
  match segment.dropWhile Char.isDigit with
  | '-' :: rest =>
    let stop := rest.takeWhile Char.isDigit
    match rest.dropWhile Char.isDigit with
    | '/' :: stride =>
      if isNumeral start && isNumeral stop && isNumeral stride then some (start, stop, stride) else none
    | _ => none
  | _ => none

/-- `/^(\d+)-(\d+)$/` -/
def matchRange (segment : List Char) : Option (List Char × List Char) :=
  let start := segment.takeWhile Char.isDigit
  match segment.dropWhile Char.isDigit with
  | '-' :: stop => if isNumeral start && isNumeral stop then some (start, stop) else none
  | _ => none

/-! ## Matchers -/

/-- A field of a date; `none` is the `NaN` of an invalid date. -/
abbrev DateField := Option ℤ

abbrev CronMatcher := DateField → Bool

def normalizeDayOfWeek (value : ℤ) : ℤ := if value = 7 then 0 else value

/-- The errors of the parser, by the part of the expression that they name. -/
inductive CronError where
  | step (segment : List Char)
  | rangeStep (segment : List Char)
  | range (segment : List Char)
  | fieldToken (segment : List Char)
  | expression (text : String)

def CronError.message : CronError → String
  | step segment => "Invalid cron step: " ++ String.ofList segment
  | rangeStep segment => "Invalid cron range step: " ++ String.ofList segment
  | range segment => "Invalid cron range: " ++ String.ofList segment
  | fieldToken segment => "Invalid cron field token: " ++ String.ofList segment
  | expression text => "Invalid cron expression: " ++ text

/-! A comparison with `NaN` fails. -/

section Matchers

variable (min : ℤ) (normalize : ℤ → ℤ)

def stepMatcher (stride : ℤ) : CronMatcher := fun value =>
  (value.map normalize).any fun v => (v - min).tmod stride = 0

def rangeStepMatcher (start stop stride : ℤ) : CronMatcher := fun value =>
  (value.map normalize).any fun v => start ≤ v ∧ v ≤ stop ∧ (v - start).tmod stride = 0

def rangeMatcher (start stop : ℤ) : CronMatcher := fun value =>
  (value.map normalize).any fun v => start ≤ v ∧ v ≤ stop

def literalMatcher (literal : ℤ) : CronMatcher := fun value =>
  (value.map normalize).any fun v => v = normalize literal

def parseSegment (segment : List Char) : Except CronError CronMatcher :=
  if segment = ['*'] then .ok fun _ => true
  else match matchStep segment with
  | some stride =>
    match integerOf (toNumber stride) with
    | some stride => if stride ≤ 0 then .error (.step segment) else .ok (stepMatcher min normalize stride)
    | none => .error (.step segment)
  | none =>
    match matchRangeStep segment with
    | some (start, stop, stride) =>
      match integerOf (toNumber start), integerOf (toNumber stop), integerOf (toNumber stride) with
      | some start, some stop, some stride =>
        if stride ≤ 0 then .error (.rangeStep segment) else .ok (rangeStepMatcher normalize start stop stride)
      | _, _, _ => .error (.rangeStep segment)
    | none =>
      match matchRange segment with
      | some (start, stop) =>
        match integerOf (toNumber start), integerOf (toNumber stop) with
        | some start, some stop =>
          if stop < start then .error (.range segment) else .ok (rangeMatcher normalize start stop)
        | _, _ => .error (.range segment)
      | none =>
        match integerOf (toNumber segment) with
        | some literal => .ok (literalMatcher normalize literal)
        | none => .error (.fieldToken segment)

end Matchers

def segments (field : List Char) : List (List Char) := field.splitOn ','

def parseCronMatcher (field : List Char) (min max : ℤ) (normalize : ℤ → ℤ) : Except CronError CronMatcher := do
  let matchers ← (segments field).mapM (parseSegment min normalize)
  return fun value =>
    let normalized := value.map normalize
    if normalized.any fun v => v < min ∨ max < v then false
    else matchers.any fun matcher => matcher normalized

/-- The fields of an expression, in the order in which it lists them. -/
inductive CronField where
  | minute | hour | dayOfMonth | month | dayOfWeek

namespace CronField

def min : CronField → ℤ
  | minute | hour | dayOfWeek => 0
  | dayOfMonth | month => 1

def max : CronField → ℤ
  | minute => 59
  | hour => 23
  | dayOfMonth => 31
  | month => 12
  | dayOfWeek => 6

def normalize : CronField → ℤ → ℤ
  | dayOfWeek => normalizeDayOfWeek
  | _ => id

end CronField

def parseField (field : CronField) (text : List Char) : Except CronError CronMatcher :=
  parseCronMatcher text field.min field.max field.normalize

/-! ## The grammar -/

/-- What a segment may say. -/
inductive Token where
  | every
  | everyNth (stride : Nat)
  | literal (n : Nat)
  | range (first last : Nat)
  | rangeNth (first last stride : Nat)

def Names (text : List Char) (n : Nat) : Prop := isNumeral text = true ∧ decimalValue text = n

namespace Token

def Spells : Token → List Char → Prop
  | every, text => text = ['*']
  | everyNth n, text => ∃ stride, Names stride n ∧ text = '*' :: '/' :: stride
  | literal n, text => Names text n
  | range a b, text => ∃ first last, Names first a ∧ Names last b ∧ text = first ++ '-' :: last
  | rangeNth a b n, text => ∃ first last stride, Names first a ∧ Names last b ∧ Names stride n ∧
      text = first ++ '-' :: (last ++ '/' :: stride)

end Token

/-- The greatest number that a field may name: 7 is Sunday, as 0 is. -/
def CronField.top : CronField → ℤ
  | .dayOfWeek => 7
  | field => field.max

namespace Token

def InGrammar (field : CronField) : Token → Prop
  | every => True
  | everyNth n => 1 ≤ n
  | literal n => field.min ≤ n ∧ n ≤ field.top
  | range a b => field.min ≤ a ∧ a ≤ b ∧ b ≤ field.top
  | rangeNth a b n => (field.min ≤ a ∧ a ≤ b ∧ b ≤ field.top) ∧ 1 ≤ n

def denotes (field : CronField) : Token → Set ℤ
  | every => Set.Icc field.min field.max
  | everyNth n => {v | (n : ℤ) ∣ v - field.min}
  | literal n => {field.normalize n}
  | range a b => field.normalize '' Set.Icc (a : ℤ) b
  | rangeNth a b n => field.normalize '' {x | x ∈ Set.Icc (a : ℤ) b ∧ (n : ℤ) ∣ x - a}

def EndsOnSunday : Token → Prop
  | range _ b => b = 7
  | rangeNth a b n => b = 7 ∧ (n : ℤ) ∣ 7 - a
  | _ => False

def NamesSunday : Token → Prop
  | every | everyNth _ => True
  | literal n => n = 0 ∨ n = 7
  | range a _ | rangeNth a _ _ => a = 0

end Token

/-! ## Reading a segment -/

def tokenOf (segment : List Char) : Option Token :=
  if segment = ['*'] then some .every
  else match matchStep segment with
  | some stride => some (.everyNth (decimalValue stride))
  | none =>
    match matchRangeStep segment with
    | some (start, stop, stride) =>
      some (.rangeNth (decimalValue start) (decimalValue stop) (decimalValue stride))
    | none =>
      match matchRange segment with
      | some (start, stop) => some (.range (decimalValue start) (decimalValue stop))
      | none => if isNumeral segment then some (.literal (decimalValue segment)) else none

theorem matchStep_eq_some_iff {segment stride : List Char} :
    matchStep segment = some stride ↔ isNumeral stride = true ∧ segment = '*' :: '/' :: stride := by
  constructor
  · intro h
    unfold matchStep at h
    split at h
    · obtain ⟨hnumeral, rfl⟩ := Option.ite_none_right_eq_some.mp h |>.imp_right Option.some.inj
      exact ⟨hnumeral, rfl⟩
    · cases h
  · rintro ⟨hnumeral, rfl⟩
    exact if_pos hnumeral

theorem takeWhile_numeral_append {digits rest : List Char} {c : Char} (h : isNumeral digits = true)
    (hc : c.isDigit = false) :
    (digits ++ c :: rest).takeWhile Char.isDigit = digits ∧ (digits ++ c :: rest).dropWhile Char.isDigit = c :: rest := by
  have hdigits := (isNumeral_iff.mp h).2
  rw [List.takeWhile_append_of_pos hdigits, List.dropWhile_append_of_pos hdigits]
  simp [hc]

variable {start stop : List Char}

theorem matchRange_eq_some_iff {segment : List Char} : matchRange segment = some (start, stop) ↔
      isNumeral start = true ∧ isNumeral stop = true ∧ segment = start ++ '-' :: stop := by
  constructor
  · intro h
    unfold matchRange at h
    split at h
    · rename_i stop' hrest
      obtain ⟨hnumerals, heq⟩ := Option.ite_none_right_eq_some.mp h
      cases heq
      obtain ⟨hstart, hstop⟩ := (Bool.and_eq_true _ _).mp hnumerals
      exact ⟨hstart, hstop, by rw [← hrest, List.takeWhile_append_dropWhile]⟩
    · cases h
  · rintro ⟨hstart, hstop, rfl⟩
    obtain ⟨htake, hdrop⟩ := @takeWhile_numeral_append _ stop _ hstart (by decide : '-'.isDigit = false)
    simp only [matchRange, htake, hdrop, hstart, hstop, Bool.and_self, if_true]

theorem matchRangeStep_eq_some_iff {segment stride : List Char} :
    matchRangeStep segment = some (start, stop, stride) ↔
      isNumeral start = true ∧ isNumeral stop = true ∧ isNumeral stride = true ∧
        segment = start ++ '-' :: (stop ++ '/' :: stride) := by
  constructor
  · intro h
    unfold matchRangeStep at h
    split at h
    · rename_i rest hrest
      split at h
      · rename_i stride' hrest'
        obtain ⟨hnumerals, heq⟩ := Option.ite_none_right_eq_some.mp h
        obtain ⟨rfl, heq'⟩ := Prod.mk.inj (Option.some.inj heq)
        cases heq'
        obtain ⟨hranges, hstride⟩ := (Bool.and_eq_true _ _).mp hnumerals
        obtain ⟨hstart, hstop⟩ := (Bool.and_eq_true _ _).mp hranges
        exact ⟨hstart, hstop, hstride, by
          rw [← hrest', List.takeWhile_append_dropWhile, ← hrest, List.takeWhile_append_dropWhile]⟩
      · cases h
    · cases h
  · rintro ⟨hstart, hstop, hstride, rfl⟩
    obtain ⟨htake, hdrop⟩ := @takeWhile_numeral_append _ (stop ++ '/' :: stride) _ hstart
      (by decide : '-'.isDigit = false)
    obtain ⟨htake', hdrop'⟩ := @takeWhile_numeral_append _ stride _ hstop (by decide : '/'.isDigit = false)
    simp only [matchRangeStep, htake, hdrop, htake', hdrop', hstart, hstop, hstride, Bool.and_self, if_true]

theorem not_starred {digits rest : List Char} (h : isNumeral digits = true) :
    digits ++ rest ≠ ['*'] ∧ matchStep (digits ++ rest) = none := by
  obtain ⟨hne, hdigits⟩ := isNumeral_iff.mp h
  obtain ⟨c, tail, rfl⟩ := List.exists_cons_of_ne_nil hne
  have hstar : c ≠ '*' := fun heq => absurd (hdigits c (.head _)) (heq ▸ by decide)
  constructor
  · exact fun heq => hstar (List.cons.inj heq).1
  · rw [Option.eq_none_iff_forall_ne_some]
    exact fun stride heq => hstar (List.cons.inj (matchStep_eq_some_iff.1 heq).2).1

theorem matchRangeStep_range (hstart : isNumeral start = true) (hstop : isNumeral stop = true) :
    matchRangeStep (start ++ '-' :: stop) = none := by
  have hdrop := (@takeWhile_numeral_append _ stop _ hstart (by decide : '-'.isDigit = false)).2
  simp only [matchRangeStep, hdrop, dropWhile_isDigit_of_isNumeral hstop]

/-! What the regular expressions find in the text of a token, in the order in which they are tried. -/

variable {n : Nat}

theorem Token.Spells.everyNth_read {segment : List Char} (h : (Token.everyNth n).Spells segment) :
    segment ≠ ['*'] ∧ ∃ stride, Names stride n ∧ matchStep segment = some stride := by
  obtain ⟨stride, hstride, rfl⟩ := h
  exact ⟨by simp, stride, hstride, matchStep_eq_some_iff.2 ⟨hstride.1, rfl⟩⟩

theorem Token.Spells.rangeNth_read {segment : List Char} {a b : Nat} (h : (Token.rangeNth a b n).Spells segment) :
    segment ≠ ['*'] ∧ matchStep segment = none ∧ ∃ start stop stride, Names start a ∧ Names stop b ∧ Names stride n ∧
      matchRangeStep segment = some (start, stop, stride) := by
  obtain ⟨start, stop, stride, hstart, hstop, hstride, rfl⟩ := h
  obtain ⟨hstar, hstep⟩ := @not_starred _ ('-' :: (stop ++ '/' :: stride)) hstart.1
  exact ⟨hstar, hstep, start, stop, stride, hstart, hstop, hstride,
    matchRangeStep_eq_some_iff.2 ⟨hstart.1, hstop.1, hstride.1, rfl⟩⟩

theorem Token.Spells.range_read {segment : List Char} {a b : Nat} (h : (Token.range a b).Spells segment) :
    segment ≠ ['*'] ∧ matchStep segment = none ∧ matchRangeStep segment = none ∧
      ∃ start stop, Names start a ∧ Names stop b ∧ matchRange segment = some (start, stop) := by
  obtain ⟨start, stop, hstart, hstop, rfl⟩ := h
  obtain ⟨hstar, hstep⟩ := @not_starred _ ('-' :: stop) hstart.1
  exact ⟨hstar, hstep, matchRangeStep_range hstart.1 hstop.1, start, stop, hstart, hstop,
    matchRange_eq_some_iff.2 ⟨hstart.1, hstop.1, rfl⟩⟩

theorem Token.Spells.literal_read {segment : List Char} (h : (Token.literal n).Spells segment) :
    segment ≠ ['*'] ∧ matchStep segment = none ∧ matchRangeStep segment = none ∧ matchRange segment = none := by
  obtain ⟨hstar, hstep⟩ := @not_starred _ [] h.1
  rw [List.append_nil] at hstar hstep
  exact ⟨hstar, hstep, by simp only [matchRangeStep, dropWhile_isDigit_of_isNumeral h.1],
    by simp only [matchRange, dropWhile_isDigit_of_isNumeral h.1]⟩

theorem spells_of_tokenOf {segment : List Char} {token : Token} (h : tokenOf segment = some token) :
    token.Spells segment := by
  unfold tokenOf at h
  by_cases hstar : segment = ['*']
  · rw [if_pos hstar] at h
    cases h
    exact hstar
  rw [if_neg hstar] at h
  cases hstep : matchStep segment with
  | some stride =>
    rw [hstep] at h
    cases h
    obtain ⟨hnumeral, heq⟩ := matchStep_eq_some_iff.1 hstep
    exact ⟨stride, ⟨hnumeral, rfl⟩, heq⟩
  | none =>
    rw [hstep] at h
    cases hrangeStep : matchRangeStep segment with
    | some parts =>
      obtain ⟨start, stop, stride⟩ := parts
      rw [hrangeStep] at h
      cases h
      obtain ⟨hstart, hstop, hstride, heq⟩ := matchRangeStep_eq_some_iff.1 hrangeStep
      exact ⟨start, stop, stride, ⟨hstart, rfl⟩, ⟨hstop, rfl⟩, ⟨hstride, rfl⟩, heq⟩
    | none =>
      rw [hrangeStep] at h
      cases hrange : matchRange segment with
      | some parts =>
        obtain ⟨start, stop⟩ := parts
        rw [hrange] at h
        cases h
        obtain ⟨hstart, hstop, heq⟩ := matchRange_eq_some_iff.1 hrange
        exact ⟨start, stop, ⟨hstart, rfl⟩, ⟨hstop, rfl⟩, heq⟩
      | none =>
        rw [hrange] at h
        obtain ⟨hnumeral, heq⟩ := Option.ite_none_right_eq_some.mp h
        cases heq
        exact ⟨hnumeral, rfl⟩

theorem tokenOf_eq_some_iff {segment : List Char} {token : Token} :
    tokenOf segment = some token ↔ token.Spells segment := by
  refine ⟨spells_of_tokenOf, fun h => ?_⟩
  cases token with
  | every =>
    obtain rfl : segment = ['*'] := h
    rfl
  | everyNth n =>
    obtain ⟨hstar, stride, hstride, hstep⟩ := h.everyNth_read
    rw [tokenOf, if_neg hstar, hstep, ← hstride.2]
  | literal n =>
    obtain ⟨hstar, hstep, hrangeStep, hrange⟩ := h.literal_read
    rw [tokenOf, if_neg hstar, hstep, hrangeStep, hrange, ← h.2]
    exact if_pos h.1
  | range a b =>
    obtain ⟨hstar, hstep, hrangeStep, start, stop, hstart, hstop, hrange⟩ := h.range_read
    rw [tokenOf, if_neg hstar, hstep, hrangeStep, hrange, ← hstart.2, ← hstop.2]
  | rangeNth a b n =>
    obtain ⟨hstar, hstep, start, stop, stride, hstart, hstop, hstride, hrangeStep⟩ := h.rangeNth_read
    rw [tokenOf, if_neg hstar, hstep, hrangeStep, ← hstart.2, ← hstop.2, ← hstride.2]

theorem read_of_tokenOf_eq_none {segment : List Char} (h : tokenOf segment = none) :
    segment ≠ ['*'] ∧ matchStep segment = none ∧ matchRangeStep segment = none ∧ matchRange segment = none := by
  have hno : ∀ token : Token, ¬token.Spells segment := fun token hspells => by
    rw [tokenOf_eq_some_iff.2 hspells] at h
    cases h
  refine ⟨hno .every, ?_, ?_, ?_⟩
  · refine Option.eq_none_iff_forall_ne_some.mpr fun stride heq => ?_
    obtain ⟨hstride, hseg⟩ := matchStep_eq_some_iff.1 heq
    exact hno (.everyNth _) ⟨stride, ⟨hstride, rfl⟩, hseg⟩
  · refine Option.eq_none_iff_forall_ne_some.mpr fun parts heq => ?_
    obtain ⟨start, stop, stride⟩ := parts
    obtain ⟨hstart, hstop, hstride, hseg⟩ := matchRangeStep_eq_some_iff.1 heq
    exact hno (.rangeNth _ _ _) ⟨start, stop, stride, ⟨hstart, rfl⟩, ⟨hstop, rfl⟩, ⟨hstride, rfl⟩, hseg⟩
  · refine Option.eq_none_iff_forall_ne_some.mpr fun parts heq => ?_
    obtain ⟨start, stop⟩ := parts
    obtain ⟨hstart, hstop, hseg⟩ := matchRange_eq_some_iff.1 heq
    exact hno (.range _ _) ⟨start, stop, ⟨hstart, rfl⟩, ⟨hstop, rfl⟩, hseg⟩

/-! ## What the parser makes of a segment -/

/-- The integer that `Number` makes of a numeral of `n`; none if that is infinite. -/
def double (n : Nat) : Option ℤ := integerOf (toDouble n)

theorem double_cases (n : Nat) :
    double n = none ∧ 2 ^ 53 ≤ n ∨ ∃ m : Nat, double n = some (m : ℤ) ∧ (m = n ∨ 2 ^ 53 ≤ n ∧ 2 ^ 53 ≤ m) := by
  rcases Nat.lt_or_ge n (2 ^ 53) with hlt | hge
  · exact .inr ⟨n, by rw [double, toDouble_natCast_of_lt hlt, integerOf_natCast], .inl rfl⟩
  · rcases toDouble_natCast_of_le hge with hinfinite | ⟨m, hm, heq⟩
    · exact .inl ⟨by rw [double, hinfinite]; rfl, hge⟩
    · exact .inr ⟨m, by rw [double, heq, integerOf_natCast], .inr ⟨hge, hm⟩⟩

theorem double_of_lt (h : n < 2 ^ 53) : double n = some (n : ℤ) := by
  rw [double, toDouble_natCast_of_lt h, integerOf_natCast]

theorem not_isJsSpace_of_isDigit {c : Char} (h : c.isDigit = true) :
    isJsSpace c = false := by
  have hbounds : 48 ≤ c.toNat ∧ c.toNat ≤ 57 := by
    simpa [Char.isDigit, UInt32.le_iff_toNat_le] using h
  have hother : ∀ k ∈ [32, 160, 5760, 8232, 8233, 8239, 8287, 12288, 65279], c.toNat ≠ k := by
    intro k hk
    simp only [List.mem_cons, List.not_mem_nil, or_false] at hk
    omega
  simp [isJsSpace, UInt32.le_iff_toNat_le, ← UInt32.toNat_inj] at hother ⊢
  omega

variable {text : List Char}

theorem trim_numeral (h : isNumeral text = true) : trim text = text := by
  have hspace : ∀ c ∈ text, isJsSpace c = false := fun c hc =>
    not_isJsSpace_of_isDigit ((isNumeral_iff.mp h).2 c hc)
  have hkeep : ∀ l : List Char, (∀ c ∈ l, isJsSpace c = false) → l.dropWhile isJsSpace = l := by
    intro l hl
    cases l with
    | nil => rfl
    | cons c rest => rw [List.dropWhile_cons, hl c (.head _)]; rfl
  rw [trim, hkeep text hspace, hkeep text.reverse fun c hc => hspace c (List.mem_reverse.mp hc), List.reverse_reverse]

theorem toNumber_numeral (h : isNumeral text = true) :
    integerOf (toNumber text) = double (decimalValue text) := by
  rw [toNumber, trim_numeral h, numberOf_numeral h, double]

theorem Names.toNumber (h : Names text n) : integerOf (toNumber text) = double n := by
  obtain ⟨hnumeral, rfl⟩ := h
  exact toNumber_numeral hnumeral

/-- The parser refuses the segment: a stride that is zero, a range that ends before it begins, a number too great for a
double, or what `Number` makes no integer of. -/
def Refused (segment : List Char) : Prop :=
  match tokenOf segment with
  | some .every => False
  | some (.everyNth n) => n = 0 ∨ double n = none
  | some (.rangeNth a b n) => n = 0 ∨ double a = none ∨ double b = none ∨ double n = none
  | some (.range a b) => ∀ x ∈ double a, ∀ y ∈ double b, y < x
  | some (.literal n) => double n = none
  | none => integerOf (toNumber segment) = none

/-- The segment is outside the grammar where the parser does not look: a number outside the bounds of the field, a range
with a stride that ends before it begins, or no numeral where `Number` makes an integer of it. -/
def Loose (field : CronField) (segment : List Char) : Prop :=
  match tokenOf segment with
  | some .every | some (.everyNth _) => False
  | some (.rangeNth a b _) => ¬(field.min ≤ a ∧ a ≤ b ∧ b ≤ field.top)
  | some (.range a b) => ¬(field.min ≤ a ∧ b ≤ field.top)
  | some (.literal n) => ¬(field.min ≤ n ∧ n ≤ field.top)
  | none => integerOf (toNumber segment) ≠ none

section Parsed

variable {min : ℤ} {normalize : ℤ → ℤ} {segment : List Char}

theorem double_nonneg {z : ℤ} (h : double n = some z) : 0 ≤ z ∧ (z ≤ 0 ↔ n = 0) := by
  rcases double_cases n with ⟨hnone, -⟩ | ⟨m, hm, hcase⟩
  · rw [hnone] at h; cases h
  · cases hm.symm.trans h
    omega

/-! The matcher of a text, by the token that it is read as. -/

theorem parseSegment_every (h : tokenOf segment = some .every) :
    parseSegment min normalize segment = .ok fun _ => true :=
  if_pos (spells_of_tokenOf h)

theorem parseSegment_everyNth {n : Nat} (h : tokenOf segment = some (.everyNth n)) :
    parseSegment min normalize segment = match double n with
      | some stride => if stride ≤ 0 then .error (.step segment) else .ok (stepMatcher min normalize stride)
      | none => .error (.step segment) := by
  obtain ⟨hstar, stride, hstride, hstep⟩ := (spells_of_tokenOf h).everyNth_read
  rw [parseSegment, if_neg hstar, hstep, ← hstride.toNumber]

theorem parseSegment_rangeNth {a b n : Nat} (h : tokenOf segment = some (.rangeNth a b n)) :
    parseSegment min normalize segment = match double a, double b, double n with
      | some start, some stop, some stride =>
        if stride ≤ 0 then .error (.rangeStep segment) else .ok (rangeStepMatcher normalize start stop stride)
      | _, _, _ => .error (.rangeStep segment) := by
  obtain ⟨hstar, hstep, start, stop, stride, hstart, hstop, hstride, hrangeStep⟩ := (spells_of_tokenOf h).rangeNth_read
  rw [parseSegment, if_neg hstar, hstep, hrangeStep, ← hstart.toNumber, ← hstop.toNumber, ← hstride.toNumber]

theorem parseSegment_range {a b : Nat} (h : tokenOf segment = some (.range a b)) :
    parseSegment min normalize segment = match double a, double b with
      | some start, some stop =>
        if stop < start then .error (.range segment) else .ok (rangeMatcher normalize start stop)
      | _, _ => .error (.range segment) := by
  obtain ⟨hstar, hstep, hrangeStep, start, stop, hstart, hstop, hrange⟩ := (spells_of_tokenOf h).range_read
  rw [parseSegment, if_neg hstar, hstep, hrangeStep, hrange, ← hstart.toNumber, ← hstop.toNumber]

theorem parseSegment_literal {n : Nat} (h : tokenOf segment = some (.literal n)) :
    parseSegment min normalize segment = match double n with
      | some literal => .ok (literalMatcher normalize literal)
      | none => .error (.fieldToken segment) := by
  have hspells := spells_of_tokenOf h
  obtain ⟨hstar, hstep, hrangeStep, hrange⟩ := hspells.literal_read
  rw [parseSegment, if_neg hstar, hstep, hrangeStep, hrange, ← Names.toNumber hspells]

theorem parseSegment_none (h : tokenOf segment = none) :
    parseSegment min normalize segment = match integerOf (toNumber segment) with
      | some literal => .ok (literalMatcher normalize literal)
      | none => .error (.fieldToken segment) := by
  obtain ⟨hstar, hstep, hrangeStep, hrange⟩ := read_of_tokenOf_eq_none h
  rw [parseSegment, if_neg hstar, hstep, hrangeStep, hrange]

theorem parseSegment_isOk_iff : (∃ matcher, parseSegment min normalize segment = .ok matcher) ↔ ¬Refused segment := by
  cases htoken : tokenOf segment with
  | none =>
    have hrefused : Refused segment ↔ integerOf (toNumber segment) = none := by rw [Refused, htoken]
    rw [parseSegment_none htoken, hrefused]
    cases integerOf (toNumber segment) with
    | none => simp
    | some literal => simp
  | some token =>
    cases token with
    | every =>
      have hrefused : Refused segment ↔ False := by rw [Refused, htoken]
      rw [parseSegment_every htoken, hrefused]
      simp
    | everyNth n =>
      have hrefused : Refused segment ↔ n = 0 ∨ double n = none := by rw [Refused, htoken]
      rw [parseSegment_everyNth htoken, hrefused]
      cases hn : double n with
      | none => simp
      | some stride =>
        have hzero := (double_nonneg hn).2
        by_cases hstride : stride ≤ 0
        · simp [hstride, hzero.mp hstride]
        · simp [hstride, mt hzero.mpr hstride]
    | literal n =>
      have hrefused : Refused segment ↔ double n = none := by rw [Refused, htoken]
      rw [parseSegment_literal htoken, hrefused]
      cases double n with
      | none => simp
      | some literal => simp
    | range a b =>
      have hrefused : Refused segment ↔ ∀ x ∈ double a, ∀ y ∈ double b, y < x := by rw [Refused, htoken]
      rw [parseSegment_range htoken, hrefused]
      cases double a with
      | none => simp
      | some start =>
        cases double b with
        | none => simp
        | some stop =>
          by_cases hrange : stop < start
          · simp [hrange]
          · simp [hrange]
    | rangeNth a b n =>
      have hrefused : Refused segment ↔ n = 0 ∨ double a = none ∨ double b = none ∨ double n = none := by
        rw [Refused, htoken]
      rw [parseSegment_rangeNth htoken, hrefused]
      cases double a with
      | none => simp
      | some start =>
        cases double b with
        | none => simp
        | some stop =>
          cases hn : double n with
          | none => simp
          | some stride =>
            have hzero := (double_nonneg hn).2
            by_cases hstride : stride ≤ 0
            · simp [hstride, hzero.mp hstride]
            · simp [hstride, mt hzero.mpr hstride]

end Parsed

end NousCore.Scheduler
