import Mathlib
import NousCore.Lib.JsNumber

/-!
# Numbers from text

* `isNumeral`, `decimalValue` : texts of decimal digits, and the number that one names;
* `integerOf` : the integer that a number is, if it is one;
* `numberOf_numeral` : of a numeral, the double nearest to the number that it names;
* `toDouble_natCast_of_lt`, `toDouble_natCast_of_le` : the small natural numbers are doubles, and the double of a great
  one is great.
-/

namespace NousCore

/-! ## Doubles -/

/-- The nearest integer, the even one if there are two. -/
def roundHalfEven (q : ℚ) : ℤ :=
  let below := ⌊q⌋
  if q - below < 1 / 2 then below
  else if 1 / 2 < q - below then below + 1
  else if below % 2 = 0 then below else below + 1

/-- The double nearest to `q`: 53 binary digits, the last of them no smaller than `2 ^ (-1074)`. -/
def toDouble (q : ℚ) : JsNumber :=
  if q = 0 then .finite 0
  else
    let exponent := max (Int.log 2 |q| - 52) (-1074)
    let magnitude : ℚ := roundHalfEven (|q| / 2 ^ exponent) * 2 ^ exponent
    if 2 ^ 1024 ≤ magnitude then .infinite (0 < q) else .finite (if q < 0 then -magnitude else magnitude)

theorem roundHalfEven_intCast (z : ℤ) : roundHalfEven z = z := by
  unfold roundHalfEven
  dsimp only
  rw [Int.floor_intCast, sub_self, if_pos (by norm_num)]

theorem floor_le_roundHalfEven (q : ℚ) : ⌊q⌋ ≤ roundHalfEven q := by
  unfold roundHalfEven
  dsimp only
  split_ifs <;> omega

theorem toDouble_natCast_of_lt {n : Nat} (h : n < 2 ^ 53) : toDouble n = .finite n := by
  rcases Nat.eq_zero_or_pos n with rfl | hpos
  · rw [toDouble, Nat.cast_zero, if_pos rfl]
  have hne : (n : ℚ) ≠ 0 := Nat.cast_ne_zero.mpr (by omega)
  have hlog : Nat.log 2 n < 53 := Nat.log_lt_of_lt_pow (by omega) h
  obtain ⟨k, hk⟩ : ∃ k : Nat, max ((Nat.log 2 n : ℤ) - 52) (-1074) = -k := ⟨(52 - Nat.log 2 n), by omega⟩
  have hround : (roundHalfEven ((n : ℚ) / 2 ^ (-k : ℤ)) : ℚ) * 2 ^ (-k : ℤ) = n := by
    have hint : (n : ℚ) / 2 ^ (-k : ℤ) = ((n * 2 ^ k : ℤ) : ℚ) := by
      rw [zpow_neg, zpow_natCast, div_inv_eq_mul]
      push_cast
      rfl
    rw [hint, roundHalfEven_intCast, ← hint, div_mul_cancel₀ _ (zpow_ne_zero _ two_ne_zero)]
  have hsmall : ¬(2 : ℚ) ^ 1024 ≤ n := by
    rw [not_le]
    exact_mod_cast lt_trans h (Nat.pow_lt_pow_right (by omega) (by omega))
  rw [toDouble, if_neg hne]
  dsimp only
  rw [abs_of_nonneg (Nat.cast_nonneg n), Int.log_natCast, hk, hround, if_neg hsmall,
    if_neg (not_lt.mpr (Nat.cast_nonneg n))]

theorem toDouble_natCast_of_le {n : Nat} (h : 2 ^ 53 ≤ n) :
    toDouble n = .infinite true ∨ ∃ m : Nat, 2 ^ 53 ≤ m ∧ toDouble n = .finite m := by
  have hpos : 0 < n := by omega
  have hne : (n : ℚ) ≠ 0 := Nat.cast_ne_zero.mpr (by omega)
  have hlog : 53 ≤ Nat.log 2 n := Nat.le_log_of_pow_le (by omega) h
  obtain ⟨k, hk, hexp⟩ : ∃ k : Nat, k = Nat.log 2 n - 52 ∧ max ((Nat.log 2 n : ℤ) - 52) (-1074) = k :=
    ⟨_, rfl, by omega⟩
  obtain ⟨r, hr⟩ : ∃ r : ℤ, r = roundHalfEven ((n : ℚ) / 2 ^ (k : ℤ)) := ⟨_, rfl⟩
  have hfloor : (2 ^ 52 : ℤ) ≤ ⌊(n : ℚ) / 2 ^ (k : ℤ)⌋ := by
    rw [Int.le_floor, le_div_iff₀ (zpow_pos two_pos _), zpow_natCast]
    have hpow : 2 ^ 52 * 2 ^ k ≤ n := by
      rw [← pow_add, hk, Nat.add_sub_cancel' (by omega)]
      exact Nat.pow_log_le_self 2 (by omega)
    exact_mod_cast hpow
  have hle : (2 ^ 52 : ℤ) ≤ r := hr ▸ le_trans hfloor (floor_le_roundHalfEven _)
  have hnat : (r : ℚ) * 2 ^ (k : ℤ) = ((r.toNat * 2 ^ k : Nat) : ℚ) := by
    have htoNat : ((r.toNat : ℤ) : ℚ) = r := by rw [Int.toNat_of_nonneg (by omega)]
    rw [← htoNat, zpow_natCast]
    push_cast
    rfl
  have hgreat : 2 ^ 53 ≤ r.toNat * 2 ^ k := by
    calc 2 ^ 53 = 2 ^ 52 * 2 ^ 1 := by norm_num
      _ ≤ r.toNat * 2 ^ k := Nat.mul_le_mul (by omega) (Nat.pow_le_pow_right (by omega) (by omega))
  rw [toDouble, if_neg hne]
  dsimp only
  rw [abs_of_nonneg (Nat.cast_nonneg n), Int.log_natCast, hexp, ← hr, hnat]
  split_ifs with hover hneg
  · exact .inl (congrArg JsNumber.infinite (decide_eq_true (Nat.cast_pos.mpr hpos)))
  · exact absurd hneg (not_lt.mpr (Nat.cast_nonneg n))
  · exact .inr ⟨_, hgreat, rfl⟩

/-! ## Numerals -/

/-- The text matches `^\d+$`. -/
def isNumeral (text : List Char) : Bool := text ≠ [] && text.all Char.isDigit

def decimalValue (digits : List Char) : Nat := digits.foldl (fun n c => 10 * n + (c.toNat - '0'.toNat)) 0

/-- The value of a digit in a radix of up to 16. -/
def digitOf (c : Char) : Option Nat :=
  if c.isDigit then some (c.toNat - '0'.toNat)
  else if 'a' ≤ c ∧ c ≤ 'f' then some (c.toNat - 'a'.toNat + 10)
  else if 'A' ≤ c ∧ c ≤ 'F' then some (c.toNat - 'A'.toNat + 10)
  else none

/-- What stands after `0x`, `0o` or `0b`. -/
def radixNumber (radix : Nat) (digits : List Char) : JsNumber :=
  let value := digits.foldl (fun n c => n.bind fun n => (digitOf c).bind fun d =>
    if d < radix then some (radix * n + d) else none) (some 0)
  match value with
  | some n => if digits = [] then .nan else toDouble n
  | none => .nan

/-- The exponent of a decimal, after its `e`. -/
def exponentOf (text : List Char) : Option ℤ :=
  match text with
  | '+' :: digits => if isNumeral digits then some (decimalValue digits) else none
  | '-' :: digits => if isNumeral digits then some (-decimalValue digits) else none
  | digits => if isNumeral digits then some (decimalValue digits) else none

/-- What stands after the whole part of a decimal: the digits of its fraction, and the rest. -/
def fractionOf (text : List Char) : List Char × List Char :=
  match text with
  | '.' :: rest => (rest.takeWhile Char.isDigit, rest.dropWhile Char.isDigit)
  | rest => ([], rest)

/-- The number that a decimal without a sign names. -/
def magnitudeOf (text : List Char) : Option ℚ :=
  let whole := text.takeWhile Char.isDigit
  let (fraction, rest) := fractionOf (text.dropWhile Char.isDigit)
  if whole = [] ∧ fraction = [] then none
  else
    let exponent : Option ℤ := match rest with
      | [] => some 0
      | 'e' :: rest | 'E' :: rest => exponentOf rest
      | _ => none
    exponent.map fun (e : ℤ) => (decimalValue (whole ++ fraction) : ℚ) * 10 ^ (e - (fraction.length : ℤ))

def signedNumber (negative : Bool) (text : List Char) : JsNumber :=
  if text = "Infinity".toList then .infinite !negative
  else match magnitudeOf text with
    | some q => toDouble (if negative then -q else q)
    | none => .nan

/-- `Number(text)`, of a text without blanks around it. -/
def numberOf (text : List Char) : JsNumber :=
  match text with
  | [] => .finite 0
  | '0' :: 'x' :: digits | '0' :: 'X' :: digits => radixNumber 16 digits
  | '0' :: 'o' :: digits | '0' :: 'O' :: digits => radixNumber 8 digits
  | '0' :: 'b' :: digits | '0' :: 'B' :: digits => radixNumber 2 digits
  | '+' :: rest => signedNumber false rest
  | '-' :: rest => signedNumber true rest
  | _ => signedNumber false text

def integerOf : JsNumber → Option ℤ
  | .finite q => if q.den = 1 then some q.num else none
  | _ => none

@[simp] theorem integerOf_natCast (n : Nat) : integerOf (.finite n) = some (n : ℤ) := by
  rw [integerOf, if_pos (Rat.den_natCast n), Rat.num_natCast]

variable {text : List Char}

theorem isNumeral_iff : isNumeral text = true ↔ text ≠ [] ∧ ∀ c ∈ text, c.isDigit = true := by
  rw [isNumeral, Bool.and_eq_true, decide_eq_true_eq, List.all_eq_true]

section

variable (h : isNumeral text = true)

include h

theorem takeWhile_isDigit_of_isNumeral :
    text.takeWhile Char.isDigit = text :=
  List.takeWhile_eq_self_iff.mpr (isNumeral_iff.mp h).2

theorem dropWhile_isDigit_of_isNumeral :
    text.dropWhile Char.isDigit = [] :=
  List.dropWhile_eq_nil_iff.mpr (isNumeral_iff.mp h).2

theorem magnitudeOf_numeral :
    magnitudeOf text = some (decimalValue text : ℚ) := by
  unfold magnitudeOf
  rw [takeWhile_isDigit_of_isNumeral h, dropWhile_isDigit_of_isNumeral h]
  simp only [fractionOf, List.append_nil, (isNumeral_iff.mp h).1, false_and, if_false, Option.map_some,
    List.length_nil, Nat.cast_zero, sub_self, zpow_zero, mul_one]

theorem signedNumber_numeral :
    signedNumber false text = toDouble (decimalValue text) := by
  have hinfinity : text ≠ "Infinity".toList := by
    rintro rfl
    exact absurd h (by decide)
  rw [signedNumber, if_neg hinfinity, magnitudeOf_numeral h]
  rfl

theorem numberOf_numeral :
    numberOf text = toDouble (decimalValue text) := by
  have hdigits := (isNumeral_iff.mp h).2
  unfold numberOf
  split
  · exact absurd h (by decide)
  all_goals first
    | exact absurd (hdigits _ (.tail _ (.head _))) (by decide)
    | exact absurd (hdigits _ (.head _)) (by decide)
    | exact signedNumber_numeral h

end

end NousCore
