import Mathlib.Data.Rat.Floor

/-!
# Numbers that may fail to be numbers

* `JsNumber` : a rational number, an infinity, or nothing that is a number;
* `JsNumber.add`, `ceil`, `max0`, `perThousand` : arithmetic, in which what is not a number stays so;
* `lt_trans`, `lt_or_lt` : numbers are ordered, what is not a number is below and above nothing.

Arithmetic is exact; rounding to the precision of a float is left out.
-/

namespace NousCore

inductive JsNumber where
  | finite (q : ℚ)
  | infinite (positive : Bool)
  | nan
  deriving DecidableEq

namespace JsNumber

def ofNat (n : Nat) : JsNumber := .finite n

def add : JsNumber → JsNumber → JsNumber
  | .finite p, .finite q => .finite (p + q)
  | .finite _, .infinite b => .infinite b
  | .infinite b, .finite _ => .infinite b
  | .infinite b, .infinite b' => if b = b' then .infinite b else .nan
  | .nan, _ | _, .nan => .nan

def map (f : ℚ → ℚ) : JsNumber → JsNumber
  | .finite q => .finite (f q)
  | .infinite b => .infinite b
  | .nan => .nan

def ceil (x : JsNumber) : JsNumber := x.map fun q => ⌈q⌉

def perThousand (x : JsNumber) : JsNumber := x.map (· / 1000)

/-- `Math.max(0, x)` -/
def max0 : JsNumber → JsNumber
  | .finite q => .finite (max 0 q)
  | .infinite true => .infinite true
  | .infinite false => .finite 0
  | .nan => .nan

/-- `x <= y` -/
def le : JsNumber → JsNumber → Bool
  | .finite p, .finite q => p ≤ q
  | .infinite false, .finite _ | .finite _, .infinite true => true
  | .infinite b, .infinite b' => !b || b'
  | _, _ => false

/-- `x < y` -/
def lt : JsNumber → JsNumber → Bool
  | .finite p, .finite q => p < q
  | .infinite false, .finite _ | .finite _, .infinite true => true
  | .infinite b, .infinite b' => !b && b'
  | _, _ => false

/-- An integer that is not negative. -/
def isCount : JsNumber → Bool
  | .finite q => 0 ≤ q ∧ q.den = 1
  | _ => false

theorem isCount_iff {x : JsNumber} : x.isCount = true ↔ ∃ n : Nat, x = ofNat n := by
  unfold isCount ofNat
  cases x with
  | finite q =>
    simp only [decide_eq_true_eq, finite.injEq]
    constructor
    · rintro ⟨hq, hden⟩
      have hnum : 0 ≤ q.num := Rat.num_nonneg.mpr hq
      refine ⟨q.num.toNat, ?_⟩
      rw [← Int.cast_natCast, Int.toNat_of_nonneg hnum, Rat.den_eq_one_iff q |>.mp hden]
    · rintro ⟨n, rfl⟩
      exact ⟨Nat.cast_nonneg n, Rat.den_natCast n⟩
  | infinite | nan => simp

@[simp] theorem isCount_ofNat (n : Nat) : (ofNat n).isCount = true := isCount_iff.2 ⟨n, rfl⟩

@[simp] theorem le_ofNat {m n : Nat} : (ofNat m).le (ofNat n) = true ↔ m ≤ n := by
  show decide ((m : ℚ) ≤ n) = true ↔ m ≤ n
  rw [decide_eq_true_eq, Nat.cast_le]

@[simp] theorem lt_ofNat {m n : Nat} : (ofNat m).lt (ofNat n) = true ↔ m < n := by
  show decide ((m : ℚ) < n) = true ↔ m < n
  rw [decide_eq_true_eq, Nat.cast_lt]

@[simp] theorem ofNat_add (m n : Nat) : (ofNat m).add (ofNat n) = ofNat (m + n) := by
  show finite ((m : ℚ) + n) = finite ((m + n : Nat) : ℚ)
  rw [Nat.cast_add]

/-! ## The order -/

/-- Where a number stands; what is not a number stands nowhere. -/
def place : JsNumber → Option (WithBot (WithTop ℚ))
  | .finite q => some ((q : WithTop ℚ) : WithBot (WithTop ℚ))
  | .infinite true => some ((⊤ : WithTop ℚ) : WithBot (WithTop ℚ))
  | .infinite false => some ⊥
  | .nan => none

variable {x y z : JsNumber}

theorem lt_iff : x.lt y = true ↔ ∃ p q, x.place = some p ∧ y.place = some q ∧ p < q := by
  rcases x with p | (_ | _) | _ <;> rcases y with q | (_ | _) | _ <;> simp [lt, place]
  exact WithBot.coe_lt_coe.mpr (WithTop.coe_lt_top p)

theorem le_iff : x.le y = true ↔ ∃ p q, x.place = some p ∧ y.place = some q ∧ p ≤ q := by
  rcases x with p | (_ | _) | _ <;> rcases y with q | (_ | _) | _ <;> simp [le, place]

theorem lt_irrefl (x : JsNumber) : x.lt x = false := by
  rw [Bool.eq_false_iff, Ne, lt_iff]
  rintro ⟨p, q, hp, hq, hlt⟩
  exact hlt.ne (Option.some.inj (hp.symm.trans hq))

theorem ne_of_lt (h : x.lt y = true) : x ≠ y := by
  rintro rfl
  rw [lt_irrefl] at h
  cases h

theorem lt_trans (hxy : x.lt y = true) (hyz : y.lt z = true) : x.lt z = true := by
  obtain ⟨p, q, hp, hq, hpq⟩ := lt_iff.1 hxy
  obtain ⟨q', r, hq', hr, hqr⟩ := lt_iff.1 hyz
  cases hq.symm.trans hq'
  exact lt_iff.2 ⟨p, r, hp, hr, hpq.trans hqr⟩

theorem le_trans (hxy : x.le y = true) (hyz : y.le z = true) : x.le z = true := by
  obtain ⟨p, q, hp, hq, hpq⟩ := le_iff.1 hxy
  obtain ⟨q', r, hq', hr, hqr⟩ := le_iff.1 hyz
  cases hq.symm.trans hq'
  exact le_iff.2 ⟨p, r, hp, hr, hpq.trans hqr⟩

theorem lt_of_le_of_lt (hxy : x.le y = true) (hyz : y.lt z = true) : x.lt z = true := by
  obtain ⟨p, q, hp, hq, hpq⟩ := le_iff.1 hxy
  obtain ⟨q', r, hq', hr, hqr⟩ := lt_iff.1 hyz
  cases hq.symm.trans hq'
  exact lt_iff.2 ⟨p, r, hp, hr, hpq.trans_lt hqr⟩

theorem lt_of_lt_of_le (hxy : x.lt y = true) (hyz : y.le z = true) : x.lt z = true := by
  obtain ⟨p, q, hp, hq, hpq⟩ := lt_iff.1 hxy
  obtain ⟨q', r, hq', hr, hqr⟩ := le_iff.1 hyz
  cases hq.symm.trans hq'
  exact lt_iff.2 ⟨p, r, hp, hr, hpq.trans_le hqr⟩

theorem ofNat_ne_nan (n : Nat) : ofNat n ≠ .nan := nofun

theorem lt_or_lt (hne : x ≠ y) (hx : x ≠ .nan) (hy : y ≠ .nan) : x.lt y = true ∨ y.lt x = true := by
  rcases x with p | (_ | _) | _ <;> rcases y with q | (_ | _) | _ <;> simp_all [lt]

end JsNumber

end NousCore
