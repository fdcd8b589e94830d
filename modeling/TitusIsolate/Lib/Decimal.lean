import Mathlib.Algebra.Ring.Int.Defs
import Mathlib.Algebra.Ring.Nat

/-!
# Decimal numbers

A decimal number is a sign, the digits of a coefficient and a power of ten. Numbers of one
value may differ in the power: `2` and `2.000` are two decimals.

The text shows the power. It is the sign and the digits alone exactly when the power is
zero; else it has a point or an exponent.
-/

/-- A sign, a coefficient and a power of ten. -/
structure Decimal where
  negative : Bool
  coefficient : Nat
  exponent : Int
  deriving DecidableEq, Repr

namespace Decimal

/-- The digits of the coefficient. -/
def digits (d : Decimal) : List Char := Nat.toDigits 10 d.coefficient

/-- The sign as it is written. -/
def sign (d : Decimal) : List Char := if d.negative then ['-'] else []

/-- The number of digits before the point, were the number written out. -/
def leftDigits (d : Decimal) : Int := d.exponent + d.digits.length

/-- Where the point is put. Long numbers are written with one digit before it. -/
def dotPlace (d : Decimal) : Int :=
  if d.exponent ≤ 0 ∧ d.leftDigits > -6 then d.leftDigits else 1

/-- The digits before the point, and what follows them. -/
def parts (d : Decimal) : List Char × List Char :=
  if d.dotPlace ≤ 0 then
    (['0'], '.' :: (List.replicate (-d.dotPlace).toNat '0' ++ d.digits))
  else if d.dotPlace ≥ d.digits.length then
    (d.digits ++ List.replicate (d.dotPlace - d.digits.length).toNat '0', [])
  else (d.digits.take d.dotPlace.toNat, '.' :: d.digits.drop d.dotPlace.toNat)

/-- The exponent as it is written, if there is one. -/
def exponentPart (d : Decimal) : List Char :=
  let e := d.leftDigits - d.dotPlace
  if e = 0 then []
  else 'E' :: (if e < 0 then '-' else '+') :: Nat.toDigits 10 e.natAbs

/-- The number in scientific notation. -/
def str (d : Decimal) : List Char := d.sign ++ d.parts.1 ++ d.parts.2 ++ d.exponentPart

/-- The number without its fraction. -/
def toInt (d : Decimal) : Int :=
  let n : Nat :=
    if d.exponent ≥ 0 then d.coefficient * 10 ^ d.exponent.toNat
    else d.coefficient / 10 ^ (-d.exponent).toNat
  if d.negative then -(n : Int) else n

example : (Decimal.mk false 2000 (-3)).str = "2.000".toList := by decide

example : (Decimal.mk true 25 2).str = "-2.5E+3".toList := by decide

example : (Decimal.mk false 5 (-7)).str = "5E-7".toList := by decide

/-! ## Whole numbers -/

variable {d : Decimal}

theorem digits_length_pos (d : Decimal) : 0 < d.digits.length :=
  List.length_pos_iff.mpr Nat.toDigits_ne_nil

theorem dotPlace_of_exponent_zero (h : d.exponent = 0) : d.dotPlace = d.digits.length := by
  unfold dotPlace leftDigits
  rw [h]
  simp
  omega

/-- A decimal whose power is zero is written as its digits. -/
theorem str_of_exponent_zero (h : d.exponent = 0) : d.str = d.sign ++ d.digits := by
  have hpos := d.digits_length_pos
  have hdot := dotPlace_of_exponent_zero h
  have hparts : d.parts = (d.digits, []) := by
    unfold parts
    rw [hdot, if_neg (by omega), if_pos (Int.le_refl _)]
    simp
  have hexponent : d.exponentPart = [] := by
    unfold exponentPart leftDigits
    rw [hdot, h]
    simp
  unfold str
  rw [hparts, hexponent, List.append_nil, List.append_nil]

theorem toInt_of_exponent_zero (h : d.exponent = 0) :
    d.toInt = if d.negative then -(d.coefficient : Int) else d.coefficient := by
  unfold toInt
  rw [h]
  simp

/-- Any other decimal has a point or an exponent. -/
theorem point_or_exponent_mem_str (h : d.exponent ≠ 0) : '.' ∈ d.str ∨ 'E' ∈ d.str := by
  by_cases hexponent : d.leftDigits = d.dotPlace
  · -- written out, and the point stands before the last digit
    have hdot : d.dotPlace < d.digits.length := by
      by_cases hle : d.exponent ≤ 0
      · rw [← hexponent]
        unfold leftDigits
        omega
      · have hone : d.dotPlace = 1 := if_neg (fun hc => hle hc.1)
        have hpos := d.digits_length_pos
        rw [hone] at hexponent
        unfold leftDigits at hexponent
        omega
    refine Or.inl ?_
    have hpoint : '.' ∈ d.parts.2 := by
      unfold parts
      split
      · simp
      · rw [if_neg (by omega)]
        simp
    unfold str
    simp [hpoint]
  · refine Or.inr ?_
    have hmem : 'E' ∈ d.exponentPart := by
      unfold exponentPart
      rw [if_neg (by omega)]
      simp
    unfold str
    simp [hmem]

end Decimal
