import NilFlow.Json.Basic

/-!
# The quantities that JSON numbers stand for

A number without point and exponent is an integer if it fits a word of 64 bits, unsigned or, below
zero, signed. Every other number is a double: integers too large for a word, and minus zero, which
no integer is.

The double is computed from a significand of 64 bits. Digits are taken while they fit; integer
digits that no longer fit still count as places, and fraction digits after the first that does not
fit are dropped. The significand is then multiplied or divided by one power of ten. A number too
large for a double stands for nothing.
-/

namespace NilFlow

/-- What a number stands for. -/
inductive Quantity where
  | natural (n : Nat)
  /-- The integer `-n`. -/
  | negative (n : Nat)
  | real (x : Float)

namespace Numeral

/-- The largest significand. -/
def maxWord : Nat := UInt64.size - 1

/-- Integer digits into the significand; once one does not fit, the rest only count as places. -/
def takeWhole : List Nat → Nat → Nat × Nat
  | [], s => (s, 0)
  | d :: ds, s => if 10 * s + d ≤ maxWord then takeWhole ds (10 * s + d) else (s, ds.length + 1)

/-- Fraction digits into the significand, as long as they fit, with their number. -/
def takeFraction : List Nat → Nat → Nat × Nat
  | [], s => (s, 0)
  | d :: ds, s =>
    if 10 * s + d ≤ maxWord then
      let (s, n) := takeFraction ds (10 * s + d)
      (s, n + 1)
    else (s, 0)

/-- `10 ^ k` as a double, for `k ≤ 308`. -/
def powerOfTen (k : Nat) : Float :=
  Float.ofScientific 1 false k

/-- `f · 10 ^ e`, or `none` if it is too large. Powers below `10 ^ -308` are divided out in steps,
and the budget allows the few that a double survives. -/
def scaleBy (budget : Nat) (f : Float) (e : Int) : Option Float :=
  if e.natAbs ≤ 308 then
    if 0 ≤ e then
      let g := f * powerOfTen e.natAbs
      if g.isInf then none else some g
    else some (f / powerOfTen e.natAbs)
  else if f == 0 then some f
  else if 0 ≤ e then none
  else
    match budget with
    | 0 => some 0
    | budget + 1 => scaleBy budget (f / powerOfTen 308) (e + 308)

/-- The double that a number stands for. -/
def toDouble? (n : Numeral) : Option Float :=
  let (s, dropped) := takeWhole ((Nat.toDigits 10 n.whole).map fun c => c.toNat - '0'.toNat) 0
  let (s, taken) := takeFraction n.fraction s
  let shift : Int := match n.exponent with
    | none => 0
    | some (true, e) => -(e : Int)
    | some (false, e) => e
  let e : Int := (dropped : Int) - taken + shift
  (scaleBy 4 s.toUInt64.toFloat e).map fun f => if n.negative then -f else f

/-- What a number stands for, or `none` if it is too large. -/
def quantity? (n : Numeral) : Option Quantity :=
  if n.fraction.isEmpty ∧ n.exponent.isNone then
    if ¬ n.negative ∧ n.whole ≤ maxWord then some (.natural n.whole)
    else if n.negative ∧ 0 < n.whole ∧ n.whole ≤ UInt64.size / 2 then some (.negative n.whole)
    else n.toDouble?.map .real
  else n.toDouble?.map .real

end Numeral

end NilFlow
