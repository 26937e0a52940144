import Conformance.Double.Basic

/-!
# Decimal numerals of doubles

`Decimal` is `digits * 10 ^ exponent`. `Double.ofDecimal` reads one, rounding to nearest.
`Magnitude.shortest` finds the one with the fewest digits that reads back as the magnitude, and of
those the nearest to it, an even last digit deciding a tie.
-/

namespace Conformance

attribute [local instance (high)] instPowNat

structure Decimal where
  digits : Nat
  exponent : Int
  deriving DecidableEq, Inhabited

def decimalLength (n : Nat) : Nat := (Nat.toDigits 10 n).length

namespace Decimal

def leading (d : Decimal) : Int := decimalLength d.digits - 1 + d.exponent

def ratio (d : Decimal) : Nat × Nat :=
  (d.digits * 10 ^ d.exponent.toNat, 10 ^ (-d.exponent).toNat)

/-- Without the zeros that end the digits, at most `n` of them. -/
def trim : Nat → Decimal → Decimal
  | 0, d => d
  | n + 1, d => if d.digits % 10 = 0 then trim n ⟨d.digits / 10, d.exponent + 1⟩ else d

end Decimal

namespace Double

/-- The double nearest to a decimal. A numeral from `10 ^ 310` on is infinite and one below
`10 ^ -330` is zero, whatever its digits. -/
def ofDecimal (negative : Bool) (d : Decimal) : Double :=
  if d.digits = 0 ∨ d.leading < -330 then finite negative .zero
  else if 310 ≤ d.leading then infinite negative
  else ofRatio negative d.ratio.1 d.ratio.2

end Double

namespace Magnitude

/-- The power of ten of the first digit of a positive magnitude. Below one it is read off the
inverse; no such magnitude is a power of ten itself. -/
def leading (x : Magnitude) : Int :=
  if unitsPerOne ≤ x.units then decimalLength (x.units / unitsPerOne) - 1
  else -decimalLength (unitsPerOne / x.units)

def truncated (x : Magnitude) (exponent : Int) : Decimal :=
  ⟨x.units * 10 ^ (-exponent).toNat / (unitsPerOne * 10 ^ exponent.toNat), exponent⟩

def readsBack (x : Magnitude) (d : Decimal) : Bool :=
  decide (Double.ofDecimal false d = .finite false x)

/-- Is `x` nearer to the next numeral than to `d`, or equally near and `d` odd? -/
def nextIsNearer (x : Magnitude) (d : Decimal) : Bool :=
  let exact := 2 * (x.units * 10 ^ (-d.exponent).toNat)
  let middle := (2 * d.digits + 1) * (unitsPerOne * 10 ^ d.exponent.toNat)
  middle < exact || (middle == exact && d.digits % 2 == 1)

/-- The numeral on the grid of `10 ^ exponent` that reads as `x` and is nearest to it. -/
def onGrid? (x : Magnitude) (exponent : Int) : Option Decimal :=
  let low := x.truncated exponent
  let high : Decimal := ⟨low.digits + 1, exponent⟩
  if x.readsBack low then
    if x.nextIsNearer low && x.readsBack high then some high else some low
  else if x.readsBack high then some high
  else none

def exact (x : Magnitude) : Decimal := ⟨x.units * 5 ^ (1074 : Nat), -1074⟩

/-- The first grid, from the given exponent down, that has a numeral for `x`. -/
def shortestFrom (x : Magnitude) : Nat → Int → Decimal
  | 0, _ => x.exact
  | n + 1, exponent => (x.onGrid? exponent).getD (x.shortestFrom n (exponent - 1))

/-- The shortest numeral that reads as the positive magnitude `x`. Seventeen digits are always
enough. -/
def shortest (x : Magnitude) : Decimal := (x.shortestFrom 17 x.leading).trim 1

end Magnitude

end Conformance
