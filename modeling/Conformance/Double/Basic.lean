/-!
# Double-precision numbers

A magnitude is `significand * 2 ^ exponent` *units*; a unit is the least positive double, so there
are `2 ^ 1074` units in one. The significand has its full 53 binary digits unless the exponent is
zero, hence two magnitudes with the same number of units are the same. A double is a signed
magnitude, an infinity, or the one value that is no number.

Every conversion rounds an exact ratio once, to the nearest number that has at most the digits of
the format; a number half-way between two goes to the one with an even last digit.
-/

namespace Conformance

-- Powers are the core's own, also where a library of algebra is at hand: hence the priority here
-- and the exponents with their type.
attribute [local instance (high)] instPowNat

def unitsPerOne : Nat := 2 ^ (1074 : Nat)

structure Magnitude where
  significand : Nat
  exponent : Nat
  significand_lt : significand < 2 ^ (53 : Nat)
  exponent_le : exponent ≤ 2045
  full : exponent = 0 ∨ 2 ^ (52 : Nat) ≤ significand
  deriving DecidableEq

namespace Magnitude

def units (x : Magnitude) : Nat := x.significand * 2 ^ x.exponent

def zero : Magnitude := ⟨0, 0, by decide, by decide, .inl rfl⟩

instance : Inhabited Magnitude := ⟨zero⟩

/-- The binary exponent that leaves `n` units with at most 53 digits. -/
def binade (n : Nat) : Nat := n.log2 + 1 - 53

theorem div_binade_lt (n : Nat) : n / 2 ^ binade n < 2 ^ (53 : Nat) := by
  rw [Nat.div_lt_iff_lt_mul (Nat.two_pow_pos _), ← Nat.pow_add]
  have h : n.log2 + 1 ≤ 53 + binade n := by unfold binade; omega
  exact Nat.lt_of_lt_of_le Nat.lt_log2_self (Nat.pow_le_pow_right (by decide) h)

theorem binade_full (n : Nat) : binade n = 0 ∨ 2 ^ (52 : Nat) ≤ n / 2 ^ binade n := by
  by_cases h : binade n = 0
  · exact .inl h
  · refine .inr ?_
    have hn : n ≠ 0 := by rintro rfl; exact h rfl
    rw [Nat.le_div_iff_mul_le (Nat.two_pow_pos _), ← Nat.pow_add]
    exact Nat.le_trans (Nat.pow_le_pow_right (by decide) (by unfold binade at *; omega))
      (Nat.log2_self_le hn)

/-- The greatest magnitude of at most `n` units; `none` if `n` is beyond every finite one. -/
def ofUnits? (n : Nat) : Option Magnitude :=
  if h : binade n ≤ 2045 then
    some ⟨n / 2 ^ binade n, binade n, div_binade_lt n, h, binade_full n⟩
  else none

end Magnitude

inductive Double where
  | nan
  | infinite (negative : Bool)
  | finite (negative : Bool) (magnitude : Magnitude)
  deriving DecidableEq, Inhabited

namespace Double

def zero : Double := finite false .zero

def isFinite : Double → Bool
  | finite _ _ => true
  | _ => false

def signedUnits (negative : Bool) (x : Magnitude) : Int :=
  if negative then -x.units else x.units

/-- Equality of numbers: the two zeros are equal, and what is no number equals nothing. -/
def eq : Double → Double → Bool
  | infinite s, infinite t => s == t
  | finite s x, finite t y => signedUnits s x == signedUnits t y
  | _, _ => false

/-- Is it a whole multiple of `n`? Only finite numbers are. -/
def isMultipleOf (n : Nat) : Double → Bool
  | finite _ x => x.units % (n * unitsPerOne) == 0
  | _ => false

def isIntegral (x : Double) : Bool := x.isMultipleOf 1

/-- Is it at least zero? Negative zero is. -/
def isNonnegative : Double → Bool
  | nan => false
  | infinite negative => !negative
  | finite negative x => !negative || x.units == 0

/-- The whole part of a finite number, toward zero. -/
def toInt? : Double → Option Int
  | finite negative x =>
    let whole : Int := x.units / unitsPerOne
    some (if negative then -whole else whole)
  | _ => none

/-- The greatest double of at most `n` units with the given sign, or that infinity. -/
def ofUnits (negative : Bool) (n : Nat) : Double :=
  match Magnitude.ofUnits? n with
  | some x => finite negative x
  | none => infinite negative

/-! ## Interchange format -/

/-- The number with the given 64 bits: sign, eleven exponent bits, 52 fraction bits. -/
def ofBits (bits : UInt64) : Double :=
  let negative := decide (2 ^ (63 : Nat) ≤ bits.toNat)
  let biased := bits.toNat / 2 ^ (52 : Nat) % 2 ^ (11 : Nat)
  let fraction := bits.toNat % 2 ^ (52 : Nat)
  if biased = 2047 then
    if fraction = 0 then infinite negative else nan
  else if biased = 0 then ofUnits negative fraction
  else ofUnits negative ((2 ^ (52 : Nat) + fraction) * 2 ^ (biased - 1))

def signBit (negative : Bool) : Nat := if negative then 2 ^ (63 : Nat) else 0

/-- The 64 bits of a number; `nan` has the quiet pattern without a sign. -/
def toBits : Double → UInt64
  | nan => .ofNat (2047 * 2 ^ (52 : Nat) + 2 ^ (51 : Nat))
  | infinite negative => .ofNat (signBit negative + 2047 * 2 ^ (52 : Nat))
  | finite negative x =>
    -- a full significand carries its leading digit into the exponent bits
    .ofNat (signBit negative + x.exponent * 2 ^ (52 : Nat) + x.significand)

end Double

/-! ## Rounding -/

/-- The natural number nearest to `num / den`; a half goes to the even one. -/
def roundDiv (num den : Nat) : Nat :=
  let low := num / den
  let twice := 2 * (num % den)
  if twice < den then low
  else if den < twice then low + 1
  else low + low % 2

/-- A binary format inside the doubles: its digits, and the exponent (in units) of its least
positive number. -/
structure BinaryFormat where
  digits : Nat
  least : Nat

namespace BinaryFormat

def double : BinaryFormat := ⟨53, 0⟩

def single : BinaryFormat := ⟨24, 925⟩

/-- The exponent of the last digit that the format keeps of a number of `n` whole units. -/
def lastDigit (f : BinaryFormat) (n : Nat) : Nat := max f.least (n.log2 + 1 - f.digits)

/-- `num / den` units rounded to the format, as if its exponents had no upper end. -/
def round (f : BinaryFormat) (num den : Nat) : Nat :=
  let e := f.lastDigit (num / den)
  roundDiv num (den * 2 ^ e) * 2 ^ e

end BinaryFormat

namespace Double

/-- The double nearest to `num / den` ones. -/
def ofRatio (negative : Bool) (num den : Nat) : Double :=
  ofUnits negative (BinaryFormat.double.round (num * unitsPerOne) den)

/-- The double nearest to an integer. -/
def ofInt (n : Int) : Double := ofRatio (n < 0) n.natAbs 1

/-- Rounded to single precision; past its greatest number lies infinity. -/
def toSingle : Double → Double
  | finite negative x =>
    let units := BinaryFormat.single.round x.units 1
    if units < 2 ^ (128 : Nat) * unitsPerOne then ofUnits negative units else infinite negative
  | x => x

def twice : Double → Double
  | finite negative x => ofUnits negative (BinaryFormat.double.round (2 * x.units) 1)
  | x => x

end Double

end Conformance
