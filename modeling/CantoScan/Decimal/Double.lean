/-! Numbers with 53 binary places, in exact integer arithmetic. Every operation rounds its exact
result once, a half going to the even neighbour, and tells when the result is too large. -/

namespace CantoScan.Decimal

def roundQuotient (numerator denominator : Nat) : Nat :=
  let floor := numerator / denominator
  let twice := 2 * (numerator % denominator)
  if twice < denominator ∨ (twice = denominator ∧ floor % 2 = 0) then floor else floor + 1

def scale (numerator denominator : Nat) (exponent : Int) : Nat × Nat :=
  (numerator * Nat.pow 2 (-exponent).toNat, denominator * Nat.pow 2 exponent.toNat)

/-- The number `mantissa * 2 ^ exponent`. -/
structure Magnitude where
  mantissa : Nat
  exponent : Int
  deriving DecidableEq

namespace Magnitude

def zero : Magnitude := ⟨0, -1074⟩

/-- Mantissas stay below this number; those of all but the smallest values reach half of it. -/
def mantissaLimit : Nat := Nat.pow 2 53

/-- The exponent that leaves 53 binary places before the point, or as many as there are. -/
def exponentOf (numerator denominator : Nat) : Int :=
  let low : Int := (numerator.log2 : Int) - denominator.log2 - 53
  let scaled := scale numerator denominator low
  max (-1074) (if scaled.1 / scaled.2 < mantissaLimit then low else low + 1)

def round? (numerator denominator : Nat) : Option Magnitude :=
  if numerator = 0 then some zero
  else
    let exponent := exponentOf numerator denominator
    let scaled := scale numerator denominator exponent
    let mantissa := roundQuotient scaled.1 scaled.2
    let rounded : Magnitude :=
      if mantissa = mantissaLimit then ⟨mantissaLimit / 2, exponent + 1⟩ else ⟨mantissa, exponent⟩
    if rounded.exponent ≤ 971 then some rounded else none

def ofNat? (n : Nat) : Option Magnitude := round? n 1

def fraction (value : Magnitude) : Nat × Nat :=
  (value.mantissa * Nat.pow 2 value.exponent.toNat, Nat.pow 2 (-value.exponent).toNat)

def times? (first second : Magnitude) : Option Magnitude :=
  round? (first.fraction.1 * second.fraction.1) (first.fraction.2 * second.fraction.2)

def over? (first second : Magnitude) : Option Magnitude :=
  round? (first.fraction.1 * second.fraction.2) (first.fraction.2 * second.fraction.1)

/-- The largest power of ten that is a value by itself. -/
def maxPower : Nat := 308

def tenTo? (exponent : Nat) : Option Magnitude := ofNat? (Nat.pow 10 exponent)

/-- Divides by a power of ten, at most `maxPower` places at a time. -/
def shiftRight? (value : Magnitude) (places : Nat) : Option Magnitude :=
  if value.mantissa = 0 then some value
  else if places ≤ maxPower then do value.over? (← tenTo? places)
  else do (← value.over? (← tenTo? maxPower)).shiftRight? (places - maxPower)
termination_by places
decreasing_by
  simp only [maxPower] at *
  omega

def shiftLeft? (value : Magnitude) (places : Nat) : Option Magnitude :=
  if value.mantissa = 0 then some value
  else if places ≤ maxPower then do value.times? (← tenTo? places)
  else none

/-- Digits before a decimal point that moves by `exponent` places. Rounds after each step, so the
result may differ from the nearest value in the last place. -/
def ofDecimal? (digits : Nat) (exponent : Int) : Option Magnitude := do
  let value ← ofNat? digits
  if exponent < 0 then value.shiftRight? (-exponent).toNat else value.shiftLeft? exponent.toNat

end Magnitude

structure Double where
  negative : Bool
  magnitude : Magnitude
  deriving DecidableEq

end CantoScan.Decimal
