import CantoScan.Json.Reader

/-! JSON numbers: their form, and the value they stand for. A whole number that fits in 64 bits is
exact, every other number a double. -/

namespace CantoScan.Json

structure Numeral where
  negative : Bool
  whole : List Char
  fraction : List Char
  exponent : Option (Bool × List Char)
  deriving DecidableEq

namespace Numeral

def digitValue (c : Char) : Nat := c.toNat - '0'.toNat

def natValue (digits : List Char) : Nat := digits.foldl (fun value c => 10 * value + digitValue c) 0

def maxWhole : Nat := Nat.pow 2 64 - 1

/-- The largest distance below zero that is kept exactly. -/
def maxBelow : Nat := Nat.pow 2 63

/-- Digits taken in as long as the number fits in 64 bits, and the digits left over. -/
def accumulate (value : Nat) : List Char → Nat × List Char
  | [] => (value, [])
  | c :: digits =>
    if 10 * value + digitValue c ≤ maxWhole then accumulate (10 * value + digitValue c) digits
    else (value, c :: digits)

def isWhole (numeral : Numeral) : Bool := numeral.fraction.isEmpty && numeral.exponent.isNone

/-- The whole number, if it is one that is kept exactly. Negative zero is not. -/
def integer? (numeral : Numeral) : Option Int :=
  let value := natValue numeral.whole
  if !numeral.isWhole then none
  else if numeral.negative then
    if 0 < value ∧ value ≤ maxBelow then some (-(value : Int)) else none
  else if value ≤ maxWhole then some value else none

/-- Digits that no longer fit are dropped: those before the point still count as places, those behind
it do not. -/
def magnitude? (numeral : Numeral) : Option Decimal.Magnitude :=
  let whole := accumulate 0 numeral.whole
  let all := accumulate whole.1 numeral.fraction
  let places : Int := whole.2.length - (numeral.fraction.length - all.2.length)
  let shift : Int :=
    match numeral.exponent with
    | none => 0
    | some (negative, digits) => if negative then -(natValue digits : Int) else natValue digits
  Decimal.Magnitude.ofDecimal? all.1 (places + shift)

def value (numeral : Numeral) : Except Fault Number :=
  match numeral.integer? with
  | some n => .ok (.integer n)
  | none => match numeral.magnitude? with
    | some magnitude => .ok (.floating ⟨numeral.negative, magnitude⟩)
    | none => .error .numberOutOfRange

end Numeral

namespace Reader

def digitRun : Reader (List Char) where
  run text := .ok (text.takeWhile Char.isDigit, text.dropWhile Char.isDigit)
  run_suffix done := by
    cases done
    exact List.dropWhile_suffix _

/-- The next character, blank or not, left where it is. -/
def look : Reader (Option Char) where
  run text := .ok (text.head?, text)
  run_suffix done := by
    cases done
    exact List.suffix_rfl

/-- At least one digit. The fault of a text that ends here is a parameter. -/
def digits (atEnd : Fault) : Reader (List Char) := do
  match ← digitRun with
  | [] => if (← look).isNone then fail atEnd else fail .invalidNumber
  | c :: run => pure (c :: run)

def oneOf (choices : List Char) : Reader (Option Char) := do
  match ← look with
  | some c => if c ∈ choices then next else pure none
  | none => pure none

/-- The digits before the point, the first character being a digit or a minus sign. -/
def wholePart (atEnd : Fault) (c : Char) : Reader (List Char) := do
  match ← if c = '-' then digits atEnd else (c :: ·) <$> digitRun with
  | '0' :: _ :: _ => fail .invalidNumber
  | run => pure run

def fractionPart (atEnd : Fault) : Reader (List Char) := do
  if (← oneOf ['.']).isSome then digits atEnd else pure []

def exponentPart (atEnd : Fault) : Reader (Option (Bool × List Char)) := do
  if (← oneOf ['e', 'E']).isSome then
    let sign ← oneOf ['+', '-']
    let run ← digits atEnd
    pure (some (sign = some '-', run))
  else pure none

def startsNumber (c : Char) : Bool := c = '-' || c.isDigit

def numeral (atEnd : Fault) (c : Char) : Reader Numeral := do
  let whole ← wholePart atEnd c
  let fraction ← fractionPart atEnd
  let exponent ← exponentPart atEnd
  pure ⟨c = '-', whole, fraction, exponent⟩

def number (c : Char) : Reader Number := do
  ofExcept (← numeral .endOfValue c).value

def skipNumber (c : Char) : Reader Unit := discard (numeral .invalidNumber c)

end Reader

end CantoScan.Json
