import CantoScan.Json.Numeral
import CantoScan.Json.Quoted

/-! Values of a type known in advance, and the fault when something else stands in their place. -/

namespace CantoScan.Json.Reader

/-- Tells what stands here in place of what was expected. Lists and objects are not read. -/
def mismatch {α : Type} (expected : String) : Reader α := do
  match ← peek with
  | none => fail .endOfValue
  | some c =>
    discard next
    if c = 'n' then
      word ['u', 'l', 'l']
      fail (.wrongType .null expected)
    else if c = 't' then
      word ['r', 'u', 'e']
      fail (.wrongType (.boolean true) expected)
    else if c = 'f' then
      word ['a', 'l', 's', 'e']
      fail (.wrongType (.boolean false) expected)
    else if startsNumber c then fail (.wrongType (.number (← number c)) expected)
    else if c = '"' then fail (.wrongType (.string (← string)) expected)
    else if c = '[' then fail (.wrongType .sequence expected)
    else if c = '{' then fail (.wrongType .map expected)
    else fail .expectedValue

def text : Reader String := do
  match ← peek with
  | some '"' =>
    discard next
    string
  | _ => mismatch "a string"

def unit : Reader Unit := do
  match ← peek with
  | some 'n' =>
    discard next
    word ['u', 'l', 'l']
  | _ => mismatch "unit"

end CantoScan.Json.Reader
