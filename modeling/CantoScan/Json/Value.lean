import CantoScan.Json.Numeral
import CantoScan.Json.Quoted

/-! JSON values, and reading a text that holds one value. -/

namespace CantoScan.Json

inductive Value where
  | null
  | boolean (value : Bool)
  | number (value : Number)
  | string (value : String)
  | list (items : List Value)
  | object (members : List (String × Value))

namespace Value

/-- The value of a key. Of several members with one key the last counts. -/
def get? (key : String) : Value → Option Value
  | .object members => members.reverse.lookup key
  | _ => none

def found : Value → Found
  | .null => .null
  | .boolean value => .boolean value
  | .number value => .number value
  | .string value => .string value
  | .list _ => .sequence
  | .object _ => .map

end Value

namespace Reader

def member {α : Type} (value : Reader α) : Reader (String × α) := do
  let name ← key
  colon
  pure (name, ← value)

/-- A value with at most `depth` brackets open at once. -/
def value (depth : Nat) : Reader Value := do
  match ← peek with
  | none => fail .endOfValue
  | some c =>
    discard next
    if c = 'n' then
      word ['u', 'l', 'l']
      pure .null
    else if c = 't' then
      word ['r', 'u', 'e']
      pure (.boolean true)
    else if c = 'f' then
      word ['a', 'l', 's', 'e']
      pure (.boolean false)
    else if c = '"' then .string <$> string
    else if startsNumber c then .number <$> number c
    else match depth with
      | 0 => if c = '[' ∨ c = '{' then fail .nestedTooDeep else fail .expectedValue
      | depth + 1 =>
        if c = '[' then .list <$> items (value depth)
        else if c = '{' then
          let found ← enclosed .object (fun found => found.push <$> member (value depth)) #[]
          pure (.object found.toList)
        else fail .expectedValue

def endOfText : Reader Unit := do
  match ← peek with
  | none => pure ()
  | some _ => fail .trailingCharacters

def document {α : Type} (body : Reader α) : Reader α := do
  let value ← body
  endOfText
  pure value

def read {α : Type} (body : Reader α) (text : String) : Except Fault α :=
  (document body).run text.toList |>.map (·.1)

end Reader

def maxDepth : Nat := 127

def parse (text : String) : Except Fault Value := (Reader.value maxDepth).read text

end CantoScan.Json
