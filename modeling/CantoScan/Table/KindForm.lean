import CantoScan.Json.Expected
import CantoScan.Json.Value
import CantoScan.Kind

/-! Kinds in JSON: a name, or an object whose only key is the name and whose value is null. -/

namespace CantoScan.Kind
open Json

def names : List String := all.map name

def ofName (text : String) : Except Fault Kind :=
  match ofName? text with
  | some kind => .ok kind
  | none => .error (.unknownName text names)

def ofValue : Value → Except Fault Kind
  | .string text => ofName text
  | .object members =>
    match members with
    | [] => .error .notSingleKey
    | (key, value) :: others =>
      if others.all (·.1 = key) then do
        let kind ← ofName key
        match ((Value.object members).get? key).getD value with
        | .null => pure kind
        | other => throw (.wrongType other.found "unit")
      else .error .notSingleKey
  | other => .error (.wrongType other.found "string or map")

open Reader

/-- The key of the object form, which cannot be left out. -/
def tag : Reader String := do
  match ← peek with
  | none => fail .endOfObject
  | some '}' => fail .expectedValue
  | _ => key

/-- The object form of a kind, behind the opening brace. -/
def taggedReader : Reader Kind := do
  let kind ← ofExcept (ofName (← tag))
  colon
  unit
  match ← peek with
  | none => fail .endOfObject
  | some c =>
    if c = '}' then
      discard next
      pure kind
    else fail .expectedValue

def reader : Reader Kind := do
  match ← peek with
  | none => fail .endOfValue
  | some c =>
    discard next
    if c = '"' then ofExcept (ofName (← string))
    else if c = '{' then taggedReader
    else fail .expectedValue

end CantoScan.Kind
