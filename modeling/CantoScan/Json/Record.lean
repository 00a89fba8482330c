import CantoScan.Json.Expected
import CantoScan.Json.Skip

/-! Records with named fields. A record is an object with its fields in any order, or a list with its
fields in their own order. -/

namespace CantoScan.Json.Reader

variable {α β σ : Type}

/-- The members of an object, behind the opening brace. Each key selects the reader of its value, or is
refused before its colon is read. -/
def members (select : σ → String → Except Fault (Reader σ)) (state : σ) : Reader σ :=
  enclosed .object (fun state => do
    let value ← ofExcept (select state (← key))
    colon
    value) state

/-- Two parts as a list, behind the opening bracket. -/
def pair (first : Reader α) (second : Reader β) (ofNone ofOne : Fault) : Reader (α × β) := do
  match ← peek with
  | none => fail .endOfList
  | some c => if c = ']' then fail ofNone
  let left ← first
  match ← peek with
  | none => fail .endOfList
  | some c =>
    if c = ']' then fail ofOne
    else if c ≠ ',' then fail .expectedListSeparator
  discard next
  let right ← behindComma .list second
  match ← peek with
  | none => fail .endOfList
  | some c =>
    if c = ']' then
      discard next
      pure (left, right)
    else if c = ',' then
      discard next
      if (← peek) = some ']' then fail .trailingComma else fail .trailingCharacters
    else fail .trailingCharacters

def record (name : String) (asList asObject : Reader α) : Reader α := do
  match ← peek with
  | some '[' =>
    discard next
    asList
  | some '{' =>
    discard next
    asObject
  | _ => mismatch name

def once (name : String) (given : Option α) (reader : Reader β) : Except Fault (Reader β) :=
  if given.isSome then .error (.duplicateField name) else .ok reader

def required (name : String) (given : Option α) : Reader α :=
  match given with
  | some value => give value
  | none => fail (.missingField name)

def ignored (state : σ) : Reader σ := do
  skip
  pure state

end CantoScan.Json.Reader
