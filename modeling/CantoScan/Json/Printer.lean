import CantoScan.Json.Value

/-! JSON text. The indented form puts every item and every member on a line of its own, two blanks
further in for each bracket; an empty list or object stays on one line. -/

namespace CantoScan.Json

def hexDigit (n : Nat) : Char := Nat.digitChar n

/-- One character between the quotation marks. Only what has to be escaped is. -/
def escapeChar (c : Char) : List Char :=
  if c = '"' ∨ c = '\\' then ['\\', c]
  else if c = '\x08' then ['\\', 'b']
  else if c = '\x0C' then ['\\', 'f']
  else if c = '\n' then ['\\', 'n']
  else if c = '\r' then ['\\', 'r']
  else if c = '\t' then ['\\', 't']
  else if c.toNat < 0x20 then ['\\', 'u', '0', '0', hexDigit (c.toNat / 16), hexDigit (c.toNat % 16)]
  else [c]

def quote (text : String) : String := String.ofList ('"' :: text.toList.flatMap escapeChar ++ ['"'])

def Number.text : Number → String
  | .integer value => toString value
  | .floating value => value.text

def newline (depth : Nat) : String := "\n".pushn ' ' (2 * depth)

/-- Lines between two brackets, set in by one step more than the brackets. -/
def bracketed (first last : String) (depth : Nat) (lines : List String) : String :=
  if lines.isEmpty then first ++ last
  else
    let inner := newline (depth + 1)
    first ++ inner ++ ("," ++ inner).intercalate lines ++ newline depth ++ last

namespace Value

mutual

def indented (depth : Nat) : Value → String
  | .null => "null"
  | .boolean value => toString value
  | .number value => value.text
  | .string value => quote value
  | .list items => bracketed "[" "]" depth (indentedItems (depth + 1) items)
  | .object members => bracketed "\x7b" "\x7d" depth (indentedMembers (depth + 1) members)

def indentedItems (depth : Nat) : List Value → List String
  | [] => []
  | item :: items => item.indented depth :: indentedItems depth items

def indentedMembers (depth : Nat) : List (String × Value) → List String
  | [] => []
  | (key, value) :: members =>
    (quote key ++ ": " ++ value.indented depth) :: indentedMembers depth members

end

def pretty (value : Value) : String := value.indented 0

end Value

end CantoScan.Json
