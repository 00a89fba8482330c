/-! The kinds of token. Most are bound to literals by a symbol table; the last five come out of
scanning itself and have no literal of their own. -/

namespace CantoScan

inductive Kind where
  | openParen
  | closeParen
  | openBrace
  | closeBrace
  | fullStop
  | comma
  | declare
  | assign
  | into
  | equalTo
  | lessThan
  | greaterThan
  | andWord
  | orWord
  | notWord
  | ifWord
  | ifEnd
  | thenWord
  | whileWord
  | whileEnd
  | add
  | minus
  | multiply
  | divide
  | increment
  | decrement
  | identifier
  | number
  | comment
  | invalid
  | endOfInput
  deriving DecidableEq

namespace Kind

def name : Kind → String
  | .openParen => "OpenParen"
  | .closeParen => "CloseParen"
  | .openBrace => "OpenBrace"
  | .closeBrace => "CloseBrace"
  | .fullStop => "FullStop"
  | .comma => "Comma"
  | .declare => "Initialize"
  | .assign => "Assign"
  | .into => "To"
  | .equalTo => "EqualTo"
  | .lessThan => "LessThan"
  | .greaterThan => "GreaterThan"
  | .andWord => "And"
  | .orWord => "Or"
  | .notWord => "Not"
  | .ifWord => "If"
  | .ifEnd => "ConditionalMarker"
  | .thenWord => "Then"
  | .whileWord => "While"
  | .whileEnd => "Si"
  | .add => "Add"
  | .minus => "Minus"
  | .multiply => "Multiply"
  | .divide => "Divide"
  | .increment => "Increment"
  | .decrement => "Decrement"
  | .identifier => "Identifier"
  | .number => "Number"
  | .comment => "Comment"
  | .invalid => "Invalid"
  | .endOfInput => "EndOfInput"

def all : List Kind :=
  [.openParen, .closeParen, .openBrace, .closeBrace, .fullStop, .comma, .declare, .assign, .into,
   .equalTo, .lessThan, .greaterThan, .andWord, .orWord, .notWord, .ifWord, .ifEnd, .thenWord, .whileWord,
   .whileEnd, .add, .minus, .multiply, .divide, .increment, .decrement, .identifier, .number,
   .comment, .invalid, .endOfInput]

def ofName? (text : String) : Option Kind := all.find? (·.name == text)

/-- Kinds that scanning produces without looking up a literal. -/
def isScanned : Kind → Bool
  | .identifier | .number | .comment | .invalid | .endOfInput => true
  | _ => false

theorem ofName?_name (kind : Kind) : ofName? kind.name = some kind := by cases kind <;> rfl

theorem name_injective {first second : Kind} (same : first.name = second.name) : first = second :=
  Option.some.inj ((ofName?_name first).symm.trans (same ▸ ofName?_name second))

end Kind

end CantoScan
