import CantoScan.Diagnostic
import CantoScan.Table.Builtin

/-! Hints for invalid characters. A character that some table accepts is answered with the spelling
that the present table has for the same kind. -/

namespace CantoScan

namespace SymbolTable

/-- All built-in spellings together. -/
def wellKnown : SymbolTable := cantonese.withAsciiPunctuation.withWordOperators

def hint? (table : SymbolTable) (character : Char) : Option String :=
  (wellKnown.single character).bind table.literalOf?

end SymbolTable

namespace Diagnostic

def hint? (table : SymbolTable) : Diagnostic → Option String
  | .invalidCharacter character _ => table.hint? character
  | _ => none

/-- The message of a fault, with the hint if there is one. -/
def explain (table : SymbolTable) (diagnostic : Diagnostic) : String :=
  match diagnostic.hint? table with
  | some literal => s!"{diagnostic.message} (did you mean '{literal}'?)"
  | none => diagnostic.message

end Diagnostic

end CantoScan
