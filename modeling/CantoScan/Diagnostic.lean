import CantoScan.Table.File
import CantoScan.Token

/-! What the library reports: a symbol table that breaks its rules, a table file that is not well
formed, and a character that starts no token. -/

namespace CantoScan

inductive Diagnostic where
  | symbolTable (message : String)
  | malformedFile (message : String)
  | invalidCharacter (character : Char) (span : Span)
  deriving DecidableEq

namespace Diagnostic

def message : Diagnostic → String
  | .symbolTable text => s!"Invalid symbol table: {text}"
  | .malformedFile text => s!"Malformed symbol table JSON: {text}"
  | .invalidCharacter character span => s!"Invalid character '{character}' at {span.label}"

/-- The place in the source, for faults that have one. -/
def span? : Diagnostic → Option Span
  | .invalidCharacter _ span => some span
  | _ => none

end Diagnostic

def TableFault.diagnostic (fault : TableFault) : Diagnostic := .symbolTable fault.message

def LoadFault.diagnostic : LoadFault → Diagnostic
  | .malformed fault => .malformedFile fault.message
  | .rejected fault => fault.diagnostic

/-- A token of kind `invalid` is a fault; every other token stands for itself. An empty literal has
no character to name, so the replacement character stands in. -/
def Token.checked (token : Token) : Except Diagnostic Token :=
  if token.kind = .invalid then
    .error (.invalidCharacter (token.literal.toList.head?.getD '\uFFFD') token.span)
  else .ok token

end CantoScan
