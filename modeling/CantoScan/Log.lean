import CantoScan.Table.Builtin
import CantoScan.Table.Basic
import CantoScan.Text.ControlSequence
import CantoScan.Token

/-! Log records. Each operation's records follow from its input and its result, so the operations
themselves stay plain functions. -/

namespace CantoScan.Log

/-- Levels, from the most to the least urgent. -/
inductive Level where
  | error
  | warn
  | info
  | debug
  | trace
  deriving DecidableEq

namespace Level

def name : Level → String
  | .error => "ERROR"
  | .warn => "WARN"
  | .info => "INFO"
  | .debug => "DEBUG"
  | .trace => "TRACE"

def rank : Level → Nat
  | .error => 1
  | .warn => 2
  | .info => 3
  | .debug => 4
  | .trace => 5

/-- The highest rank that a threshold of this name lets through. -/
def threshold? : String → Option Nat
  | "off" => some 0
  | "error" => some 1
  | "warn" => some 2
  | "info" => some 3
  | "debug" => some 4
  | "trace" => some 5
  | _ => none

end Level

structure Record where
  level : Level
  target : String
  message : String
  deriving DecidableEq

def scannerTarget : String := "cantolex::frontend::lexer"

def tableTarget : String := "cantolex::frontend::symbols"

def commandTarget : String := "cantolex"

def loaded (table : SymbolTable) : Record :=
  ⟨.debug, tableTarget,
    s!"loaded symbol table: {table.singles.length} single, {table.doubles.length} double"⟩

def declinedSpelling (entry : Char × Kind × Kind) : Record :=
  ⟨.warn, tableTarget,
    s!"skipping alias {Text.quoteChar entry.1} for {entry.2.1.name}: already bound to {entry.2.2.name}"⟩

def declined (table : SymbolTable) (spellings : List (Char × Kind)) : List Record :=
  (table.declined spellings).map declinedSpelling

def invalidCharacter (token : Token) : List Record :=
  match token.kind, token.literal.toList with
  | .invalid, c :: _ =>
    [⟨.debug, scannerTarget, s!"invalid character {Text.quoteChar c} at {token.span.label}"⟩]
  | _, _ => []

/-- A scanned token. The end of the input leaves no record. -/
def scanned (token : Token) : List Record :=
  if token.isEnd then []
  else invalidCharacter token ++ [⟨.trace, scannerTarget, s!"{token.label} at {token.span.label}"⟩]

def scannedAll (tokens : List Token) : List Record := tokens.flatMap scanned

namespace Record

/-- One record as text. Further lines of a message are set in by four blanks, and only what is visible
is written. -/
def line (record : Record) : String :=
  let level := record.level.name.pushn ' ' (5 - record.level.name.length)
  let message := "\n    ".intercalate (record.message.splitOn "\n")
  Text.visible s!"[{level} {record.target}] {message}\n"

end Record

def render (threshold : Nat) (records : List Record) : String :=
  String.join ((records.filter (·.level.rank ≤ threshold)).map Record.line)

end CantoScan.Log
