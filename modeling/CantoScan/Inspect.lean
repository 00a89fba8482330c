import CantoScan.Diagnostic
import CantoScan.Table.Basic

/-! Values shown field by field, for inspection. -/

namespace CantoScan

private def fields (name : String) (shown : List (String × String)) : String :=
  let pairs := shown.map fun field => field.1 ++ ": " ++ field.2
  name ++ " \x7b " ++ ", ".intercalate pairs ++ " \x7d"

private def listed (items : List String) : String := "[" ++ ", ".intercalate items ++ "]"

private def listedPair (pair : Char × Char) : String :=
  listed [Text.quoteChar pair.1, Text.quoteChar pair.2]

def Span.inspect (span : Span) : String :=
  fields "Span"
    [("start", toString span.start), ("end", toString span.stop), ("line", toString span.line),
      ("column", toString span.column)]

def Token.inspect (token : Token) : String :=
  fields "Token"
    [("kind", token.kind.name), ("literal", Text.quote token.literal), ("span", token.span.inspect)]

def Diagnostic.inspect : Diagnostic → String
  | .symbolTable message => fields "SymbolTable" [("message", Text.quote message)]
  | .malformedFile message => s!"Json({Text.quote message})"
  | .invalidCharacter character span =>
    fields "InvalidCharacter" [("ch", Text.quoteChar character), ("span", span.inspect)]

def SymbolTable.inspect (table : SymbolTable) : String :=
  let singles := table.singles.map fun entry => s!"({Text.quoteChar entry.1}, {entry.2.name})"
  let doubles := table.doubles.map fun entry => s!"({listedPair entry.1}, {entry.2.name})"
  fields "SymbolTable"
    [("singles", listed singles), ("doubles", listed doubles), ("comment", listedPair table.comment)]

end CantoScan
