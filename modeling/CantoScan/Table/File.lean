import CantoScan.Json.Record
import CantoScan.Table.Insert
import CantoScan.Table.KindForm

/-! Symbol table files. A file names the comment marker and lists the entries of the table. It is an
object, as is each entry, or the same parts as a list in fixed order. The whole text is read before the
marker is checked, and that before the entries. -/

namespace CantoScan

/-- What a file says, before any rule of the table is checked. -/
structure TableFile where
  comment : String
  symbols : List (String × Kind)
  deriving DecidableEq

inductive LoadFault where
  | malformed (fault : Json.Fault)
  | rejected (fault : TableFault)
  deriving DecidableEq

namespace TableFile
open Json Json.Reader

structure PartialEntry where
  literal : Option String
  kind : Option Kind

def entryMember (state : PartialEntry) (key : String) : Except Fault (Reader PartialEntry) :=
  if key = "literal" then
    once key state.literal ((fun value => { state with literal := some value }) <$> text)
  else if key = "kind" then
    once key state.kind ((fun value => { state with kind := some value }) <$> Kind.reader)
  else .ok (ignored state)

def entryName : String := "struct SymbolEntry"

def entryLength (length : Nat) : Fault := .wrongLength length (entryName ++ " with 2 elements")

def entry : Reader (String × Kind) :=
  record entryName (pair text Kind.reader (entryLength 0) (entryLength 1)) do
    let found ← members entryMember ⟨none, none⟩
    let literal ← required "literal" found.literal
    let kind ← required "kind" found.kind
    pure (literal, kind)

def entries : Reader (List (String × Kind)) := do
  match ← peek with
  | some '[' =>
    discard next
    items entry
  | _ => mismatch "a sequence"

structure PartialFile where
  comment : Option String
  symbols : Option (List (String × Kind))

def fileMember (state : PartialFile) (key : String) : Except Fault (Reader PartialFile) :=
  if key = "comment" then
    once key state.comment ((fun value => { state with comment := some value }) <$> text)
  else if key = "symbols" then
    once key state.symbols ((fun value => { state with symbols := some value }) <$> entries)
  else .ok (ignored state)

def fileName : String := "struct TableFile"

/-- The marker of a file that names none. As an empty list stands for this marker alone, its length
counts as one. -/
def defaultComment : String := "//"

def fileLength : Fault := .wrongLength 1 (fileName ++ " with 2 elements")

def reader : Reader TableFile :=
  record fileName ((fun parts => ⟨parts.1, parts.2⟩) <$> pair text entries fileLength fileLength) do
    let found ← members fileMember ⟨none, none⟩
    let symbols ← required "symbols" found.symbols
    pure ⟨found.comment.getD defaultComment, symbols⟩

def parse (text : String) : Except Fault TableFile := reader.read text

def table (file : TableFile) : Except TableFault SymbolTable :=
  SymbolTable.ofEntries file.comment file.symbols

end TableFile

def SymbolTable.load (text : String) : Except LoadFault SymbolTable :=
  match TableFile.parse text with
  | .error fault => .error (.malformed fault)
  | .ok file => file.table.mapError .rejected

end CantoScan
