import CantoScan.Table.Update
import CantoScan.Unicode.WhiteSpace

/-! The rules of a symbol table. A literal has one or two characters, none of them a digit or white
space; it is bound once, is not the comment marker, and never names a kind that scanning produces. -/

namespace CantoScan

namespace SymbolTable
open Update

def empty (marker : String) : Except TableFault SymbolTable :=
  match marker.toList with
  | [first, second] =>
    if Unicode.isWhiteSpace first || Unicode.isWhiteSpace second then .error (.commentMarker marker)
    else .ok ⟨[], [], (first, second)⟩
  | _ => .error (.commentMarker marker)

/-- Characters that no literal may contain. -/
def isReserved (c : Char) : Bool := c.isDigit || Unicode.isWhiteSpace c

/-- Binds a literal behind all others of its length. The rules are checked one after another, and the table
changes only at the end. -/
def register (literal : String) (kind : Kind) : Update Unit := do
  refuse kind.isScanned (.scannedKind kind literal)
  (literal.toList.find? isReserved).forM fun c => throw (.reservedCharacter literal c)
  match literal.toList with
  | [c] =>
    refuse ((← get).single c).isSome (.duplicateLiteral literal)
    modify (·.bindSingle c kind)
  | [first, second] =>
    refuse ((← get).startsComment first second) (.commentCollision literal)
    refuse ((← get).double first second).isSome (.duplicateLiteral literal)
    modify (·.bindDouble first second kind)
  | _ => throw (.literalLength literal)

/-- What comes of binding a literal in this table, and the table after it. -/
def insert (table : SymbolTable) (literal : String) (kind : Kind) : Except TableFault Unit × SymbolTable :=
  (register literal kind).run table

/-- The table after a change, unless that has failed. -/
def finished (changed : Except TableFault Unit × SymbolTable) : Except TableFault SymbolTable :=
  changed.1.map fun _ => changed.2

theorem finished_eq_ok_iff {changed : Except TableFault Unit × SymbolTable} {table : SymbolTable} :
    finished changed = .ok table ↔ changed = (.ok (), table) := by
  obtain ⟨_ | _, after⟩ := changed <;> simp [finished, Except.map]

theorem finished_eq_error_iff {changed : Except TableFault Unit × SymbolTable} {fault : TableFault} :
    finished changed = .error fault ↔ changed.1 = .error fault := by
  obtain ⟨_ | _, after⟩ := changed <;> simp [finished, Except.map]

/-- Inserts in order and stops at the first literal that breaks a rule. -/
def insertAll (table : SymbolTable) (entries : List (String × Kind)) : Except TableFault SymbolTable :=
  entries.foldlM (fun table entry => finished (table.insert entry.1 entry.2)) table

theorem insertAll_cons (table : SymbolTable) (entry : String × Kind) (entries : List (String × Kind)) :
    table.insertAll (entry :: entries) =
      (finished (table.insert entry.1 entry.2)).bind fun bound => bound.insertAll entries :=
  List.foldlM_cons

theorem insertAll_append (table : SymbolTable) (before behind : List (String × Kind)) :
    table.insertAll (before ++ behind) =
      (table.insertAll before).bind fun taken => taken.insertAll behind :=
  List.foldlM_append

def ofEntries (marker : String) (entries : List (String × Kind)) : Except TableFault SymbolTable := do
  (← empty marker).insertAll entries

theorem ofEntries_of_empty {marker : String} {blank : SymbolTable} (made : empty marker = .ok blank)
    (entries : List (String × Kind)) : ofEntries marker entries = blank.insertAll entries := by
  rw [ofEntries, made]
  rfl

theorem ofEntries_eq_ok_iff {marker : String} {entries : List (String × Kind)} {table : SymbolTable} :
    ofEntries marker entries = .ok table ↔
      ∃ blank, empty marker = .ok blank ∧ blank.insertAll entries = .ok table := by
  cases made : empty marker with
  | error fault => simp [ofEntries, made, bind, Except.bind]
  | ok blank => simp [ofEntries_of_empty made]

/-- The bindings of a table, those of one character first. -/
def entries (table : SymbolTable) : List (String × Kind) :=
  table.singles.map (fun entry => (String.ofList [entry.1], entry.2)) ++
    table.doubles.map (fun entry => (String.ofList [entry.1.1, entry.1.2], entry.2))

/-- The table that its own marker and bindings make when they are checked one by one. -/
def rebuild (table : SymbolTable) : Except TableFault SymbolTable :=
  ofEntries table.commentMarker table.entries

def validate (table : SymbolTable) : Except TableFault Unit := table.rebuild.map fun _ => ()

end SymbolTable

end CantoScan
