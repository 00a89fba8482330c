import CantoScan.Table.Basic
import CantoScan.Text.Quoted

/-! Changing a symbol table in place. A change that breaks a rule stops there, with the table as the change
has left it so far. -/

namespace CantoScan

inductive TableFault where
  | commentMarker (marker : String)
  | scannedKind (kind : Kind) (literal : String)
  | reservedCharacter (literal : String) (character : Char)
  | duplicateLiteral (literal : String)
  | commentCollision (literal : String)
  | literalLength (literal : String)
  deriving DecidableEq

namespace TableFault
open Text

def message : TableFault → String
  | .commentMarker marker => s!"comment marker must be two non-space characters, got {quote marker}"
  | .scannedKind kind literal => s!"{kind.name} cannot be bound to a literal ({quote literal})"
  | .reservedCharacter literal character =>
    s!"literal {quote literal} contains {quoteChar character}, which is reserved for numbers or whitespace"
  | .duplicateLiteral literal => s!"duplicate literal {quote literal}"
  | .commentCollision literal => s!"literal {quote literal} collides with the comment marker"
  | .literalLength literal => s!"literal {quote literal} must be one or two characters long"

end TableFault

/-- A change of a table. There is a table after it, whether it has failed or not. -/
abbrev Update (α : Type) := ExceptT TableFault (StateM SymbolTable) α

namespace Update
variable {α β : Type}

def refuse (condition : Bool) (fault : TableFault) : Update Unit :=
  if condition then throw fault else pure ()

@[simp] theorem run_modify (change : SymbolTable → SymbolTable) (table : SymbolTable) :
    (modify change : Update Unit).run table = (.ok (), change table) := rfl

@[simp] theorem run_get_bind (next : SymbolTable → Update β) (table : SymbolTable) :
    (get >>= next : Update β).run table = (next table).run table := rfl

theorem run_bind (first : Update α) (next : α → Update β) (table : SymbolTable) :
    (first >>= next).run table =
      match first.run table with
      | (.ok value, after) => (next value).run after
      | (.error fault, after) => (.error fault, after) := by
  change (match first.run table with | (result, after) => ExceptT.bindCont next result after) = _
  rcases first.run table with ⟨_ | _, after⟩ <;> rfl

@[simp] theorem run_refuse_bind (condition : Bool) (fault : TableFault) (next : Unit → Update β)
    (table : SymbolTable) :
    (refuse condition fault >>= next).run table =
      if condition then (.error fault, table) else (next ()).run table := by
  cases condition <;> rfl

@[simp] theorem run_forM_throw_bind (found : Option α) (fault : α → TableFault) (next : Unit → Update β)
    (table : SymbolTable) :
    ((found.forM fun value => (throw (fault value) : Update Unit)) >>= next).run table =
      match found with
      | some value => (.error (fault value), table)
      | none => (next ()).run table := by
  cases found <;> rfl

end Update

end CantoScan
