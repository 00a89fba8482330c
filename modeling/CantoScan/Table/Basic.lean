import CantoScan.Kind

/-! Symbol tables. A table binds literals of one and of two characters to kinds, in order of arrival,
and names the two characters that begin a comment. -/

namespace CantoScan

structure SymbolTable where
  singles : List (Char × Kind)
  doubles : List ((Char × Char) × Kind)
  comment : Char × Char
  deriving DecidableEq

namespace SymbolTable

def single (table : SymbolTable) (c : Char) : Option Kind := table.singles.lookup c

def double (table : SymbolTable) (first second : Char) : Option Kind :=
  table.doubles.lookup (first, second)

/-- Whether a literal of two characters begins with this one. -/
def startsDouble (table : SymbolTable) (c : Char) : Bool := table.doubles.any (·.1.1 = c)

def startsComment (table : SymbolTable) (first second : Char) : Bool := table.comment = (first, second)

def commentMarker (table : SymbolTable) : String := String.ofList [table.comment.1, table.comment.2]

/-- The spelling of a kind. Literals of one character come before those of two, and earlier ones
before later ones. -/
def literalOf? (table : SymbolTable) (kind : Kind) : Option String :=
  match table.singles.find? (·.2 = kind) with
  | some entry => some (String.ofList [entry.1])
  | none => (table.doubles.find? (·.2 = kind)).map fun entry => String.ofList [entry.1.1, entry.1.2]

def bindSingle (table : SymbolTable) (c : Char) (kind : Kind) : SymbolTable :=
  { table with singles := table.singles ++ [(c, kind)] }

def bindDouble (table : SymbolTable) (first second : Char) (kind : Kind) : SymbolTable :=
  { table with doubles := table.doubles ++ [((first, second), kind)] }

private theorem lookup_append_single {α : Type} [BEq α] [LawfulBEq α] {entries : List (α × Kind)}
    {key : α} (free : entries.lookup key = none) (kind : Kind) (other : α) :
    (entries ++ [(key, kind)]).lookup other =
      if other == key then some kind else entries.lookup other := by
  rw [List.lookup_append, List.lookup_cons, List.lookup_nil]
  split
  next same =>
    rw [if_pos same, eq_of_beq same, free]
    rfl
  next different =>
    rw [different]
    exact Option.or_none

section Bind
variable {table : SymbolTable} {kind : Kind}

/-- A new binding answers for its own literal and leaves every other look-up as it was. -/
theorem single_bindSingle {c : Char} (free : table.single c = none) (d : Char) :
    (table.bindSingle c kind).single d = if d = c then some kind else table.single d := by
  have found := lookup_append_single free kind d
  simp only [beq_iff_eq] at found
  exact found

theorem double_bindDouble {first second : Char} (free : table.double first second = none) (c d : Char) :
    (table.bindDouble first second kind).double c d =
      if (c, d) = (first, second) then some kind else table.double c d := by
  have found := lookup_append_single free kind (c, d)
  simp only [beq_iff_eq] at found
  exact found

@[simp] theorem double_bindSingle (c first second : Char) :
    (table.bindSingle c kind).double first second = table.double first second := rfl

@[simp] theorem single_bindDouble (first second c : Char) :
    (table.bindDouble first second kind).single c = table.single c := rfl

end Bind

private theorem lookup_eq_none {key : Char × Char} {entries : List ((Char × Char) × Kind)}
    (absent : entries.any (·.1.1 = key.1) = false) : entries.lookup key = none := by
  induction entries with
  | nil => rfl
  | cons entry entries ih =>
    simp only [List.any_cons, Bool.or_eq_false_iff, decide_eq_false_iff_not] at absent
    have other : (key == entry.1) = false := by
      simp only [beq_eq_false_iff_ne, ne_eq]
      intro same
      exact absent.1 (same ▸ rfl)
    rw [List.lookup_cons, other]
    exact ih absent.2

/-- Looking at the first character alone never hides a literal. -/
theorem double_eq_none {table : SymbolTable} {first : Char} (absent : table.startsDouble first = false)
    (second : Char) : table.double first second = none :=
  lookup_eq_none absent

end SymbolTable

end CantoScan
