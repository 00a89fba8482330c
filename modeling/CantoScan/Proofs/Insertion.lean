import CantoScan.Proofs.FaultMessages
import CantoScan.Proofs.TableEntries

/-! What an insertion decides. A literal may break several rules at once; the fault that is reported is
the first of them, and a literal that breaks none is bound behind all others of its length. -/

namespace CantoScan.Proofs.Insertion
open TableUpdates TableEntries FaultMessages SymbolTable Update Text

def literals (table : SymbolTable) : List String := table.entries.map Prod.fst

/-- The rules for a binding that are the same for every table. -/
structure Admissible (literal : String) (kind : Kind) : Prop where
  unscanned : kind.isScanned = false
  length : literal.length = 1 ∨ literal.length = 2
  plain : ∀ c ∈ literal.toList, c.isDigit = false ∧ Unicode.isWhiteSpace c = false

/-- A binding that a table can take in. -/
structure Insertable (table : SymbolTable) (literal : String) (kind : Kind) : Prop
    extends Admissible literal kind where
  free : literal ∉ literals table
  apart : literal ≠ table.commentMarker

/-- The faults of a literal that lie in its place in the table, or in having none there. -/
def misplacements (table : SymbolTable) (literal : String) : List TableFault :=
  (if literal = table.commentMarker then [.commentCollision literal] else []) ++
    (if literal ∈ literals table then [.duplicateLiteral literal] else []) ++
    (if literal.length = 1 ∨ literal.length = 2 then [] else [.literalLength literal])

/-- All faults of a binding at once, in the order of the rules and of the characters. -/
def faults (table : SymbolTable) (literal : String) (kind : Kind) : List TableFault :=
  (if kind.isScanned then [.scannedKind kind literal] else []) ++
    (literal.toList.filter isReserved).map (.reservedCharacter literal) ++
    misplacements table literal

/-- What is said against a binding, in the same order. -/
def complaints (table : SymbolTable) (literal : String) (kind : Kind) : List String :=
  (if kind.isScanned then [s!"{kind.name} cannot be bound to a literal ({quote literal})"] else []) ++
    (literal.toList.filter isReserved).map (fun c =>
      s!"literal {quote literal} contains {quoteChar c}, which is reserved for numbers or whitespace") ++
    ((if literal = table.commentMarker then [s!"literal {quote literal} collides with the comment marker"]
        else []) ++
      (if literal ∈ literals table then [s!"duplicate literal {quote literal}"] else []) ++
      (if literal.length = 1 ∨ literal.length = 2 then []
        else [s!"literal {quote literal} must be one or two characters long"]))

/-- What is left of a table and what is new in it once a literal has been bound. -/
structure Inserted (table : SymbolTable) (literal : String) (kind : Kind) (after : SymbolTable) : Prop where
  comment : after.comment = table.comment
  binding :
    (∃ c, literal.toList = [c] ∧ after.singles = table.singles ++ [(c, kind)] ∧
        after.doubles = table.doubles) ∨
      ∃ first second, literal.toList = [first, second] ∧
        after.doubles = table.doubles ++ [((first, second), kind)] ∧ after.singles = table.singles
  single : ∀ c, after.single c = if literal.toList = [c] then some kind else table.single c
  double : ∀ first second, after.double first second =
    if literal.toList = [first, second] then some kind else table.double first second

section Bound
variable {table : SymbolTable} {literal : String}

private theorem mem_literals_iff :
    literal ∈ literals table ↔
      (∃ entry ∈ table.singles, literal = String.ofList [entry.1]) ∨
        ∃ entry ∈ table.doubles, literal = String.ofList [entry.1.1, entry.1.2] := by
  simp only [literals, SymbolTable.entries, List.map_append, List.map_map, List.mem_append, List.mem_map,
    Function.comp_apply, eq_comm]

private theorem mem_literals_of_single {c : Char} (one : literal.toList = [c]) :
    literal ∈ literals table ↔ (table.single c).isSome = true := by
  rw [← literal.ofList_toList, one, mem_literals_iff, SymbolTable.single, List.lookup_isSome_iff]
  simp only [String.ofList_inj, List.cons.injEq, and_true, beq_iff_eq]
  simp

private theorem mem_literals_of_double {first second : Char} (two : literal.toList = [first, second]) :
    literal ∈ literals table ↔ (table.double first second).isSome = true := by
  rw [← literal.ofList_toList, two, mem_literals_iff, SymbolTable.double, List.lookup_isSome_iff]
  simp only [String.ofList_inj, List.cons.injEq, and_true, beq_iff_eq, Prod.ext_iff]
  simp

private theorem length_of_mem_literals (bound : literal ∈ literals table) :
    literal.length = 1 ∨ literal.length = 2 := by
  obtain ⟨entry, member, rfl⟩ := List.mem_map.mp bound
  exact sized_iff.mp (sized_entries table entry member)

private theorem eq_commentMarker_iff {first second : Char} (two : literal.toList = [first, second]) :
    literal = table.commentMarker ↔ table.startsComment first second = true := by
  rw [← literal.ofList_toList, two, commentMarker, String.ofList_inj, startsComment, decide_eq_true_iff,
    eq_comm (a := table.comment), Prod.ext_iff]
  simp

private theorem length_commentMarker (table : SymbolTable) : table.commentMarker.length = 2 := by
  rw [← String.length_toList, commentMarker, String.toList_ofList]
  rfl

end Bound

section Faults
variable {table : SymbolTable} {literal : String} {kind : Kind}

private theorem misplacements_of_single {c : Char} (one : literal.toList = [c]) :
    misplacements table literal =
      if (table.single c).isSome then [.duplicateLiteral literal] else [] := by
  have length : literal.length = 1 := by rw [← String.length_toList, one]; rfl
  have apart : literal ≠ table.commentMarker := by
    rintro rfl
    rw [length_commentMarker] at length
    cases length
  simp only [misplacements, apart, length, mem_literals_of_single one, if_false, true_or, if_true,
    List.nil_append, List.append_nil]

private theorem misplacements_of_double {first second : Char} (two : literal.toList = [first, second]) :
    misplacements table literal =
      (if table.startsComment first second then [.commentCollision literal] else []) ++
        if (table.double first second).isSome then [.duplicateLiteral literal] else [] := by
  have length : literal.length = 2 := by rw [← String.length_toList, two]; rfl
  simp only [misplacements, length, mem_literals_of_double two, eq_commentMarker_iff two, or_true, if_true,
    List.append_nil]

private theorem misplacements_of_length (length : ¬ (literal.length = 1 ∨ literal.length = 2)) :
    misplacements table literal = [.literalLength literal] := by
  have apart : literal ≠ table.commentMarker := by
    rintro rfl
    exact length (.inr (length_commentMarker table))
  have free : literal ∉ literals table := fun bound => length (length_of_mem_literals bound)
  simp only [misplacements, apart, free, length, if_false, List.nil_append]

private theorem faults_of_plain (bindable : kind.isScanned = false)
    (plain : literal.toList.find? isReserved = none) :
    faults table literal kind = misplacements table literal := by
  have none : literal.toList.filter isReserved = [] := by
    rwa [← List.head?_eq_none_iff, List.head?_filter]
  simp only [faults, bindable, none, Bool.false_eq_true, if_false, List.map_nil, List.nil_append]

private theorem head?_faults_of_reserved (bindable : kind.isScanned = false) {c : Char}
    (found : literal.toList.find? isReserved = some c) :
    (faults table literal kind).head? = some (.reservedCharacter literal c) := by
  simp [faults, bindable, List.head?_append, List.head?_map, List.head?_filter, found]

private theorem map_message_faults (table : SymbolTable) (literal : String) (kind : Kind) :
    (faults table literal kind).map TableFault.message = complaints table literal kind := by
  simp only [faults, misplacements, List.map_append, List.map_map, apply_ite (List.map TableFault.message),
    List.map_cons, List.map_nil]
  rfl

end Faults

private theorem insert_eq (table : SymbolTable) (literal : String) (kind : Kind) :
    table.insert literal kind =
      match (faults table literal kind).head? with
      | some fault => (.error fault, table)
      | none => (.ok (), extend table [(literal, kind)]) := by
  rw [SymbolTable.insert, register, run_refuse_bind, run_forM_throw_bind]
  split
  next scanned => simp [faults, scanned]
  next bindable =>
    rw [Bool.not_eq_true] at bindable
    split
    next c found => rw [head?_faults_of_reserved bindable found]
    next plain =>
      rw [faults_of_plain bindable plain]
      split
      next c one =>
        rw [run_get_bind, run_refuse_bind, misplacements_of_single one, extend_cons_single one, extend_nil]
        split <;> rfl
      next first second two =>
        rw [run_get_bind, run_refuse_bind, run_get_bind, run_refuse_bind, misplacements_of_double two,
          extend_cons_double two, extend_nil]
        split
        · rfl
        · split <;> rfl
      next notOne notTwo =>
        have long : ¬ (literal.length = 1 ∨ literal.length = 2) := by
          intro short
          have sized : Sized (literal, kind) := sized_iff.mpr short
          cases sized with
          | single c one => exact notOne c one
          | double first second two => exact notTwo first second two
        rw [misplacements_of_length long]
        rfl

section Outcome
variable {table after : SymbolTable} {literal : String} {kind : Kind}

private theorem insert_eq_error_iff {fault : TableFault} :
    (table.insert literal kind).1 = .error fault ↔ (faults table literal kind).head? = some fault := by
  rw [insert_eq]
  split
  next first found => rw [found, Except.error.injEq, Option.some.injEq]
  next none => simp [none]

private theorem insert_eq_ok_iff :
    table.insert literal kind = (.ok (), after) ↔
      faults table literal kind = [] ∧ after = extend table [(literal, kind)] := by
  rw [insert_eq, ← List.head?_eq_none_iff]
  split
  next first found => simp [found]
  next none => simp [none, eq_comm]

private theorem plain_iff :
    (∀ c ∈ literal.toList, isReserved c = false) ↔
      ∀ c ∈ literal.toList, c.isDigit = false ∧ Unicode.isWhiteSpace c = false := by
  simp only [isReserved, Bool.or_eq_false_iff]

private theorem faults_eq_nil_iff : faults table literal kind = [] ↔ Insertable table literal kind := by
  have placed : misplacements table literal = [] ↔
      literal ≠ table.commentMarker ∧ literal ∉ literals table ∧
        (literal.length = 1 ∨ literal.length = 2) := by
    simp only [misplacements, List.append_eq_nil_iff, ite_eq_right_iff, ite_eq_left_iff, and_assoc,
      reduceCtorEq, imp_false, not_not]
  have parts : faults table literal kind = [] ↔
      kind.isScanned = false ∧ (∀ c ∈ literal.toList, isReserved c = false) ∧
        misplacements table literal = [] := by
    simp only [faults, List.append_eq_nil_iff, ite_eq_right_iff, List.map_eq_nil_iff, List.filter_eq_nil_iff,
      and_assoc, reduceCtorEq, imp_false, Bool.not_eq_true]
  rw [parts, placed, plain_iff]
  constructor
  · rintro ⟨unscanned, plain, apart, free, length⟩
    exact ⟨⟨unscanned, length, plain⟩, free, apart⟩
  · intro insertable
    exact ⟨insertable.unscanned, insertable.plain, insertable.apart, insertable.free, insertable.length⟩

theorem insert_isOk_iff :
    (∃ after, table.insert literal kind = (.ok (), after)) ↔ Insertable table literal kind := by
  simp only [insert_eq_ok_iff, exists_and_left, exists_eq, and_true, faults_eq_nil_iff]

theorem inserted_of_ok (done : table.insert literal kind = (.ok (), after)) :
    Inserted table literal kind after := by
  obtain ⟨_, _, ⟨c, one, free, rfl⟩ | ⟨first, second, two, _, free, rfl⟩⟩ := insert_eq_ok done
  · refine ⟨rfl, .inl ⟨c, one, rfl, rfl⟩, ?_, ?_⟩
    · intro d
      rw [single_bindSingle free, one]
      simp only [List.cons.injEq, and_true, eq_comm]
    · intro d e
      rw [one, double_bindSingle, if_neg (by simp)]
  · refine ⟨rfl, .inr ⟨first, second, two, rfl, rfl⟩, ?_, ?_⟩
    · intro d
      rw [two, single_bindDouble, if_neg (by simp)]
    · intro d e
      rw [double_bindDouble free, two]
      simp only [List.cons.injEq, and_true, Prod.mk.injEq, eq_comm]

private theorem insert_leftmost (bindable : kind.isScanned = false) {before rest : List Char} {c : Char}
    (whole : literal.toList = before ++ c :: rest) (plain : ∀ d ∈ before, isReserved d = false)
    (reserved : isReserved c = true) :
    (table.insert literal kind).1 = .error (.reservedCharacter literal c) := by
  apply insert_eq_error_iff.mpr
  apply head?_faults_of_reserved bindable
  have none : before.find? isReserved = none := List.find?_eq_none.mpr (by simpa using plain)
  rw [whole, List.find?_append, none, Option.none_or, List.find?_cons_of_pos reserved]

end Outcome

/-- What an insertion does with any literal, in any table. -/
structure Decided (table : SymbolTable) (literal : String) (kind : Kind) : Prop where
  accepted : (∃ after, table.insert literal kind = (.ok (), after)) ↔ Insertable table literal kind
  effect : ∀ after, table.insert literal kind = (.ok (), after) → Inserted table literal kind after
  refused : ∀ fault, (table.insert literal kind).1 = .error fault ↔
    (faults table literal kind).head? = some fault
  unchanged : ∀ fault after, table.insert literal kind = (.error fault, after) → after = table
  worded : ∀ fault, (table.insert literal kind).1 = .error fault →
    (complaints table literal kind).head? = some fault.message ∧
      ∀ other : TableFault, other.message = fault.message → other = fault
  named : kind.isScanned = false → ∀ before c rest, literal.toList = before ++ c :: rest →
    (∀ d ∈ before, isReserved d = false) → isReserved c = true →
      ∃ fault, (table.insert literal kind).1 = .error fault ∧
        fault.message =
          s!"literal {quote literal} contains {quoteChar c}, which is reserved for numbers or whitespace"

/-- Any table takes in a literal exactly if that breaks no rule, and then binds it and nothing else; if
it breaks some, the first of them is reported and the table that is left is the table as it was. -/
theorem insert_decided (table : SymbolTable) (literal : String) (kind : Kind) :
    Decided table literal kind where
  accepted := insert_isOk_iff
  effect _ := inserted_of_ok
  refused _ := insert_eq_error_iff
  unchanged _ _ := insert_unchanged
  worded fault failed := by
    refine ⟨?_, fun other => message_injective⟩
    rw [← map_message_faults, List.head?_map, insert_eq_error_iff.mp failed, Option.map_some]
  named bindable before c rest whole plain reserved :=
    ⟨_, insert_leftmost bindable whole plain reserved, rfl⟩

/-- A literal can break every rule but one at once. -/
example :
    let table : SymbolTable := ⟨[], [(('1', ' '), .add)], ('1', ' ')⟩
    faults table "1 " .comment =
        [.scannedKind .comment "1 ", .reservedCharacter "1 " '1', .reservedCharacter "1 " ' ',
          .commentCollision "1 ", .duplicateLiteral "1 "] ∧
      table.insert "1 " .comment = (.error (.scannedKind .comment "1 "), table) := by
  decide

end CantoScan.Proofs.Insertion
