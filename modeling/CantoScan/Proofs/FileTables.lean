import CantoScan.Diagnostic
import CantoScan.Proofs.Insertion

/-! What a table file makes once its text has been read. Entries are taken in one by one, and which of them
go together can be said of the whole list; of those that do not, the first that finds no place behind the
others is the one that is reported. -/

namespace CantoScan.Proofs.FileTables
open TableUpdates TableRules TableEntries Insertion SymbolTable

structure Marks (marker : String) : Prop where
  length : marker.length = 2
  visible : ∀ c ∈ marker.toList, Unicode.isWhiteSpace c = false

/-- A marker and entries that go together in one table. -/
structure Compatible (marker : String) (entries : List (String × Kind)) : Prop where
  marks : Marks marker
  admissible : ∀ entry ∈ entries, Admissible entry.1 entry.2
  apart : ∀ entry ∈ entries, entry.1 ≠ marker
  distinct : (entries.map Prod.fst).Nodup

/-- The fault of a marker that is none, or else that of the first entry which the table of all entries
before it does not take in. -/
inductive FirstFault (marker : String) (entries : List (String × Kind)) : TableFault → Prop where
  | marker : ¬ Marks marker → FirstFault marker entries (.commentMarker marker)
  | entry {before behind : List (String × Kind)} {entry : String × Kind} {taken : SymbolTable}
      {fault : TableFault} :
      entries = before ++ entry :: behind → ofEntries marker before = .ok taken →
      (taken.insert entry.1 entry.2).1 = .error fault → FirstFault marker entries fault

section Step
variable {table after : SymbolTable} {literal : String} {kind : Kind}

private theorem mem_literals_of_inserted (inserted : table.insert literal kind = (.ok (), after))
    {other : String} :
    other ∈ literals after ↔ other ∈ literals table ∨ other = literal := by
  have bound (entry : String × Kind) :
      entry ∈ after.entries ↔ entry ∈ table.entries ∨ entry = (literal, kind) := by
    obtain ⟨_, _, ⟨c, one, _, rfl⟩ | ⟨first, second, two, _, _, rfl⟩⟩ := insert_eq_ok inserted
    · rw [mem_entries_bindSingle, ← one, String.ofList_toList]
    · rw [mem_entries_bindDouble, ← two, String.ofList_toList]
  simp only [literals, List.mem_map, bound, or_and_right, exists_or, exists_eq_left]
  exact or_congr_right eq_comm

private theorem commentMarker_of_inserted (inserted : table.insert literal kind = (.ok (), after)) :
    after.commentMarker = table.commentMarker := by
  rw [commentMarker, commentMarker, (inserted_of_ok inserted).comment]

private theorem insertable_of_inserted (inserted : table.insert literal kind = (.ok (), after)) {other : String}
    {role : Kind} : Insertable after other role ↔ Insertable table other role ∧ other ≠ literal := by
  have free : other ∉ literals after ↔ other ∉ literals table ∧ other ≠ literal := by
    rw [mem_literals_of_inserted inserted, not_or]
  have marker := commentMarker_of_inserted inserted
  constructor
  · intro insertable
    obtain ⟨unbound, different⟩ := free.mp insertable.free
    exact ⟨⟨insertable.toAdmissible, unbound, marker ▸ insertable.apart⟩, different⟩
  · rintro ⟨insertable, different⟩
    exact ⟨insertable.toAdmissible, free.mpr ⟨insertable.free, different⟩, marker ▸ insertable.apart⟩

end Step

section Run
variable {table after : SymbolTable} {entries : List (String × Kind)} {fault : TableFault}

/-- Entries are taken in one after another exactly if each could be inserted by itself and no literal
comes twice. -/
theorem insertAll_isOk_iff :
    (∃ after, table.insertAll entries = .ok after) ↔
      (∀ entry ∈ entries, Insertable table entry.1 entry.2) ∧ (entries.map Prod.fst).Nodup := by
  induction entries generalizing table with
  | nil => exact ⟨fun _ => ⟨by simp, List.nodup_nil⟩, fun _ => ⟨table, rfl⟩⟩
  | cons entry entries ih =>
    rw [List.map_cons, List.nodup_cons, List.forall_mem_cons]
    constructor
    · rintro ⟨after, inserted⟩
      obtain ⟨bound, first, others⟩ := insertAll_cons_eq_ok inserted
      obtain ⟨insertable, distinct⟩ := ih.mp ⟨after, others⟩
      have behind := fun other member => (insertable_of_inserted first).mp (insertable other member)
      refine ⟨⟨insert_isOk_iff.mp ⟨bound, first⟩, fun other member => (behind other member).1⟩, ?_, distinct⟩
      intro again
      obtain ⟨other, member, same⟩ := List.mem_map.mp again
      exact (behind other member).2 same
    · rintro ⟨⟨here, insertable⟩, new, distinct⟩
      obtain ⟨bound, first⟩ := insert_isOk_iff.mpr here
      rw [insertAll_cons, first]
      apply ih.mpr
      refine ⟨fun other member => (insertable_of_inserted first).mpr ⟨insertable other member, ?_⟩, distinct⟩
      rintro same
      exact new (List.mem_map.mpr ⟨other, member, same⟩)

private theorem insertAll_eq_error_iff :
    table.insertAll entries = .error fault ↔
      ∃ before entry behind taken, entries = before ++ entry :: behind ∧
        table.insertAll before = .ok taken ∧ (taken.insert entry.1 entry.2).1 = .error fault := by
  constructor
  · intro failed
    induction entries generalizing table with
    | nil => cases failed
    | cons entry entries ih =>
      rw [insertAll_cons] at failed
      cases first : finished (table.insert entry.1 entry.2) with
      | error reported =>
        rw [first] at failed
        cases failed
        exact ⟨[], entry, entries, table, rfl, rfl, finished_eq_error_iff.mp first⟩
      | ok bound =>
        rw [first] at failed
        obtain ⟨before, refused, behind, taken, rfl, inserted, fails⟩ := ih failed
        refine ⟨entry :: before, refused, behind, taken, rfl, ?_, fails⟩
        rw [insertAll_cons, first]
        exact inserted
  · rintro ⟨before, entry, behind, taken, rfl, inserted, fails⟩
    rw [insertAll_append, inserted]
    change taken.insertAll (entry :: behind) = _
    rw [insertAll_cons, finished_eq_error_iff.mpr fails]
    rfl

end Run

section Marker
variable {marker : String}

private theorem empty_of_marks (marks : Marks marker) :
    ∃ blank, SymbolTable.empty marker = .ok blank ∧ literals blank = [] ∧ blank.commentMarker = marker := by
  have two := marks.length
  rw [← String.length_toList] at two
  obtain ⟨first, second, two⟩ := List.length_eq_two.mp two
  have visible := marks.visible
  rw [two] at visible
  refine ⟨⟨[], [], (first, second)⟩, ?_, rfl, ?_⟩
  · simp [SymbolTable.empty, two, visible first, visible second]
  · rw [commentMarker, ← two, String.ofList_toList]

private theorem empty_of_not_marks (other : ¬ Marks marker) :
    SymbolTable.empty marker = .error (.commentMarker marker) := by
  unfold SymbolTable.empty
  split
  next first second two =>
    split
    · rfl
    next plain =>
      refine absurd ⟨?_, ?_⟩ other
      · rw [← String.length_toList, two]
        rfl
      · rw [two]
        simpa using plain
  · rfl

end Marker

section Entries
variable {marker : String} {entries : List (String × Kind)} {fault : TableFault}

private theorem ofEntries_of_not_marks (other : ¬ Marks marker) (entries : List (String × Kind)) :
    ofEntries marker entries = .error (.commentMarker marker) := by
  rw [ofEntries, empty_of_not_marks other]
  rfl

private theorem ofEntries_isOk_iff :
    (∃ table, ofEntries marker entries = .ok table) ↔ Compatible marker entries := by
  by_cases marks : Marks marker
  · obtain ⟨blank, made, none, same⟩ := empty_of_marks marks
    rw [ofEntries_of_empty made, insertAll_isOk_iff]
    constructor
    · rintro ⟨insertable, distinct⟩
      refine ⟨marks, ?_, ?_, distinct⟩
      · exact fun entry member => (insertable entry member).toAdmissible
      · exact fun entry member => same ▸ (insertable entry member).apart
    · intro compatible
      refine ⟨fun entry member => ⟨compatible.admissible entry member, ?_, ?_⟩, compatible.distinct⟩
      · simp [none]
      · exact same ▸ compatible.apart entry member
  · rw [ofEntries_of_not_marks marks]
    simp only [reduceCtorEq, exists_false, false_iff]
    exact fun compatible => marks compatible.marks

private theorem ofEntries_eq_error_iff :
    ofEntries marker entries = .error fault ↔ FirstFault marker entries fault := by
  by_cases marks : Marks marker
  · obtain ⟨blank, made, _⟩ := empty_of_marks marks
    rw [ofEntries_of_empty made, insertAll_eq_error_iff]
    constructor
    · rintro ⟨before, entry, behind, taken, whole, inserted, fails⟩
      exact .entry whole ((ofEntries_of_empty made before).trans inserted) fails
    · intro first
      cases first with
      | marker other => exact absurd marks other
      | entry whole inserted fails =>
        exact ⟨_, _, _, _, whole, (ofEntries_of_empty made _).symm.trans inserted, fails⟩
  · rw [ofEntries_of_not_marks marks, Except.error.injEq]
    constructor
    · rintro rfl
      exact .marker marks
    · intro first
      cases first with
      | marker => rfl
      | entry _ inserted _ =>
        rw [ofEntries_of_not_marks marks] at inserted
        cases inserted

private theorem bindings_of_ofEntries {table : SymbolTable} (made : ofEntries marker entries = .ok table) :
    table.singles = entries.filterMap singleOf? ∧ table.doubles = entries.filterMap doubleOf? ∧
      table.commentMarker = marker := by
  obtain ⟨blank, empty, inserted⟩ := ofEntries_eq_ok_iff.mp made
  obtain ⟨first, second, two, _, rfl⟩ := empty_eq_ok empty
  obtain ⟨_, rfl⟩ := insertAll_eq_extend inserted
  refine ⟨rfl, rfl, ?_⟩
  change String.ofList [first, second] = marker
  rw [← two, String.ofList_toList]

end Entries

section Load
variable {text : String} {file : TableFile} (decoded : TableFile.parse text = .ok file)
include decoded

private theorem load_read_eq_ok_iff {table : SymbolTable} :
    SymbolTable.load text = .ok table ↔ ofEntries file.comment file.symbols = .ok table := by
  simp only [load_eq_ok_iff, decoded, Except.ok.injEq, exists_eq_left', TableFile.table]

private theorem load_read_eq_error_iff {fault : LoadFault} :
    SymbolTable.load text = .error fault ↔
      ∃ first, fault = .rejected first ∧ ofEntries file.comment file.symbols = .error first := by
  simp only [load_eq_error_iff, decoded, reduceCtorEq, false_and, exists_false, false_or, Except.ok.injEq,
    exists_eq_left', exists_and_left, TableFile.table, and_comm]

/-- A file that has been read makes a table exactly if its marker and its entries go together, and the
table has just these. Otherwise a fault of the table is reported, and it is the first that there is. -/
theorem load_decided :
    ((∃ table, SymbolTable.load text = .ok table) ↔ Compatible file.comment file.symbols) ∧
      (∀ table, SymbolTable.load text = .ok table →
        table.singles = file.symbols.filterMap singleOf? ∧
          table.doubles = file.symbols.filterMap doubleOf? ∧ table.commentMarker = file.comment) ∧
      (∀ fault, SymbolTable.load text = .error fault → ∃ message, fault.diagnostic = .symbolTable message) ∧
      ∀ fault, SymbolTable.load text = .error fault ↔
        ∃ first, fault = .rejected first ∧ FirstFault file.comment file.symbols first := by
  refine ⟨?_, ?_, ?_, ?_⟩
  · simp only [load_read_eq_ok_iff decoded, ofEntries_isOk_iff]
  · intro table loaded
    exact bindings_of_ofEntries ((load_read_eq_ok_iff decoded).mp loaded)
  · intro fault failed
    obtain ⟨first, rfl, _⟩ := (load_read_eq_error_iff decoded).mp failed
    exact ⟨first.message, rfl⟩
  · intro fault
    simp only [load_read_eq_error_iff decoded, ofEntries_eq_error_iff]

end Load

theorem load_decided_duplicate :
    let text := "[\"##\",[[\"+\",\"Add\"],[\"大過\",\"Minus\"],[\"+\",\"Add\"],[\"1\",\"Comment\"]]]"
    let symbols : List (String × Kind) := [("+", .add), ("大過", .minus), ("+", .add), ("1", .comment)]
    TableFile.parse text = .ok ⟨"##", symbols⟩ ∧ ¬ Compatible "##" symbols ∧
      SymbolTable.load text = .error (.rejected (.duplicateLiteral "+")) := by
  intro text symbols
  have decoded : TableFile.parse text = .ok ⟨"##", symbols⟩ := by decide +kernel
  obtain ⟨accepted, _, _, refused⟩ := load_decided decoded
  have whole : symbols = [("+", .add), ("大過", .minus)] ++ ("+", .add) :: [("1", .comment)] := rfl
  have made : ofEntries "##" [("+", .add), ("大過", .minus)] =
      .ok ⟨[('+', .add)], [(('大', '過'), .minus)], ('#', '#')⟩ := by decide +kernel
  have failed := (refused (.rejected (.duplicateLiteral "+"))).mpr
    ⟨_, rfl, .entry whole made (by decide +kernel)⟩
  refine ⟨decoded, ?_, failed⟩
  intro compatible
  obtain ⟨table, loaded⟩ := accepted.mpr compatible
  rw [failed] at loaded
  cases loaded

end CantoScan.Proofs.FileTables
