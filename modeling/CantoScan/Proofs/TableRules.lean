import CantoScan.Proofs.TableUpdates
import CantoScan.Table.Builtin
import CantoScan.Table.File
import Mathlib.Data.List.Basic

/-! The rules that a symbol table keeps, whatever it was made from and however often a literal was
offered to it. Insertion checks every rule; offered spellings need only be checked once. -/

namespace CantoScan.Proofs.TableRules
open SymbolTable TableUpdates

/-- No literal is bound twice or stands for a comment, none contains a digit or white space, and none
names a kind that scanning produces. -/
structure Sound (table : SymbolTable) : Prop where
  marker : Unicode.isWhiteSpace table.comment.1 = false ∧ Unicode.isWhiteSpace table.comment.2 = false
  singles : (table.singles.map Prod.fst).Nodup
  doubles : (table.doubles.map Prod.fst).Nodup
  apart : table.comment ∉ table.doubles.map Prod.fst
  unreserved : ∀ entry ∈ table.entries, ∀ c ∈ entry.1.toList, isReserved c = false
  bindable : ∀ entry ∈ table.entries, entry.2.isScanned = false

/-- The table that an insertion leaves, whatever comes of it. -/
def attempt (table : SymbolTable) (literal : String) (kind : Kind) : SymbolTable :=
  (table.insert literal kind).2

/-- The tables that a caller can come by. -/
inductive Obtainable : SymbolTable → Prop where
  | cantonese : Obtainable .cantonese
  | empty {marker : String} {table : SymbolTable} :
      SymbolTable.empty marker = .ok table → Obtainable table
  | load {text : String} {table : SymbolTable} : SymbolTable.load text = .ok table → Obtainable table
  | insert {table : SymbolTable} (literal : String) (kind : Kind) :
      Obtainable table → Obtainable (attempt table literal kind)
  | asciiPunctuation {table : SymbolTable} : Obtainable table → Obtainable table.withAsciiPunctuation
  | wordOperators {table : SymbolTable} : Obtainable table → Obtainable table.withWordOperators

theorem mem_entries_bindSingle {table : SymbolTable} {c : Char} {kind : Kind} {entry : String × Kind} :
    entry ∈ (table.bindSingle c kind).entries ↔
      entry ∈ table.entries ∨ entry = (String.ofList [c], kind) := by
  simp only [entries, bindSingle, List.map_append, List.mem_append, List.map_cons, List.map_nil,
    List.mem_singleton]
  exact or_right_comm

theorem mem_entries_bindDouble {table : SymbolTable} {first second : Char} {kind : Kind}
    {entry : String × Kind} :
    entry ∈ (table.bindDouble first second kind).entries ↔
      entry ∈ table.entries ∨ entry = (String.ofList [first, second], kind) := by
  simp only [entries, bindDouble, List.map_append, List.mem_append, List.map_cons, List.map_nil,
    List.mem_singleton]
  exact or_assoc.symm

private theorem not_mem_keys_of_lookup_eq_none {α : Type} [BEq α] [LawfulBEq α] {key : α}
    {bindings : List (α × Kind)} (free : bindings.lookup key = none) :
    key ∉ bindings.map Prod.fst := by
  intro bound
  obtain ⟨binding, member, rfl⟩ := List.mem_map.mp bound
  have other := List.lookup_eq_none_iff.mp free binding member
  simp at other

private theorem nodup_keys_append {α : Type} [BEq α] [LawfulBEq α] {key : α} {kind : Kind}
    {bindings : List (α × Kind)} (distinct : (bindings.map Prod.fst).Nodup)
    (free : bindings.lookup key = none) :
    ((bindings ++ [(key, kind)]).map Prod.fst).Nodup := by
  rw [List.map_append, List.nodup_append]
  refine ⟨distinct, by simp, ?_⟩
  intro other bound last member
  obtain rfl : last = key := by simpa using member
  rintro rfl
  exact not_mem_keys_of_lookup_eq_none free bound

theorem mem_entries_of_single {table : SymbolTable} {c : Char} {kind : Kind}
    (bound : table.single c = some kind) : (String.ofList [c], kind) ∈ table.entries := by
  obtain ⟨before, behind, split, _⟩ := List.lookup_eq_some_iff.mp bound
  exact List.mem_append_left _ (List.mem_map.mpr ⟨(c, kind), by simp [split], rfl⟩)

theorem mem_entries_of_double {table : SymbolTable} {first second : Char} {kind : Kind}
    (bound : table.double first second = some kind) :
    (String.ofList [first, second], kind) ∈ table.entries := by
  obtain ⟨before, behind, split, _⟩ := List.lookup_eq_some_iff.mp bound
  exact List.mem_append_right _ (List.mem_map.mpr ⟨((first, second), kind), by simp [split], rfl⟩)

theorem mem_entries_of_literalOf? {table : SymbolTable} {kind : Kind} {literal : String}
    (spelling : table.literalOf? kind = some literal) : (literal, kind) ∈ table.entries := by
  unfold literalOf? at spelling
  split at spelling
  next entry found =>
    obtain rfl := Option.some.inj spelling
    obtain rfl : entry.2 = kind := by simpa using List.find?_some found
    exact List.mem_append_left _ (List.mem_map.mpr ⟨entry, List.mem_of_find?_eq_some found, rfl⟩)
  next =>
    obtain ⟨entry, found, rfl⟩ := Option.map_eq_some_iff.mp spelling
    obtain rfl : entry.2 = kind := by simpa using List.find?_some found
    exact List.mem_append_right _ (List.mem_map.mpr ⟨entry, List.mem_of_find?_eq_some found, rfl⟩)

/-- An empty table has a marker of two characters that are no white space, and nothing else. -/
theorem empty_eq_ok {marker : String} {table : SymbolTable} (made : SymbolTable.empty marker = .ok table) :
    ∃ first second, marker.toList = [first, second] ∧
      (Unicode.isWhiteSpace first = false ∧ Unicode.isWhiteSpace second = false) ∧
        table = ⟨[], [], (first, second)⟩ := by
  unfold SymbolTable.empty at made
  split at made
  next first second two =>
    split at made
    · cases made
    next plain => exact ⟨first, second, two, by simpa using plain, (Except.ok.inj made).symm⟩
  · cases made

section Load

theorem mapError_eq_ok {ε δ α : Type} {result : Except ε α} {f : ε → δ} {value : α} :
    result.mapError f = .ok value ↔ result = .ok value := by
  cases result <;> simp [Except.mapError]

private theorem mapError_eq_error {ε δ α : Type} {result : Except ε α} {f : ε → δ} {fault : δ} :
    result.mapError f = .error fault ↔ ∃ first, result = .error first ∧ fault = f first := by
  cases result <;> simp [Except.mapError, eq_comm]

variable {text : String}

theorem load_eq_ok_iff {table : SymbolTable} :
    SymbolTable.load text = .ok table ↔
      ∃ file, TableFile.parse text = .ok file ∧ file.table = .ok table := by
  unfold SymbolTable.load
  cases TableFile.parse text with
  | error fault => simp
  | ok file => simp [mapError_eq_ok]

/-- Only a text that has been read to its end is rejected for what it says. -/
theorem load_eq_error_iff {fault : LoadFault} :
    SymbolTable.load text = .error fault ↔
      (∃ problem, TableFile.parse text = .error problem ∧ fault = .malformed problem) ∨
        ∃ file first, TableFile.parse text = .ok file ∧ file.table = .error first ∧
          fault = .rejected first := by
  unfold SymbolTable.load
  cases TableFile.parse text with
  | error problem => simp [eq_comm]
  | ok file => simp [mapError_eq_error]

end Load

namespace Sound

theorem single_kind {table : SymbolTable} (sound : Sound table) {c : Char} {kind : Kind}
    (bound : table.single c = some kind) : kind.isScanned = false :=
  sound.bindable _ (mem_entries_of_single bound)

theorem double_kind {table : SymbolTable} (sound : Sound table) {first second : Char} {kind : Kind}
    (bound : table.double first second = some kind) : kind.isScanned = false :=
  sound.bindable _ (mem_entries_of_double bound)

theorem single_unreserved {table : SymbolTable} (sound : Sound table) {c : Char} {kind : Kind}
    (bound : table.single c = some kind) : isReserved c = false :=
  sound.unreserved _ (mem_entries_of_single bound) c (by simp)

theorem double_unreserved {table : SymbolTable} (sound : Sound table) {first second : Char} {kind : Kind}
    (bound : table.double first second = some kind) :
    isReserved first = false ∧ isReserved second = false :=
  ⟨sound.unreserved _ (mem_entries_of_double bound) first (by simp),
    sound.unreserved _ (mem_entries_of_double bound) second (by simp)⟩

theorem bindSingle {table : SymbolTable} (sound : Sound table) {c : Char} {kind : Kind}
    (free : table.single c = none) (plain : isReserved c = false) (bindable : kind.isScanned = false) :
    Sound (table.bindSingle c kind) where
  marker := sound.marker
  singles := nodup_keys_append sound.singles free
  doubles := sound.doubles
  apart := sound.apart
  unreserved := by
    intro entry member
    rcases mem_entries_bindSingle.mp member with old | rfl
    · exact sound.unreserved entry old
    · simpa using plain
  bindable := by
    intro entry member
    rcases mem_entries_bindSingle.mp member with old | rfl
    · exact sound.bindable entry old
    · exact bindable

theorem bindDouble {table : SymbolTable} (sound : Sound table) {first second : Char} {kind : Kind}
    (free : table.double first second = none) (apart : table.startsComment first second = false)
    (plain : isReserved first = false ∧ isReserved second = false) (bindable : kind.isScanned = false) :
    Sound (table.bindDouble first second kind) where
  marker := sound.marker
  singles := sound.singles
  doubles := nodup_keys_append sound.doubles free
  apart := by
    intro member
    simp only [SymbolTable.bindDouble, List.map_append, List.mem_append] at member
    rcases member with old | last
    · exact sound.apart old
    · simp [startsComment] at apart last
      exact apart last
  unreserved := by
    intro entry member
    rcases mem_entries_bindDouble.mp member with old | rfl
    · exact sound.unreserved entry old
    · simpa using plain
  bindable := by
    intro entry member
    rcases mem_entries_bindDouble.mp member with old | rfl
    · exact sound.bindable entry old
    · exact bindable

theorem insert {table after : SymbolTable} (sound : Sound table) {literal : String} {kind : Kind}
    (inserted : table.insert literal kind = (.ok (), after)) : Sound after := by
  obtain ⟨bindable, plain, binding⟩ := insert_eq_ok inserted
  rcases binding with ⟨c, one, free, rfl⟩ | ⟨first, second, two, apart, free, rfl⟩
  · exact sound.bindSingle free (plain c (by simp [one])) bindable
  · exact sound.bindDouble free apart ⟨plain first (by simp [two]), plain second (by simp [two])⟩ bindable

theorem insertAll {table after : SymbolTable} (sound : Sound table) {entries : List (String × Kind)}
    (inserted : table.insertAll entries = .ok after) : Sound after := by
  induction entries generalizing table with
  | nil =>
    cases inserted
    exact sound
  | cons entry entries ih =>
    obtain ⟨bound, first, rest⟩ := insertAll_cons_eq_ok inserted
    exact ih (sound.insert first) rest

theorem offer {table : SymbolTable} (sound : Sound table) {spelling : Char × Kind}
    (plain : isReserved spelling.1 = false) (bindable : spelling.2.isScanned = false) :
    Sound (table.offer spelling) := by
  unfold SymbolTable.offer
  split
  next free => exact sound.bindSingle free plain bindable
  · exact sound

theorem offerAll {table : SymbolTable} (sound : Sound table) {spellings : List (Char × Kind)}
    (plain : ∀ spelling ∈ spellings, isReserved spelling.1 = false ∧ spelling.2.isScanned = false) :
    Sound (table.offerAll spellings) := by
  induction spellings generalizing table with
  | nil => exact sound
  | cons spelling spellings ih =>
    obtain ⟨first, rest⟩ := List.forall_mem_cons.mp plain
    exact ih (sound.offer first.1 first.2) rest

theorem empty {marker : String} {table : SymbolTable} (made : SymbolTable.empty marker = .ok table) :
    Sound table := by
  obtain ⟨first, second, _, plain, rfl⟩ := empty_eq_ok made
  exact ⟨plain, by simp, by simp, by simp, by simp [entries], by simp [entries]⟩

theorem cantonese : Sound .cantonese where
  marker := by decide
  singles := by decide
  doubles := by decide
  apart := by decide
  unreserved := by
    -- Deciding the statement itself would try every character there is.
    have checked : ∀ entry ∈ SymbolTable.cantonese.entries,
        entry.1.toList.all (fun c => isReserved c = false) = true := by decide
    intro entry member c inside
    simpa using List.all_eq_true.mp (checked entry member) c inside
  bindable := by decide

theorem ofEntries {marker : String} {entries : List (String × Kind)} {table : SymbolTable}
    (made : SymbolTable.ofEntries marker entries = .ok table) : Sound table := by
  obtain ⟨blank, first, inserted⟩ := ofEntries_eq_ok_iff.mp made
  exact (empty first).insertAll inserted

theorem load {text : String} {table : SymbolTable} (loaded : SymbolTable.load text = .ok table) :
    Sound table := by
  obtain ⟨file, _, made⟩ := load_eq_ok_iff.mp loaded
  exact ofEntries made

theorem attempt {table : SymbolTable} (sound : Sound table) (literal : String) (kind : Kind) :
    Sound (attempt table literal kind) := by
  rw [TableRules.attempt]
  rcases changed : table.insert literal kind with ⟨_ | _, after⟩
  · rw [insert_unchanged changed]
    exact sound
  · exact sound.insert changed

end Sound

/-- No way to make or to extend a table breaks a rule. -/
theorem Obtainable.sound {table : SymbolTable} (obtained : Obtainable table) : Sound table := by
  induction obtained with
  | cantonese => exact .cantonese
  | empty made => exact .empty made
  | load loaded => exact .load loaded
  | insert literal kind _ ih => exact ih.attempt literal kind
  | asciiPunctuation _ ih => exact ih.offerAll (by decide)
  | wordOperators _ ih => exact ih.offerAll (by decide)

end CantoScan.Proofs.TableRules
