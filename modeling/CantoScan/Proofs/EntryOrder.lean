import CantoScan.Proofs.ScanReading
import CantoScan.Proofs.TableEntries
import CantoScan.Scan.Cursor

/-! The order of entries. Which entries a table accepts together does not depend on their order, and
neither does any answer that scanning asks for, so permuted entries give the same tokens. -/

namespace CantoScan.Proofs.EntryOrder
open TableRules TableEntries SymbolTable

private theorem lookup_of_perm {α : Type} [BEq α] [LawfulBEq α] {entries others : List (α × Kind)}
    (permuted : entries.Perm others) (distinct : (entries.map Prod.fst).Nodup) (key : α) :
    entries.lookup key = others.lookup key := by
  induction permuted with
  | nil => rfl
  | cons entry _ ih => rw [List.lookup_cons, List.lookup_cons, ih (List.nodup_cons.mp distinct).2]
  | swap first second entries =>
    have different : second.1 ≠ first.1 := by
      simp only [List.map_cons, List.nodup_cons, List.mem_cons, not_or] at distinct
      exact distinct.1.1
    rw [List.lookup_cons, List.lookup_cons, List.lookup_cons, List.lookup_cons]
    by_cases same : key = second.1
    · rw [same, beq_self_eq_true, beq_eq_false_iff_ne.mpr different]
    · rw [beq_eq_false_iff_ne.mpr same]
  | trans permuted _ first second =>
    exact (first distinct).trans (second ((permuted.map Prod.fst).nodup_iff.mp distinct))

/-- Two tables with the same bindings, in whatever order. -/
structure Permuted (first second : SymbolTable) : Prop where
  singles : first.singles.Perm second.singles
  doubles : first.doubles.Perm second.doubles
  comment : first.comment = second.comment

namespace Permuted
variable {first second : SymbolTable} (permuted : Permuted first second)
include permuted

theorem entries : first.entries.Perm second.entries :=
  (permuted.singles.map _).append (permuted.doubles.map _)

theorem sound (sound : Sound first) : Sound second where
  marker := permuted.comment ▸ sound.marker
  singles := (permuted.singles.map Prod.fst).nodup_iff.mp sound.singles
  doubles := (permuted.doubles.map Prod.fst).nodup_iff.mp sound.doubles
  apart := by
    rw [← permuted.comment, ← (permuted.doubles.map Prod.fst).mem_iff]
    exact sound.apart
  unreserved entry member := sound.unreserved entry (permuted.entries.mem_iff.mpr member)
  bindable entry member := sound.bindable entry (permuted.entries.mem_iff.mpr member)

end Permuted

private theorem extend_permuted (table : SymbolTable) {entries others : List (String × Kind)}
    (permuted : entries.Perm others) : Permuted (extend table entries) (extend table others) where
  singles := (permuted.filterMap singleOf?).append_left table.singles
  doubles := (permuted.filterMap doubleOf?).append_left table.doubles
  comment := rfl

private theorem insertAll_of_perm {table after : SymbolTable} (sound : Sound table)
    {entries others : List (String × Kind)} (permuted : entries.Perm others)
    (inserted : table.insertAll entries = .ok after) :
    ∃ other, table.insertAll others = .ok other ∧ Permuted after other := by
  obtain ⟨sized, kept, rfl⟩ := (insertAll_eq_ok_iff sound).mp inserted
  have same := extend_permuted table permuted
  have sizedToo : ∀ entry ∈ others, Sized entry :=
    fun entry member => sized entry (permuted.mem_iff.mpr member)
  exact ⟨_, (insertAll_eq_ok_iff sound).mpr ⟨sizedToo, same.sound kept, rfl⟩, same⟩

private theorem ofEntries_of_perm {marker : String} {entries others : List (String × Kind)}
    (permuted : entries.Perm others) {table : SymbolTable} (made : ofEntries marker entries = .ok table) :
    ∃ other, ofEntries marker others = .ok other ∧ Permuted table other := by
  obtain ⟨blank, first, inserted⟩ := ofEntries_eq_ok_iff.mp made
  rw [ofEntries_of_empty first]
  exact insertAll_of_perm (.empty first) permuted inserted

/-- Two tables that scanning cannot tell apart. -/
structure SameAnswers (first second : SymbolTable) : Prop where
  single : ∀ c, first.single c = second.single c
  double : ∀ c d, first.double c d = second.double c d
  startsDouble : ∀ c, first.startsDouble c = second.startsDouble c
  startsComment : ∀ c d, first.startsComment c d = second.startsComment c d

theorem Permuted.sameAnswers {first second : SymbolTable} (permuted : Permuted first second)
    (sound : Sound first) : SameAnswers first second where
  single := lookup_of_perm permuted.singles sound.singles
  double c d := lookup_of_perm permuted.doubles sound.doubles (c, d)
  startsDouble _ := permuted.doubles.any_eq
  startsComment c d := by rw [startsComment, startsComment, permuted.comment]

section Scan
variable {first second : SymbolTable}

/-- Scanning looks up literals and the marker, and nothing else depends on the table. -/
theorem lexeme_congr (single : ∀ c, first.single c = second.single c)
    (double : ∀ c d, first.double c d = second.double c d) (comment : first.comment = second.comment)
    (c : Char) (rest : List Char) : first.lexeme c rest = second.lexeme c rest := by
  have marker : first.opensComment c rest = second.opensComment c rest := by
    simp only [opensComment, Option.any, startsComment, comment]
  have pair : first.opensDouble c rest = second.opensDouble c rest := by
    rw [opensDouble_eq, opensDouble_eq, funext (double c)]
  rw [lexeme, lexeme, marker, pair, single]

theorem next_congr (same : ∀ c rest, first.lexeme c rest = second.lexeme c rest) (unread : Unread) :
    first.next unread = second.next unread := by
  simp only [SymbolTable.next, tokenAt, same]

theorem tokensFrom_congr (same : ∀ unread, first.next unread = second.next unread) (unread : Unread) :
    first.tokensFrom unread = second.tokensFrom unread := by
  cases final : (first.next unread).1.isEnd with
  | true => rw [tokensFrom_of_end final, tokensFrom_of_end (same unread ▸ final), same]
  | false =>
    have later := tokensFrom_congr same (first.next unread).2
    rw [tokensFrom_of_more final, later, same]
    exact (tokensFrom_of_more (same unread ▸ final)).symm
termination_by unread.text.length
decreasing_by exact next_length_lt final

end Scan

/-- A list of entries makes a table in any order or in none, and all these tables give the same answers
and the same tokens. Whatever a table was made from, only the look-ups of literals and the marker count
for the next token. -/
theorem ofEntries_perm (marker : String) {entries others : List (String × Kind)}
    (permuted : entries.Perm others) :
    ((∃ table, ofEntries marker entries = .ok table) ↔ ∃ table, ofEntries marker others = .ok table) ∧
      (∀ first second, ofEntries marker entries = .ok first → ofEntries marker others = .ok second →
        SameAnswers first second ∧ ∀ source, first.tokenize source = second.tokenize source) ∧
      ∀ first second : SymbolTable, (∀ c, first.single c = second.single c) →
        (∀ c d, first.double c d = second.double c d) → first.comment = second.comment →
          ∀ unread finished,
            let one : Token × Cursor := Cursor.take ⟨first, unread, finished⟩
            let other : Token × Cursor := Cursor.take ⟨second, unread, finished⟩
            one.1 = other.1 ∧ one.2.unread = other.2.unread ∧ one.2.finished = other.2.finished := by
  refine ⟨⟨?_, ?_⟩, ?_, ?_⟩
  · rintro ⟨table, made⟩
    obtain ⟨other, madeToo, _⟩ := ofEntries_of_perm permuted made
    exact ⟨other, madeToo⟩
  · rintro ⟨table, made⟩
    obtain ⟨other, madeToo, _⟩ := ofEntries_of_perm permuted.symm made
    exact ⟨other, madeToo⟩
  · intro first second made madeToo
    obtain ⟨other, again, same⟩ := ofEntries_of_perm permuted made
    obtain rfl : other = second := Except.ok.inj (again.symm.trans madeToo)
    have answers := same.sameAnswers (.ofEntries made)
    have read := lexeme_congr answers.single answers.double same.comment
    exact ⟨answers, fun source => congrArg Prod.fst (tokensFrom_congr (next_congr read) (.ofSource source))⟩
  · intro first second single double comment unread finished
    have step := next_congr (lexeme_congr single double comment) unread
    simp only [Cursor.take, step, and_self]

theorem ofEntries_perm_alike :
    let entries : List (String × Kind) := [("大", .add), ("大過", .minus), ("過", .divide)]
    let others : List (String × Kind) := [("過", .divide), ("大過", .minus), ("大", .add)]
    ∃ first second, entries.Perm others ∧ ofEntries "//" entries = .ok first ∧
      ofEntries "//" others = .ok second ∧ first ≠ second ∧ SameAnswers first second ∧
      first.tokenize "大 大過大" = second.tokenize "大 大過大" ∧
      second.tokenize "大 大過大" = [⟨.add, "大", ⟨0, 1, 1, 1⟩⟩, ⟨.minus, "大過", ⟨2, 4, 1, 3⟩⟩,
        ⟨.add, "大", ⟨4, 5, 1, 5⟩⟩, .atEnd ⟨5, 5, 1, 6⟩] := by
  intro entries others
  have permuted : entries.Perm others := by decide
  let first : SymbolTable := ⟨[('大', .add), ('過', .divide)], [(('大', '過'), .minus)], ('/', '/')⟩
  let second : SymbolTable := ⟨[('過', .divide), ('大', .add)], [(('大', '過'), .minus)], ('/', '/')⟩
  have made : ofEntries "//" entries = .ok first := by decide +kernel
  have madeToo : ofEntries "//" others = .ok second := by decide +kernel
  obtain ⟨answers, tokens⟩ := (ofEntries_perm "//" permuted).2.1 first second made madeToo
  exact ⟨first, second, permuted, made, madeToo, by decide, answers, tokens _, by decide +kernel⟩

end CantoScan.Proofs.EntryOrder
