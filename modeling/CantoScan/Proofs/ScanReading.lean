import CantoScan.Proofs.LexemeLaw
import CantoScan.Scan.Tokenize

/-! Scanning as a walk through a source. The unread text is always the source behind the place that
has been reached, every token is what begins at its place, and the walk ends with the source. -/

namespace CantoScan.Proofs.ScanReading
open SourceRuns TableRules LexemeLaw

/-- What is unread is what is left of the source, and its position counts what stands before it. -/
def Reads (source : List Char) (unread : Unread) : Prop :=
  ∃ before, source = before ++ unread.text ∧ unread.position = Position.origin.after before

theorem after_origin_offset (before : List Char) :
    (Position.origin.after before).offset = before.length := by
  rw [Position.after_offset]
  exact Nat.zero_add _

theorem reads_ofSource (source : String) : Reads source.toList (.ofSource source) := ⟨[], rfl, rfl⟩

theorem Reads.advance {source : List Char} {position : Position} (first second : List Char)
    (reads : Reads source ⟨position, first ++ second⟩) :
    Reads source ⟨position.after first, second⟩ := by
  obtain ⟨before, rfl, rfl⟩ := reads
  exact ⟨before ++ first, (List.append_assoc ..).symm, (Position.after_append ..).symm⟩

section Walk
variable {source : List Char} {unread : Unread}

theorem Reads.skipBlanks (reads : Reads source unread) : Reads source unread.skipBlanks := by
  apply Reads.advance (unread.text.takeWhile Text.isBlank)
  rwa [Text.dropBlanks, List.takeWhile_append_dropWhile]

theorem Reads.blanks (reads : Reads source unread) :
    LongestRun Text.isBlank source unread.position.offset unread.skipBlanks.position.offset := by
  obtain ⟨before, rfl, place⟩ := reads
  have run := LongestRun.of_takeWhile Text.isBlank before unread.text
  rwa [Unread.skipBlanks, Position.after_offset, place, after_origin_offset]

/-- Where nothing but blanks is left, skipping them leads to the end of the source. -/
theorem Reads.skipBlanks_of_nil (reads : Reads source unread) (done : unread.skipBlanks.text = []) :
    unread.skipBlanks.position = Position.origin.after source := by
  obtain ⟨before, whole, place⟩ := reads.skipBlanks
  rw [place, whole, done, List.append_nil]

theorem isBlank_of_skipBlanks {c : Char} {rest : List Char} (front : unread.skipBlanks.text = c :: rest) :
    Text.isBlank c = false := by
  have first := List.head?_dropWhile_not Text.isBlank unread.text
  rw [show unread.text.dropWhile Text.isBlank = c :: rest from front] at first
  exact first

theorem skipBlanks_eq {c : Char} {rest : List Char} (front : unread.skipBlanks.text = c :: rest) :
    unread.skipBlanks = ⟨unread.skipBlanks.position, c :: rest⟩ := by
  rw [← front]

end Walk

theorem Reads.tokenAt {source : List Char} {position : Position} {c : Char} {rest : List Char}
    (reads : Reads source ⟨position, c :: rest⟩) (table : SymbolTable) :
    Reads source (table.tokenAt position c rest).2 := by
  apply Reads.advance (table.lexeme c rest).text
  rwa [table.lexeme_text_append_rest]

theorem Reads.next {source : List Char} {unread : Unread} (reads : Reads source unread)
    (table : SymbolTable) : Reads source (table.next unread).2 := by
  have here := reads.skipBlanks
  cases front : unread.skipBlanks.text with
  | nil =>
    rw [SymbolTable.next_of_nil front]
    exact here
  | cons c rest =>
    rw [SymbolTable.next_of_cons front]
    rw [skipBlanks_eq front] at here
    exact here.tokenAt table

section TokenAt
variable (table : SymbolTable) (position : Position) (c : Char) (rest : List Char)

@[simp] theorem kind_tokenAt : (table.tokenAt position c rest).1.kind = (table.lexeme c rest).kind := rfl

@[simp] theorem toList_literal_tokenAt :
    (table.tokenAt position c rest).1.literal.toList = (table.lexeme c rest).text :=
  String.toList_ofList

@[simp] theorem start_tokenAt : (table.tokenAt position c rest).1.span.start = position.offset := rfl

@[simp] theorem stop_tokenAt :
    (table.tokenAt position c rest).1.span.stop =
      position.offset + (table.lexeme c rest).text.length :=
  Position.after_offset position (table.lexeme c rest).text

end TokenAt

/-- A token that is taken where its first character stands. -/
def Stands (table : SymbolTable) (source : List Char) (token : Token) : Prop :=
  ∃ before c rest, source = before ++ c :: rest ∧ Text.isBlank c = false ∧
    token = (table.tokenAt (Position.origin.after before) c rest).1

namespace Stands
variable {table : SymbolTable} {source : List Char} {token : Token} (stands : Stands table source token)
include stands

theorem rule : Rule table source token.span.start token.kind token.span.stop := by
  obtain ⟨before, c, rest, rfl, visible, rfl⟩ := stands
  rw [kind_tokenAt, start_tokenAt, stop_tokenAt, after_origin_offset]
  exact rule_lexeme table before rest c (by rintro rfl; cases visible)

theorem literal : token.literal.toList = source.extract token.span.start token.span.stop := by
  obtain ⟨before, c, rest, rfl, _, rfl⟩ := stands
  rw [toList_literal_tokenAt, start_tokenAt, stop_tokenAt, after_origin_offset,
    ← table.lexeme_text_append_rest c rest, extract_append]

theorem front : ∃ c, source[token.span.start]? = some c ∧ Text.isBlank c = false := by
  obtain ⟨before, c, rest, rfl, visible, rfl⟩ := stands
  rw [start_tokenAt, after_origin_offset]
  exact ⟨c, getElem?_front before rest c, visible⟩

theorem start_lt_stop : token.span.start < token.span.stop := by
  obtain ⟨before, c, rest, rfl, _, rfl⟩ := stands
  rw [start_tokenAt, stop_tokenAt]
  exact Nat.lt_add_of_pos_right (List.length_pos_iff.mpr (table.lexeme_text_ne_nil c rest))

theorem stop_le_length : token.span.stop ≤ source.length := by
  obtain ⟨before, c, rest, rfl, _, rfl⟩ := stands
  rw [stop_tokenAt, after_origin_offset, ← table.lexeme_text_append_rest c rest]
  simp only [List.length_append]
  omega

theorem length : token.literal.toList.length = token.span.stop - token.span.start := by
  have within := stands.stop_le_length
  rw [stands.literal, List.extract_eq_take_drop, List.length_take, List.length_drop]
  omega

theorem kind_ne_end (sound : Sound table) : token.kind ≠ .endOfInput :=
  rule_kind_ne_end sound stands.rule

end Stands

section Tokens
variable {table : SymbolTable}

/-- Whatever holds behind the last lexeme, and before a lexeme if it holds behind it, holds everywhere. -/
theorem scan_induction {motive : Unread → Prop} (table : SymbolTable)
    (blank : ∀ unread, unread.skipBlanks.text = [] → motive unread)
    (lexeme : ∀ unread c rest, unread.skipBlanks.text = c :: rest →
      motive (table.tokenAt unread.skipBlanks.position c rest).2 → motive unread)
    (unread : Unread) : motive unread := by
  cases front : unread.skipBlanks.text with
  | nil => exact blank unread front
  | cons c rest => exact lexeme unread c rest front (scan_induction table blank lexeme _)
termination_by unread.text.length
decreasing_by
  have shorter := table.lexeme_rest_length_lt c rest
  have bound := unread.skipBlanks_length_le
  rw [front] at bound
  exact Nat.lt_of_lt_of_le shorter bound

theorem tokensFrom_of_blank {unread : Unread} (done : unread.skipBlanks.text = []) :
    table.tokensFrom unread = ([.atEnd (.point unread.skipBlanks.position)], unread.skipBlanks) := by
  have last : table.next unread = _ := SymbolTable.next_of_nil done
  rw [SymbolTable.tokensFrom_of_end (by rw [last]; rfl), last]

theorem isEnd_tokenAt (sound : Sound table) (position : Position) {c : Char} (rest : List Char)
    (visible : Text.isBlank c = false) : (table.tokenAt position c rest).1.isEnd = false := by
  have law := rule_lexeme table [] rest c (by rintro rfl; cases visible)
  exact decide_eq_false (rule_kind_ne_end sound law)

theorem tokensFrom_of_lexeme (sound : Sound table) {unread : Unread} {c : Char} {rest : List Char}
    (front : unread.skipBlanks.text = c :: rest) :
    table.tokensFrom unread =
      let step := table.tokenAt unread.skipBlanks.position c rest
      (step.1 :: (table.tokensFrom step.2).1, (table.tokensFrom step.2).2) := by
  have first : table.next unread = _ := SymbolTable.next_of_cons front
  have inner := isEnd_tokenAt sound unread.skipBlanks.position rest (isBlank_of_skipBlanks front)
  rw [SymbolTable.tokensFrom_of_more (by rw [first, inner]), first]

end Tokens

end CantoScan.Proofs.ScanReading
