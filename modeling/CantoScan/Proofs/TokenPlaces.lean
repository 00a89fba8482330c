import CantoScan.Proofs.Restart
import Mathlib.Data.List.DropRight

/-! Lines and columns counted in the source. A scan keeps them up to date with each character it passes;
at every token they say what the text before the token says, whatever has been read on the way. -/

namespace CantoScan.Proofs.TokenPlaces
open ScanReading Restart

/-- The characters of a text behind its last line feed, or all of them if it has none. -/
def lastLine (text : List Char) : List Char := text.rtakeWhile (· ≠ '\n')

private theorem lastLine_lineFeed (text : List Char) : lastLine (text ++ ['\n']) = [] :=
  List.rtakeWhile_concat_neg _ _ _ (by simp)

private theorem lastLine_append (text : List Char) {further : List Char} (single : '\n' ∉ further) :
    lastLine (text ++ further) = lastLine text ++ further := by
  have inside : ∀ c ∈ further.reverse, decide (c ≠ '\n') = true := by
    intro c member
    have other : c ≠ '\n' := fun feed => single (feed ▸ List.mem_reverse.mp member)
    exact decide_eq_true other
  rw [lastLine, lastLine, List.rtakeWhile, List.rtakeWhile, List.reverse_append,
    List.takeWhile_append_of_pos inside, List.reverse_append, List.reverse_reverse]

theorem lastLine_length_le (text : List Char) : (lastLine text).length ≤ text.length :=
  (List.rtakeWhile_suffix _ _).length_le

/-- A scan has counted the characters of the line that it is on. -/
theorem column_after_origin (before : List Char) :
    (Position.origin.after before).column = 1 + (lastLine before).length := by
  induction before using List.reverseRecOn with
  | nil => rfl
  | append_singleton before c ih =>
    rw [Position.after_append, Position.after_cons, Position.after_nil, Position.advance]
    split
    next feed =>
      rw [feed, lastLine_lineFeed]
      rfl
    next other =>
      rw [lastLine_append before (by simpa using Ne.symm other), List.length_append, ih]
      rfl

theorem line_after_origin (before : List Char) :
    (Position.origin.after before).line = 1 + before.count '\n' :=
  Position.after_line .origin before

/-- A stretch whose line and column are those of its first character in the source. -/
structure Counted (source : List Char) (span : Span) : Prop where
  within : span.start ≤ source.length
  line : span.line = 1 + (source.take span.start).count '\n'
  column : span.column = 1 + (lastLine (source.take span.start)).length

private theorem counted_between (before behind : List Char) (stop : Position) :
    Counted (before ++ behind) (.between (Position.origin.after before) stop) := by
  have front : (before ++ behind).take (Position.origin.after before).offset = before := by
    rw [after_origin_offset, List.take_left]
  refine ⟨?_, ?_, ?_⟩
  · change (Position.origin.after before).offset ≤ _
    rw [after_origin_offset, List.length_append]
    exact Nat.le_add_right ..
  · exact (line_after_origin before).trans (by rw [Span.between, front])
  · exact (column_after_origin before).trans (by rw [Span.between, front])

namespace Counted
variable {source : List Char} {span other : Span} (counted : Counted source span)
include counted

theorem line_le : span.line ≤ source.length + 1 := by
  have feeds : (source.take span.start).count '\n' ≤ (source.take span.start).length :=
    List.count_le_length
  have shorter : (source.take span.start).length ≤ source.length := List.length_take_le' ..
  rw [counted.line]
  omega

theorem column_le : span.column ≤ source.length + 1 := by
  have characters := lastLine_length_le (source.take span.start)
  have shorter : (source.take span.start).length ≤ source.length := List.length_take_le' ..
  rw [counted.column]
  omega

private theorem column_of_line (further : Counted source other) (line : other.line = span.line)
    (ordered : span.start ≤ other.start) :
    other.column = span.column + (other.start - span.start) := by
  have whole : source.take other.start = source.take span.start ++ source.extract span.start other.start := by
    rw [List.extract_eq_take_drop, ← List.take_add, Nat.add_sub_cancel' ordered]
  have single : '\n' ∉ source.extract span.start other.start := by
    rw [further.line, counted.line, whole, List.count_append] at line
    exact List.count_eq_zero.mp (by omega)
  have length : (source.extract span.start other.start).length = other.start - span.start := by
    have within := further.within
    rw [List.extract_eq_take_drop, List.length_take, List.length_drop]
    omega
  rw [further.column, counted.column, whole, lastLine_append _ single, List.length_append, length,
    Nat.add_assoc]

end Counted

theorem counted_of_mem {table : SymbolTable} {source : String} {token : Token}
    (member : token ∈ table.tokenize source) : Counted source.toList token.span := by
  obtain ⟨earlier, later, tokens⟩ := List.append_of_mem member
  obtain ⟨before, behind, stop, whole, place, _⟩ := exists_rest table (reads_ofSource source) tokens
  rw [whole, place]
  exact counted_between before behind stop

/-- Under every table each token, the last one included, has the line and the column that counting in the
source gives. So neither is greater than the number of characters by more than one, and on one line
columns are as far apart as the characters, be they tabs, carriage returns or of any script. -/
theorem tokenize_counted (table : SymbolTable) (source : String) {token : Token}
    (member : token ∈ table.tokenize source) :
    Counted source.toList token.span ∧
      token.span.line ≤ source.length + 1 ∧ token.span.column ≤ source.length + 1 ∧
      ∀ other ∈ table.tokenize source, other.span.line = token.span.line →
        token.span.start ≤ other.span.start →
          other.span.column = token.span.column + (other.span.start - token.span.start) := by
  have counted := counted_of_mem member
  have line := counted.line_le
  have column := counted.column_le
  rw [String.length_toList] at line column
  refine ⟨counted, line, column, ?_⟩
  intro other inside same ordered
  exact counted.column_of_line (counted_of_mem inside) same ordered

theorem tokenize_counted_returns :
    let source := "大\t/\r\n\t\r大過 \r"
    let token : Token := ⟨.greaterThan, "大過", ⟨7, 9, 2, 3⟩⟩
    token ∈ SymbolTable.cantonese.tokenize source ∧ Counted source.toList token.span ∧
      ∃ last ∈ SymbolTable.cantonese.tokenize source,
        last.kind = .endOfInput ∧ last.span.column = token.span.column + 4 := by
  intro source token
  have member : token ∈ SymbolTable.cantonese.tokenize source := by decide +kernel
  have final : .atEnd ⟨11, 11, 2, 7⟩ ∈ SymbolTable.cantonese.tokenize source := by decide +kernel
  obtain ⟨counted, _, _, even⟩ := tokenize_counted .cantonese source member
  exact ⟨member, counted, _, final, rfl, even _ final rfl (by decide)⟩

end CantoScan.Proofs.TokenPlaces
