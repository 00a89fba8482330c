import CantoScan.Proofs.TokenStream

/-! Scanning from a place on. A scan knows of the text before it only how many characters, lines and
columns it takes up. So the rest of a source has by itself the tokens that the whole source has from
there on, and only their places are counted anew. -/

namespace CantoScan.Proofs.Restart
open ScanReading TokenStream

/-- How far a text is moved by what comes before it. Columns are moved on its first line only. -/
structure Distance where
  characters : Nat
  lines : Nat
  columns : Nat

def movePosition (ahead : Distance) (position : Position) : Position where
  offset := position.offset + ahead.characters
  line := position.line + ahead.lines
  column := if position.line = 1 then position.column + ahead.columns else position.column

def moveSpan (ahead : Distance) (span : Span) : Span where
  start := span.start + ahead.characters
  stop := span.stop + ahead.characters
  line := span.line + ahead.lines
  column := if span.line = 1 then span.column + ahead.columns else span.column

def moveToken (ahead : Distance) (token : Token) : Token :=
  { token with span := moveSpan ahead token.span }

def moveUnread (ahead : Distance) (unread : Unread) : Unread :=
  ⟨movePosition ahead unread.position, unread.text⟩

section Move
variable (ahead : Distance)

private theorem movePosition_origin :
    movePosition ahead .origin = ⟨ahead.characters, ahead.lines + 1, ahead.columns + 1⟩ := by
  simp [movePosition, Position.origin, Nat.add_comm]

private theorem advance_movePosition {position : Position} (line : 1 ≤ position.line) (c : Char) :
    (movePosition ahead position).advance c = movePosition ahead (position.advance c) := by
  unfold Position.advance
  split
  next feed =>
    have further : position.line + 1 ≠ 1 := by omega
    simp only [movePosition, if_neg further, Nat.add_right_comm]
  next other =>
    unfold movePosition
    split <;> simp only [Nat.add_right_comm]

private theorem one_le_line_after {position : Position} (line : 1 ≤ position.line) (text : List Char) :
    1 ≤ (position.after text).line := by
  rw [Position.after_line]
  omega

theorem after_movePosition {position : Position} (line : 1 ≤ position.line) (text : List Char) :
    (movePosition ahead position).after text = movePosition ahead (position.after text) := by
  induction text generalizing position with
  | nil => rfl
  | cons c text ih =>
    rw [Position.after_cons, advance_movePosition ahead line, Position.after_cons]
    exact ih (one_le_line_after line [c])

private theorem skipBlanks_moveUnread {unread : Unread} (line : 1 ≤ unread.position.line) :
    (moveUnread ahead unread).skipBlanks = moveUnread ahead unread.skipBlanks := by
  simp only [Unread.skipBlanks, moveUnread, after_movePosition ahead line]

private theorem next_moveUnread (table : SymbolTable) {unread : Unread} (line : 1 ≤ unread.position.line) :
    table.next (moveUnread ahead unread) =
        (moveToken ahead (table.next unread).1, moveUnread ahead (table.next unread).2) ∧
      1 ≤ (table.next unread).2.position.line := by
  have skipped := skipBlanks_moveUnread ahead line
  have start : 1 ≤ unread.skipBlanks.position.line := one_le_line_after line _
  cases front : unread.skipBlanks.text with
  | nil =>
    have frontToo : (moveUnread ahead unread).skipBlanks.text = [] := by rw [skipped]; exact front
    rw [SymbolTable.next_of_nil front, SymbolTable.next_of_nil frontToo, skipped]
    exact ⟨rfl, start⟩
  | cons c rest =>
    have frontToo : (moveUnread ahead unread).skipBlanks.text = c :: rest := by rw [skipped]; exact front
    rw [SymbolTable.next_of_cons front, SymbolTable.next_of_cons frontToo, skipped]
    refine ⟨?_, one_le_line_after start _⟩
    simp only [SymbolTable.tokenAt, moveUnread, after_movePosition ahead start]
    rfl

/-- Moving the place where a scan begins moves all its tokens. -/
theorem tokensFrom_move (table : SymbolTable) (unread : Unread) (line : 1 ≤ unread.position.line) :
    (table.tokensFrom (moveUnread ahead unread)).1 =
      (table.tokensFrom unread).1.map (moveToken ahead) := by
  obtain ⟨step, behind⟩ := next_moveUnread ahead table line
  have same : (table.next (moveUnread ahead unread)).1.isEnd = (table.next unread).1.isEnd := by
    rw [step]
    rfl
  cases final : (table.next unread).1.isEnd with
  | true =>
    rw [SymbolTable.tokensFrom_of_end final, SymbolTable.tokensFrom_of_end (same.trans final), step]
    rfl
  | false =>
    have later := tokensFrom_move table (table.next unread).2 behind
    rw [SymbolTable.tokensFrom_of_more final, SymbolTable.tokensFrom_of_more (same.trans final), step,
      List.map_cons, ← later]
termination_by unread.text.length
decreasing_by exact SymbolTable.next_length_lt final

end Move

section Rest
variable (table : SymbolTable)

private theorem span_next (unread : Unread) :
    ∃ stop, (table.next unread).1.span = .between unread.skipBlanks.position stop := by
  cases front : unread.skipBlanks.text with
  | nil =>
    rw [SymbolTable.next_of_nil front]
    exact ⟨_, rfl⟩
  | cons c rest =>
    rw [SymbolTable.next_of_cons front]
    exact ⟨_, rfl⟩

private theorem next_of_tokensFrom {unread : Unread} {token : Token} {later : List Token}
    (tokens : (table.tokensFrom unread).1 = token :: later) : (table.next unread).1 = token := by
  cases final : (table.next unread).1.isEnd with
  | true =>
    rw [SymbolTable.tokensFrom_of_end final] at tokens
    exact (List.cons.inj tokens).1
  | false =>
    rw [SymbolTable.tokensFrom_of_more final] at tokens
    exact (List.cons.inj tokens).1

theorem exists_rest {source : List Char} {earlier later : List Token} {token : Token} {unread : Unread}
    (reads : Reads source unread) (tokens : (table.tokensFrom unread).1 = earlier ++ token :: later) :
    ∃ before behind stop, source = before ++ behind ∧
      token.span = .between (Position.origin.after before) stop ∧
      (table.tokensFrom ⟨Position.origin.after before, behind⟩).1 = token :: later := by
  induction earlier generalizing unread with
  | nil =>
    obtain ⟨stop, begins⟩ := span_next table unread
    obtain ⟨before, whole, place⟩ := reads.skipBlanks
    rw [next_of_tokensFrom table tokens, place] at begins
    refine ⟨before, unread.skipBlanks.text, stop, whole, begins, ?_⟩
    rw [← place, tokensFrom_congr (skipBlanks_skipBlanks unread)]
    exact tokens
  | cons first earlier ih =>
    cases final : (table.next unread).1.isEnd with
    | true =>
      rw [SymbolTable.tokensFrom_of_end final] at tokens
      simp at tokens
    | false =>
      rw [SymbolTable.tokensFrom_of_more final] at tokens
      exact ih (reads.next table) (List.cons.inj tokens).2

end Rest

private theorem one_le_column_after {position : Position} (column : 1 ≤ position.column) (text : List Char) :
    1 ≤ (position.after text).column := by
  induction text generalizing position with
  | nil => exact column
  | cons c text ih =>
    apply ih
    unfold Position.advance
    split
    · exact Nat.le_refl 1
    · exact Nat.le_add_left 1 _

private theorem exists_movePosition (before : List Char) :
    ∃ ahead : Distance, ahead.characters = before.length ∧
      Position.origin.after before = movePosition ahead .origin := by
  let place := Position.origin.after before
  have offset : place.offset = before.length := after_origin_offset before
  have line : 1 ≤ place.line := one_le_line_after (Nat.le_refl 1) before
  have column : 1 ≤ place.column := one_le_column_after (Nat.le_refl 1) before
  refine ⟨⟨before.length, place.line - 1, place.column - 1⟩, rfl, ?_⟩
  rw [movePosition_origin, Nat.sub_add_cancel line, Nat.sub_add_cancel column, ← offset]

/-- What is left of a source from one of its tokens on has the later tokens by itself. -/
theorem exists_moved (table : SymbolTable) {source : String} {earlier later : List Token} {token : Token}
    (tokens : table.tokenize source = earlier ++ token :: later) :
    ∃ (ahead : Distance) (stop : Position), token.span = .between (movePosition ahead .origin) stop ∧
      token :: later =
        (table.tokenize (String.ofList (source.toList.drop token.span.start))).map (moveToken ahead) := by
  obtain ⟨before, behind, stop, whole, begins, rest⟩ := exists_rest table (reads_ofSource source) tokens
  obtain ⟨ahead, length, place⟩ := exists_movePosition before
  have suffix : source.toList.drop token.span.start = behind := by
    rw [begins, Span.between, after_origin_offset, whole, List.drop_left]
  have fresh := tokensFrom_move ahead table (.ofSource (String.ofList behind)) (Nat.le_refl 1)
  refine ⟨ahead, stop, place ▸ begins, ?_⟩
  rw [suffix, SymbolTable.tokenize, ← fresh, ← rest, place, moveUnread, Unread.ofSource,
    String.toList_ofList]

/-- The place of a token in the text that begins with a given one. -/
def rebased (first : Span) (token : Token) : Token :=
  { token with
    span := {
      start := token.span.start - first.start
      stop := token.span.stop - first.start
      line := token.span.line - (first.line - 1)
      column :=
        if token.span.line = first.line then token.span.column - (first.column - 1)
        else token.span.column } }

/-- A place that is not before another, so that it can be counted from there. -/
structure Behind (first other : Span) : Prop where
  start : first.start ≤ other.start
  stop : first.start ≤ other.stop
  line : 1 ≤ first.line ∧ first.line ≤ other.line
  column : 1 ≤ first.column ∧ (other.line = first.line → first.column ≤ other.column)

section Rebased
variable (ahead : Distance) (stop : Position)

private theorem rebased_moveToken (token : Token) :
    rebased (.between (movePosition ahead .origin) stop) (moveToken ahead token) = token := by
  obtain ⟨kind, literal, ⟨start, last, line, column⟩⟩ := token
  simp only [rebased, moveToken, moveSpan, movePosition_origin, Span.between, Nat.add_sub_cancel]
  by_cases first : line = 1
  · simp [first, Nat.add_comm 1]
  · have later : ¬ line + ahead.lines = ahead.lines + 1 := by omega
    simp only [first, later, if_false]

private theorem behind_moveToken {token : Token} (line : 1 ≤ token.span.line) (column : 1 ≤ token.span.column) :
    Behind (.between (movePosition ahead .origin) stop) (moveToken ahead token).span := by
  rw [movePosition_origin]
  refine ⟨Nat.le_add_left .., Nat.le_add_left .., ⟨Nat.le_add_left .., ?_⟩, ⟨Nat.le_add_left .., ?_⟩⟩
  · change ahead.lines + 1 ≤ token.span.line + ahead.lines
    omega
  · intro same
    have first : token.span.line = 1 := by
      change token.span.line + ahead.lines = ahead.lines + 1 at same
      omega
    rw [moveToken, moveSpan, if_pos first]
    change ahead.columns + 1 ≤ token.span.column + ahead.columns
    omega

end Rebased

private theorem place_of_mem {table : SymbolTable} {source : String} {token : Token}
    (member : token ∈ table.tokenize source) : 1 ≤ token.span.line ∧ 1 ≤ token.span.column := by
  obtain ⟨earlier, later, tokens⟩ := List.append_of_mem member
  obtain ⟨ahead, stop, begins, _⟩ := exists_moved table tokens
  rw [begins, movePosition_origin]
  exact ⟨Nat.le_add_left 1 _, Nat.le_add_left 1 _⟩

/-- The rest of a source from a token on has this token and all later ones, and no others. Their places
are counted from the token, whose line and column become the first. -/
theorem tokenize_drop (table : SymbolTable) (source : String) {earlier later : List Token} {token : Token}
    (tokens : table.tokenize source = earlier ++ token :: later) :
    table.tokenize (String.ofList (source.toList.drop token.span.start)) =
        (token :: later).map (rebased token.span) ∧
      ∀ other ∈ token :: later, Behind token.span other.span := by
  obtain ⟨ahead, stop, begins, moved⟩ := exists_moved table tokens
  rw [moved]
  constructor
  · rw [List.map_map, begins]
    exact (List.map_id'' (rebased_moveToken ahead stop) _).symm
  · intro other member
    obtain ⟨fresh, inside, rfl⟩ := List.mem_map.mp member
    obtain ⟨line, column⟩ := place_of_mem inside
    rw [begins]
    exact behind_moveToken ahead stop line column

theorem tokenize_drop_secondLine :
    let source := "a\n 大過 b\n 1"
    let token : Token := ⟨.greaterThan, "大過", ⟨3, 5, 2, 2⟩⟩
    let later : List Token :=
      [⟨.identifier, "b", ⟨6, 7, 2, 5⟩⟩, ⟨.number, "1", ⟨9, 10, 3, 2⟩⟩, ⟨.endOfInput, "", ⟨10, 10, 3, 3⟩⟩]
    SymbolTable.cantonese.tokenize source = [⟨.identifier, "a", ⟨0, 1, 1, 1⟩⟩] ++ token :: later ∧
      SymbolTable.cantonese.tokenize (String.ofList (source.toList.drop token.span.start)) =
          (token :: later).map (rebased token.span) ∧
        ∀ other ∈ token :: later, Behind token.span other.span := by
  intro source token later
  have tokens : SymbolTable.cantonese.tokenize source =
      [⟨.identifier, "a", ⟨0, 1, 1, 1⟩⟩] ++ token :: later := by decide +kernel
  exact ⟨tokens, tokenize_drop .cantonese source tokens⟩

example : rebased ⟨3, 5, 2, 2⟩ ⟨.identifier, "b", ⟨6, 7, 2, 5⟩⟩ = ⟨.identifier, "b", ⟨3, 4, 1, 4⟩⟩ := by
  decide

end CantoScan.Proofs.Restart
