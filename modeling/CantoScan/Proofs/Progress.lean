import CantoScan.Proofs.PullCalls
import CantoScan.Proofs.TokenPlaces

/-! Progress of a cursor under any table, also under one that breaks every rule. A cursor never leaves its
source. A request for a token either finds nothing left or takes a character that is no blank, so every
loop over requests comes to an end. -/

namespace CantoScan.Proofs.Progress
open SourceRuns ScanReading LexemeReach TokenStream TokenPlaces PullMachine PullCalls

/-- How many characters of a text are no blanks. -/
def visible (text : List Char) : Nat := text.countP fun c => !Text.isBlank c

private theorem visible_append (first second : List Char) :
    visible (first ++ second) = visible first + visible second :=
  List.countP_append

private theorem visible_le_of_suffix {text rest : List Char} (suffix : rest <:+ text) :
    visible rest ≤ visible text :=
  suffix.sublist.countP_le

/-- A token that holds a stretch of the source which has been passed. -/
structure Passed (source : List Char) (reached : Nat) (token : Token) : Prop where
  ordered : token.span.start ≤ token.span.stop
  within : token.span.stop ≤ reached
  literal : token.literal.toList = source.extract token.span.start token.span.stop

theorem Passed.later {source : List Char} {reached further : Nat} {token : Token}
    (passed : Passed source reached token) (forward : reached ≤ further) : Passed source further token :=
  ⟨passed.ordered, passed.within.trans forward, passed.literal⟩

/-- What a request makes of the place of a cursor. It leads to the end of the source, or behind a token
that begins with a visible character. -/
inductive Advances (source : List Char) (before after : Position) : Token → Prop where
  | last : after.offset = source.length → Advances source before after (.atEnd (.point after))
  | token {token : Token} {c : Char} :
      before.offset ≤ token.span.start → token.span.start < token.span.stop →
      token.span.stop = after.offset → token.literal.toList.head? = some c →
      ¬ (c = ' ' ∨ c = '\t' ∨ c = '\r' ∨ c = '\n') → Advances source before after token

section Request
variable {table : SymbolTable} {source : List Char} {unread : Unread}

private theorem advances_next (reads : Reads source unread) :
    Advances source unread.position (table.next unread).2.position (table.next unread).1 := by
  cases front : unread.skipBlanks.text with
  | nil =>
    rw [SymbolTable.next_of_nil front]
    refine .last ?_
    rw [reads.skipBlanks_of_nil front, after_origin_offset]
  | cons c rest =>
    obtain ⟨body, text, _⟩ := lexeme_text_cons table c rest
    have shown := isBlank_of_skipBlanks front
    rw [SymbolTable.next_of_cons front]
    refine .token (c := c) (offset_le_skipBlanks unread) ?_ rfl ?_ ?_
    · rw [start_tokenAt, stop_tokenAt, text]
      exact Nat.lt_add_of_pos_right (Nat.succ_pos _)
    · rw [toList_literal_tokenAt, text, List.head?_cons]
    · intro blank
      rw [Text.isBlank_iff.mpr blank] at shown
      cases shown

private theorem passed_next (reads : Reads source unread) :
    Passed source (table.next unread).2.position.offset (table.next unread).1 := by
  cases front : unread.skipBlanks.text with
  | nil =>
    rw [SymbolTable.next_of_nil front]
    exact ⟨Nat.le_refl _, Nat.le_refl _, by simp [Token.atEnd, Span.point, Span.between]⟩
  | cons c rest =>
    have here := reads.skipBlanks
    rw [skipBlanks_eq front] at here
    obtain ⟨before, whole, place⟩ := here
    have stands : Stands table source (table.tokenAt unread.skipBlanks.position c rest).1 :=
      ⟨before, c, rest, whole, isBlank_of_skipBlanks front, by rw [← place]⟩
    rw [SymbolTable.next_of_cons front]
    exact ⟨Nat.le_of_lt stands.start_lt_stop, Nat.le_refl _, stands.literal⟩

private theorem offset_le_next (table : SymbolTable) (unread : Unread) :
    unread.position.offset ≤ (table.next unread).2.position.offset := by
  have skipped := offset_le_skipBlanks unread
  cases front : unread.skipBlanks.text with
  | nil =>
    rw [SymbolTable.next_of_nil front]
    exact skipped
  | cons c rest =>
    rw [SymbolTable.next_of_cons front, tokenAt_eq rfl, Position.after_offset]
    exact Nat.le_add_right_of_le skipped

private theorem visible_next_of_lexeme (table : SymbolTable) {c : Char} {rest : List Char}
    (front : unread.skipBlanks.text = c :: rest) :
    visible (table.next unread).2.text < visible unread.text := by
  obtain ⟨blanks, _, whole, _⟩ := text_eq unread
  obtain ⟨body, _, left⟩ := lexeme_text_cons table c rest
  have first : visible [c] = 1 := by simp [visible, isBlank_of_skipBlanks front]
  have behind : (table.next unread).2.text = (table.lexeme c rest).rest := by
    rw [SymbolTable.next_of_cons front]
    rfl
  have parts : unread.text = blanks ++ ([c] ++ (body ++ (table.lexeme c rest).rest)) := by
    rw [← left, List.singleton_append, ← front, ← whole]
  rw [behind, parts, visible_append, visible_append, visible_append, first]
  omega

private theorem visible_next_lt (table : SymbolTable) (more : (table.next unread).1.isEnd = false) :
    visible (table.next unread).2.text < visible unread.text := by
  cases front : unread.skipBlanks.text with
  | nil =>
    rw [SymbolTable.next_of_nil front] at more
    cases more
  | cons c rest => exact visible_next_of_lexeme table front

private theorem visible_next_le (table : SymbolTable) (unread : Unread) :
    visible (table.next unread).2.text ≤ visible unread.text := by
  cases front : unread.skipBlanks.text with
  | nil =>
    rw [SymbolTable.next_of_nil front, front]
    exact Nat.zero_le _
  | cons c rest => exact Nat.le_of_lt (visible_next_of_lexeme table front)

end Request

section Loops
variable {cursor : Cursor}

/-- Whatever holds where a request gives an end, and before a request if it holds behind it, holds
everywhere. -/
theorem take_induction {motive : Cursor → Prop}
    (last : ∀ cursor, cursor.take.1.isEnd = true → motive cursor)
    (more : ∀ cursor, cursor.take.1.isEnd = false → motive cursor.take.2 → motive cursor)
    (cursor : Cursor) : motive cursor := by
  cases final : cursor.take.1.isEnd with
  | true => exact last cursor final
  | false => exact more cursor final (take_induction last more cursor.take.2)
termination_by cursor.unread.text.length
decreasing_by exact SymbolTable.next_length_lt final

private theorem takeAll_of_end (final : cursor.take.1.isEnd = true) :
    cursor.takeAll = ([cursor.take.1], cursor.take.2) := by
  rw [Cursor.takeAll, SymbolTable.tokensFrom_of_end final]
  rfl

private theorem takeAll_of_more (more : cursor.take.1.isEnd = false) :
    cursor.takeAll = (cursor.take.1 :: cursor.take.2.takeAll.1, cursor.take.2.takeAll.2) := by
  rw [Cursor.takeAll, SymbolTable.tokensFrom_of_more more]
  rfl

private theorem next?_of_more (unfinished : cursor.finished = false) (more : cursor.take.1.isEnd = false) :
    cursor.next? = (some cursor.take.1, cursor.take.2) := by
  rw [next?_eq unfinished, more, ← unfinished]
  rfl

private theorem collect_eq_takeAll (unfinished : cursor.finished = false) (found : Array Token) :
    cursor.collect found =
      (found ++ cursor.takeAll.1.toArray, { cursor.takeAll.2 with finished := true }) := by
  induction cursor using take_induction generalizing found with
  | last cursor final =>
    rw [Cursor.collect_eq, next?_eq unfinished, final]
    simp only [Cursor.collect_eq, next?_eq_none, takeAll_of_end final]
    simp
  | more cursor more ih =>
    rw [Cursor.collect_eq, next?_of_more unfinished more, takeAll_of_more more]
    simpa using ih unfinished (found.push cursor.take.1)

/-- An unfinished sequence holds the tokens that a scan to the end gives. -/
theorem rest_of_unfinished (unfinished : cursor.finished = false) :
    cursor.rest = (cursor.takeAll.1, { cursor.takeAll.2 with finished := true }) := by
  rw [Cursor.rest, collect_eq_takeAll unfinished]
  simp

/-- As many calls as there are tokens give these tokens one by one, and lead to the same place. -/
def Repeats (call : Call) (answer : Token → Answer) (cursor : Cursor) (given : List Token × Cursor) : Prop :=
  performAll cursor (List.replicate given.1.length call) =
    (given.1.map fun token => (call, answer token), given.2)

private theorem repeats_take (cursor : Cursor) : Repeats .take .token cursor cursor.takeAll := by
  induction cursor using take_induction with
  | last cursor final =>
    rw [takeAll_of_end final]
    rfl
  | more cursor more ih =>
    rw [Repeats] at ih
    rw [Repeats, takeAll_of_more more, List.length_cons, List.replicate_succ, performAll]
    simp only [perform, ih, List.map_cons]

private theorem repeats_next (cursor : Cursor) :
    Repeats .next (fun token => .item (some token)) cursor cursor.rest := by
  cases unfinished : cursor.finished with
  | true =>
    rw [rest_of_finished unfinished]
    rfl
  | false =>
    rw [rest_of_unfinished unfinished]
    induction cursor using take_induction with
    | last cursor final =>
      rw [takeAll_of_end final, Repeats, List.length_singleton, List.replicate_one, performAll]
      simp only [perform, next?_eq unfinished, final]
      rfl
    | more cursor more ih =>
      rw [Repeats] at ih
      rw [Repeats, takeAll_of_more more, List.length_cons, List.replicate_succ, performAll]
      simp only [perform, next?_of_more unfinished more, ih unfinished, List.map_cons]

/-- The first end stops a scan. -/
def StopsAtEnd (tokens : List Token) : Prop :=
  ∃ inner last, tokens = inner ++ [last] ∧ (∀ token ∈ inner, token.isEnd = false) ∧ last.isEnd = true

private theorem stopsAtEnd_takeAll (cursor : Cursor) : StopsAtEnd cursor.takeAll.1 := by
  induction cursor using take_induction with
  | last cursor final =>
    rw [takeAll_of_end final]
    exact ⟨[], cursor.take.1, rfl, by simp, final⟩
  | more cursor more ih =>
    obtain ⟨inner, last, tokens, unended, ended⟩ := ih
    rw [takeAll_of_more more, tokens]
    exact ⟨cursor.take.1 :: inner, last, rfl, List.forall_mem_cons.mpr ⟨more, unended⟩, ended⟩

private theorem length_takeAll_le (cursor : Cursor) :
    cursor.takeAll.1.length ≤ 1 + visible cursor.unread.text := by
  induction cursor using take_induction with
  | last cursor final =>
    rw [takeAll_of_end final]
    exact Nat.le_add_right ..
  | more cursor more ih =>
    have fewer : visible cursor.take.2.unread.text < visible cursor.unread.text := visible_next_lt _ more
    rw [takeAll_of_more more, List.length_cons]
    omega

end Loops

section Calls
variable {source : List Char}

/-- What a call does to the place of a cursor: it moves forward within the source, over the tokens that it
gives. -/
structure Moves (source : List Char) (before : Cursor) (given : List Token) (after : Cursor) : Prop where
  reads : Reads source after.unread
  forward : before.unread.position.offset ≤ after.unread.position.offset
  passed : ∀ token ∈ given, Passed source after.unread.position.offset token

theorem Moves.still {cursor : Cursor} (reads : Reads source cursor.unread) : Moves source cursor [] cursor :=
  ⟨reads, Nat.le_refl _, by simp⟩

theorem Moves.trans {before middle after : Cursor} {first second : List Token}
    (early : Moves source before first middle) (late : Moves source middle second after) :
    Moves source before (first ++ second) after := by
  refine ⟨late.reads, early.forward.trans late.forward, ?_⟩
  intro token member
  rcases List.mem_append.mp member with here | behind
  · exact (early.passed token here).later late.forward
  · exact late.passed token behind

theorem Moves.mark {before after : Cursor} {given : List Token} (moves : Moves source before given after)
    (finished : Bool) : Moves source before given { after with finished } :=
  ⟨moves.reads, moves.forward, moves.passed⟩

variable {cursor : Cursor} (reads : Reads source cursor.unread)
include reads

private theorem moves_take : Moves source cursor [cursor.take.1] cursor.take.2 := by
  refine ⟨reads.next cursor.table, offset_le_next _ _, ?_⟩
  intro token member
  obtain rfl := List.mem_singleton.mp member
  exact passed_next reads

theorem moves_takeAll : Moves source cursor cursor.takeAll.1 cursor.takeAll.2 := by
  induction cursor using take_induction with
  | last cursor final =>
    rw [takeAll_of_end final]
    exact moves_take reads
  | more cursor more ih =>
    rw [takeAll_of_more more]
    exact (moves_take reads).trans (ih (moves_take reads).reads)

private theorem moves_perform (call : Call) :
    Moves source cursor (perform cursor call).1.given (perform cursor call).2 := by
  cases call with
  | take => exact moves_take reads
  | takeAll => exact moves_takeAll reads
  | isAtEnd => exact .still reads
  | next =>
    cases unfinished : cursor.finished with
    | true =>
      rw [perform, next?_eq_none unfinished]
      exact .still reads
    | false =>
      rw [perform, next?_eq unfinished]
      exact (moves_take reads).mark _
  | rest =>
    cases unfinished : cursor.finished with
    | true =>
      rw [perform, rest_of_finished unfinished]
      exact .still reads
    | false =>
      rw [perform, rest_of_unfinished unfinished]
      exact (moves_takeAll reads).mark _

private theorem moves_performAll (calls : List Call) :
    Moves source cursor ((performAll cursor calls).1.flatMap (·.2.given)) (performAll cursor calls).2 := by
  induction calls generalizing cursor with
  | nil => exact .still reads
  | cons call calls ih =>
    have first := moves_perform reads call
    exact first.trans (ih first.reads)

end Calls

section Walks

/-- How many more tokens the sequence of a cursor may give. -/
def allowance (cursor : Cursor) : Nat :=
  if cursor.finished then 0 else 1 + visible cursor.unread.text

private theorem allowance_of_unfinished {cursor : Cursor} (unfinished : cursor.finished = false) :
    allowance cursor = 1 + visible cursor.unread.text := by
  simp [allowance, unfinished]

private theorem allowance_le {before after : Cursor} (same : after.finished = before.finished)
    (fewer : visible after.unread.text ≤ visible before.unread.text) : allowance after ≤ allowance before := by
  unfold allowance
  rw [same]
  split
  · exact Nat.le_refl 0
  · exact Nat.add_le_add_left fewer 1

private theorem visible_takeAll_le (cursor : Cursor) :
    visible cursor.takeAll.2.unread.text ≤ visible cursor.unread.text := by
  induction cursor using take_induction with
  | last cursor final =>
    rw [takeAll_of_end final]
    exact visible_next_le _ _
  | more cursor more ih =>
    rw [takeAll_of_more more]
    exact ih.trans (visible_next_le _ _)

/-- Every token of the sequence is paid for by a visible character, the last one by being the last. -/
theorem walked_perform (cursor : Cursor) (call : Call) :
    (walked (call, (perform cursor call).1)).length + allowance (perform cursor call).2 ≤
      allowance cursor := by
  cases call with
  | take =>
    have kept : allowance cursor.take.2 ≤ allowance cursor := allowance_le rfl (visible_next_le _ _)
    simpa [walked, perform] using kept
  | takeAll =>
    have kept : allowance cursor.takeAll.2 ≤ allowance cursor := allowance_le rfl (visible_takeAll_le cursor)
    simpa [walked, perform] using kept
  | isAtEnd => simp [walked, perform]
  | next =>
    cases unfinished : cursor.finished with
    | true => simp [walked, perform, next?_eq_none unfinished, Answer.given]
    | false =>
      rw [perform, next?_eq unfinished, allowance_of_unfinished unfinished]
      cases final : cursor.take.1.isEnd with
      | true => simp [walked, Answer.given, allowance]
      | false =>
        have fewer : visible cursor.take.2.unread.text < visible cursor.unread.text := visible_next_lt _ final
        simp [walked, Answer.given, allowance]
        omega
  | rest =>
    cases unfinished : cursor.finished with
    | true => simp [walked, perform, rest_of_finished unfinished, Answer.given]
    | false =>
      rw [perform, rest_of_unfinished unfinished, allowance_of_unfinished unfinished]
      simpa [walked, Answer.given, allowance] using length_takeAll_le cursor

private theorem walked_performAll (cursor : Cursor) (calls : List Call) :
    ((performAll cursor calls).1.flatMap walked).length + allowance (performAll cursor calls).2 ≤
      allowance cursor := by
  induction calls generalizing cursor with
  | nil => exact Nat.le_of_eq (Nat.zero_add _)
  | cons call calls ih =>
    have first := walked_perform cursor call
    have later := ih (perform cursor call).2
    simp only [performAll, List.flatMap_cons, List.length_append]
    omega

end Walks

/-- Where the latest token begins, or the beginning of the source as long as no token has been given. -/
def latestStart (trace : List (Call × Answer)) : Nat :=
  ((trace.flatMap (·.2.given)).getLast?).elim 0 (·.span.start)

/-- What holds of a cursor behind some calls. It is within its source and so is every token that it has
given, so a stretch that is cut out always exists; the next request moves it forward or finds the end; and
both loops over requests stop, after no more tokens than the source has visible characters and one more. -/
structure Bounded (source : List Char) (trace : List (Call × Answer)) (cursor : Cursor) : Prop where
  unread : cursor.unread.text = source.drop cursor.unread.position.offset
  place : latestStart trace ≤ cursor.unread.position.offset ∧ cursor.unread.position.offset ≤ source.length
  line : cursor.unread.position.line ≤ source.length + 1
  column : cursor.unread.position.column ≤ source.length + 1
  passed : ∀ step ∈ trace, ∀ token ∈ step.2.given, Passed source cursor.unread.position.offset token
  advances : Advances source cursor.unread.position cursor.take.2.unread.position cursor.take.1
  takeAll : Repeats .take .token cursor cursor.takeAll ∧ StopsAtEnd cursor.takeAll.1 ∧
    cursor.takeAll.1.length ≤ 1 + visible source
  rest : Repeats .next (fun token => .item (some token)) cursor cursor.rest ∧
    cursor.rest.2.next?.1 = none ∧ cursor.rest.1.length ≤ 1 + visible source
  walked : (trace.flatMap walked).length ≤ 1 + visible source

section Place
variable {source : List Char} {unread : Unread} (reads : Reads source unread)
include reads

private theorem text_eq_drop : unread.text = source.drop unread.position.offset := by
  obtain ⟨before, rfl, place⟩ := reads
  rw [place, after_origin_offset, List.drop_left]

theorem place_le : unread.position.offset ≤ source.length ∧ unread.position.line ≤ source.length + 1 ∧
    unread.position.column ≤ source.length + 1 := by
  obtain ⟨before, rfl, place⟩ := reads
  have feeds : before.count '\n' ≤ before.length := List.count_le_length
  have last := lastLine_length_le before
  rw [place, after_origin_offset, line_after_origin, column_after_origin, List.length_append]
  omega

end Place

private theorem next?_rest (cursor : Cursor) : cursor.rest.2.next?.1 = none := by
  cases unfinished : cursor.finished with
  | true => rw [rest_of_finished unfinished, next?_eq_none unfinished]
  | false => rw [rest_of_unfinished unfinished, next?_eq_none rfl]

private theorem length_rest_le (cursor : Cursor) : cursor.rest.1.length ≤ 1 + visible cursor.unread.text := by
  cases unfinished : cursor.finished with
  | true =>
    rw [rest_of_finished unfinished]
    exact Nat.zero_le _
  | false =>
    rw [rest_of_unfinished unfinished]
    exact length_takeAll_le cursor

/-- Under every table whatsoever, and behind any calls on a cursor on any source. -/
theorem performAll_bounded (table : SymbolTable) (source : String) (calls : List Call) :
    Bounded source.toList (performAll (.ofSource table source) calls).1
      (performAll (.ofSource table source) calls).2 := by
  have reads : Reads source.toList (Cursor.ofSource table source).unread := reads_ofSource source
  have moves := moves_performAll reads calls
  have paid := walked_performAll (.ofSource table source) calls
  generalize performAll (.ofSource table source) calls = result at moves paid ⊢
  obtain ⟨trace, cursor⟩ := result
  obtain ⟨within, line, column⟩ := place_le moves.reads
  have fewer : visible cursor.unread.text ≤ visible source.toList := by
    obtain ⟨before, whole, _⟩ := moves.reads
    exact visible_le_of_suffix ⟨before, whole.symm⟩
  have all := (length_takeAll_le cursor).trans (Nat.add_le_add_left fewer 1)
  have left := (length_rest_le cursor).trans (Nat.add_le_add_left fewer 1)
  refine ⟨text_eq_drop moves.reads, ⟨?_, within⟩, line, column, ?_, advances_next moves.reads,
    ⟨repeats_take cursor, stopsAtEnd_takeAll cursor, all⟩,
    ⟨repeats_next cursor, next?_rest cursor, left⟩, ?_⟩
  · unfold latestStart
    cases latest : (trace.flatMap (·.2.given)).getLast? with
    | none => exact Nat.zero_le _
    | some token =>
      have passed := moves.passed token (List.mem_of_getLast? latest)
      exact passed.ordered.trans passed.within
  · intro step member token given
    exact moves.passed token (List.mem_flatMap.mpr ⟨step, member, given⟩)
  · have whole : allowance (.ofSource table source) = 1 + visible source.toList := allowance_of_unfinished rfl
    omega

/-- A table that takes `x` for the end: there the sequence stops, and requests go on behind it. -/
example :
    (performAll (.ofSource ⟨[('x', .endOfInput)], [], ('/', '\n')⟩ "x 1") [.rest, .take, .takeAll]).1 =
      [(.rest, .tokens [⟨.endOfInput, "x", ⟨0, 1, 1, 1⟩⟩]), (.take, .token ⟨.number, "1", ⟨2, 3, 1, 3⟩⟩),
        (.takeAll, .tokens [.atEnd ⟨3, 3, 1, 4⟩])] := by
  decide +kernel

end CantoScan.Proofs.Progress
