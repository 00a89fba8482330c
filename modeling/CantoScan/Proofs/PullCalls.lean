import CantoScan.Proofs.PullMachine
import CantoScan.Proofs.Tiling
import CantoScan.Scan.Cursor

/-! Calls on a cursor, in any order. Every answer is one that the machine gives which knows all tokens
beforehand, so it makes no difference in which way the tokens are asked for. -/

namespace CantoScan.Proofs.PullCalls
open TableRules ScanReading Tiling PullMachine

def perform (cursor : Cursor) : Call → Answer × Cursor
  | .take => (.token cursor.take.1, cursor.take.2)
  | .next => (.item cursor.next?.1, cursor.next?.2)
  | .takeAll => (.tokens cursor.takeAll.1, cursor.takeAll.2)
  | .rest => (.tokens cursor.rest.1, cursor.rest.2)
  | .isAtEnd => (.flag cursor.isAtEnd, cursor)

/-- The calls with their answers, and the cursor behind them. -/
def performAll (cursor : Cursor) : List Call → List (Call × Answer) × Cursor
  | [] => ([], cursor)
  | call :: calls =>
    let first := perform cursor call
    let later := performAll first.2 calls
    ((call, first.1) :: later.1, later.2)

section Sequence
variable {cursor : Cursor}

theorem next?_eq (unfinished : cursor.finished = false) :
    cursor.next? = (some cursor.take.1, { cursor.take.2 with finished := cursor.take.1.isEnd }) := by
  rw [Cursor.next?, unfinished]
  rfl

theorem next?_eq_none (finished : cursor.finished = true) : cursor.next? = (none, cursor) := by
  rw [Cursor.next?, finished]
  rfl

theorem rest_of_finished (finished : cursor.finished = true) : cursor.rest = ([], cursor) := by
  rw [Cursor.rest, Cursor.collect_eq, next?_eq_none finished]

end Sequence

/-- A cursor stands where the machine stands: it would give out the same tokens, and the sequence is
finished for both or for neither. -/
structure Represents (source : List Char) (stream : Stream) (stage : Stage) (cursor : Cursor) : Prop where
  sound : Sound cursor.table
  reads : Reads source cursor.unread
  last : stream.last = .atEnd (.point (Position.origin.after source))
  within : stage.index ≤ stream.inner.length
  tokens : (cursor.table.tokensFrom cursor.unread).1 = stream.remaining stage.index
  finished : cursor.finished = stage.finished

private theorem tokensFrom_unread {table : SymbolTable} (sound : Sound table) {source : List Char}
    (unread : Unread) (reads : Reads source unread) :
    (table.tokensFrom unread).2 = ⟨Position.origin.after source, []⟩ := by
  induction unread using scan_induction table with
  | blank unread done =>
    rw [tokensFrom_of_blank done, ← reads.skipBlanks_of_nil done, ← done]
  | lexeme unread c rest front ih =>
    have here := reads.skipBlanks
    rw [skipBlanks_eq front] at here
    rw [tokensFrom_of_lexeme sound front]
    exact ih (here.tokenAt table)

private theorem reads_end (source : List Char) : Reads source ⟨Position.origin.after source, []⟩ :=
  ⟨source, (List.append_nil source).symm, rfl⟩

private theorem tokensFrom_end (table : SymbolTable) (position : Position) :
    (table.tokensFrom ⟨position, []⟩).1 = [.atEnd (.point position)] := by
  rw [tokensFrom_of_blank rfl]
  rfl

namespace Represents
variable {source : List Char} {stream : Stream} {stage : Stage} {cursor : Cursor}

private theorem isAtEnd_iff : cursor.isAtEnd = true ↔ cursor.unread.text = [] := List.isEmpty_iff

private theorem index_of_isAtEnd (represents : Represents source stream stage cursor)
    (final : cursor.isAtEnd = true) : stage.index = stream.inner.length := by
  have blank : cursor.unread.skipBlanks.text = [] := by
    rw [Unread.skipBlanks, isAtEnd_iff.mp final]
    rfl
  have tokens := represents.tokens
  rw [tokensFrom_of_blank blank] at tokens
  exact Nat.le_antisymm represents.within (Stream.length_le_of_remaining tokens.symm)

private theorem take_of_isAtEnd (represents : Represents source stream stage cursor)
    (final : cursor.isAtEnd = true) : cursor.take = (stream.last, cursor) := by
  obtain ⟨table, ⟨position, text⟩, finished⟩ := cursor
  obtain rfl : text = [] := isAtEnd_iff.mp final
  have place : position = Position.origin.after source := represents.reads.skipBlanks_of_nil rfl
  rw [represents.last, ← place]
  rfl

theorem unended_of_getElem? (represents : Represents source stream stage cursor) {token : Token}
    (found : stream.inner[stage.index]? = some token) :
    ¬ (stream.last ∈ [token] ∨ cursor.isAtEnd = true) := by
  rintro (same | final)
  · have inner := Stream.unended_of_getElem? found
    rw [← List.mem_singleton.mp same, stream.ended] at inner
    cases inner
  · obtain ⟨inside, _⟩ := List.getElem?_eq_some_iff.mp found
    have behind := represents.index_of_isAtEnd final
    omega

theorem atEnd (represents : Represents source stream stage cursor) :
    Represents source stream { stage with index := stream.inner.length }
      { cursor with unread := ⟨Position.origin.after source, []⟩ } := by
  refine ⟨represents.sound, reads_end source, represents.last, Nat.le_refl _, ?_, represents.finished⟩
  rw [tokensFrom_end, Stream.remaining_of_length_le (Nat.le_refl _), represents.last]

/-- A request for the next token gives the one that the machine gives, and behind the last one the
cursor rests at the end. -/
theorem take_cases (represents : Represents source stream stage cursor) :
    (∃ token, stream.inner[stage.index]? = some token ∧ cursor.take.1 = token ∧
      Represents source stream { stage with index := stage.index + 1 } cursor.take.2) ∨
    (stream.inner.length ≤ stage.index ∧ cursor.take.1 = stream.last ∧
      cursor.take.2.isAtEnd = true ∧ Represents source stream stage cursor.take.2) := by
  have tokens := represents.tokens
  have reads := represents.reads.skipBlanks
  cases front : cursor.unread.skipBlanks.text with
  | nil =>
    right
    have place := represents.reads.skipBlanks_of_nil front
    have taken : cursor.take =
        (stream.last, { cursor with unread := ⟨Position.origin.after source, []⟩ }) := by
      rw [Cursor.take, SymbolTable.next_of_nil front, represents.last, ← place, ← front]
    rw [tokensFrom_of_blank front] at tokens
    have behind := Stream.length_le_of_remaining tokens.symm
    have same : stage = { stage with index := stream.inner.length } := by
      rw [← Nat.le_antisymm represents.within behind]
    rw [taken, same]
    exact ⟨Nat.le_refl _, rfl, rfl, represents.atEnd⟩
  | cons c rest =>
    left
    let step := cursor.table.tokenAt cursor.unread.skipBlanks.position c rest
    have taken : cursor.take = (step.1, { cursor with unread := step.2 }) := by
      rw [Cursor.take, SymbolTable.next_of_cons front]
    rw [skipBlanks_eq front] at reads
    rw [tokensFrom_of_lexeme represents.sound front] at tokens
    -- Behind the inner tokens the machine has only the last one left, and this token is not it.
    have inside : stage.index < stream.inner.length := by
      apply Nat.lt_of_not_le
      intro behind
      rw [Stream.remaining_of_length_le behind] at tokens
      have inner := isEnd_tokenAt represents.sound cursor.unread.skipBlanks.position rest
        (isBlank_of_skipBlanks front)
      rw [(List.cons.inj tokens).1, stream.ended] at inner
      cases inner
    have found := List.getElem?_eq_getElem inside
    rw [Stream.remaining_of_getElem? found] at tokens
    obtain ⟨same, later⟩ := List.cons.inj tokens
    rw [taken]
    exact ⟨_, found, same, represents.sound, reads.tokenAt cursor.table, represents.last, inside, later,
      represents.finished⟩

theorem mark (represents : Represents source stream stage cursor) (finished : Bool) :
    Represents source stream { stage with finished } { cursor with finished } :=
  ⟨represents.sound, represents.reads, represents.last, represents.within, represents.tokens, rfl⟩

/-- The sequence gives the same token as a request, and only the last token finishes it. -/
theorem next_cases (represents : Represents source stream stage cursor)
    (unfinished : stage.finished = false) :
    (∃ token after, stream.inner[stage.index]? = some token ∧ cursor.next? = (some token, after) ∧
      Represents source stream ⟨stage.index + 1, false⟩ after) ∨
    (stream.inner.length ≤ stage.index ∧ ∃ after, cursor.next? = (some stream.last, after) ∧
      after.isAtEnd = true ∧ Represents source stream ⟨stage.index, true⟩ after) := by
  have step := next?_eq (represents.finished.trans unfinished)
  rcases represents.take_cases with ⟨token, found, taken, later⟩ | ⟨behind, taken, final, later⟩
  · rw [taken, Stream.unended_of_getElem? found] at step
    exact .inl ⟨token, _, found, step, later.mark false⟩
  · rw [taken, stream.ended] at step
    exact .inr ⟨behind, _, step, final, later.mark true⟩

private theorem collect_remaining {stage : Stage} {cursor : Cursor}
    (represents : Represents source stream stage cursor) (unfinished : stage.finished = false)
    (found : Array Token) :
    ∃ after, cursor.collect found = (found ++ (stream.remaining stage.index).toArray, after) ∧
      after.isAtEnd = true ∧ Represents source stream ⟨stream.inner.length, true⟩ after := by
  rw [Cursor.collect_eq]
  rcases represents.next_cases unfinished with
    ⟨token, after, place, step, later⟩ | ⟨behind, after, step, final, later⟩
  · obtain ⟨last, collected, final, ended⟩ := later.collect_remaining rfl (found.push token)
    refine ⟨last, ?_, final, ended⟩
    rw [step, Stream.remaining_of_getElem? place]
    simpa using collected
  · have same : stage.index = stream.inner.length := Nat.le_antisymm represents.within behind
    refine ⟨after, ?_, final, same ▸ later⟩
    rw [step, Stream.remaining_of_length_le behind]
    simp only [Cursor.collect_eq, next?_eq_none later.finished]
    simp
termination_by stream.inner.length - stage.index
decreasing_by
  have inside := (List.getElem?_eq_some_iff.mp place).1
  omega

end Represents

/-- The answer to a call is one that the machine gives, and the cursor goes on where the machine does.
Behind the last token, and wherever no character was left before, no character is left. -/
def Served (source : List Char) (stream : Stream) (stage : Stage) (cursor : Cursor) (call : Call) : Prop :=
  ∃ after, Allows stream stage call (perform cursor call).1 after ∧
    Represents source stream after (perform cursor call).2 ∧
    (stream.last ∈ (perform cursor call).1.given ∨ cursor.isAtEnd = true →
      (perform cursor call).2.isAtEnd = true)

namespace Represents
variable {source : List Char} {stream : Stream} {index : Nat} {finished : Bool} {cursor : Cursor}

private theorem served_take (represents : Represents source stream ⟨index, finished⟩ cursor) :
    Served source stream ⟨index, finished⟩ cursor .take := by
  rcases represents.take_cases with ⟨token, found, taken, later⟩ | ⟨behind, taken, final, later⟩
  · rw [← taken] at found
    exact ⟨_, .take found, later, fun last => absurd last (represents.unended_of_getElem? found)⟩
  · refine ⟨_, ?_, later, fun _ => final⟩
    rw [perform, taken]
    exact .takeLast behind

private theorem served_next (represents : Represents source stream ⟨index, finished⟩ cursor) :
    Served source stream ⟨index, finished⟩ cursor .next := by
  cases finished with
  | true =>
    rw [Served, perform, next?_eq_none represents.finished]
    exact ⟨_, .nextNone rfl, represents, fun last => by simpa [Answer.given] using last⟩
  | false =>
    rcases represents.next_cases rfl with
      ⟨token, after, found, step, later⟩ | ⟨behind, after, step, final, later⟩
    · rw [Served, perform, step]
      exact ⟨_, .next rfl found, later, fun last => absurd last (represents.unended_of_getElem? found)⟩
    · rw [Served, perform, step]
      exact ⟨_, .nextLast rfl behind, later, fun _ => final⟩

private theorem served_takeAll (represents : Represents source stream ⟨index, finished⟩ cursor) :
    Served source stream ⟨index, finished⟩ cursor .takeAll := by
  have behind := tokensFrom_unread represents.sound cursor.unread represents.reads
  have taken : cursor.takeAll =
      (stream.remaining index, { cursor with unread := ⟨Position.origin.after source, []⟩ }) := by
    rw [Cursor.takeAll, represents.tokens, behind]
  rw [Served, perform, taken]
  exact ⟨_, .takeAll, represents.atEnd, fun _ => rfl⟩

private theorem served_rest (represents : Represents source stream ⟨index, finished⟩ cursor) :
    Served source stream ⟨index, finished⟩ cursor .rest := by
  cases finished with
  | true =>
    rw [Served, perform, rest_of_finished represents.finished]
    exact ⟨_, .restNone rfl, represents, fun last => by simpa [Answer.given] using last⟩
  | false =>
    obtain ⟨after, collected, final, later⟩ := represents.collect_remaining rfl #[]
    have walked : cursor.rest = (stream.remaining index, after) := by
      rw [Cursor.rest, collected]
      simp
    rw [Served, perform, walked]
    exact ⟨_, .rest rfl, later, fun _ => final⟩

private theorem served_isAtEnd (represents : Represents source stream ⟨index, finished⟩ cursor) :
    Served source stream ⟨index, finished⟩ cursor .isAtEnd := by
  refine ⟨_, .isAtEnd represents.index_of_isAtEnd, represents, ?_⟩
  intro last
  simpa [perform, Answer.given] using last

theorem served {stage : Stage} (represents : Represents source stream stage cursor) (call : Call) :
    Served source stream stage cursor call := by
  cases call with
  | take => exact represents.served_take
  | next => exact represents.served_next
  | takeAll => exact represents.served_takeAll
  | rest => exact represents.served_rest
  | isAtEnd => exact represents.served_isAtEnd

/-- Any number of calls in any order makes a run of the machine. -/
theorem run {stage : Stage} (represents : Represents source stream stage cursor) (calls : List Call) :
    ∃ after, Run stream stage (performAll cursor calls).1 after ∧
      Represents source stream after (performAll cursor calls).2 ∧
      ((∃ step ∈ (performAll cursor calls).1, stream.last ∈ step.2.given) ∨ cursor.isAtEnd = true →
        (performAll cursor calls).2.isAtEnd = true) := by
  induction calls generalizing stage cursor with
  | nil => exact ⟨stage, .nil, represents, by simp [performAll]⟩
  | cons call calls ih =>
    obtain ⟨middle, allowed, between, final⟩ := represents.served call
    obtain ⟨after, run, later, finals⟩ := ih between
    refine ⟨after, .cons allowed run, later, ?_⟩
    rintro (⟨step, member, last⟩ | ended)
    · rcases List.mem_cons.mp member with rfl | inside
      · exact finals (.inr (final (.inl last)))
      · exact finals (.inl ⟨step, inside, last⟩)
    · exact finals (.inr (final (.inr ended)))

end Represents

private theorem map_fst_performAll (cursor : Cursor) (calls : List Call) :
    (performAll cursor calls).1.map Prod.fst = calls := by
  induction calls generalizing cursor with
  | nil => rfl
  | cons call calls ih =>
    rw [performAll, List.map_cons, ih]

/-- What any calls on a cursor come to. They make a run of the machine, so no order of calls loses,
repeats or alters a token; behind the last token every request gives it again and changes nothing, but
the sequence gives it once. -/
structure Pulled (stream : Stream) (trace : List (Call × Answer)) (cursor : Cursor) (stage : Stage) :
    Prop where
  run : Run stream ⟨0, false⟩ trace stage
  finished : cursor.finished = stage.finished
  given : (trace.flatMap (·.2.given)).filter (!·.isEnd) = stream.inner.take stage.index
  once : (trace.flatMap walked).countP Token.isEnd = stage.finished.toNat
  final : (∃ step ∈ trace, stream.last ∈ step.2.given) → cursor.isAtEnd = true
  complete : cursor.isAtEnd = true → stage.index = stream.inner.length
  forever : cursor.isAtEnd = true → cursor.take = (stream.last, cursor)

/-- Under every table that can be made, a cursor on any source answers any calls as the machine does. -/
theorem performAll_pulled {table : SymbolTable} (obtained : Obtainable table) (source : String) :
    ∃ stream : Stream, table.tokenize source = stream.inner ++ [stream.last] ∧
      ∀ calls : List Call, ∃ stage,
        (performAll (.ofSource table source) calls).1.map Prod.fst = calls ∧
          Pulled stream (performAll (.ofSource table source) calls).1
            (performAll (.ofSource table source) calls).2 stage := by
  have sound := obtained.sound
  obtain ⟨tokens, _, stand⟩ := tokenize_tiles sound source
  let stream : Stream :=
    { inner := innerTokens table source
      last := .atEnd (.point (Position.origin.after source.toList))
      unended := fun token member => decide_eq_false ((stand token member).kind_ne_end sound)
      ended := rfl }
  refine ⟨stream, tokens, ?_⟩
  intro calls
  have initial : Represents source.toList stream ⟨0, false⟩ (.ofSource table source) :=
    ⟨sound, reads_ofSource source, rfl, Nat.zero_le _, tokens, rfl⟩
  obtain ⟨stage, run, represents, final⟩ := initial.run calls
  refine ⟨stage, map_fst_performAll _ calls, run, represents.finished, ?_, ?_, ?_, ?_, ?_⟩
  · simpa using given_of_run run
  · simpa using walked_of_run run
  · exact fun last => final (.inl last)
  · exact represents.index_of_isAtEnd
  · exact represents.take_of_isAtEnd

/-- Blanks behind the last word: a request walks over them, and only then is the cursor at the end. -/
theorem performAll_pulled_blanks_behind :
    ∃ stream stage, SymbolTable.cantonese.tokenize "x \n" = stream.inner ++ [stream.last] ∧
      Pulled stream
        (performAll (.ofSource .cantonese "x \n") [.next, .isAtEnd, .take, .isAtEnd, .rest, .next]).1
        (performAll (.ofSource .cantonese "x \n") [.next, .isAtEnd, .take, .isAtEnd, .rest, .next]).2
        stage := by
  obtain ⟨stream, tokens, pulled⟩ := performAll_pulled .cantonese "x \n"
  obtain ⟨stage, _, held⟩ := pulled [.next, .isAtEnd, .take, .isAtEnd, .rest, .next]
  exact ⟨stream, stage, tokens, held⟩

example :
    (performAll (.ofSource .cantonese "x \n") [.next, .isAtEnd, .take, .isAtEnd, .rest, .next]).1 =
      let last : Token := .atEnd ⟨3, 3, 2, 1⟩
      [(.next, .item (some ⟨.identifier, "x", ⟨0, 1, 1, 1⟩⟩)), (.isAtEnd, .flag false),
        (.take, .token last), (.isAtEnd, .flag true), (.rest, .tokens [last]), (.next, .item none)] := by
  decide +kernel

end CantoScan.Proofs.PullCalls
