import CantoScan.Proofs.ScanReading

/-! Tokens tile their source. Only blanks stand before, between and behind them, and with the blanks
their literals make up the whole source again. -/

namespace CantoScan.Proofs.Tiling
open SourceRuns TableRules ScanReading

structure Segment where
  kind : Kind
  start : Nat
  stop : Nat
  deriving DecidableEq

def segmentOf (token : Token) : Segment := ⟨token.kind, token.span.start, token.span.stop⟩

/-- Segments that fill a source from an offset on. None is empty and none begins with a blank; before,
between and behind them stands nothing but blanks. -/
inductive Tiles (source : List Char) : Nat → List Segment → Prop where
  | done {offset : Nat} :
      LongestRun Text.isBlank source offset source.length → Tiles source offset []
  | segment {offset : Nat} {segment : Segment} {segments : List Segment} :
      LongestRun Text.isBlank source offset segment.start →
      segment.start < segment.stop → segment.stop ≤ source.length →
      Tiles source segment.stop segments → Tiles source offset (segment :: segments)

def gaps (offset : Nat) : List Token → List (Nat × Nat)
  | [] => []
  | token :: tokens => (offset, token.span.start) :: gaps token.span.stop tokens

def interleave (source : List Char) (offset : Nat) : List Token → List Char
  | [] => []
  | token :: tokens =>
    source.extract offset token.span.start ++ token.literal.toList ++
      interleave source token.span.stop tokens

/-- Scanning from any place on gives segments that fill the rest of the source, and the end. -/
theorem tokensFrom_tiles {table : SymbolTable} (sound : Sound table) {source : List Char}
    (unread : Unread) (reads : Reads source unread) :
    ∃ inner, (table.tokensFrom unread).1 =
        inner ++ [.atEnd (.point (Position.origin.after source))] ∧
      Tiles source unread.position.offset (inner.map segmentOf) ∧
      ∀ token ∈ inner, Stands table source token := by
  induction unread using scan_induction table with
  | blank unread done =>
    have place := reads.skipBlanks_of_nil done
    have run := reads.blanks
    rw [place, after_origin_offset] at run
    exact ⟨[], by rw [tokensFrom_of_blank done, place]; rfl, .done run, by simp⟩
  | lexeme unread c rest front ih =>
    have here := reads.skipBlanks
    rw [skipBlanks_eq front] at here
    obtain ⟨inner, tokens, tiles, stand⟩ := ih (here.tokenAt table)
    have first : Stands table source (table.tokenAt unread.skipBlanks.position c rest).1 := by
      obtain ⟨before, whole, place⟩ := here
      exact ⟨before, c, rest, whole, isBlank_of_skipBlanks front, by rw [← place]⟩
    refine ⟨(table.tokenAt unread.skipBlanks.position c rest).1 :: inner, ?_, ?_, ?_⟩
    · rw [tokensFrom_of_lexeme sound front]
      exact congrArg _ tokens
    · exact .segment reads.blanks first.start_lt_stop first.stop_le_length tiles
    · exact List.forall_mem_cons.mpr ⟨first, stand⟩

def innerTokens (table : SymbolTable) (source : String) : List Token :=
  (table.tokenize source).filter (!·.isEnd)

theorem tokenize_tiles {table : SymbolTable} (sound : Sound table) (source : String) :
    table.tokenize source =
        innerTokens table source ++ [.atEnd (.point (Position.origin.after source.toList))] ∧
      Tiles source.toList 0 ((innerTokens table source).map segmentOf) ∧
      ∀ token ∈ innerTokens table source, Stands table source.toList token := by
  obtain ⟨inner, tokens, tiles, stand⟩ :=
    tokensFrom_tiles sound (.ofSource source) (reads_ofSource source)
  have kept : innerTokens table source = inner := by
    have others : inner.filter (!·.isEnd) = inner := by
      apply List.filter_eq_self.mpr
      intro token member
      simpa [Token.isEnd] using (stand token member).kind_ne_end sound
    rw [innerTokens, SymbolTable.tokenize, tokens, List.filter_append, others]
    exact List.append_nil inner
  rw [kept]
  exact ⟨tokens, tiles, stand⟩

theorem mem_innerTokens {table : SymbolTable} {source : String} {token : Token} :
    token ∈ innerTokens table source ↔ token ∈ table.tokenize source ∧ token.kind ≠ .endOfInput := by
  simp [innerTokens, Token.isEnd]

section Between
variable {source : List Char} {last : Token} (final : last.span.start = source.length)
include final

private theorem gaps_blank {offset : Nat} {inner : List Token}
    (tiles : Tiles source offset (inner.map segmentOf)) :
    ∀ gap ∈ gaps offset (inner ++ [last]),
      gap.1 ≤ gap.2 ∧ ∀ c ∈ source.extract gap.1 gap.2, Text.isBlank c = true := by
  induction inner generalizing offset with
  | nil =>
    cases tiles with
    | done run =>
      intro gap member
      obtain rfl : gap = (offset, last.span.start) := List.mem_singleton.mp member
      rw [final]
      exact ⟨run.ordered, run.members⟩
  | cons token inner ih =>
    cases tiles with
    | segment run _ _ tiles =>
      intro gap member
      rcases List.mem_cons.mp member with rfl | later
      · exact ⟨run.ordered, run.members⟩
      · exact ih tiles gap later

private theorem interleave_eq_drop {offset : Nat} {inner : List Token}
    (tiles : Tiles source offset (inner.map segmentOf)) (blank : last.literal = "")
    (literal : ∀ token ∈ inner, token.literal.toList = source.extract token.span.start token.span.stop) :
    interleave source offset (inner ++ [last]) = source.drop offset := by
  induction inner generalizing offset with
  | nil =>
    cases tiles with
    | done run =>
      have whole := extract_append_drop source run.ordered
      rw [List.drop_length, List.append_nil] at whole
      simp only [List.nil_append, interleave, blank, final, String.toList_empty, List.append_nil]
      exact whole
  | cons token inner ih =>
    obtain ⟨first, rest⟩ := List.forall_mem_cons.mp literal
    cases tiles with
    | segment run nonempty _ tiles =>
      have rebuilt : interleave source token.span.stop (inner ++ [last]) = source.drop token.span.stop :=
        ih tiles rest
      have ordered : token.span.start ≤ token.span.stop := Nat.le_of_lt nonempty
      calc interleave source offset (token :: inner ++ [last])
        _ = source.extract offset token.span.start ++
              (source.extract token.span.start token.span.stop ++ source.drop token.span.stop) := by
          rw [List.cons_append, interleave, rebuilt, first, List.append_assoc]
        _ = source.extract offset token.span.start ++ source.drop token.span.start := by
          rw [extract_append_drop source ordered]
        _ = source.drop offset := extract_append_drop source run.ordered

end Between

/-- What the tokens of a source keep of it. The last one marks the end and holds no text; every other
one holds the text of its stretch, which is not empty, does not begin with a blank and does not reach
over the end of a line. Between them stand only blanks, so nothing is lost. -/
structure Lossless (source : List Char) (inner : List Token) (last : Token) : Prop where
  final : last.kind = .endOfInput ∧ last.literal = "" ∧
    last.span.start = source.length ∧ last.span.stop = source.length
  single : ∀ token ∈ inner, token.kind ≠ .endOfInput
  extent : ∀ token ∈ inner, token.span.start < token.span.stop ∧ token.span.stop ≤ source.length
  literal : ∀ token ∈ inner, token.literal.toList = source.extract token.span.start token.span.stop
  blank : ∀ gap ∈ gaps 0 (inner ++ [last]),
    gap.1 ≤ gap.2 ∧ ∀ c ∈ source.extract gap.1 gap.2, c = ' ' ∨ c = '\t' ∨ c = '\r' ∨ c = '\n'
  rebuilt : interleave source 0 (inner ++ [last]) = source
  front : ∀ token ∈ inner, ∀ c, token.literal.toList.head? = some c →
    ¬ (c = ' ' ∨ c = '\t' ∨ c = '\r' ∨ c = '\n')
  line : ∀ token ∈ inner, '\n' ∉ token.literal.toList

/-- Under every table that can be made, the tokens of every source tile it without loss. -/
theorem tokenize_lossless {table : SymbolTable} (obtained : Obtainable table) (source : String) :
    ∃ inner last, table.tokenize source = inner ++ [last] ∧ Lossless source.toList inner last := by
  have sound := obtained.sound
  obtain ⟨tokens, tiles, stand⟩ := tokenize_tiles sound source
  have place := after_origin_offset source.toList
  have literal := fun token member => (stand token member).literal
  refine ⟨_, _, tokens, ⟨rfl, rfl, place, place⟩, ?_, ?_, literal, ?_, ?_, ?_, ?_⟩
  · intro token member
    exact (stand token member).kind_ne_end sound
  · intro token member
    exact ⟨(stand token member).start_lt_stop, (stand token member).stop_le_length⟩
  · intro gap member
    obtain ⟨ordered, blank⟩ := gaps_blank place tiles gap member
    exact ⟨ordered, fun c inside => Text.isBlank_iff.mp (blank c inside)⟩
  · exact interleave_eq_drop place tiles rfl literal
  · intro token member c first blank
    obtain ⟨d, found, visible⟩ := (stand token member).front
    rw [literal token member, head?_extract _ (stand token member).start_lt_stop, found] at first
    obtain rfl := Option.some.inj first
    rw [Text.isBlank_iff.mpr blank] at visible
    cases visible
  · intro token member
    rw [literal token member]
    apply LexemeLaw.lineFeed_not_mem_of_rule sound (stand token member).rule
    obtain ⟨c, found, visible⟩ := (stand token member).front
    rw [found]
    rintro ⟨⟩
    cases visible

theorem tokenize_lossless_inserted :
    let table := attempt SymbolTable.cantonese.withAsciiPunctuation "啱" .equalTo
    Obtainable table ∧ ∃ inner last,
      table.tokenize "a啱 1啱2;//x\r\n\t" = inner ++ [last] ∧
        Lossless "a啱 1啱2;//x\r\n\t".toList inner last := by
  intro table
  have obtained : Obtainable table := .insert _ _ (.asciiPunctuation .cantonese)
  exact ⟨obtained, tokenize_lossless obtained _⟩

end CantoScan.Proofs.Tiling
