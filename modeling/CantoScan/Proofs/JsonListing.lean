import CantoScan.Listing
import CantoScan.Proofs.JsonValues
import CantoScan.Proofs.Progress

/-! The listing of tokens as JSON. It is one value and a line feed, and whoever reads the value gets back every
token as it was. -/

namespace CantoScan.Proofs.JsonListing
open Json JsonGrammar JsonValues SourceRuns ScanReading TokenPlaces Progress

section Decoding

def natural? (key : String) (value : Value) : Option Nat :=
  match value.get? key with
  | some (.number (.integer n)) => n.toNat?
  | _ => none

def content? (key : String) (value : Value) : Option String :=
  match value.get? key with
  | some (.string content) => some content
  | _ => none

def spanOf? (value : Value) : Option Span := do
  pure ⟨← natural? "start" value, ← natural? "end" value, ← natural? "line" value, ← natural? "column" value⟩

/-- The token that an object tells of: its kind by name, its literal and its span. -/
def tokenOf? (value : Value) : Option Token := do
  let kind ← Kind.ofName? (← content? "kind" value)
  let literal ← content? "literal" value
  let span ← spanOf? (← value.get? "span")
  pure ⟨kind, literal, span⟩

private theorem spanOf?_toValue (span : Span) : spanOf? span.toValue = some span := rfl

private theorem tokenOf?_toValue (token : Token) : tokenOf? token.toValue = some token := by
  have kind : content? "kind" token.toValue = some token.kind.name := rfl
  have literal : content? "literal" token.toValue = some token.literal := rfl
  have span : token.toValue.get? "span" = some token.span.toValue := rfl
  simp [tokenOf?, kind, literal, span, Kind.ofName?_name, spanOf?_toValue]

private theorem mapM_tokenOf?_toValue (tokens : List Token) :
    (tokens.map Token.toValue).mapM tokenOf? = some tokens := by
  induction tokens with
  | nil => rfl
  | cons token tokens ih => simp [tokenOf?_toValue, ih]

end Decoding

section Printing

structure Within (largest : Nat) (span : Span) : Prop where
  start : span.start ≤ largest
  stop : span.stop ≤ largest
  line : span.line ≤ largest
  column : span.column ≤ largest

private theorem printed_toValue {largest : Nat} {token : Token} (within : Within largest token.span) :
    Printed largest 2 token.toValue := by
  have span : Printed largest 1 token.span.toValue := by
    apply printed_object
    simp [printed_whole, within.start, within.stop, within.line, within.column]
  apply printed_object
  simp [printed_string, span]

private theorem within_of_mem {table : SymbolTable} {source : String} {token : Token}
    (member : token ∈ table.tokenize source) : Within (source.length + 1) token.span := by
  have counted := counted_of_mem member
  have reads : Reads source.toList (Cursor.ofSource table source).unread := reads_ofSource source
  have moves := moves_takeAll reads
  have passed := moves.passed token member
  have stop := passed.within.trans (place_le moves.reads).1
  have start := counted.within
  have line := counted.line_le
  have column := counted.column_le
  rw [String.length_toList] at start stop line column
  exact ⟨Nat.le_succ_of_le start, Nat.le_succ_of_le stop, line, column⟩

end Printing

/-- Under every table the listing is one document and a line feed, and the document is the text of a list with
one object for each token. Places in a source are machine words, so no source that is held in memory has
numbers that a reader would round, and reading gives exactly these objects. -/
theorem render_decoded (table : SymbolTable) (source : String) (skipComments : Bool) :
    let listing : Listing := ⟨true, skipComments⟩
    let tokens := listing.select (table.tokenize source)
    ∃ document values,
      listing.render tokens = document ++ "\n" ∧
        ValueText (source.length + 1) 3 (.list values) document.toList ∧
        values.mapM tokenOf? = some tokens ∧
        (source.length < Numeral.maxWhole →
          Json.parse document = .ok (.list values) ∧ Json.parse (document ++ "\n") = .ok (.list values)) := by
  intro listing tokens
  have printed : Printed (source.length + 1) 3 (.list (tokens.map Token.toValue)) := by
    refine printed_list (List.forall_mem_map.mpr fun token inside => printed_toValue ?_)
    exact within_of_mem (List.mem_of_mem_filter inside)
  have form : ValueText _ 3 (.list _) (Value.list (tokens.map Token.toValue)).pretty.toList := printed 0
  have feed : Blanks ['\n'] := by simp [Blanks, Text.isBlank]
  refine ⟨_, _, rfl, form, mapM_tokenOf?_toValue tokens, fun held => ⟨?_, ?_⟩⟩
  · exact parse_valueText form held (by decide) (by simp) blanks_nil blanks_nil
  · exact parse_valueText form held (by decide) (by simp) blanks_nil feed

theorem render_decoded_escapes :
    let source := "// \"\\\x01😀\n\""
    let listing : Listing := ⟨true, false⟩
    let tokens := listing.select (SymbolTable.cantonese.tokenize source)
    tokens =
        [⟨.comment, "// \"\\\x01😀", ⟨0, 7, 1, 1⟩⟩, ⟨.invalid, "\"", ⟨8, 9, 2, 1⟩⟩, .atEnd ⟨9, 9, 2, 2⟩] ∧
      source.length < Numeral.maxWhole ∧
      ∃ document values,
        listing.render tokens = document ++ "\n" ∧ values.mapM tokenOf? = some tokens ∧
          Json.parse (document ++ "\n") = .ok (.list values) := by
  intro source listing tokens
  have held : source.length < Numeral.maxWhole := by decide +kernel
  obtain ⟨document, values, rendered, _, decoded, read⟩ := render_decoded SymbolTable.cantonese source false
  exact ⟨by decide +kernel, held, document, values, rendered, decoded, (read held).2⟩

end CantoScan.Proofs.JsonListing
