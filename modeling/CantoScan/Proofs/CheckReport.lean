import CantoScan.Proofs.LogLevels
import CantoScan.Proofs.TableLoading
import CantoScan.Proofs.Tiling
import CantoScan.Proofs.Utf8Encoding

/-! What a check reports of a source. Each invalid token has a line of its own, which names the character
at its place, and nothing else is written; so a check passes where a listing shows no invalid token. -/

namespace CantoScan.Proofs.CheckReport
open Command SourceRuns TableRules LexemeLaw ScanReading Tiling TableLoading LogLevels Utf8Encoding

/-- The line about one character, with the hint if the table has another spelling for it. -/
def lineFor (table : SymbolTable) (path : String) (span : Span) (c : Char) : String :=
  s!"{path}:{span.line}:{span.column}: " ++
    s!"Invalid character '{c}' at {span.line}:{span.column}" ++
    (table.hint? c).elim "" fun literal => s!" (did you mean '{literal}'?)"

/-- A line that reports an invalid token by the character of the source at its place. -/
structure Reports (table : SymbolTable) (path : String) (source : List Char) (token : Token)
    (line : String) : Prop where
  character : ∃ c, source[token.span.start]? = some c ∧ token.literal.toList = [c] ∧
    line = lineFor table path token.span c
  single : '\n' ∉ line.toList

/-- The outcome of a check, given the invalid tokens of the source. -/
structure Checked (table : SymbolTable) (path : String) (source : List Char) (invalid : List Token)
    (outcome : Outcome) : Prop where
  report : ∃ lines, List.Forall₂ (Reports table path source) invalid lines ∧
    outcome.stderr = String.join (lines.map (· ++ "\n"))
  refused : invalid ≠ [] → outcome.exit = 1 ∧ outcome.stdout = ""
  passed : invalid = [] → outcome = ⟨0, s!"✅ No invalid characters in {path}\n", ""⟩

section Lines
variable {table : SymbolTable}

theorem toString_eq (text : String) : toString text = text := rfl

private theorem lineFeed_not_mem_toString (n : Nat) : '\n' ∉ (toString n).toList := by
  intro inside
  rw [show toString n = n.repr from rfl, Nat.toList_repr] at inside
  exact absurd (Nat.isDigit_of_mem_toDigits (by decide) (by decide) inside) (by decide)

private theorem lineFeed_not_mem_hint (sound : Sound table) {c : Char} {literal : String}
    (hint : table.hint? c = some literal) : '\n' ∉ literal.toList := by
  obtain ⟨kind, _, spelling⟩ := Option.bind_eq_some_iff.mp hint
  intro inside
  have plain := sound.unreserved _ (mem_entries_of_literalOf? spelling) '\n' inside
  exact absurd plain (by decide)

private theorem lineFeed_not_mem_lineFor (sound : Sound table) {path : String} (named : '\n' ∉ path.toList)
    (span : Span) {c : Char} (visible : Text.isBlank c = false) :
    '\n' ∉ (lineFor table path span c).toList := by
  have other : '\n' ∉ (toString c).toList := by
    intro inside
    obtain rfl : '\n' = c := by simpa [toString] using inside
    cases visible
  have number := lineFeed_not_mem_toString
  have texts : ∀ text ∈ [":", ": ", "Invalid character '", "' at "], '\n' ∉ text.toList := by decide
  simp only [List.forall_mem_cons] at texts
  unfold lineFor
  simp only [toString_eq, String.toList_append, List.mem_append, not_or]
  refine ⟨?_, ?_⟩
  · simp only [named, other, number, texts, not_false_eq_true, and_self]
  · cases hint : table.hint? c with
    | none => simp
    | some literal =>
      have spelled := lineFeed_not_mem_hint sound hint
      simp [spelled]

private theorem literal_of_invalid (sound : Sound table) {source : List Char} {token : Token}
    (stands : Stands table source token) (invalid : token.kind = .invalid) :
    ∃ c, source[token.span.start]? = some c ∧ Text.isBlank c = false ∧ token.literal.toList = [c] := by
  obtain ⟨c, found, visible⟩ := stands.front
  have rule := stands.rule
  rw [invalid] at rule
  have stop : token.span.stop = token.span.start + 1 := by
    generalize token.span.stop = stop at rule ⊢
    cases rule with
    | double _ bound => cases doubleAt_kind sound bound
    | single | invalid => rfl
  exact ⟨c, found, visible, by rw [stands.literal, stop, extract_one found]⟩

private theorem place_eq (c : Char) (span : Span) :
    ((Diagnostic.invalidCharacter c span).span?.map fun span => s!":{span.label}").getD "" =
      s!":{span.line}:{span.column}" := by
  rw [Diagnostic.span?, Option.map_some, Option.getD_some, Span.label]
  simp only [toString_eq, String.append_assoc]

theorem explain_eq_append (table : SymbolTable) (c : Char) (span : Span) :
    let fault := Diagnostic.invalidCharacter c span
    fault.explain table =
      fault.message ++ (table.hint? c).elim "" fun literal => s!" (did you mean '{literal}'?)" := by
  intro fault
  have given : fault.hint? table = table.hint? c := rfl
  rw [Diagnostic.explain, given]
  cases table.hint? c with
  | none => rw [Option.elim_none, String.append_empty]
  | some literal => simp only [Option.elim_some, toString_eq, String.append_assoc]

theorem explain_eq (table : SymbolTable) (c : Char) (span : Span) :
    (Diagnostic.invalidCharacter c span).explain table =
      s!"Invalid character '{c}' at {span.line}:{span.column}" ++
        (table.hint? c).elim "" fun literal => s!" (did you mean '{literal}'?)" := by
  rw [explain_eq_append]
  unfold Diagnostic.message Span.label
  simp only [toString_eq, String.append_assoc]

private theorem complaint_of_invalid (path : String) {token : Token} {c : Char} (invalid : token.kind = .invalid)
    (literal : token.literal.toList = [c]) :
    complaint table path token = lineFor table path token.span c ++ "\n" := by
  have fault : token.checked = .error (.invalidCharacter c token.span) := by
    rw [Token.checked, if_pos invalid, literal]
    rfl
  rw [complaint, fault, lineFor]
  simp only
  rw [place_eq, explain_eq]
  simp only [toString_eq, String.append_assoc]

private theorem complaint_of_valid (path : String) {token : Token} (valid : token.kind ≠ .invalid) :
    complaint table path token = "" := by
  rw [complaint, Token.checked, if_neg valid]

/-- The complaints about some tokens are one line for each invalid token, in the order of the tokens. -/
theorem complaints_eq (sound : Sound table) {path : String} (named : '\n' ∉ path.toList)
    {source : List Char} {tokens : List Token}
    (stand : ∀ token ∈ tokens, token.kind = .invalid → Stands table source token) :
    ∃ lines, List.Forall₂ (Reports table path source) (tokens.filter (·.kind = .invalid)) lines ∧
      String.join (tokens.map (complaint table path)) = String.join (lines.map (· ++ "\n")) := by
  induction tokens with
  | nil => exact ⟨[], .nil, rfl⟩
  | cons token tokens ih =>
    obtain ⟨first, rest⟩ := List.forall_mem_cons.mp stand
    obtain ⟨lines, reports, text⟩ := ih rest
    by_cases invalid : token.kind = .invalid
    · obtain ⟨c, found, visible, literal⟩ := literal_of_invalid sound (first invalid) invalid
      refine ⟨lineFor table path token.span c :: lines, ?_, ?_⟩
      · rw [List.filter_cons_of_pos (by simpa using invalid)]
        exact .cons ⟨⟨c, found, literal, rfl⟩, lineFeed_not_mem_lineFor sound named _ visible⟩ reports
      · rw [List.map_cons, List.map_cons, String.join_cons, String.join_cons, text,
          complaint_of_invalid path invalid literal]
    · refine ⟨lines, ?_, ?_⟩
      · rw [List.filter_cons_of_neg (by simpa using invalid)]
        exact reports
      · rw [List.map_cons, String.join_cons, text, complaint_of_valid path invalid, String.empty_append]

end Lines

section Results
variable {surroundings : Surroundings} {table : SymbolTable} {path source : String}

private theorem result_sourceTokens (read : surroundings.file path = .ok (bytesOf source)) :
    (sourceTokens surroundings table path).result = .ok (table.tokenize source) := by
  have text : readText surroundings path = .ok source := by
    rw [readText, read]
    simp only [bind, Except.bind, decode?_eq_some_iff.mpr rfl]
    rfl
  simp [sourceTokens, sourceText, text, Except.mapError, Except.bind]

private theorem result_listTokens (listing : Listing) (read : surroundings.file path = .ok (bytesOf source)) :
    (listTokens surroundings table listing path).result =
      .ok ⟨0, listing.render (listing.select (table.tokenize source)), ""⟩ := by
  rw [listTokens, Logged.result_bind, result_sourceTokens read]
  rfl

private theorem result_perform {options : Options}
    (chosen : (chosenTable surroundings options).result = .ok table) :
    (perform surroundings (.check path) options).result = (checkTokens surroundings table path).result ∧
      (perform surroundings (.tokens path) options).result =
        (listTokens surroundings table options.listing path).result := by
  simp [perform, chosen, Except.bind]

private theorem checked_checkTokens (sound : Sound table) (named : '\n' ∉ path.toList)
    (read : surroundings.file path = .ok (bytesOf source)) :
    ∃ outcome, (checkTokens surroundings table path).result = .ok outcome ∧
      Checked table path source.toList ((table.tokenize source).filter (·.kind = .invalid)) outcome := by
  have stand : ∀ token ∈ table.tokenize source, token.kind = .invalid →
      Stands table source.toList token := by
    intro token member invalid
    obtain ⟨_, _, stand⟩ := tokenize_tiles sound source
    exact stand token (mem_innerTokens.mpr ⟨member, by simp [invalid]⟩)
  obtain ⟨lines, reports, text⟩ := complaints_eq sound named stand
  rw [checkTokens, Logged.result_bind, result_sourceTokens read]
  by_cases valid : (table.tokenize source).filter (·.kind = .invalid) = []
  · have clean : (table.tokenize source).any (·.kind = .invalid) = false := by
      simpa using valid
    rw [valid] at reports ⊢
    cases reports
    refine ⟨⟨0, s!"✅ No invalid characters in {path}\n", ""⟩, ?_, ⟨[], .nil, rfl⟩, ?_, ?_⟩
    · simp [Except.bind, clean]
    · intro faulty
      exact absurd rfl faulty
    · intro _
      rfl
  · have faulty : (table.tokenize source).any (·.kind = .invalid) = true := by
      simpa using valid
    refine ⟨⟨1, "", String.join ((table.tokenize source).map (complaint table path))⟩, ?_,
      ⟨lines, reports, text⟩, ?_, ?_⟩
    · simp only [Except.bind, faulty, if_true, Logged.result_pure]
    · intro _
      exact ⟨rfl, rfl⟩
    · intro clean
      exact absurd clean valid

end Results

theorem Checked.exit_eq_zero_iff {table : SymbolTable} {path : String} {source : List Char}
    {invalid : List Token} {outcome : Outcome} (checked : Checked table path source invalid outcome) :
    outcome.exit = 0 ↔ invalid = [] := by
  constructor
  · intro success
    by_contra faulty
    rw [(checked.refused faulty).1] at success
    cases success
  · intro valid
    rw [checked.passed valid]

/-- Leaving out comments leaves out no invalid token. -/
theorem select_valid_iff {listing : Listing} {tokens : List Token} :
    tokens.filter (·.kind = .invalid) = [] ↔ ∀ token ∈ listing.select tokens, token.kind ≠ .invalid := by
  rw [List.filter_eq_nil_iff]
  constructor
  · intro valid token member
    simpa using valid token (List.mem_of_mem_filter member)
  · intro valid token member
    by_cases invalid : token.kind = .invalid
    · exact absurd invalid (valid token (List.mem_filter.mpr ⟨member, by simp [invalid]⟩))
    · simpa using invalid

/-- With the log cut off at errors, a check reports each invalid token of a file on a line of its own, in
the order of the source, and fails; where there is none it only says so. It passes where a listing of the
same file shows no invalid token, whether or not comments are left out. -/
theorem run_check {surroundings : Surroundings} {options : Options} {table : SymbolTable}
    {path source : String} (low : surroundings.threshold ≤ Log.Level.error.rank)
    (chosen : (chosenTable surroundings options).result = .ok table)
    (read : surroundings.file path = .ok (bytesOf source)) (named : '\n' ∉ path.toList) :
    Checked table path source.toList ((table.tokenize source).filter (·.kind = .invalid))
        (run surroundings (.check path) options) ∧
      ∀ json skipComments,
        let listing : Listing := ⟨json, skipComments⟩
        let shown := listing.select (table.tokenize source)
        run surroundings (.tokens path) { options with json, skipComments } =
            ⟨0, listing.render shown, ""⟩ ∧
          ((run surroundings (.check path) options).exit = 0 ↔ ∀ token ∈ shown, token.kind ≠ .invalid) := by
  obtain ⟨outcome, result, checked⟩ :=
    checked_checkTokens (chosenTable_obtainable chosen).sound named read
  rw [run_eq_of_low low ((result_perform chosen).1.trans result)]
  refine ⟨checked, ?_⟩
  intro json skipComments listing shown
  have same : (chosenTable surroundings { options with json, skipComments }).result = .ok table := chosen
  refine ⟨run_eq_of_low low ((result_perform same).2.trans (result_listTokens listing read)), ?_⟩
  exact checked.exit_eq_zero_iff.trans select_valid_iff

theorem run_check_hint :
    let source := "a(1\n//(\n$"
    let surroundings : Surroundings := ⟨fun _ => .ok (bytesOf source), [], Log.Level.error.rank⟩
    let table := SymbolTable.cantonese
    surroundings.threshold ≤ Log.Level.error.rank ∧ (chosenTable surroundings {}).result = .ok table ∧
      surroundings.file "a" = .ok (bytesOf source) ∧ '\n' ∉ "a".toList ∧
      Checked table "a" source.toList ((table.tokenize source).filter (·.kind = .invalid))
        (run surroundings (.check "a") {}) ∧
      run surroundings (.check "a") {} =
        ⟨1, "", "a:1:2: Invalid character '(' at 1:2 (did you mean '（'?)\n" ++
          "a:3:1: Invalid character '$' at 3:1\n"⟩ := by
  intro source surroundings table
  have low : surroundings.threshold ≤ Log.Level.error.rank := Nat.le_refl _
  have chosen : (chosenTable surroundings {}).result = .ok table := (neverRefused surroundings {}).builtin rfl
  have named : '\n' ∉ "a".toList := by decide
  exact ⟨low, chosen, rfl, named, (run_check low chosen rfl named).1, by decide +kernel⟩

end CantoScan.Proofs.CheckReport
