import CantoScan.Listing
import CantoScan.Proofs.TokenStream

/-! Leaving comments out. A source with spaces in place of its comments has the tokens of the source
without the comments, all at their old places: a space ends the lexeme before it as the comment did. -/

namespace CantoScan.Proofs.CommentBlanking
open SourceRuns TableRules LexemeLaw LexemeReach ScanReading Tiling TokenStream

/-- Whether one of some tokens is a comment that covers an offset. -/
def inComment (tokens : List Token) (offset : Nat) : Bool :=
  tokens.any fun token => token.kind = .comment && token.span.start ≤ offset && offset < token.span.stop

/-- A text that begins at an offset, with a space for each character that a comment covers. -/
def blankedFrom (tokens : List Token) (offset : Nat) (text : List Char) : List Char :=
  text.mapIdx fun index c => if inComment tokens (offset + index) then ' ' else c

def blanked (tokens : List Token) (source : String) : String :=
  String.ofList (blankedFrom tokens 0 source.toList)

private theorem inComment_eq_true {tokens : List Token} {offset : Nat} :
    inComment tokens offset = true ↔
      ∃ token ∈ tokens, token.kind = .comment ∧ token.span.start ≤ offset ∧ offset < token.span.stop := by
  simp [inComment, and_assoc]

private theorem inComment_cons (token : Token) (tokens : List Token) (offset : Nat) :
    inComment (token :: tokens) offset = (inComment [token] offset || inComment tokens offset) := by
  simp [inComment]

section Stretches
variable {tokens : List Token} {offset : Nat} {text : List Char}

private theorem blankedFrom_append (tokens : List Token) (offset : Nat) (first second : List Char) :
    blankedFrom tokens offset (first ++ second) =
      blankedFrom tokens offset first ++ blankedFrom tokens (offset + first.length) second := by
  simp only [blankedFrom, List.mapIdx_append, Nat.add_assoc, Nat.add_comm first.length]

private theorem blankedFrom_congr {others : List Token}
    (same : ∀ index, offset ≤ index → inComment tokens index = inComment others index) :
    blankedFrom tokens offset text = blankedFrom others offset text := by
  simp only [blankedFrom, same _ (Nat.le_add_right offset _)]

private theorem blankedFrom_of_outside
    (outside : ∀ index < text.length, inComment tokens (offset + index) = false) :
    blankedFrom tokens offset text = text := by
  apply List.ext_getElem
  · simp [blankedFrom]
  · intro index _ inside
    simp [blankedFrom, outside index inside]

private theorem blankedFrom_of_inside
    (inside : ∀ index < text.length, inComment tokens (offset + index) = true) :
    blankedFrom tokens offset text = List.replicate text.length ' ' := by
  apply List.ext_getElem
  · simp [blankedFrom]
  · intro index within _
    simp [blankedFrom, inside index (by simpa [blankedFrom] using within)]

private theorem head?_blankedFrom (tokens : List Token) (offset : Nat) (text : List Char) :
    (blankedFrom tokens offset text).head? = text.head? ∨
      (blankedFrom tokens offset text).head? = some ' ' := by
  cases text with
  | nil => exact .inl rfl
  | cons c text =>
    rw [blankedFrom, List.mapIdx_cons]
    split
    · exact .inr rfl
    · exact .inl rfl

end Stretches

theorem after_of_single {text : List Char} (single : '\n' ∉ text) (position : Position) :
    position.after text =
      ⟨position.offset + text.length, position.line, position.column + text.length⟩ := by
  induction text generalizing position with
  | nil => rfl
  | cons c text ih =>
    obtain ⟨other, single⟩ := List.ne_and_not_mem_of_not_mem_cons single
    rw [Position.after_cons, ih single, Position.advance, if_neg (Ne.symm other), List.length_cons]
    simp only [Nat.add_assoc, Nat.add_comm 1]

private theorem after_replicate_space {text : List Char} (single : '\n' ∉ text) (position : Position) :
    position.after (List.replicate text.length ' ') = position.after text := by
  rw [after_of_single single, after_of_single (by simp), List.length_replicate]

variable {table : SymbolTable}

private theorem lineFeed_not_mem_lexeme (sound : Sound table) {c : Char} (rest : List Char)
    (visible : Text.isBlank c = false) : '\n' ∉ (table.lexeme c rest).text := by
  have other : c ≠ '\n' := by
    rintro rfl
    cases visible
  have rule := rule_lexeme table [] rest c other
  have single := lineFeed_not_mem_of_rule sound rule (by simpa using other)
  rw [← table.lexeme_text_append_rest c rest, extract_append] at single
  exact single

/-- No comment covers the blanks before the first lexeme, nor anything further before. -/
theorem inComment_of_lt (sound : Sound table) {unread : Unread} {index : Nat}
    (before : index < unread.skipBlanks.position.offset) :
    inComment (innerFrom table unread) index = false := by
  apply Bool.eq_false_iff.mpr
  intro covered
  obtain ⟨token, member, _, begun, _⟩ := inComment_eq_true.mp covered
  have start := (extent_of_mem sound member).1
  omega

def blankedLexeme (lexeme : Lexeme) : List Char :=
  if lexeme.kind = .comment then List.replicate lexeme.text.length ' ' else lexeme.text

private theorem after_blankedLexeme (sound : Sound table) {c : Char} (rest : List Char)
    (visible : Text.isBlank c = false) (position : Position) :
    position.after (blankedLexeme (table.lexeme c rest)) =
      position.after (table.lexeme c rest).text := by
  unfold blankedLexeme
  split
  · exact after_replicate_space (lineFeed_not_mem_lexeme sound rest visible) position
  · rfl

/-- Unread text with its comments blanked. -/
def blankedText (table : SymbolTable) (unread : Unread) : List Char :=
  blankedFrom (innerFrom table unread) unread.position.offset unread.text

private theorem blankedText_of_blank {unread : Unread} (done : unread.skipBlanks.text = []) :
    blankedText table unread = unread.text := by
  rw [blankedText, innerFrom_of_blank done]
  exact blankedFrom_of_outside fun _ _ => rfl

/-- Blanking goes lexeme by lexeme, as scanning does. -/
theorem blankedText_of_lexeme (sound : Sound table) {unread : Unread} {c : Char} {rest : List Char}
    (front : unread.skipBlanks.text = c :: rest) :
    ∃ blanks, (∀ d ∈ blanks, Text.isBlank d = true) ∧
      unread.skipBlanks.position = unread.position.after blanks ∧
      blankedText table unread = blanks ++ (blankedLexeme (table.lexeme c rest) ++
        blankedText table (table.tokenAt unread.skipBlanks.position c rest).2) := by
  obtain ⟨blanks, blank, whole, place⟩ := text_eq unread
  refine ⟨blanks, blank, place, ?_⟩
  have offset : unread.skipBlanks.position.offset = unread.position.offset + blanks.length := by
    rw [place, Position.after_offset]
  let step := table.tokenAt unread.skipBlanks.position c rest
  have behind : step.2.position.offset =
      unread.position.offset + blanks.length + (table.lexeme c rest).text.length := by
    rw [← offset]
    exact Position.after_offset ..
  have later : ∀ index < step.2.position.offset, inComment (innerFrom table step.2) index = false :=
    fun index before => inComment_of_lt sound (Nat.lt_of_lt_of_le before (offset_le_skipBlanks _))
  have tokens := innerFrom_of_lexeme sound front
  have skipped : blankedFrom (innerFrom table unread) unread.position.offset blanks = blanks :=
    blankedFrom_of_outside fun index inside => inComment_of_lt sound (by omega)
  have here : blankedFrom (innerFrom table unread) (unread.position.offset + blanks.length)
      (table.lexeme c rest).text = blankedLexeme (table.lexeme c rest) := by
    unfold blankedLexeme
    split
    next comment =>
      apply blankedFrom_of_inside
      intro index inside
      apply inComment_eq_true.mpr
      exact ⟨step.1, by simp [tokens, step], comment, by simp [step, offset], by simp [step, offset, inside]⟩
    next other =>
      apply blankedFrom_of_outside
      intro index inside
      rw [tokens, inComment_cons, later _ (by omega), Bool.or_false]
      simp [inComment, other]
  have further : blankedFrom (innerFrom table unread) step.2.position.offset step.2.text =
      blankedText table step.2 := by
    apply blankedFrom_congr
    intro index after
    have passed : inComment [step.1] index = false := by
      simp [inComment, step, offset]
      omega
    rw [tokens, inComment_cons, passed, Bool.false_or]
  rw [blankedText, whole, front, ← table.lexeme_text_append_rest c rest, blankedFrom_append,
    blankedFrom_append, skipped, here, ← behind]
  exact congrArg (fun left => blanks ++ (blankedLexeme (table.lexeme c _) ++ left)) further

private theorem follows_blanked {lexeme : Lexeme} (other : lexeme.kind ≠ .comment) (tokens : List Token)
    (offset : Nat) : Follows lexeme (blankedFrom tokens offset lexeme.rest) := by
  rcases head?_blankedFrom tokens offset lexeme.rest with same | space
  · exact .same same
  · refine .blank ?_ (fun comment => absurd comment other)
    intro next first
    obtain rfl := Option.some.inj (space.symm.trans first)
    rfl

private theorem innerFrom_blankedText (sound : Sound table) (unread : Unread) :
    innerFrom table ⟨unread.position, blankedText table unread⟩ =
      (innerFrom table unread).filter (·.kind ≠ .comment) := by
  induction unread using scan_induction table with
  | blank unread done =>
    rw [blankedText_of_blank done, innerFrom_of_blank done]
    rfl
  | lexeme unread c rest front ih =>
    obtain ⟨blanks, blank, place, whole⟩ := blankedText_of_lexeme sound front
    have visible := isBlank_of_skipBlanks front
    rw [whole, innerFrom_of_lexeme sound front]
    by_cases comment : (table.lexeme c rest).kind = .comment
    · have covered := after_blankedLexeme sound rest visible unread.skipBlanks.position
      rw [blankedLexeme, if_pos comment] at covered ⊢
      rw [innerFrom_append_blank _ blank, ← place,
        innerFrom_append_blank _ (fun d inside => by rw [List.eq_of_mem_replicate inside]; rfl), covered,
        List.filter_cons_of_neg (by simp [comment]), ← ih]
      rfl
    · obtain ⟨body, text, left⟩ := lexeme_text_cons table c rest
      have follows : Follows (table.lexeme c rest)
          (blankedText table (table.tokenAt unread.skipBlanks.position c rest).2) :=
        follows_blanked comment _ _
      have moved := lexeme_append sound text left follows
      rw [blankedLexeme, if_neg comment, text, List.cons_append,
        innerFrom_append_lexeme _ blank sound visible moved, ← place,
        List.filter_cons_of_pos (by simp [comment]), ← text, ← ih]
      rfl

private theorem after_blankedText (sound : Sound table) (unread : Unread) :
    unread.position.after (blankedText table unread) = unread.position.after unread.text := by
  induction unread using scan_induction table with
  | blank unread done => rw [blankedText_of_blank done]
  | lexeme unread c rest front ih =>
    obtain ⟨blanks, _, place, whole⟩ := blankedText_of_lexeme sound front
    have visible := isBlank_of_skipBlanks front
    rw [whole, Position.after_append, ← place, Position.after_append, after_blankedLexeme sound rest visible,
      ← after_tokenAt table front]
    exact ih

private theorem blanked_tokenize (sound : Sound table) (source : String) :
    (blanked (table.tokenize source) source).toList = blankedText table (.ofSource source) := by
  obtain ⟨tokens, _⟩ := tokenize_tiles sound source
  have same : ∀ index, inComment (table.tokenize source) index =
      inComment (innerFrom table (.ofSource source)) index := by
    intro index
    rw [tokens, inComment, List.any_append]
    exact Bool.or_false _
  rw [blanked, String.toList_ofList]
  exact blankedFrom_congr fun index _ => same index

/-- Under every table that can be made, a listing that leaves comments out shows exactly the tokens of
the source with its comments blanked, and these have no comment among them. -/
theorem select_eq_tokenize_blanked {table : SymbolTable} (obtained : Obtainable table) (json : Bool)
    (source : String) :
    let listing : Listing := ⟨json, true⟩
    let shown := table.tokenize (blanked (table.tokenize source) source)
    listing.select (table.tokenize source) = shown ∧ ∀ token ∈ shown, token.kind ≠ .comment := by
  intro listing shown
  have sound := obtained.sound
  obtain ⟨tokens, _⟩ := tokenize_tiles sound source
  obtain ⟨others, _⟩ := tokenize_tiles sound (blanked (table.tokenize source) source)
  have text := blanked_tokenize sound source
  have inner : innerTokens table (blanked (table.tokenize source) source) =
      (innerTokens table source).filter (·.kind ≠ .comment) := by
    rw [innerTokens_eq, text]
    exact innerFrom_blankedText sound (.ofSource source)
  have final : Position.origin.after (blanked (table.tokenize source) source).toList =
      Position.origin.after source.toList := by
    rw [text]
    exact after_blankedText sound (.ofSource source)
  have same : listing.select (table.tokenize source) = shown := by
    rw [inner, final] at others
    rw [show shown = _ from others, tokens, Listing.select, List.filter_append]
    simp [listing, Token.atEnd]
  refine ⟨same, ?_⟩
  intro token member
  rw [← same] at member
  simpa [listing] using (List.mem_filter.mp member).2

theorem select_eq_tokenize_blanked_halves :
    let source := "大//過\n大1// //\r\n/ /"
    let shown := SymbolTable.cantonese.tokenize (blanked (SymbolTable.cantonese.tokenize source) source)
    Obtainable .cantonese ∧
      (Listing.select ⟨false, true⟩ (SymbolTable.cantonese.tokenize source) = shown ∧
        ∀ token ∈ shown, token.kind ≠ .comment) ∧
      shown = [⟨.identifier, "大", ⟨0, 1, 1, 1⟩⟩, ⟨.identifier, "大", ⟨5, 6, 2, 1⟩⟩,
        ⟨.number, "1", ⟨6, 7, 2, 2⟩⟩, ⟨.divide, "/", ⟨14, 15, 3, 1⟩⟩, ⟨.divide, "/", ⟨16, 17, 3, 3⟩⟩,
        .atEnd ⟨17, 17, 3, 4⟩] := by
  intro source shown
  exact ⟨.cantonese, select_eq_tokenize_blanked .cantonese false source, by decide +kernel⟩

end CantoScan.Proofs.CommentBlanking
