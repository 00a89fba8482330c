import CantoScan.Proofs.TokenStream

/-! Layout is free. The blanks between the tokens of a source may be replaced by others, also by none
where none stood before, and a comment must still end with its line; scanning then gives the same kinds
and literals again. -/

namespace CantoScan.Proofs.Relayout
open TableRules LexemeReach ScanReading Tiling TokenStream

def content (token : Token) : Kind × String := (token.kind, token.literal)

/-- Blanks to be set behind each of some tokens. Two tokens may only touch if they touched before, and
behind a comment stands the end of its line, or nothing behind the last token. -/
inductive Fits : List Token → List (List Char) → Prop where
  | nil : Fits [] []
  | cons {token : Token} {tokens : List Token} {gap : List Char} {gaps : List (List Char)} :
      (∀ c ∈ gap, c = ' ' ∨ c = '\t' ∨ c = '\r' ∨ c = '\n') →
      (gap = [] → ∀ next, tokens.head? = some next → token.span.stop = next.span.start) →
      (token.kind = .comment → gap.head? = some '\n' ∨ tokens = [] ∧ gap = []) →
      Fits tokens gaps → Fits (token :: tokens) (gap :: gaps)

/-- The literals of some tokens with blanks behind each of them. -/
def relaid (tokens : List Token) (gaps : List (List Char)) : List Char :=
  (tokens.zip gaps).flatMap fun placed => placed.1.literal.toList ++ placed.2

@[simp] private theorem relaid_nil (gaps : List (List Char)) : relaid [] gaps = [] := rfl

@[simp] private theorem relaid_cons (token : Token) (tokens : List Token) (gap : List Char)
    (gaps : List (List Char)) :
    relaid (token :: tokens) (gap :: gaps) = token.literal.toList ++ (gap ++ relaid tokens gaps) := by
  simp [relaid]

variable {table : SymbolTable}

private theorem head?_of_touching (sound : Sound table) {unread : Unread} {next : Token} {tokens : List Token}
    (more : innerFrom table unread = next :: tokens) (touching : unread.position.offset = next.span.start) :
    ∃ c body, next.literal.toList = c :: body ∧ unread.text.head? = some c := by
  cases front : unread.skipBlanks.text with
  | nil =>
    rw [innerFrom_of_blank front] at more
    cases more
  | cons c rest =>
    rw [innerFrom_of_lexeme sound front] at more
    obtain ⟨rfl, _⟩ := List.cons.inj more
    obtain ⟨blanks, _, whole, place⟩ := text_eq unread
    rw [start_tokenAt, place, Position.after_offset] at touching
    obtain rfl : blanks = [] := List.length_eq_zero_iff.mp (by omega)
    obtain ⟨body, literal, _⟩ := lexeme_text_cons table c rest
    exact ⟨c, body, by rw [toList_literal_tokenAt, literal], by rw [whole, front]; rfl⟩

private theorem follows_of_fits (sound : Sound table) {lexeme : Lexeme} {token : Token} {behind : Unread}
    {gap : List Char} {gaps : List (List Char)} (kind : token.kind = lexeme.kind)
    (place : token.span.stop = behind.position.offset) (left : behind.text = lexeme.rest)
    (fits : Fits (token :: innerFrom table behind) (gap :: gaps)) :
    Follows lexeme (gap ++ relaid (innerFrom table behind) gaps) := by
  cases fits with
  | cons blanks touching line fits =>
    rw [kind] at line
    cases gap with
    | cons d gap =>
      refine .blank ?_ ?_
      · rintro next ⟨⟩
        exact Text.isBlank_iff.mpr (blanks d (by simp))
      · rintro comment next ⟨⟩
        simpa using line comment
    | nil =>
      cases tokens : innerFrom table behind with
      | nil =>
        refine .blank ?_ ?_
        · rintro next ⟨⟩
        · rintro _ next ⟨⟩
      | cons next later =>
        rw [tokens] at fits touching
        obtain ⟨c, body, literal, first⟩ :=
          head?_of_touching sound tokens (place.symm.trans (touching rfl next rfl))
        cases fits with
        | cons =>
          refine .same ?_
          rw [List.nil_append, relaid_cons, literal, ← left, first]
          rfl

private theorem content_innerFrom_relaid (sound : Sound table) (unread : Unread) (position : Position)
    {front : List Char} {gaps : List (List Char)} (blank : ∀ c ∈ front, Text.isBlank c = true)
    (fits : Fits (innerFrom table unread) gaps) :
    (innerFrom table ⟨position, front ++ relaid (innerFrom table unread) gaps⟩).map content =
      (innerFrom table unread).map content := by
  induction unread using scan_induction table generalizing position front gaps with
  | blank unread done =>
    rw [innerFrom_of_blank done, relaid_nil, List.append_nil, innerFrom_of_blank]
    rw [skipBlanks_of_blank position blank]
  | lexeme unread c rest more ih =>
    rw [innerFrom_of_lexeme sound more] at fits ⊢
    obtain ⟨body, text, whole⟩ := lexeme_text_cons table c rest
    cases gaps with
    | nil => cases fits
    | cons gap gaps =>
      have follows : Follows (table.lexeme c rest) _ := follows_of_fits sound rfl rfl rfl fits
      have moved := lexeme_append sound text whole follows
      obtain ⟨blanks, fits⟩ : (∀ c ∈ gap, Text.isBlank c = true) ∧
          Fits (innerFrom table (table.tokenAt unread.skipBlanks.position c rest).2) gaps := by
        cases fits with
        | cons blanks _ _ fits => exact ⟨fun c inside => Text.isBlank_iff.mpr (blanks c inside), fits⟩
      rw [relaid_cons, toList_literal_tokenAt, text, List.cons_append,
        innerFrom_append_lexeme position blank sound (isBlank_of_skipBlanks more) moved]
      simp only [List.map_cons]
      rw [ih _ blanks fits, tokenAt_eq rfl, content, content, text]

/-- Under every table that can be made, a source and any other layout of its tokens have the same kinds
and literals in the same order, and then the end. -/
theorem tokenize_relaid {table : SymbolTable} (obtained : Obtainable table) (source : String)
    {front : List Char} {gaps : List (List Char)}
    (blank : ∀ c ∈ front, c = ' ' ∨ c = '\t' ∨ c = '\r' ∨ c = '\n')
    (fits : Fits ((table.tokenize source).filter (!·.isEnd)) gaps) :
    (table.tokenize (String.ofList (front ++
        relaid ((table.tokenize source).filter (!·.isEnd)) gaps))).map content =
      ((table.tokenize source).filter (!·.isEnd)).map content ++ [(.endOfInput, "")] := by
  have sound := obtained.sound
  obtain ⟨tokens, _⟩ := tokenize_tiles sound
    (String.ofList (front ++ relaid ((table.tokenize source).filter (!·.isEnd)) gaps))
  have same := content_innerFrom_relaid sound (.ofSource source) .origin
    (fun c inside => Text.isBlank_iff.mpr (blank c inside)) fits
  rw [tokens, List.map_append, innerTokens_eq, innerOf, String.toList_ofList]
  exact congrArg (· ++ [(Kind.endOfInput, "")]) same

theorem tokenize_relaid_comment :
    let inner := (SymbolTable.cantonese.tokenize "a大過 1b//c d\n/e").filter (!·.isEnd)
    let gaps := [['\t'], [], ['\r', '\n'], ['\n', ' '], [], [' ']]
    Obtainable .cantonese ∧ Fits inner gaps ∧
      (SymbolTable.cantonese.tokenize (String.ofList ([' '] ++ relaid inner gaps))).map content =
        inner.map content ++ [(.endOfInput, "")] := by
  intro inner gaps
  have tokens : inner =
      [⟨.identifier, "a大過", ⟨0, 3, 1, 1⟩⟩, ⟨.number, "1", ⟨4, 5, 1, 5⟩⟩,
        ⟨.identifier, "b", ⟨5, 6, 1, 6⟩⟩, ⟨.comment, "//c d", ⟨6, 11, 1, 7⟩⟩,
        ⟨.divide, "/", ⟨12, 13, 2, 1⟩⟩, ⟨.identifier, "e", ⟨13, 14, 2, 2⟩⟩] := by decide +kernel
  have fits : Fits inner gaps := by
    rw [tokens]
    repeat refine .cons (by simp) (by simp) (by simp) ?_
    exact .nil
  exact ⟨.cantonese, fits, tokenize_relaid .cantonese _ (by simp) fits⟩

end CantoScan.Proofs.Relayout
