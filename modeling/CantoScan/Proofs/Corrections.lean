import CantoScan.Proofs.BoundLiterals
import CantoScan.Proofs.CheckReport
import CantoScan.Proofs.Relayout

/-! Hints as corrections. An invalid character may be replaced by the spelling that its hint gives, with
blanks around it: the spelling is read as a token of the kind that was meant, and all tokens before and
behind it keep their kinds and literals. -/

namespace CantoScan.Proofs.Corrections
open SymbolTable TableRules LexemeReach ScanReading Tiling TokenStream Relayout BoundLiterals

/-- A source with a literal between blanks in place of the character at an offset. -/
def corrected (source : String) (offset : Nat) (literal : String) : String :=
  String.ofList (source.toList.take offset ++ ' ' :: (literal.toList ++ ' ' :: source.toList.drop (offset + 1)))

def hintText (literal : String) : String := s!" (did you mean '{literal}'?)"

section Scan
variable {table : SymbolTable} (sound : Sound table)
include sound

private theorem content_innerFrom (unread : Unread) (position : Position) :
    (innerFrom table ⟨position, unread.text⟩).map content = (innerFrom table unread).map content := by
  induction unread using scan_induction table generalizing position with
  | blank unread done =>
    have doneToo : (Unread.skipBlanks ⟨position, unread.text⟩).text = [] := done
    rw [innerFrom_of_blank done, innerFrom_of_blank doneToo]
  | lexeme unread c rest front ih =>
    have frontToo : (Unread.skipBlanks ⟨position, unread.text⟩).text = c :: rest := front
    rw [innerFrom_of_lexeme sound front, innerFrom_of_lexeme sound frontToo, List.map_cons, List.map_cons,
      ← ih]
    rfl

private theorem content_innerFrom_literal {literal : String} {kind : Kind}
    (bound : kindOf? table literal = some kind) {blanks : List Char}
    (blank : ∀ d ∈ blanks, Text.isBlank d = true) (position : Position) (behind : Unread) :
    (innerFrom table ⟨position, blanks ++ ' ' :: (literal.toList ++ ' ' :: behind.text)⟩).map content =
      (kind, literal) :: (innerFrom table behind).map content := by
  have before : ∀ d ∈ blanks ++ [' '], Text.isBlank d = true := by
    simpa [or_imp, forall_and] using ⟨blank, rfl⟩
  have space : ∀ d ∈ [' '], Text.isBlank d = true := by simp [Text.isBlank]
  have starts : StartsBlank (' ' :: behind.text) := by
    rintro next ⟨⟩
    rfl
  obtain ⟨c, body, text, visible, read⟩ := lexeme_of_kindOf? sound bound starts
  have place : blanks ++ ' ' :: (literal.toList ++ ' ' :: behind.text) =
      (blanks ++ [' ']) ++ c :: (body ++ ' ' :: behind.text) := by simp [text]
  have further := innerFrom_append_blank (position.after (blanks ++ [' ']) |>.after (c :: body)) space table
    behind.text
  rw [place, innerFrom_append_lexeme position before sound visible read, List.map_cons]
  dsimp only
  rw [show ' ' :: behind.text = [' '] ++ behind.text from rfl, further, content_innerFrom sound behind,
    content, ← text, String.ofList_toList]

/-- A blank may take the place of a character behind a lexeme, even right behind it: a comment is never
followed by a character that is not the end of its line. -/
theorem follows_replaced {c d : Char} {rest before behind : List Char}
    (left : (table.lexeme c rest).rest = before ++ d :: behind) (visible : Text.isBlank d = false)
    (others : List Char) : Follows (table.lexeme c rest) (before ++ ' ' :: others) := by
  cases before with
  | cons e before => exact .same (by rw [left]; rfl)
  | nil =>
    refine .blank ?_ ?_
    · rintro next ⟨⟩
      rfl
    · intro comment
      have feed : d = '\n' := eq_lineFeed_of_comment sound comment (by rw [left]; rfl)
      rw [feed] at visible
      cases visible

/-- Where a scan finds an invalid token, its character may be replaced by any bound literal between blanks.
No lexeme before it reaches so far that it would take in the blank. -/
theorem exists_correction (unread : Unread) {earlier later : List Token} {token : Token}
    (tokens : innerFrom table unread = earlier ++ token :: later) (invalid : token.kind = .invalid) :
    ∃ before c behind, unread.text = before ++ c :: behind ∧ token.literal.toList = [c] ∧
      token.span.start = unread.position.offset + before.length ∧ Text.isBlank c = false ∧
      table.single c = none ∧
      ∀ literal kind, kindOf? table literal = some kind → ∀ position,
        (innerFrom table ⟨position, before ++ ' ' :: (literal.toList ++ ' ' :: behind)⟩).map content =
          earlier.map content ++ (kind, literal) :: later.map content := by
  induction unread using scan_induction table generalizing earlier with
  | blank unread done =>
    rw [innerFrom_of_blank done] at tokens
    simp at tokens
  | lexeme unread c rest front ih =>
    obtain ⟨blanks, blank, whole, place⟩ := text_eq unread
    have visible := isBlank_of_skipBlanks front
    rw [front] at whole
    rw [innerFrom_of_lexeme sound front] at tokens
    cases earlier with
    | nil =>
      obtain ⟨rfl, rfl⟩ := List.cons.inj tokens
      obtain ⟨read, free⟩ := lexeme_of_invalid sound invalid
      refine ⟨blanks, c, rest, whole, ?_, ?_, visible, free, ?_⟩
      · rw [toList_literal_tokenAt, read]
      · rw [start_tokenAt, place, Position.after_offset]
      · intro literal kind bound position
        have behind := content_innerFrom_literal sound bound blank position
          (table.tokenAt unread.skipBlanks.position c rest).2
        rw [tokenAt_eq read] at behind ⊢
        exact behind
    | cons first earlier =>
      obtain ⟨rfl, others⟩ := List.cons.inj tokens
      obtain ⟨before, d, behind, left, literal, start, seen, free, replaced⟩ := ih others
      obtain ⟨body, text, split⟩ := lexeme_text_cons table c rest
      replace left : (table.lexeme c rest).rest = before ++ d :: behind := left
      refine ⟨blanks ++ c :: (body ++ before), d, behind, ?_, literal, ?_, seen, free, ?_⟩
      · rw [whole, split, left]
        simp
      · rw [start, tokenAt_eq rfl, Position.after_offset, text, place, Position.after_offset]
        simp only [List.length_append, List.length_cons]
        omega
      · intro literal kind bound position
        have follows := follows_replaced sound left seen (literal.toList ++ ' ' :: behind)
        have moved := lexeme_append sound text split follows
        have same : blanks ++ c :: (body ++ before) ++ ' ' :: (literal.toList ++ ' ' :: behind) =
            blanks ++ c :: (body ++ (before ++ ' ' :: (literal.toList ++ ' ' :: behind))) := by simp
        rw [same, innerFrom_append_lexeme position blank sound visible moved, List.map_cons,
          replaced literal kind bound, List.map_cons, List.cons_append, tokenAt_eq rfl, text]
        rfl

end Scan

section Hint
variable {table : SymbolTable} {c : Char}

private theorem toList_hintText (literal : String) :
    (hintText literal).toList = " (did you mean '".toList ++ literal.toList ++ "'?)".toList := by
  unfold hintText
  simp only [CheckReport.toString_eq, String.toList_append]

private theorem append_hintText_inj {message literal other : String} :
    message ++ hintText literal = message ++ hintText other ↔ literal = other := by
  rw [← String.toList_inj, String.toList_append, String.toList_append, List.append_right_inj,
    toList_hintText, toList_hintText, List.append_left_inj, List.append_right_inj, String.toList_inj]

private theorem ne_append_hintText (message literal : String) : message ≠ message ++ hintText literal := by
  rw [ne_eq, ← String.toList_inj, String.toList_append, List.self_eq_append_right, toList_hintText,
    List.append_assoc]
  exact List.append_ne_nil_of_left_ne_nil (by decide) _

theorem explain_eq (span : Span) :
    let fault := Diagnostic.invalidCharacter c span
    fault.explain table = (table.hint? c).elim fault.message fun literal => fault.message ++ hintText literal := by
  intro fault
  rw [CheckReport.explain_eq_append]
  cases table.hint? c with
  | none => rw [Option.elim_none, Option.elim_none, String.append_empty]
  | some literal => rfl

private theorem explain_eq_iff (span : Span) (literal : String) :
    let fault := Diagnostic.invalidCharacter c span
    fault.explain table = fault.message ++ hintText literal ↔ table.hint? c = some literal := by
  intro fault
  rw [explain_eq]
  cases table.hint? c with
  | none =>
    rw [Option.elim_none]
    simpa using ne_append_hintText fault.message literal
  | some other =>
    rw [Option.elim_some, append_hintText_inj]
    simp

private theorem exists_hint_iff :
    (∃ literal, table.hint? c = some literal) ↔
      ∃ kind literal, wellKnown.single c = some kind ∧ (literal, kind) ∈ table.entries := by
  constructor
  · rintro ⟨literal, hint⟩
    obtain ⟨kind, known, spelling⟩ := Option.bind_eq_some_iff.mp hint
    exact ⟨kind, literal, known, mem_entries_of_literalOf? spelling⟩
  · rintro ⟨kind, literal, known, member⟩
    have spelled : table.literalOf? kind ≠ none := fun none =>
      literalOf?_eq_none_iff.mp none (literal, kind) member rfl
    obtain ⟨spelling, found⟩ := Option.ne_none_iff_exists'.mp spelled
    exact ⟨spelling, Option.bind_eq_some_iff.mpr ⟨kind, known, found⟩⟩

end Hint

private theorem exists_later {inner earlier later : List Token} {token last : Token}
    (tokens : inner ++ [last] = earlier ++ token :: later) (other : token ≠ last) :
    ∃ others, inner = earlier ++ token :: others ∧ later = others ++ [last] := by
  rcases List.append_eq_append_iff.mp tokens with ⟨rest, _, ending⟩ | ⟨rest, front, ending⟩
  · cases rest with
    | nil => exact absurd (List.cons.inj ending).1.symm other
    | cons first rest => simp at ending
  · cases rest with
    | nil => exact absurd (List.cons.inj ending).1 other
    | cons first rest =>
      obtain ⟨rfl, rfl⟩ := List.cons.inj ending
      exact ⟨rest, front, rfl⟩

private theorem toList_corrected {source : String} {before behind : List Char} {c : Char}
    (text : source.toList = before ++ c :: behind) (literal : String) :
    (corrected source before.length literal).toList =
      before ++ ' ' :: (literal.toList ++ ' ' :: behind) := by
  rw [corrected, String.toList_ofList, text, List.take_left, ← List.drop_drop, List.drop_left]
  rfl

private theorem toList_ne_of_free {table : SymbolTable} {c : Char} {literal : String} {kind : Kind}
    (free : table.single c = none) (bound : kindOf? table literal = some kind) : literal.toList ≠ [c] := by
  intro same
  rw [kindOf?, same] at bound
  exact absurd (free.symm.trans bound) (by simp)

/-- Under every table that can be made, the fault of an invalid token is explained with a hint exactly if
the character has a kind among the built-in spellings, signs and words and the table has a spelling of that
kind. The hint is not the character itself, and once it stands in its place the source is read with a token
of that kind there and with tokens of the same kinds and literals elsewhere. -/
theorem tokenize_corrected {table : SymbolTable} (obtained : Obtainable table) (source : String)
    {earlier later : List Token} {token : Token} (tokens : table.tokenize source = earlier ++ token :: later)
    (invalid : token.kind = .invalid) :
    ∃ c, source.toList[token.span.start]? = some c ∧ token.literal.toList = [c] ∧
      token.checked = .error (.invalidCharacter c token.span) ∧
      let fault := Diagnostic.invalidCharacter c token.span
      ((∃ literal, fault.explain table = fault.message ++ hintText literal) ↔
        ∃ kind literal, wellKnown.single c = some kind ∧ (literal, kind) ∈ table.entries) ∧
      ((∀ literal, fault.explain table ≠ fault.message ++ hintText literal) →
        fault.explain table = fault.message) ∧
      ∀ literal, fault.explain table = fault.message ++ hintText literal →
        literal.toList ≠ [c] ∧ ∃ kind, wellKnown.single c = some kind ∧
          (table.tokenize (corrected source token.span.start literal)).map content =
            earlier.map content ++ (kind, literal) :: later.map content := by
  have sound := obtained.sound
  obtain ⟨whole, _⟩ := tokenize_tiles sound source
  have inner : token ≠ .atEnd (.point (Position.origin.after source.toList)) := by
    rintro rfl
    cases invalid
  obtain ⟨others, found, rfl⟩ := exists_later (whole.symm.trans tokens) inner
  obtain ⟨before, c, behind, text, literal, start, visible, free, replaced⟩ :=
    exists_correction sound (.ofSource source) found invalid
  replace text : source.toList = before ++ c :: behind := text
  replace start : token.span.start = before.length := start.trans (Nat.zero_add _)
  refine ⟨c, ?_, literal, ?_, ?_⟩
  · rw [start, text, LexemeLaw.getElem?_front]
  · rw [Token.checked, if_pos invalid, literal]
    rfl
  intro fault
  simp only [fault, explain_eq_iff, ne_eq]
  refine ⟨exists_hint_iff, ?_, ?_⟩
  · intro absent
    rw [explain_eq, Option.eq_none_iff_forall_ne_some.mpr absent, Option.elim_none]
  · intro spelling hint
    obtain ⟨kind, known, spelled⟩ := Option.bind_eq_some_iff.mp hint
    have bound := (mem_entries_iff sound).mp (mem_entries_of_literalOf? spelled)
    refine ⟨toList_ne_of_free free bound, kind, known, ?_⟩
    have moved := toList_corrected text spelling
    rw [start, (tokenize_tiles sound _).1, innerTokens_eq, innerOf, moved, List.map_append,
      replaced spelling kind bound, List.map_append]
    simp [content, Token.atEnd]

theorem tokenize_corrected_marker :
    let table := attempt ⟨[], [], ('（', '/')⟩ "（" .openParen
    let token : Token := ⟨.invalid, "(", ⟨1, 2, 1, 2⟩⟩
    let later : List Token :=
      [⟨.invalid, "/", ⟨2, 3, 1, 3⟩⟩, ⟨.identifier, "b", ⟨3, 4, 1, 4⟩⟩, ⟨.endOfInput, "", ⟨4, 4, 1, 5⟩⟩]
    let fault := Diagnostic.invalidCharacter '(' token.span
    Obtainable table ∧ table.tokenize "a(/b" = ⟨.identifier, "a", ⟨0, 1, 1, 1⟩⟩ :: token :: later ∧
      token.kind = .invalid ∧ fault.explain table = fault.message ++ hintText "（" ∧
      corrected "a(/b" 1 "（" = "a （ /b" ∧
      (table.tokenize "a （ /b").map content =
        (.identifier, "a") :: (.openParen, "（") :: later.map content := by
  intro table token later fault
  have made : SymbolTable.empty "（/" = .ok ⟨[], [], ('（', '/')⟩ := by decide
  have obtained : Obtainable table := .insert _ _ (.empty made)
  have tokens : table.tokenize "a(/b" = [⟨.identifier, "a", ⟨0, 1, 1, 1⟩⟩] ++ token :: later := by
    decide +kernel
  have hinted : fault.explain table = fault.message ++ hintText "（" := by decide +kernel
  have moved : corrected "a(/b" 1 "（" = "a （ /b" := by decide +kernel
  obtain ⟨c, _, literal, _, _, _, sound⟩ := tokenize_corrected obtained "a(/b" tokens rfl
  obtain rfl : '(' = c := by simpa [token] using literal
  obtain ⟨_, kind, known, read⟩ := sound "（" hinted
  have meant : wellKnown.single '(' = some .openParen := by decide +kernel
  obtain rfl : Kind.openParen = kind := Option.some.inj (meant.symm.trans known)
  exact ⟨obtained, tokens, rfl, hinted, moved, moved ▸ read⟩

end CantoScan.Proofs.Corrections
