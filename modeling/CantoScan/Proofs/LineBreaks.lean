import CantoScan.Proofs.Restart

/-! A line feed parts a source. No lexeme reaches over it, not even by looking at what comes next, so
the text before it and the text behind it are scanned by themselves; only the places in the second text
are moved. -/

namespace CantoScan.Proofs.LineBreaks
open TableRules LexemeReach ScanReading Tiling TokenStream Restart

/-- The place that lies further on by some characters and some lines. -/
def shiftPosition (characters lines : Nat) (position : Position) : Position :=
  ⟨position.offset + characters, position.line + lines, position.column⟩

def shiftSpan (characters lines : Nat) (span : Span) : Span :=
  ⟨span.start + characters, span.stop + characters, span.line + lines, span.column⟩

def shift (characters lines : Nat) (token : Token) : Token :=
  { token with span := shiftSpan characters lines token.span }

section Shift
variable (characters lines : Nat)

private theorem shiftPosition_eq : shiftPosition characters lines = movePosition ⟨characters, lines, 0⟩ := by
  funext position
  simp [shiftPosition, movePosition]

private theorem shift_eq : shift characters lines = moveToken ⟨characters, lines, 0⟩ := by
  funext token
  simp [shift, shiftSpan, moveToken, moveSpan]

theorem after_shiftPosition (text : List Char) :
    (shiftPosition characters lines .origin).after text =
      shiftPosition characters lines (Position.origin.after text) := by
  rw [shiftPosition_eq, after_movePosition _ (Nat.le_refl 1)]

private theorem innerFrom_shiftPosition (table : SymbolTable) (text : List Char) :
    innerFrom table ⟨shiftPosition characters lines .origin, text⟩ =
      (innerOf table text).map (shift characters lines) := by
  have moved := tokensFrom_move ⟨characters, lines, 0⟩ table ⟨.origin, text⟩ (Nat.le_refl 1)
  rw [moveUnread, ← shiftPosition_eq, ← shift_eq] at moved
  rw [innerFrom, moved, List.filter_map, innerOf, innerFrom]
  rfl

end Shift

theorem after_lineFeed (text : List Char) :
    (Position.origin.after text).advance '\n' =
      shiftPosition (text.length + 1) (1 + text.count '\n') .origin := by
  rw [Position.advance, if_pos rfl, Position.after_offset, Position.after_line, shiftPosition]
  simp [Position.origin, Nat.add_comm, Nat.add_left_comm]

variable {table : SymbolTable}

/-- A scan goes through the text before a line feed as if nothing came behind it. -/
theorem innerFrom_append_lineFeed (sound : Sound table) (unread : Unread) (behind : List Char) :
    innerFrom table ⟨unread.position, unread.text ++ '\n' :: behind⟩ =
      innerFrom table unread ++
        innerFrom table ⟨(unread.position.after unread.text).advance '\n', behind⟩ := by
  induction unread using scan_induction table with
  | blank unread done =>
    have blank : ∀ c ∈ ['\n'], Text.isBlank c = true := by simp [Text.isBlank]
    rw [innerFrom_append_of_blank _ done, innerFrom_of_blank done, List.nil_append]
    exact innerFrom_append_blank _ blank table behind
  | lexeme unread c rest front ih =>
    have follows := follows_append (table.lexeme c rest) rfl (fun _ => rfl) behind
    rw [innerFrom_append_of_lexeme _ sound front follows, innerFrom_of_lexeme sound front,
      List.cons_append, ← after_tokenAt table front]
    exact congrArg _ ih

theorem innerOf_append_lineFeed (sound : Sound table) (first second : List Char) :
    innerOf table (first ++ '\n' :: second) =
      innerOf table first ++
        (innerOf table second).map (shift (first.length + 1) (1 + first.count '\n')) := by
  have joint := innerFrom_append_lineFeed sound ⟨.origin, first⟩ second
  rw [after_lineFeed] at joint
  rw [← innerFrom_shiftPosition, innerOf, innerOf, joint]

private theorem toList_append_lineFeed (first second : String) :
    (first ++ "\n" ++ second).toList = first.toList ++ '\n' :: second.toList := by
  simp

private theorem innerTokens_append_lineFeed (sound : Sound table) (first second : String) :
    innerTokens table (first ++ "\n" ++ second) =
      innerTokens table first ++
        (innerTokens table second).map (shift (first.length + 1) (1 + first.toList.count '\n')) := by
  rw [innerTokens_eq, toList_append_lineFeed, innerOf_append_lineFeed sound, String.length_toList]
  rfl

private theorem atEnd_shift (characters lines : Nat) (position : Position) :
    Token.atEnd (.point (shiftPosition characters lines position)) =
      shift characters lines (.atEnd (.point position)) :=
  rfl

/-- Under every table that can be made, the tokens of two texts with a line feed between them are those
of the first and then those of the second, moved behind it. -/
theorem tokenize_append_lineFeed {table : SymbolTable} (obtained : Obtainable table)
    (first second : String) :
    table.tokenize (first ++ "\n" ++ second) =
      (table.tokenize first).filter (!·.isEnd) ++
        (table.tokenize second).map (shift (first.length + 1) (1 + first.toList.count '\n')) := by
  have sound := obtained.sound
  obtain ⟨whole, _⟩ := tokenize_tiles sound (first ++ "\n" ++ second)
  obtain ⟨tokens, _⟩ := tokenize_tiles sound second
  have final : Position.origin.after (first ++ "\n" ++ second).toList =
      shiftPosition (first.length + 1) (1 + first.toList.count '\n')
        (Position.origin.after second.toList) := by
    rw [toList_append_lineFeed, Position.after_append, Position.after_cons, after_lineFeed,
      after_shiftPosition, String.length_toList]
  rw [whole, tokens, innerTokens_append_lineFeed sound, final, atEnd_shift, List.map_append,
    List.append_assoc]
  rfl

theorem tokenize_append_lineFeed_comment :
    let first := "大過 1\n2 //大\r"
    let second := "過/\n3"
    let tokens := SymbolTable.cantonese.tokenize (first ++ "\n" ++ second)
    Obtainable .cantonese ∧
      tokens = (SymbolTable.cantonese.tokenize first).filter (!·.isEnd) ++
        (SymbolTable.cantonese.tokenize second).map
          (shift (first.length + 1) (1 + first.toList.count '\n')) ∧
      tokens = [⟨.greaterThan, "大過", ⟨0, 2, 1, 1⟩⟩, ⟨.number, "1", ⟨3, 4, 1, 4⟩⟩,
        ⟨.number, "2", ⟨5, 6, 2, 1⟩⟩, ⟨.comment, "//大\r", ⟨7, 11, 2, 3⟩⟩, ⟨.identifier, "過", ⟨12, 13, 3, 1⟩⟩,
        ⟨.divide, "/", ⟨13, 14, 3, 2⟩⟩, ⟨.number, "3", ⟨15, 16, 4, 1⟩⟩, .atEnd ⟨16, 16, 4, 2⟩] := by
  intro first second tokens
  exact ⟨.cantonese, tokenize_append_lineFeed .cantonese first second, by decide +kernel⟩

end CantoScan.Proofs.LineBreaks
